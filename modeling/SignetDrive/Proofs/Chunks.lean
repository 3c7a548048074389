import SignetDrive.Model.Chunks

/-!
# One cut, computed three ways
-/

namespace SignetDrive.Proofs
open Client PositionedWrite

variable {profile : Profile} {fileSize chunkSize : U64} {n : I32} {declared : I64}

lemma exists_mapM {α β : Type} {f : α → Option β} {P : α → β → Prop} {xs : List α}
    (h : ∀ x ∈ xs, ∃ y, f x = some y ∧ P x y) : ∃ ys, xs.mapM f = some ys ∧ List.Forall₂ P xs ys := by
  induction xs with
  | nil => exact ⟨[], rfl, .nil⟩
  | cons x xs ih =>
    obtain ⟨y, hy, hP⟩ := h x List.mem_cons_self
    obtain ⟨ys, hys, hall⟩ := ih fun z hz => h z (List.mem_cons_of_mem x hz)
    refine ⟨y :: ys, ?_, .cons hP hall⟩
    rw [List.mapM_cons, hy, hys]
    rfl

/-- The chunks of a file; an empty one has one. -/
def chunkCount (fileSize chunkSize : ℕ) : ℕ :=
  if fileSize = 0 then 1 else (fileSize + chunkSize - 1) / chunkSize

lemma chunkCount_pos {s c : ℕ} (hc : 0 < c) : 0 < chunkCount s c := by
  unfold chunkCount
  split
  · exact Nat.one_pos
  · exact Nat.div_pos (by omega) hc

lemma chunkCount_bounds {s c : ℕ} (hc : 0 < c) :
    (chunkCount s c - 1) * c ≤ s ∧ s ≤ chunkCount s c * c := by
  unfold chunkCount
  split
  case isTrue h => simp [h]
  case isFalse h =>
    have hdiv := Nat.div_add_mod (s + c - 1) c
    have hmod := Nat.mod_lt (s + c - 1) hc
    rw [Nat.sub_mul, Nat.mul_comm ((s + c - 1) / c)]
    omega

lemma chunkCount_pred_mul_lt {s c : ℕ} (hc : 0 < c) (hs : 0 < s) : (chunkCount s c - 1) * c < s := by
  rw [chunkCount, if_neg (by omega)]
  have hdiv := Nat.div_add_mod (s + c - 1) c
  have hmod := Nat.mod_lt (s + c - 1) hc
  rw [Nat.sub_mul, Nat.mul_comm ((s + c - 1) / c)]
  omega

lemma div_lt_chunkCount {s c k : ℕ} (hc : 0 < c) (hk : k < s) : k / c < chunkCount s c := by
  have hbounds := (chunkCount_bounds (s := s) hc).2
  rw [Nat.div_lt_iff_lt_mul hc]
  omega

lemma asI64_of_lt (x : U64) (h : x.val < 2 ^ 63) : x.asI64.1 = x.val := if_pos h

lemma asI32_of_lt (x : U64) (h : x.val < 2 ^ 31) : x.asI32.1 = x.val := by
  unfold U64.asI32
  simp only
  rw [Nat.mod_eq_of_lt (by omega), if_pos h]

lemma plannedChunks_eq (fileSize : U64) (hchunk : 0 < chunkSize.val) :
    ∃ count : U64, plannedChunks fileSize chunkSize = some count ∧
      count.val = chunkCount fileSize.val chunkSize.val := by
  unfold plannedChunks chunkCount
  split
  · exact ⟨1, rfl, rfl⟩
  · exact ⟨_, dif_neg hchunk.ne', rfl⟩

lemma chunkPlan_ok (hsize : fileSize.val < 2 ^ 62) (hchunk : 0 < chunkSize.val) :
    chunkPlan profile fileSize chunkSize = some (.ok (n, declared)) ↔
      chunkCount fileSize.val chunkSize.val ≤ MAX_PARTS ∧ n.1 = chunkCount fileSize.val chunkSize.val ∧
        declared.1 = fileSize.val + chunkCount fileSize.val chunkSize.val * MULTIPART_CHUNK_OVERHEAD := by
  obtain ⟨count, hcount, hval⟩ := plannedChunks_eq fileSize hchunk
  rw [chunkPlan, hcount, Option.bind_eq_bind, Option.bind_some, ← hval]
  split
  case isTrue hmany => simp [hmany]
  case isFalse hfew =>
    have hle : count.val ≤ 10000 := by rw [MAX_PARTS] at hfew; omega
    obtain ⟨overhead, hoverhead, hoverheadVal⟩ :=
      profile.exists_i64 (count.asI64.1 * (MULTIPART_CHUNK_OVERHEAD : ℕ))
        (by rw [asI64_of_lt count (by omega), MULTIPART_CHUNK_OVERHEAD]; omega)
    rw [asI64_of_lt count (by omega)] at hoverheadVal
    obtain ⟨size, hsum, hsizeVal⟩ := profile.exists_i64 (fileSize.asI64.1 + overhead.1)
      (by rw [asI64_of_lt fileSize (by omega), hoverheadVal, MULTIPART_CHUNK_OVERHEAD]; omega)
    rw [asI64_of_lt fileSize (by omega), hoverheadVal] at hsizeVal
    have hcount32 := asI32_of_lt count (by omega)
    simp only [hoverhead, hsum, Option.bind_eq_bind, Option.bind_some, Option.pure_def, Option.some.injEq,
      Except.ok.injEq, Prod.mk.injEq, Subtype.ext_iff, hcount32, hsizeVal]
    rw [eq_comm, eq_comm (b := declared.1), and_iff_right (not_lt.mp hfew)]

lemma ceil_ciphertext {s c m o : ℕ} (hc : 0 < c) (ho : 0 < o) (hm : m = chunkCount s c) :
    (s + m * o + (c + o) - 1) / (c + o) = m := by
  have hpos := chunkCount_pos (s := s) hc
  obtain ⟨hlow, hhigh⟩ := chunkCount_bounds (s := s) hc
  rw [← hm] at hpos hlow hhigh
  rw [Nat.sub_mul] at hlow
  apply Nat.div_eq_of_lt_le
  · rw [Nat.mul_add]
    omega
  · rw [Nat.succ_mul, Nat.mul_add]
    omega

lemma multipartPlaintextLen_of_plan (hchunk : 0 < chunkSize.val)
    (hbound : chunkSize.val + MULTIPART_CHUNK_OVERHEAD < 2 ^ 64) {ciphertextLen : U64}
    (hlen : ciphertextLen.val = fileSize.val + chunkCount fileSize.val chunkSize.val *
    MULTIPART_CHUNK_OVERHEAD) : multipartPlaintextLen profile ciphertextLen chunkSize =
    some (some fileSize) := by
  have hpos := chunkCount_pos (s := fileSize.val) hchunk
  have hover : 0 < MULTIPART_CHUNK_OVERHEAD := Nat.succ_pos 33
  have hceil := ceil_ciphertext (s := fileSize.val) hchunk hover rfl
  have hlt := ciphertextLen.isLt
  unfold multipartPlaintextLen
  generalize MULTIPART_CHUNK_OVERHEAD = o at *
  generalize chunkCount fileSize.val chunkSize.val = m at *
  have hle : o ≤ m * o := Nat.le_mul_of_pos_left o hpos
  have hcount : m ≤ m * o := Nat.le_mul_of_pos_right m hover
  obtain ⟨per, hper, hperVal⟩ := profile.exists_u64 hbound
  have hquotient : divCeil ciphertextLen per = some ⟨m, by omega⟩ := by
    rw [divCeil, dif_neg (by omega)]
    simp only [hlen, hperVal, hceil]
  obtain ⟨overhead, hoverhead, hoverheadVal⟩ := profile.exists_u64 (show m * o < 2 ^ 64 by omega)
  have hsub : ciphertextLen - overhead = fileSize := by
    apply Fin.ext
    rw [Fin.sub_val_of_le (by rw [Fin.le_def]; omega)]
    omega
  rw [if_neg (by omega)]
  simp only [option_bind_eq_some, option_pure_eq_some]
  refine ⟨per, hper, _, hquotient, overhead, ?_, ?_⟩
  · rw [max_eq_left (Nat.succ_le_of_lt hpos), hoverhead]
  · rw [if_pos (by omega), hsub]

variable {envelopes : List Bytes}

/-- Each envelope is as long as its chunk and the overhead. -/
def PlannedLengths (fileSize chunkSize : ℕ) (envelopes : List Bytes) : Prop :=
  ∀ i envelope, envelopes[i]? = some envelope →
    envelope.length = min chunkSize (fileSize - i * chunkSize) + MULTIPART_CHUNK_OVERHEAD

lemma length_flatten_take {s c : ℕ} (h : PlannedLengths s c envelopes) {k : ℕ} (hk : k ≤ envelopes.length) :
    (envelopes.take k).flatten.length = min (k * c) s + k * MULTIPART_CHUNK_OVERHEAD := by
  induction k with
  | zero => simp
  | succ k ih =>
    have hlt : k < envelopes.length := hk
    have hlen := h k envelopes[k] (List.getElem?_eq_getElem hlt)
    rw [List.take_succ_eq_append_getElem hlt, List.flatten_append, List.length_append, ih hlt.le,
      List.flatten_singleton, hlen, Nat.succ_mul, Nat.succ_mul]
    omega

lemma extract_flatten {i : ℕ} {envelope : Bytes} (h : envelopes[i]? = some envelope) :
    envelopes.flatten.extract (envelopes.take i).flatten.length (envelopes.take (i + 1)).flatten.length =
      envelope := by
  obtain ⟨hlt, rfl⟩ := List.getElem?_eq_some_iff.mp h
  have hsplit : envelopes.flatten =
      (envelopes.take i).flatten ++ (envelopes[i] ++ (envelopes.drop (i + 1)).flatten) := by
    rw [← List.flatten_cons, ← List.drop_eq_getElem_cons hlt, ← List.flatten_append, List.take_append_drop]
  rw [List.take_succ_eq_append_getElem hlt, List.flatten_append, List.flatten_singleton, List.length_append,
    hsplit, List.extract, List.drop_left, Nat.add_sub_cancel_left, List.take_left]

/-- The ranges cut the object that the envelopes make up into the envelopes: each starts where
the envelope before it ends. -/
def CutsInto (ranges : List (U64 × U64)) (envelopes : List Bytes) : Prop :=
  ranges.length = envelopes.length ∧ ∀ i start stop, ranges[i]? = some (start, stop) →
    start ≤ stop ∧ start.val = (envelopes.take i).flatten.length ∧
      stop.val + 1 = (envelopes.take (i + 1)).flatten.length ∧
      envelopes[i]? = some (envelopes.flatten.extract start.val (stop.val + 1))

lemma chunkRange_eq {chunks : U32} {onDisk : U64} (last : U64) {s c i : ℕ} (hc : 0 < c)
    (hchunks : chunks.val = chunkCount s c) (hdisk : onDisk.val = c + MULTIPART_CHUNK_OVERHEAD)
    (hlast : last.val + 1 = s + chunkCount s c * MULTIPART_CHUNK_OVERHEAD) (hi : i < chunkCount s c) :
    ∃ start stop, chunkRange profile chunks onDisk last i = some (start, stop) ∧ start ≤ stop ∧
      start.val = min (i * c) s + i * MULTIPART_CHUNK_OVERHEAD ∧
      stop.val + 1 = min ((i + 1) * c) s + (i + 1) * MULTIPART_CHUNK_OVERHEAD := by
  have hlt := last.isLt
  have hover : 0 < MULTIPART_CHUNK_OVERHEAD := Nat.succ_pos 33
  obtain ⟨hlow, hhigh⟩ := chunkCount_bounds (s := s) hc
  generalize MULTIPART_CHUNK_OVERHEAD = o at *
  generalize chunkCount s c = m at *
  have hone : (1 : U64).val = 1 := rfl
  -- the chunks before the last are full
  have hfull : ∀ j ≤ m - 1, j * c ≤ s ∧ j * o + o ≤ m * o := by
    intro j hj
    have hc' := Nat.mul_le_mul_right c hj
    have ho' := Nat.mul_le_mul_right o (show j + 1 ≤ m by omega)
    rw [Nat.succ_mul] at ho'
    omega
  obtain ⟨hstartLe, hstartOver⟩ := hfull i (by omega)
  have hstartVal : i * onDisk.val = i * c + i * o := by rw [hdisk, Nat.mul_add]
  obtain ⟨start, hstart, hstartEq⟩ := profile.exists_u64 (show i * onDisk.val < 2 ^ 64 by omega)
  simp only [chunkRange, option_bind_eq_some, min_eq_left hstartLe, Fin.le_def]
  by_cases hmore : i < m - 1
  · obtain ⟨hnextLe, hnextOver⟩ := hfull (i + 1) (by omega)
    rw [min_eq_left hnextLe]
    rw [Nat.succ_mul, Nat.succ_mul] at *
    obtain ⟨next, hnext, hnextEq⟩ := profile.exists_u64 (show start.val + onDisk.val < 2 ^ 64 by omega)
    obtain ⟨stop, hstop, hstopEq⟩ := profile.exists_u64Sub (show (1 : U64).val ≤ next.val by rw [hone]; omega)
    rw [hone] at hstopEq
    refine ⟨start, stop, ⟨start, hstart, ?_⟩, by omega, by omega, by omega⟩
    rw [if_pos (by omega)]
    simp only [option_bind_eq_some]
    exact ⟨next, hnext, stop, hstop, rfl⟩
  · have hlastIndex : i + 1 = m := by omega
    rw [hlastIndex, min_eq_right hhigh]
    refine ⟨start, last, ⟨start, hstart, ?_⟩, by omega, by omega, by omega⟩
    rw [if_neg (by omega)]
    rfl

lemma chunkRanges_cut {chunks : U32} {s : ℕ} {sizeBytes : U64} (hchunk : 0 < chunkSize.val)
    (hbound : chunkSize.val + MULTIPART_CHUNK_OVERHEAD < 2 ^ 64)
    (hchunks : chunks.val = chunkCount s chunkSize.val)
    (hsize : sizeBytes.val = s + chunkCount s chunkSize.val * MULTIPART_CHUNK_OVERHEAD)
    (hcount : envelopes.length = chunkCount s chunkSize.val)
    (hlength : PlannedLengths s chunkSize.val envelopes) :
    ∃ ranges, chunkRanges profile chunks chunkSize sizeBytes = some ranges ∧ CutsInto ranges envelopes := by
  obtain ⟨onDisk, hdisk, hdiskEq⟩ := profile.exists_u64 hbound
  have hsome : 0 < chunkCount s chunkSize.val * MULTIPART_CHUNK_OVERHEAD :=
    Nat.mul_pos (chunkCount_pos hchunk) (Nat.succ_pos 33)
  have hlast : sizeBytes.val - 1 + 1 = s + chunkCount s chunkSize.val * MULTIPART_CHUNK_OVERHEAD := by omega
  have hrange : ∀ i ∈ List.range chunks.val, ∃ r : U64 × U64,
      chunkRange profile chunks onDisk ⟨sizeBytes.val - 1, by omega⟩ i = some r ∧
        (r.1 ≤ r.2 ∧ r.1.val = (envelopes.take i).flatten.length ∧
          r.2.val + 1 = (envelopes.take (i + 1)).flatten.length) := by
    intro i hi
    rw [List.mem_range, hchunks] at hi
    obtain ⟨start, stop, hrange, hle, hstart, hstop⟩ :=
      chunkRange_eq ⟨sizeBytes.val - 1, by omega⟩ hchunk hchunks hdiskEq hlast hi
    refine ⟨(start, stop), hrange, hle, ?_, ?_⟩
    · rw [length_flatten_take hlength (by omega), hstart]
    · rw [length_flatten_take hlength (by omega), hstop]
  obtain ⟨ranges, hranges, hall⟩ := exists_mapM hrange
  obtain ⟨hlen, hget⟩ := List.forall₂_iff_get.mp hall
  rw [List.length_range, hchunks, ← hcount] at hlen
  refine ⟨ranges, ?_, hlen.symm, ?_⟩
  · simp only [chunkRanges, option_bind_eq_some]
    exact ⟨onDisk, hdisk, hranges⟩
  · intro i start stop hi
    obtain ⟨hlt, hi⟩ := List.getElem?_eq_some_iff.mp hi
    have hrange := hget i (by rw [List.length_range]; omega) hlt
    rw [List.get_eq_getElem, List.get_eq_getElem, hi, List.getElem_range] at hrange
    obtain ⟨hle, hstart, hstop⟩ := hrange
    have henvelope := List.getElem?_eq_getElem (show i < envelopes.length by omega)
    refine ⟨hle, hstart, hstop, ?_⟩
    rw [hstart, hstop, extract_flatten henvelope, henvelope]

/-- The chunks are written at their offsets, in the given order. -/
def writeChunks (profile : Profile) (chunkSize : U64) (plaintext : Bytes) (order : List ℕ) (file : Bytes) :
    Option Bytes :=
  order.foldlM (fun file i => do
    let offset ← chunkOffset profile chunkSize i
    return writeAt file offset.val (block chunkSize.val plaintext i)) file

lemma writeChunks_eq {plaintext file : Bytes} {order : List ℕ} (h : ∀ i ∈ order, i * chunkSize.val < 2 ^ 64) :
    writeChunks profile chunkSize plaintext order file =
    some (writeBlocks chunkSize.val plaintext order file) := by
  induction order generalizing file with
  | nil => rfl
  | cons i order ih =>
    obtain ⟨offset, hoffset, hval⟩ := profile.exists_u64 (h i List.mem_cons_self)
    simp only [writeChunks, List.foldlM_cons, option_bind_eq_some]
    refine ⟨_, ⟨offset, hoffset, rfl⟩, ?_⟩
    rw [hval]
    exact ih fun j hj => h j (List.mem_cons_of_mem i hj)

lemma asU64_of_nonneg {x : I64} {m : ℕ} (h : x.1 = m) : x.asU64.val = m := by
  have hlt := x.2.2
  unfold I64.asU64
  simp only
  omega

lemma asU32_of_nonneg {x : I32} {m : ℕ} (h : x.1 = m) : x.asU32.val = m := by
  have hlt := x.2.2
  unfold I32.asU32
  simp only
  omega

/-- Upload, download and size recovery agree on the cut of a file. For a planned file and
envelopes of the planned lengths: the declared size is the length of the object, the plaintext
length is read back exactly, the ranges of a download are the envelopes, and the opened chunks
written at their offsets, in any order, are the file. Neither build panics on the way, so
nothing overflows. -/
theorem framing_agrees (profile : Profile) (fileSize chunkSize : U64) (n : I32) (declared : I64)
    (hsize : fileSize.val < 2 ^ 62) (hchunk : 0 < chunkSize.val)
    (hbound : chunkSize.val + MULTIPART_CHUNK_OVERHEAD < 2 ^ 64)
    (hplan : chunkPlan profile fileSize chunkSize = some (.ok (n, declared))) (envelopes : List Bytes)
    (hcount : (envelopes.length : ℤ) = n.1) (hlength : PlannedLengths fileSize.val chunkSize.val envelopes) :
    declared.1 = envelopes.flatten.length ∧ ∀ build : Profile,
      chunkPlan build fileSize chunkSize = some (.ok (n, declared)) ∧
      multipartPlaintextLen build declared.asU64 chunkSize = some (some fileSize) ∧
      (∃ ranges, chunkRanges build n.asU32 chunkSize declared.asU64 = some ranges ∧ CutsInto ranges envelopes) ∧
      ∀ plaintext : Bytes, plaintext.length = fileSize.val →
        ∀ order : List ℕ, order.Perm (List.range envelopes.length) →
        writeChunks build chunkSize plaintext order [] = some plaintext := by
  obtain ⟨hfew, hn, hdeclared⟩ := (chunkPlan_ok hsize hchunk).mp hplan
  have hcount : envelopes.length = chunkCount fileSize.val chunkSize.val := by omega
  obtain ⟨hlow, hhigh⟩ := chunkCount_bounds (s := fileSize.val) hchunk
  have hdeclaredU64 := asU64_of_nonneg (x := declared) (by exact_mod_cast hdeclared)
  refine ⟨?_, fun build => ⟨?_, ?_, ?_, ?_⟩⟩
  · have htotal := length_flatten_take hlength le_rfl
    rw [List.take_length, hcount, min_eq_right hhigh] at htotal
    rw [htotal, hdeclared]
    push_cast
    rfl
  · exact (chunkPlan_ok hsize hchunk).mpr ⟨hfew, hn, hdeclared⟩
  · exact multipartPlaintextLen_of_plan hchunk hbound hdeclaredU64
  · exact chunkRanges_cut hchunk hbound (asU32_of_nonneg hn) hdeclaredU64 hcount hlength
  · intro plaintext hplaintext order horder
    have hmem : ∀ i, i ∈ order ↔ i < chunkCount fileSize.val chunkSize.val := by
      intro i
      rw [horder.mem_iff, List.mem_range, hcount]
    rw [writeChunks_eq, writeBlocks_eq hchunk]
    · intro k hk
      exact (hmem _).mpr (div_lt_chunkCount hchunk (by omega))
    · intro i hi
      have hlt := (hmem i).mp hi
      have hle := Nat.mul_le_mul_right chunkSize.val
        (show i ≤ chunkCount fileSize.val chunkSize.val - 1 by omega)
      omega

theorem framing_agrees_three_chunks :
    let envelopes : List Bytes := [.replicate 42 0, .replicate 42 0, .replicate 38 0]
    let n : I32 := 3
    let declared : I64 := 122
    chunkPlan .release 20 8 = some (.ok (n, declared)) ∧ declared.1 = envelopes.flatten.length ∧
      ∀ build : Profile, chunkPlan build 20 8 = some (.ok (n, declared)) ∧
      multipartPlaintextLen build declared.asU64 8 = some (some 20) ∧
      (∃ ranges, chunkRanges build n.asU32 8 declared.asU64 = some ranges ∧ CutsInto ranges envelopes) ∧
      ∀ plaintext : Bytes, plaintext.length = 20 → ∀ order : List ℕ, order.Perm (List.range 3) →
        writeChunks build 8 plaintext order [] = some plaintext := by
  intro envelopes n declared
  have hplan : chunkPlan .release 20 8 = some (.ok (n, declared)) := by
    rw [chunkPlan_ok (by decide) (by decide)]
    decide
  have hlength : PlannedLengths 20 8 envelopes := by
    intro i envelope hi
    match i with
    | 0 => cases hi; rfl
    | 1 => cases hi; rfl
    | 2 => cases hi; rfl
    | i + 3 => cases hi
  exact ⟨hplan, framing_agrees .release 20 8 n declared
    (by decide) (by decide) (by decide) hplan envelopes rfl hlength⟩

/-- A chunk size that leaves no room for the overhead is planned, but its object is not read
back: the development build panics, the release build wraps and finds no file. -/
theorem framing_overflow :
    let chunkSize : U64 := 18446744073709551615
    chunkPlan .release 5 chunkSize = some (.ok (1, 39)) ∧
      multipartPlaintextLen .dev 39 chunkSize = none ∧
      multipartPlaintextLen .release 39 chunkSize = some none := by
  refine ⟨?_, by decide, by decide⟩
  rw [chunkPlan_ok (by decide) (by decide)]
  decide

end SignetDrive.Proofs
