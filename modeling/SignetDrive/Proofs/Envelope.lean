import SignetDrive.Model.Envelope

namespace SignetDrive.Proofs
open Client

variable {c : EnvelopeCrypto} {dek : Dek} {fileId : FileId} {i n : U32} {plaintext envelope : Bytes}

lemma fromBeBytes_append (xs ys : Bytes) :
    fromBeBytes (xs ++ ys) = fromBeBytes xs * 256 ^ ys.length + fromBeBytes ys := by
  induction ys using List.reverseRecOn with
  | nil => simp [fromBeBytes]
  | append_singleton ys y ih =>
    unfold fromBeBytes at ih ⊢
    rw [← List.append_assoc, List.foldl_append, ih, List.foldl_append, List.length_append]
    simp only [List.foldl_cons, List.foldl_nil, List.length_cons, List.length_nil]
    ring

lemma fromBeBytes_toBeBytes (width n : ℕ) : fromBeBytes (toBeBytes width n) = n % 256 ^ width := by
  induction width with
  | zero => simp [toBeBytes, fromBeBytes, Nat.mod_one]
  | succ width ih =>
    have hcons := fromBeBytes_append [UInt8.ofNat (n / 256 ^ width)] (toBeBytes width n)
    rw [List.singleton_append, ← toBeBytes_succ, ih, length_toBeBytes] at hcons
    have hdigit : fromBeBytes [UInt8.ofNat (n / 256 ^ width)] = n / 256 ^ width % 256 := by simp [fromBeBytes]
    rw [hcons, hdigit, Nat.mod_pow_succ]
    ring

lemma isLastChunk_ok {isLast : Bool} :
    isLastChunk i n = .ok isLast ↔ i < n ∧ isLast = decide (i.val + 1 = n.val) := by
  simp only [isLastChunk, ge_iff_le, Fin.le_def, Fin.lt_def]
  split
  case isTrue h =>
    have hnot : ¬ i.val < n.val := by omega
    simp [hnot]
  case isFalse h =>
    have hlt : i.val < n.val := by omega
    have hiff : i.val = n.val - 1 ↔ i.val + 1 = n.val := by omega
    simp [hlt, hiff, eq_comm]

lemma multipartAad_inj {j : U32} {b b' : Bool} (h : multipartAad fileId i b = multipartAad fileId j b') :
    i = j ∧ b = b' := by
  unfold multipartAad at h
  obtain ⟨h, hlast⟩ := List.append_inj h (by simp [length_toBeBytes])
  obtain ⟨-, hindex⟩ := List.append_inj h rfl
  have hindex := toBeBytes_inj hindex
  refine ⟨Fin.ext (by omega), ?_⟩
  cases b <;> cases b' <;> simp_all

lemma sealChunk_ok :
    sealChunk c dek fileId i n plaintext = .ok envelope ↔
      i < n ∧ ∃ iv, multipartIv c dek i = .ok iv ∧
        ∃ sealed, c.encrypt dek iv plaintext (multipartAad fileId i (i.val + 1 = n.val)) = some sealed ∧
          [FILE_MAGIC_MULTIPART, FILE_ALG_A256GCM] ++ toBeBytes 4 i.val ++ iv.toList ++ sealed = envelope := by
  simp only [sealChunk, aeadSeal, except_bind_ok, isLastChunk_ok, okOr_ok, except_pure_ok]
  constructor
  · rintro ⟨_, ⟨hlt, rfl⟩, h⟩
    exact ⟨hlt, h⟩
  · rintro ⟨hlt, h⟩
    exact ⟨_, ⟨hlt, rfl⟩, h⟩

lemma openChunk_ok :
    openChunk c dek fileId i n envelope = .ok plaintext ↔
      i < n ∧ MULTIPART_MIN_ENVELOPE_LEN ≤ envelope.length ∧ envelope[0]? = some FILE_MAGIC_MULTIPART ∧
        envelope[1]? = some FILE_ALG_A256GCM ∧ fromBeBytes (envelope.extract 2 6) = i.val ∧
        c.decrypt dek (envelopeIv envelope) (envelope.drop MULTIPART_HEADER_LEN)
          (multipartAad fileId i (i.val + 1 = n.val)) = some plaintext := by
  simp only [openChunk, aeadOpen, except_bind_ok, isLastChunk_ok, ensure_ok, okOr_ok, not_lt]
  constructor
  · rintro ⟨_, ⟨hlt, rfl⟩, _, hlen, _, hmagic, _, halg, _, hindex, hopen⟩
    exact ⟨hlt, hlen, hmagic, halg, hindex, hopen⟩
  · rintro ⟨hlt, hlen, hmagic, halg, hindex, hopen⟩
    exact ⟨_, ⟨hlt, rfl⟩, (), hlen, (), hmagic, (), halg, (), hindex, hopen⟩

lemma length_sealChunk (h : sealChunk c dek fileId i n plaintext = .ok envelope) :
    envelope.length = plaintext.length + MULTIPART_CHUNK_OVERHEAD := by
  obtain ⟨-, iv, -, sealed, hsealed, rfl⟩ := sealChunk_ok.mp h
  have hlen := c.length_encrypt _ _ _ _ _ hsealed
  simp only [List.length_append, List.length_cons, List.length_nil, length_toBeBytes, List.Vector.toList_length,
    hlen, MULTIPART_CHUNK_OVERHEAD]
  omega

lemma envelopeIv_append (iv : Iv) {index sealed : Bytes} (hindex : index.length = 4) :
    envelopeIv ([FILE_MAGIC_MULTIPART, FILE_ALG_A256GCM] ++ index ++ iv.toList ++ sealed) = iv := by
  ext k
  have hlen : k.val < iv.toList.length := by simp
  rw [envelopeIv, List.Vector.get_ofFn, List.getD_eq_getElem?_getD, List.append_assoc,
    List.getElem?_append_right (by simp [hindex]), List.getElem?_append_left (by simp [hindex])]
  simp [hindex, List.Vector.get_eq_get_toList]

lemma openChunk_sealChunk (h : sealChunk c dek fileId i n plaintext = .ok envelope) :
    openChunk c dek fileId i n envelope = .ok plaintext := by
  have hlen := length_sealChunk h
  obtain ⟨hlt, iv, -, sealed, hsealed, rfl⟩ := sealChunk_ok.mp h
  have hbytes : (toBeBytes 4 i.val).length = 4 := length_toBeBytes 4 i.val
  rw [openChunk_ok]
  refine ⟨hlt, ?_, rfl, rfl, ?_, ?_⟩
  · rw [hlen, MULTIPART_MIN_ENVELOPE_LEN, MULTIPART_CHUNK_OVERHEAD]
    omega
  · have hindex : List.extract
        ([FILE_MAGIC_MULTIPART, FILE_ALG_A256GCM] ++ toBeBytes 4 i.val ++ iv.toList ++ sealed) 2 6 =
        toBeBytes 4 i.val := by
      simp [List.extract, hbytes]
    rw [hindex, fromBeBytes_toBeBytes]
    omega
  · rw [envelopeIv_append iv hbytes, List.drop_left' (by simp [hbytes, MULTIPART_HEADER_LEN])]
    exact c.decrypt_encrypt _ _ _ _ _ hsealed

/-- The seals of the chunks of one file. -/
def chunkSeals (c : EnvelopeCrypto) (dek : Dek) (fileId : FileId) (n : U32) (parts : U32 → Bytes) :
    Set (Aead.Call Iv Bytes Bytes) :=
  {call | ∃ i < n, multipartIv c dek i = .ok call.nonce ∧
    call.aad = multipartAad fileId i (i.val + 1 = n.val) ∧ call.message = parts i}

/-- The envelope opens as chunk `i`, the last or not, only if one of the calls made it so. -/
def EnvelopeUnforged (c : EnvelopeCrypto) (dek : Dek) (fileId : FileId) (made : Set (Aead.Call Iv Bytes Bytes))
    (i : U32) (envelope : Bytes) : Prop :=
  ∀ isLast, c.Unforged dek made (envelopeIv envelope) (envelope.drop MULTIPART_HEADER_LEN)
    (multipartAad fileId i isLast)

variable {m : U32} {parts : U32 → Bytes}

/-- What opens as a chunk of a file is that chunk, and is the last of the file's own chunks
exactly if it was opened as the last. -/
lemma openChunk_unforged (h : EnvelopeUnforged c dek fileId (chunkSeals c dek fileId n parts) i envelope)
    (hopen : openChunk c dek fileId i m envelope = .ok plaintext) :
    i < n ∧ (i.val + 1 = m.val ↔ i.val + 1 = n.val) ∧ plaintext = parts i := by
  obtain ⟨-, -, -, -, -, hdecrypt⟩ := openChunk_ok.mp hopen
  obtain ⟨j, hj, -, haad, hmessage⟩ := (h _).mem hdecrypt
  obtain ⟨rfl, hlast⟩ := multipartAad_inj haad
  exact ⟨hj, decide_eq_decide.mp hlast, hmessage⟩

lemma openChunk_all {opened presented : U32 → Bytes} (hm : 0 < m)
    (hunforged : ∀ i < m, EnvelopeUnforged c dek fileId (chunkSeals c dek fileId n parts) i (presented i))
    (hopen : ∀ i < m, openChunk c dek fileId i m (presented i) = .ok (opened i)) :
    m = n ∧ ∀ i < n, opened i = parts i := by
  have hchunk : ∀ i < m, i < n ∧ (i.val + 1 = m.val ↔ i.val + 1 = n.val) ∧ opened i = parts i :=
    fun i hi => openChunk_unforged (hunforged i hi) (hopen i hi)
  have hcount : m.val = n.val := by
    apply Aead.count_eq_of_last hm
    intro i hi
    obtain ⟨hlt, hlast, -⟩ := hchunk ⟨i, hi.trans m.isLt⟩ hi
    exact ⟨hlt, hlast⟩
  have hcount : m = n := Fin.ext hcount
  refine ⟨hcount, ?_⟩
  intro i hi
  exact (hchunk i (hcount ▸ hi)).2.2

lemma unforged_of_sealChunk (hsealed : sealChunk c dek fileId i n (parts i) = .ok envelope)
    (hother : ∀ j b, c.decrypt dek (envelopeIv envelope) (envelope.drop MULTIPART_HEADER_LEN)
      (multipartAad fileId j b) ≠ none →
      j = i ∧ b = decide (i.val + 1 = n.val)) (j : U32) :
    EnvelopeUnforged c dek fileId (chunkSeals c dek fileId n parts) j envelope := by
  intro isLast message hopen
  obtain ⟨rfl, rfl⟩ := hother j isLast (by simp [hopen])
  obtain ⟨hlt, iv, hiv, sealed, hencrypt, rfl⟩ := sealChunk_ok.mp hsealed
  have hbytes : (toBeBytes 4 j.val).length = 4 := length_toBeBytes 4 j.val
  rw [envelopeIv_append iv hbytes, List.drop_left' (by simp [hbytes, MULTIPART_HEADER_LEN])]
  exact ⟨⟨iv, _, parts j⟩, ⟨j, hlt, hiv, rfl, rfl⟩, rfl, rfl, hencrypt⟩

def sampleTag (aad : Bytes) : List.Vector UInt8 16 :=
  ⟨(aad.reverse ++ .replicate 16 0).take 16, by simp⟩

def sampleCrypto : EnvelopeCrypto where
  encrypt _ _ plaintext aad := some (plaintext ++ (sampleTag aad).toList)
  decrypt _ _ sealed aad :=
    if sealed.drop (sealed.length - 16) = (sampleTag aad).toList then some (sealed.take (sealed.length - 16))
    else none
  decrypt_encrypt := by
    intro key nonce plaintext aad sealed h
    rw [Option.some.injEq] at h
    simp [← h]
  length_encrypt := by
    intro key nonce plaintext aad sealed h
    rw [Option.some.injEq] at h
    simp [← h]
  hkdfSha256 _ _ info outLen := .ok ((info.reverse ++ .replicate outLen 0).take outLen)

lemma sampleTag_inj {j : U32} {b b' : Bool}
    (h : sampleTag (multipartAad fileId i b) = sampleTag (multipartAad fileId j b')) : i = j ∧ b = b' := by
  have hends : ∀ (k : U32) (d : Bool), (sampleTag (multipartAad fileId k d)).toList.take 5 =
      (if d then 1 else 0) :: (toBeBytes 4 k.val).reverse := by
    intro k d
    simp [sampleTag, multipartAad, List.Vector.toList, length_toBeBytes, List.take_append]
  have hlist := congrArg (fun tag => tag.toList.take 5) h
  simp only [hends, List.cons.injEq, List.reverse_inj] at hlist
  have hindex := toBeBytes_inj hlist.2
  refine ⟨Fin.ext (by omega), ?_⟩
  cases b <;> cases b' <;> simp_all

lemma sampleCrypto_unforged (parts : U32 → Bytes)
    (hsealed : sealChunk sampleCrypto dek fileId i n (parts i) = .ok envelope) (j : U32) :
    EnvelopeUnforged sampleCrypto dek fileId (chunkSeals sampleCrypto dek fileId n parts) j envelope := by
  apply unforged_of_sealChunk hsealed
  intro j b hsome
  obtain ⟨-, iv, -, sealed, hencrypt, rfl⟩ := sealChunk_ok.mp hsealed
  rw [List.drop_left' (by simp [length_toBeBytes, MULTIPART_HEADER_LEN])] at hsome
  have hsealed : parts i ++ (sampleTag (multipartAad fileId i (i.val + 1 = n.val))).toList = sealed :=
    Option.some.inj hencrypt
  rw [← hsealed] at hsome
  by_contra hne
  apply hsome
  apply if_neg
  rw [List.length_append, List.Vector.toList_length, Nat.add_sub_cancel, List.drop_left]
  intro htag
  obtain ⟨rfl, rfl⟩ := sampleTag_inj (List.Vector.eq _ _ htag)
  exact hne ⟨rfl, rfl⟩

def sampleEnvelope (dek : Dek) (fileId : FileId) (n i : U32) (part : Bytes) : Bytes :=
  (sealChunk sampleCrypto dek fileId i n part).toOption.getD []

lemma sampleCrypto_sealChunk (dek : Dek) (fileId : FileId) (plaintext : Bytes) (hi : i < n) :
    sealChunk sampleCrypto dek fileId i n plaintext = .ok (sampleEnvelope dek fileId n i plaintext) := by
  have hiv : ∃ iv, multipartIv sampleCrypto dek i = .ok iv := by
    simp only [multipartIv, except_bind_ok]
    have hlen : (((MULTIPART_IV_LABEL ++ toBeBytes 4 i.val).reverse ++ .replicate 12 0).take
        12).length = 12 := by
      simp only [List.length_take, List.length_append, List.length_replicate]
      omega
    exact ⟨⟨_, hlen⟩, _, rfl, dif_pos hlen⟩
  obtain ⟨iv, hiv⟩ := hiv
  have hsealed : ∃ envelope, sealChunk sampleCrypto dek fileId i n plaintext = .ok envelope := by
    simp only [sealChunk_ok]
    exact ⟨_, hi, iv, hiv, _, rfl, rfl⟩
  obtain ⟨envelope, hsealed⟩ := hsealed
  rw [sampleEnvelope, hsealed]
  rfl

/-- Whatever opens as all chunks of a file, under any count, is the file's own parts in order,
and what was sealed does open. The envelopes that are presented are arbitrary but not forged;
the IVs may collide. -/
theorem chunks_authenticated (c : EnvelopeCrypto) (dek : Dek) (fileId : FileId) (n : U32)
    (parts envelopes : U32 → Bytes)
    (hsealed : ∀ i < n, sealChunk c dek fileId i n (parts i) = .ok (envelopes i)) :
    (∀ (m : U32) (presented opened : U32 → Bytes), 0 < m →
      (∀ i < m, EnvelopeUnforged c dek fileId (chunkSeals c dek fileId n parts) i (presented i)) →
      (∀ i < m, openChunk c dek fileId i m (presented i) = .ok (opened i)) →
      m = n ∧ ∀ i < n, opened i = parts i) ∧
    ∀ i < n, openChunk c dek fileId i n (envelopes i) = .ok (parts i) := by
  constructor
  · intro m presented opened hm hunforged hopen
    exact openChunk_all hm hunforged hopen
  · intro i hi
    exact openChunk_sealChunk (hsealed i hi)

theorem chunks_authenticated_two_chunks :
    let dek : Dek := .replicate 32 3
    let fileId : FileId := .replicate 16 4
    let parts : U32 → Bytes := fun i => if i = 0 then [1, 2, 3] else [4]
    let envelopes : U32 → Bytes := fun i => sampleEnvelope dek fileId 2 i (parts i)
    (∀ i < 2, EnvelopeUnforged sampleCrypto dek fileId (chunkSeals sampleCrypto dek fileId 2 parts) i
      (envelopes i)) ∧ (∀ i < 2, openChunk sampleCrypto dek fileId i 2 (envelopes i) = .ok (parts i)) ∧
      ∀ opened : U32 → Bytes, (∀ i < 2, openChunk sampleCrypto dek fileId i 2 (envelopes i) = .ok (opened i)) →
        ∀ i < 2, opened i = parts i := by
  intro dek fileId parts envelopes
  have hsealed : ∀ i < 2, sealChunk sampleCrypto dek fileId i 2 (parts i) = .ok (envelopes i) :=
    fun i hi => sampleCrypto_sealChunk dek fileId (parts i) hi
  obtain ⟨hall, hopens⟩ := chunks_authenticated sampleCrypto dek fileId 2 parts envelopes hsealed
  have hunforged := fun i hi => sampleCrypto_unforged parts (hsealed i hi) i
  exact ⟨hunforged, hopens, fun opened hopen => (hall 2 envelopes opened (by decide) hunforged hopen).2⟩

end SignetDrive.Proofs
