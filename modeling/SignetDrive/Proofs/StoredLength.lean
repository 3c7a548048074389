import SignetDrive.Proofs.Chunks

/-!
# Which stored lengths are read back

A length that ends within an envelope too short to hold a byte belongs to no file, but it is rounded
up in the same way.
-/

namespace SignetDrive.Proofs
open Client

def storedLen (p chunkSize : ℕ) : ℕ :=
  p + MULTIPART_CHUNK_OVERHEAD * max 1 ((p + chunkSize - 1) / chunkSize)

lemma storedLen_eq {p c : ℕ} (hc : 0 < c) : storedLen p c = p + chunkCount p c * MULTIPART_CHUNK_OVERHEAD := by
  have hcount : max 1 ((p + c - 1) / c) = chunkCount p c := by
    unfold chunkCount
    split
    case isTrue h =>
      rw [h, Nat.zero_add, Nat.div_eq_of_lt (Nat.sub_lt hc Nat.one_pos)]
      rfl
    case isFalse h => exact max_eq_right (Nat.div_pos (by omega) hc)
  rw [storedLen, hcount, Nat.mul_comm]

/-- The envelopes before the last one. -/
def fullEnvelopes (stored chunkSize : ℕ) : ℕ := (stored - 1) / (chunkSize + MULTIPART_CHUNK_OVERHEAD)

lemma fullEnvelopes_bounds {stored c : ℕ} (hs : 0 < stored) :
    fullEnvelopes stored c * (c + MULTIPART_CHUNK_OVERHEAD) < stored ∧
      stored ≤ (fullEnvelopes stored c + 1) * (c + MULTIPART_CHUNK_OVERHEAD) := by
  have hpos : 0 < c + MULTIPART_CHUNK_OVERHEAD := Nat.add_pos_right c (Nat.succ_pos 33)
  have hdiv := Nat.div_add_mod (stored - 1) (c + MULTIPART_CHUNK_OVERHEAD)
  have hmod := Nat.mod_lt (stored - 1) hpos
  rw [Nat.add_one_mul, fullEnvelopes, Nat.mul_comm]
  omega

lemma multipartPlaintextLen_eq {ciphertextLen chunkSize : U64} (hchunk : 0 < chunkSize.val)
    (hlen : MULTIPART_CHUNK_OVERHEAD ≤ ciphertextLen.val)
    (hbound : chunkSize.val + MULTIPART_CHUNK_OVERHEAD < 2 ^ 64) (profile : Profile) :
    ∃ answer, multipartPlaintextLen profile ciphertextLen chunkSize = some answer ∧
      ∀ p : U64, answer = some p ↔ ciphertextLen.val =
        p.val + (fullEnvelopes ciphertextLen.val chunkSize.val + 1) * MULTIPART_CHUNK_OVERHEAD := by
  have hstored : 0 < ciphertextLen.val := Nat.lt_of_lt_of_le (Nat.succ_pos 33) hlen
  obtain ⟨hlow, hhigh⟩ := fullEnvelopes_bounds (c := chunkSize.val) hstored
  have hlt := ciphertextLen.isLt
  unfold multipartPlaintextLen
  generalize hm : fullEnvelopes ciphertextLen.val chunkSize.val = m at *
  -- an envelope is longer than its overhead, so the overhead of all of them is in range
  have hfull : m * 35 < ciphertextLen.val := by
    have hper : 35 ≤ chunkSize.val + MULTIPART_CHUNK_OVERHEAD := Nat.add_le_add_right hchunk 34
    exact Nat.lt_of_le_of_lt (Nat.mul_le_mul_left m hper) hlow
  have hoverhead : (m + 1) * MULTIPART_CHUNK_OVERHEAD < 2 ^ 64 := by
    rw [MULTIPART_CHUNK_OVERHEAD]
    omega
  obtain ⟨per, hper, hperVal⟩ := profile.exists_u64 hbound
  obtain ⟨total, htotal, htotalVal⟩ := profile.exists_u64 hoverhead
  have hceil : (ciphertextLen.val + per.val - 1) / per.val = m + 1 := by
    rw [hperVal]
    apply Nat.div_eq_of_lt_le
    · rw [Nat.add_one_mul]
      omega
    · rw [Nat.succ_mul]
      omega
  have hquotient : divCeil ciphertextLen per = some ⟨m + 1, by omega⟩ := by
    rw [divCeil, dif_neg (by omega)]
    simp only [hceil]
  rw [if_neg (by omega)]
  simp only [option_bind_eq_some, option_pure_eq_some]
  refine ⟨_, ⟨per, hper, _, hquotient, total, ?_, rfl⟩, ?_⟩
  · rw [max_eq_left (Nat.le_add_left 1 m), htotal]
  · intro p
    split
    case isTrue hle =>
      rw [Option.some_inj, Fin.ext_iff, Fin.sub_val_of_le (Fin.le_def.mpr hle)]
      omega
    case isFalse hgt =>
      constructor
      · intro h
        cases h
      · intro h
        omega

lemma eq_storedLen_iff {p c stored : ℕ} (hc : 0 < c) (hs : 0 < stored) :
    stored = storedLen p c ↔
      stored = p + (fullEnvelopes stored c + 1) * MULTIPART_CHUNK_OVERHEAD ∧
        (fullEnvelopes stored c = 0 ∨
          MULTIPART_CHUNK_OVERHEAD < stored - fullEnvelopes stored c * (c + MULTIPART_CHUNK_OVERHEAD)) := by
  obtain ⟨hlow, hhigh⟩ := fullEnvelopes_bounds (c := c) hs
  rw [storedLen_eq hc]
  generalize hm : fullEnvelopes stored c = m at *
  constructor
  · intro h
    have hcount : chunkCount p c = m + 1 := by
      have hceil := ceil_ciphertext (s := p) hc (Nat.succ_pos 33) rfl
      rw [← hceil, ← hm]
      change (p + chunkCount p c * MULTIPART_CHUNK_OVERHEAD + (c + MULTIPART_CHUNK_OVERHEAD) - 1) /
        (c + MULTIPART_CHUNK_OVERHEAD) = (stored - 1) / (c + MULTIPART_CHUNK_OVERHEAD) + 1
      rw [← h, ← Nat.add_div_right (stored - 1) (Nat.add_pos_left hc _)]
      congr 1
      omega
    rw [hcount] at h
    refine ⟨h, ?_⟩
    by_cases hp : p = 0
    · left
      rw [hp, chunkCount, if_pos rfl] at hcount
      omega
    · right
      have hfull := chunkCount_pred_mul_lt hc (Nat.pos_of_ne_zero hp)
      rw [hcount, Nat.add_sub_cancel] at hfull
      rw [Nat.mul_add, h, Nat.add_one_mul]
      omega
  · rintro ⟨h, hrest⟩
    have hcount : chunkCount p c = m + 1 := by
      rw [Nat.mul_add] at hlow hrest
      rw [Nat.add_one_mul] at h
      rw [Nat.add_one_mul, Nat.mul_add] at hhigh
      unfold chunkCount
      split
      case isTrue hp =>
        rcases hrest with rfl | hrest
        · rfl
        · omega
      case isFalse hp =>
        apply Nat.div_eq_of_lt_le
        · rw [Nat.add_one_mul]
          rcases hrest with rfl | hrest <;> omega
        · rw [Nat.succ_mul, Nat.add_one_mul]
          omega
    rw [hcount]
    exact h

/-- The function answers in both builds, with the plaintext length of every stored length and with
nothing for every other length. -/
def InvertsStored (ciphertextLen chunkSize : U64) : Prop :=
  ∃ answer, (∀ profile, multipartPlaintextLen profile ciphertextLen chunkSize = some answer) ∧
    (1 ≤ chunkSize.val → ∀ p : U64, answer = some p ↔ ciphertextLen.val = storedLen p.val chunkSize.val)

lemma invertsStored_of_early {ciphertextLen chunkSize : U64}
    (h : chunkSize.val = 0 ∨ ciphertextLen.val < MULTIPART_CHUNK_OVERHEAD) :
    InvertsStored ciphertextLen chunkSize := by
  refine ⟨none, fun profile => if_pos h, ?_⟩
  intro hchunk p
  constructor
  · intro hp
    cases hp
  · intro hp
    rw [storedLen_eq hchunk] at hp
    have hcount := Nat.mul_le_mul_right MULTIPART_CHUNK_OVERHEAD (chunkCount_pos (s := p.val) hchunk)
    omega

/-- The stored lengths are inverted exactly if the size of an envelope does not overflow, and the
last envelope is not too short to hold a byte. A short last envelope does no harm when it is the
only one, or when there would be more overhead than there are bytes. -/
theorem invertsStored_iff (ciphertextLen chunkSize : U64) :
    InvertsStored ciphertextLen chunkSize ↔
      chunkSize.val = 0 ∨ ciphertextLen.val < MULTIPART_CHUNK_OVERHEAD ∨
        chunkSize.val + MULTIPART_CHUNK_OVERHEAD < 2 ^ 64 ∧
          let full := fullEnvelopes ciphertextLen.val chunkSize.val
          full = 0 ∨
            MULTIPART_CHUNK_OVERHEAD < ciphertextLen.val - full * (chunkSize.val + MULTIPART_CHUNK_OVERHEAD) ∨
            ciphertextLen.val < (full + 1) * MULTIPART_CHUNK_OVERHEAD := by
  by_cases hearly : chunkSize.val = 0 ∨ ciphertextLen.val < MULTIPART_CHUNK_OVERHEAD
  · exact iff_of_true (invertsStored_of_early hearly) (or_assoc.mp (.inl hearly))
  rw [← or_assoc, or_iff_right hearly]
  obtain ⟨hchunk, hlen⟩ := not_or.mp hearly
  rw [← Ne, ← Nat.pos_iff_ne_zero] at hchunk
  rw [not_lt] at hlen
  have hstored : 0 < ciphertextLen.val := Nat.lt_of_lt_of_le (Nat.succ_pos 33) hlen
  by_cases hbound : chunkSize.val + MULTIPART_CHUNK_OVERHEAD < 2 ^ 64
  · rw [and_iff_right hbound]
    constructor
    · rintro ⟨answer, hanswer, hinverts⟩
      obtain ⟨answer', hanswer', hvalue⟩ := multipartPlaintextLen_eq hchunk hlen hbound .dev
      obtain rfl : answer = answer' := Option.some_inj.mp ((hanswer .dev).symm.trans hanswer')
      by_cases hover : ciphertextLen.val < (fullEnvelopes ciphertextLen.val chunkSize.val + 1) *
        MULTIPART_CHUNK_OVERHEAD
      · exact .inr (.inr hover)
      -- there is an answer, so it is the length of a file
      have hlt := ciphertextLen.isLt
      let p : U64 := ⟨ciphertextLen.val -
        (fullEnvelopes ciphertextLen.val chunkSize.val + 1) * MULTIPART_CHUNK_OVERHEAD, by omega⟩
      have hp : answer = some p := (hvalue p).mpr (by simp only [p]; omega)
      rcases ((eq_storedLen_iff hchunk hstored).mp ((hinverts hchunk p).mp hp)).2 with hzero | hlast
      · exact .inl hzero
      · exact .inr (.inl hlast)
    · intro hlast
      choose answer hanswer hvalue using multipartPlaintextLen_eq hchunk hlen hbound
      have hsame : answer .release = answer .dev := Option.ext fun p => (hvalue .release p).trans
        (hvalue .dev p).symm
      refine ⟨answer .dev, ?_, ?_⟩
      · intro profile
        cases profile with
        | dev => exact hanswer .dev
        | release => rw [← hsame, hanswer .release]
      · intro _ p
        rw [hvalue .dev p, eq_storedLen_iff hchunk hstored, iff_self_and]
        intro hp
        rcases hlast with hzero | hlast | hover
        · exact .inl hzero
        · exact .inr hlast
        · omega
  · refine iff_of_false ?_ (fun h => hbound h.1)
    rintro ⟨answer, hanswer, -⟩
    have hpanic : multipartPlaintextLen .dev ciphertextLen chunkSize = none := by
      rw [multipartPlaintextLen, if_neg hearly, Profile.u64, dif_neg hbound]
      rfl
    cases hpanic.symm.trans (hanswer .dev)

/-- One byte after a full envelope of 16 MiB there is no file, and a length comes out. A chunk size
that leaves no room for the overhead panics. -/
theorem length_of_no_file :
    (∀ profile, multipartPlaintextLen profile 16777251 16777216 = some (some 16777183)) ∧
      (∀ p, 16777251 ≠ storedLen p 16777216) ∧ multipartPlaintextLen .dev 39 18446744073709551615 = none := by
  refine ⟨?_, ?_, by decide⟩
  · intro profile
    cases profile <;> decide
  · intro p h
    rw [storedLen, MULTIPART_CHUNK_OVERHEAD] at h
    omega

end SignetDrive.Proofs
