import SignetDrive.Model.Ecdsa
import SignetDrive.Proofs.GarnetPki

namespace SignetDrive.Proofs

open Client Pki P256Signature

variable {Key : Type} {p : Platform Key P256Signature} {sig : P256Signature}

/-- What `p256` decodes: exactly the encodings of the pairs of scalars. -/
structure DecodesP256 (p : Platform Key P256Signature) : Prop where
  sigFromSlice : Function.IsPartialInv toBytes p.sigFromSlice
  sigFromDer : Function.IsPartialInv toDer p.sigFromDer
  sigToBytes : p.sigToBytes = toBytes
  sigToDer : p.sigToDer = toDer

lemma lt_derWidth (n : ℕ) : n < 256 ^ derWidth n := by
  calc n < 2 ^ n.size := n.lt_size_self
    _ ≤ 2 ^ (8 * derWidth n) := Nat.pow_le_pow_right two_pos (by rw [derWidth]; omega)
    _ = 256 ^ derWidth n := by rw [pow_mul]; norm_num

lemma derWidth_le {n : ℕ} (h : n < P256_ORDER) : derWidth n ≤ 33 := by
  have hsize : n.size ≤ 256 := Nat.size_le.mpr (h.trans (by norm_num [P256_ORDER]))
  rw [derWidth]
  omega

lemma length_toBytes (sig : P256Signature) : sig.toBytes.length = 64 := by
  simp [toBytes, length_toBeBytes]

lemma length_toDer (sig : P256Signature) : sig.toDer.length = 6 + derWidth sig.r + derWidth sig.s := by
  simp [toDer, derInteger, length_toBeBytes]
  omega

lemma length_toDer_le (sig : P256Signature) : sig.toDer.length ≤ 72 := by
  have hr := derWidth_le sig.r_range.2
  have hs := derWidth_le sig.s_range.2
  rw [length_toDer]
  omega

lemma toBytes_injective : Function.Injective toBytes := by
  rintro ⟨r, s, hr, hs⟩ ⟨r', s', hr', hs'⟩ h
  obtain ⟨hfirst, hsecond⟩ := List.append_inj h (by simp [length_toBeBytes])
  have hsmall {n : ℕ} (hn : 1 ≤ n ∧ n < P256_ORDER) : n < 256 ^ 32 := hn.2.trans (by norm_num [P256_ORDER])
  have hmod := toBeBytes_inj hfirst
  have hmod' := toBeBytes_inj hsecond
  rw [Nat.mod_eq_of_lt (hsmall hr), Nat.mod_eq_of_lt (hsmall hr')] at hmod
  rw [Nat.mod_eq_of_lt (hsmall hs), Nat.mod_eq_of_lt (hsmall hs')] at hmod'
  subst hmod hmod'
  rfl

lemma derInteger_append_inj {m n : ℕ} {rest rest' : Bytes} (hm : m < P256_ORDER) (hn : n < P256_ORDER)
    (h : derInteger m ++ rest = derInteger n ++ rest') : m = n ∧ rest = rest' := by
  simp only [derInteger, List.cons_append, List.cons.injEq, true_and] at h
  obtain ⟨hwidth, h⟩ := h
  have hwidth : derWidth m = derWidth n := by
    have hwidth := congrArg UInt8.toNat hwidth
    have := derWidth_le hm
    have := derWidth_le hn
    simp only [UInt8.toNat_ofNat'] at hwidth
    omega
  rw [hwidth] at h
  obtain ⟨hbytes, hrest⟩ := List.append_inj h (by simp [length_toBeBytes])
  have hmod := toBeBytes_inj hbytes
  rw [Nat.mod_eq_of_lt (hwidth ▸ lt_derWidth m), Nat.mod_eq_of_lt (lt_derWidth n)] at hmod
  exact ⟨hmod, hrest⟩

lemma toDer_injective : Function.Injective toDer := by
  rintro ⟨r, s, hr, hs⟩ ⟨r', s', hr', hs'⟩ h
  obtain ⟨-, h⟩ := List.cons.inj (List.cons.inj h).2
  obtain ⟨rfl, h⟩ := derInteger_append_inj hr.2 hr'.2 h
  obtain ⟨rfl, -⟩ := derInteger_append_inj hs.2 hs'.2 (congrArg (· ++ []) h)
  rfl

lemma parseSignature_toBytes (h : DecodesP256 p) (sig : P256Signature) :
    parseSignature p sig.toBytes = .ok sig := by
  rw [parseSignature, if_pos (length_toBytes sig), (h.sigFromSlice _ _).mpr rfl]
  rfl

lemma parseSignature_toDer (h : DecodesP256 p) (hlength : sig.toDer.length ≠ 64) :
    parseSignature p sig.toDer = .ok sig := by
  rw [parseSignature, if_neg hlength, if_pos (length_toDer_le sig), (h.sigFromDer _ _).mpr rfl]
  rfl

lemma eq_encoding_of_parseSignature (h : DecodesP256 p) {bytes : Bytes}
    (hparse : parseSignature p bytes = .ok sig) : bytes = sig.toBytes ∨ bytes = sig.toDer := by
  rw [parseSignature] at hparse
  split_ifs at hparse
  · exact .inl ((h.sigFromSlice _ _).mp (okOr_ok.mp hparse)).symm
  · exact .inr ((h.sigFromDer _ _).mp (okOr_ok.mp hparse)).symm

/-- The DER form, taken for a raw one, is that of a pair which verifies as the pair itself does. -/
def MisreadAlike (p : Platform Key P256Signature) (sig : P256Signature) (pubkey msg : Bytes) : Prop :=
  ∀ key, p.fromSec1Bytes pubkey = some key →
    ∃ misread : P256Signature, misread.toBytes = sig.toDer ∧
      p.scheme.verify key msg misread = p.scheme.verify key msg sig

lemma verifyEs256_toDer_iff (h : DecodesP256 p) (hlength : sig.toDer.length = 64) (pubkey msg : Bytes) :
    verifyEs256 p pubkey msg sig.toDer = verifyEs256 p pubkey msg sig.toBytes ↔
    MisreadAlike p sig pubkey msg := by
  have hder : parseSignature p sig.toDer = okOr (p.sigFromSlice sig.toDer) (.invalidInput "es256 raw r‖s") :=
    if_pos hlength
  simp only [verifyEs256, MisreadAlike, parseSignature_toBytes h, hder]
  cases hkey : p.fromSec1Bytes pubkey with
  | none => exact iff_of_true rfl fun _ h => (by cases h)
  | some key =>
    simp only [Option.some_inj, forall_eq', okOr, ensure, Bind.bind, Except.bind]
    cases hraw : p.sigFromSlice sig.toDer with
    | none =>
      refine iff_of_false (fun hsame => ?_) ?_
      · split_ifs at hsame
        cases hsame
      · rintro ⟨misread, hmisread, -⟩
        cases ((h.sigFromSlice _ _).mpr hmisread).symm.trans hraw
    | some read =>
      have hread (misread : P256Signature) : misread.toBytes = sig.toDer ↔ read = misread := by
        rw [← (h.sigFromSlice _ _), hraw, Option.some_inj]
      simp only [hread, exists_eq_left']
      cases p.scheme.verify key msg read <;> cases p.scheme.verify key msg sig <;> simp

/-- The two encodings are verified alike exactly if the DER form is not 64 bytes long or misread as a
pair that verifies alike; they are converted into each other, and nothing else is accepted. -/
theorem es256_encodings_agree (p : Platform Key P256Signature) (h : DecodesP256 p) :
    (∀ (sig : P256Signature) pubkey msg,
      verifyEs256 p pubkey msg sig.toDer = verifyEs256 p pubkey msg sig.toBytes ↔
        derWidth sig.r + derWidth sig.s ≠ 58 ∨ MisreadAlike p sig pubkey msg) ∧
    (∀ sig : P256Signature, sigRawToDer p sig.toBytes = .ok sig.toDer) ∧
    (∀ raw der, sigRawToDer p raw = .ok der → sigDerToRaw p der = .ok raw) ∧
    ∀ bytes pubkey msg, verifyEs256 p pubkey msg bytes = .ok () →
      ∃ sig : P256Signature, bytes = sig.toBytes ∨ bytes = sig.toDer := by
  refine ⟨?_, ?_, ?_, ?_⟩
  · intro sig pubkey msg
    have hlength := length_toDer sig
    by_cases hwidth : derWidth sig.r + derWidth sig.s = 58
    · rw [verifyEs256_toDer_iff h (by omega), or_iff_right (not_not.mpr hwidth)]
    · refine iff_of_true ?_ (.inl hwidth)
      simp only [verifyEs256, parseSignature_toBytes h,
        parseSignature_toDer h (show sig.toDer.length ≠ 64 by omega)]
  · intro sig
    rw [sigRawToDer, (h.sigFromSlice _ _).mpr rfl, h.sigToDer]
    rfl
  · intro raw der hraw
    simp only [sigRawToDer, except_bind_ok, okOr_ok, h.sigToDer, except_pure_ok] at hraw
    obtain ⟨sig, hsig, rfl⟩ := hraw
    rw [sigDerToRaw, (h.sigFromDer _ _).mpr rfl, h.sigToBytes, ← (h.sigFromSlice _ _).mp hsig]
    rfl
  · intro bytes pubkey msg hverify
    simp only [verifyEs256, except_bind_ok] at hverify
    obtain ⟨-, -, sig, hsig, -⟩ := hverify
    exact ⟨sig, eq_encoding_of_parseSignature h hsig⟩

noncomputable def p256Pki (good : P256Signature) : Platform UInt8 P256Signature :=
  { usualPki with
    scheme := ⟨fun _ => none, fun _ _ => none, fun _ _ sig => sig = good, by simp⟩
    sigFromSlice := Function.partialInv toBytes
    sigFromDer := Function.partialInv toDer
    sigToBytes := toBytes
    sigToDer := toDer
    sigFromSlice_toBytes := Function.partialInv_left toBytes_injective
    length_sigToBytes := length_toBytes
    sigFromDer_toDer := Function.partialInv_left toDer_injective
    length_sigToDer := length_toDer_le }

lemma p256Pki_decodes (good : P256Signature) : DecodesP256 (p256Pki good) :=
  ⟨toBytes_injective.isPartialInv, toDer_injective.isPartialInv, rfl, rfl⟩

lemma p256Pki_good (good : P256Signature) (msg : Bytes) :
    verifyEs256 (p256Pki good) [0] msg good.toBytes = .ok () := by
  simp only [verifyEs256, except_bind_ok, parseSignature_toBytes (p256Pki_decodes good), ensure_ok, okOr_ok]
  exact ⟨0, rfl, good, rfl, decide_eq_true rfl⟩

def longSig : P256Signature := ⟨2 ^ 255, 2 ^ 255, by norm_num [P256_ORDER], by norm_num [P256_ORDER]⟩

theorem longSig_encodings_agree : DecodesP256 (p256Pki longSig) ∧ longSig.toDer.length = 72 ∧
    verifyEs256 (p256Pki longSig) [0] [] longSig.toDer = .ok () := by
  have hwidth : derWidth (2 ^ 255) = 33 := by rw [derWidth, Nat.size_pow]
  refine ⟨p256Pki_decodes _, ?_, ?_⟩
  · rw [length_toDer, longSig, hwidth]
  · rw [((es256_encodings_agree _ (p256Pki_decodes _)).1 longSig [0] []).mpr
      (.inl (by rw [longSig, hwidth]; decide)), p256Pki_good]

def shortSig : P256Signature := ⟨2 ^ 230, 2 ^ 230, by norm_num [P256_ORDER], by norm_num [P256_ORDER]⟩

/-- A DER form of 64 bytes is read as a raw one. -/
theorem short_der_refused : DecodesP256 (p256Pki shortSig) ∧ shortSig.toDer.length = 64 ∧
    verifyEs256 (p256Pki shortSig) [0] [] shortSig.toBytes = .ok () ∧
    verifyEs256 (p256Pki shortSig) [0] [] shortSig.toDer ≠ .ok () := by
  have hlength : shortSig.toDer.length = 64 := by rw [length_toDer, shortSig, derWidth, Nat.size_pow]
  refine ⟨p256Pki_decodes _, hlength, p256Pki_good _ _, fun hverify => ?_⟩
  simp only [verifyEs256, except_bind_ok, parseSignature, if_pos hlength, okOr_ok, ensure_ok] at hverify
  obtain ⟨key, -, sig, hsig, hgood⟩ := hverify
  obtain rfl : sig = shortSig := of_decide_eq_true hgood
  have hsame : shortSig.toBytes = shortSig.toDer := ((p256Pki_decodes _).sigFromSlice _ _).mp hsig
  exact absurd (congrArg List.head? hsame) (by decide)

end SignetDrive.Proofs
