import SignetDrive.Model.WebKeys
import SignetDrive.Proofs.Envelope

/-!
# The wrap of the private keys and the probe of a public key
-/

namespace SignetDrive.Proofs

open Dialogue Client

variable {Point : Type} [AddCommGroup Point] {c : KeyPlatform Point}
variable {answer : Answers c} {before after : Transcript c} {α : Type} {a : α}

lemma run_require_bind_ok {condition : Prop} [Decidable condition] {e : WebError} {f : Unit → Flow c α} :
    run answer before (require c condition e >>= f) = (.ok a, after) ↔
      condition ∧ run answer before (f ()) = (.ok a, after) := by
  simp only [require, run_check_bind_ok, ensure_ok]
  exact ⟨fun ⟨_, h⟩ => h, fun h => ⟨(), h⟩⟩

variable {bytes : Bytes} {d : c.curve.Scalar}

lemma run_getRandomValues_ok {n : ℕ} :
    run answer before (getRandomValues c n) = (.ok bytes, after) ↔
      (answer before (.getRandomValues n)).toList = bytes ∧
        before ++ [⟨.getRandomValues n, answer before (.getRandomValues n)⟩] = after := by
  rw [getRandomValues, ask, run_question_bind_ok, run_pure_ok]

lemma decode_string {s : String} :
    decode c (some (.string s)) = .ok bytes ↔ c.b64uDecode s = some bytes := by
  change okOr (c.b64uDecode s) _ = _ ↔ _
  rw [okOr_ok]

lemma aesGcmOpenWith_ok {key nonce sealed aad plain : Bytes} :
    run answer before (aesGcmOpenWith c key nonce sealed aad) = (.ok plain, after) ↔
      key.length = 32 ∧ answer before (.decrypt key nonce sealed aad) = some plain ∧
        before ++ [⟨.decrypt key nonce sealed aad, some plain⟩] = after := by
  rw [aesGcmOpenWith, run_require_bind_ok, ask, run_question_bind_ok, run_check_ok, okOr_ok]
  exact and_congr_right fun _ => and_congr_right fun hopened => by rw [hopened]

lemma aesGcmSeal_ok {key nonce plain aad sealed : Bytes} :
    run answer before (aesGcmSeal c key nonce plain aad) = (.ok sealed, after) ↔
      key.length = 32 ∧ answer before (.encrypt key nonce plain aad) = some sealed ∧
        before ++ [⟨.encrypt key nonce plain aad, some sealed⟩] = after := by
  rw [aesGcmSeal, run_require_bind_ok, ask, run_question_bind_ok, run_check_ok, okOr_ok]
  exact and_congr_right fun _ => and_congr_right fun hmade => by rw [hmade]

def blobParts (c : KeyPlatform Point) (blob : Option Json) : Except WebError (Bytes × Bytes) := do
  let alg ← propOf c blob "alg"
  ensure (alg.bind Json.asStr = some "A256GCM") (.invalidInput "unknown kem wrap alg")
  let iv ← decode c (← propOf c blob "iv")
  ensure (iv.length = 12) (.invalidInput "kem wrap iv must be 12 bytes")
  let tag ← decode c (← propOf c blob "tag")
  ensure (tag.length = GCM_TAG_LEN) (.invalidInput "kem wrap tag must be 16 bytes")
  let ct ← decode c (← propOf c blob "ct")
  return (iv, ct ++ tag)

lemma unwrapKemPrivkey_ok {wrapKey plain : Bytes} {blob : Option Json} :
    run answer before (unwrapKemPrivkey c wrapKey blob) = (.ok plain, after) ↔
      ∃ iv sealed, blobParts c blob = .ok (iv, sealed) ∧
        run answer before (aesGcmOpenWith c wrapKey iv sealed KEM_WRAP_LABEL) = (.ok plain, after) := by
  simp only [unwrapKemPrivkey, blobParts, run_require_bind_ok, run_check_bind_ok, except_bind_ok, ensure_ok,
    except_pure_ok]
  constructor
  · rintro ⟨alg, halg, hname, iv, ⟨j, hj, hiv⟩, hlen, tag, ⟨k, hk, htag⟩, htagLen, ct, ⟨l, hl, hct⟩, hopen⟩
    exact ⟨iv, ct ++ tag, ⟨alg, halg, (), hname, j, hj, iv, hiv, (), hlen, k, hk, tag, htag, (), htagLen,
      l, hl, ct, hct,
      rfl⟩, hopen⟩
  · rintro ⟨iv, sealed, ⟨alg, halg, _, hname, j, hj, iv', hiv, _, hlen, k, hk, tag, htag, _, htagLen, l, hl, ct,
      hct, hparts⟩, hopen⟩
    obtain ⟨rfl, rfl⟩ := Prod.mk.inj hparts
    exact ⟨alg, halg, hname, iv', ⟨j, hj, hiv⟩, hlen, tag, ⟨k, hk, htag⟩, htagLen, ct, ⟨l, hl, hct⟩, hopen⟩

lemma blobParts_kemPrivkeyWrap {iv sealed : Bytes} (hiv : iv.length = 12) (hsealed : 16 ≤ sealed.length) :
    blobParts c (some (kemPrivkeyWrap c iv sealed)) = .ok (iv, sealed) := by
  simp only [blobParts, except_bind_ok, ensure_ok, except_pure_ok]
  refine ⟨_, rfl, (), rfl, _, rfl, iv, decode_string.mpr (c.b64uDecode_b64uEncode iv), (), hiv, _, rfl, _,
    decode_string.mpr (c.b64uDecode_b64uEncode _), (), ?_, _, rfl, _,
    decode_string.mpr (c.b64uDecode_b64uEncode _), ?_⟩
  · rw [List.length_drop, GCM_TAG_LEN]
    omega
  · rw [List.take_append_drop]

lemma pushField_eq (data : Bytes) : pushField data = toBeBytes 4 (data.length % 2 ^ 32) ++ data := by
  simp [pushField, toBeBytes, List.range_succ]

lemma readField_pushField {data rest : Bytes} (h : data.length < 2 ^ 32) :
    readField (pushField data ++ rest) = .ok (data, rest) := by
  have hfront : (toBeBytes 4 (data.length % 2 ^ 32)).length = 4 :=
    by rw [toBeBytes, List.length_map, List.length_range]
  have hlen : fromBeBytes (toBeBytes 4 (data.length % 2 ^ 32)) = data.length := by
    rw [fromBeBytes_toBeBytes, Nat.mod_eq_of_lt h]
    exact Nat.mod_eq_of_lt h
  have htake : (pushField data ++ rest).take 4 = toBeBytes 4 (data.length % 2 ^ 32) := by
    rw [pushField_eq, List.append_assoc, List.take_left' hfront]
  have hdrop : (pushField data ++ rest).drop 4 = data ++ rest := by
    rw [pushField_eq, List.append_assoc, List.drop_left' hfront]
  simp only [readField, except_bind_ok, ensure_ok, except_pure_ok, htake, hdrop, hlen]
  refine ⟨(), ?_, (), ?_, ?_⟩
  · rw [pushField_eq, List.append_assoc, List.length_append, hfront]
    omega
  · rw [List.length_append]
    omega
  · rw [List.take_left, List.drop_left]

lemma decodeKeyBlobV2_of_encode {pkcs8 seed plain : Bytes} (hlength : pkcs8.length < 2 ^ 32)
    (h : encodeKeyBlobV2 pkcs8 seed = .ok plain) : decodeKeyBlobV2 plain = .ok (pkcs8, seed) := by
  simp only [encodeKeyBlobV2, except_bind_ok, ensure_ok, except_pure_ok] at h
  obtain ⟨_, hne, _, hseed, rfl⟩ := h
  have hseedField : readField (pushField seed ++ []) = .ok (seed, []) :=
    readField_pushField (by rw [hseed]; decide)
  rw [List.append_nil] at hseedField
  simp only [decodeKeyBlobV2, except_bind_ok, ensure_ok, except_pure_ok]
  exact ⟨(), rfl, _, readField_pushField hlength, _, hseedField, (), rfl, (), hne, (), hseed, rfl⟩

lemma length_exportRaw (P : Point) : (exportRaw c P).length = 65 := by
  simp [exportRaw]

lemma epkToX963_of_epkFromX963 {P : Point} {epk : EpkJwk} (h : epkFromX963 c (exportRaw c P) = .ok epk) :
    epkToX963 c epk = .ok (exportRaw c P) := by
  simp only [epkFromX963, except_bind_ok, ensure_ok, except_pure_ok] at h
  obtain ⟨_, -, rfl⟩ := h
  have hx : ((exportRaw c P).drop 1).take 32 = (c.curve.x P).toList := by simp [exportRaw]
  have hy : ((exportRaw c P).drop 33).take 32 = (c.curve.y P).toList := by simp [exportRaw]
  simp only [epkToX963, except_bind_ok, ensure_ok, except_pure_ok, okOr_ok, c.b64uDecode_b64uEncode, hx, hy]
  refine ⟨(), ⟨trivial, trivial⟩, _, rfl, _, rfl, (), by simp, rfl⟩

lemma unwrapWith_of_wrapTo {pub key recovered : Bytes} {envelope : WrapEnvelope}
    (hwrap : run answer before (wrapTo c pub key []) = (.ok envelope, after))
    (hunwrap : unwrapWith c (.ecdh d.1) envelope [] = .ok recovered) :
    ∃ Q e, c.importRaw pub = some Q ∧ before ++ [⟨.generateKey, e⟩] = after ∧
      c.kwUnwrap (ecdhEsA256kwKek c (c.curve.agree d.1 (c.curve.publicKey e.1)).toList [])
        (c.kwWrap (ecdhEsA256kwKek c (c.curve.agree e.1 Q).toList []) key) = some recovered := by
  simp only [wrapTo, run_require_bind_ok, run_check_bind_ok, ask, run_question_bind_ok, run_pure_ok,
    importEcdhPublicX963, okOr_ok, deriveZ, aesKwWrap, except_bind_ok, ensure_ok, except_pure_ok,
    Except.ok.injEq] at hwrap
  obtain ⟨-, Q, hQ, z, rfl, wrapped, ⟨_, -, _, -, rfl⟩, epk, hepk, rfp, -, rfl, rfl⟩ := hwrap
  generalize answer before .generateKey = e at hepk hunwrap ⊢
  refine ⟨Q, e, hQ, rfl, ?_⟩
  simp only [unwrapWith, except_bind_ok, ensure_ok, except_pure_ok, okOr_ok, importEcdhPublicX963, deriveZ,
    aesKwUnwrap, Except.ok.injEq, c.b64uDecode_b64uEncode, Option.some_inj] at hunwrap
  obtain ⟨_, -, x963, hx963, E, hE, z, rfl, _, rfl, _, ⟨_, -, _, -, hopen⟩, _, -, rfl⟩ := hunwrap
  rw [epkToX963_of_epkFromX963 hepk, Except.ok.injEq] at hx963
  rw [← hx963, exportRaw, c.importRaw_exportRaw _ e.publicKey_ne_zero, Option.some_inj] at hE
  rw [← hE] at hopen
  exact hopen

lemma kemKeypairMatches_true {pub : Bytes}
    (h : run answer before (kemKeypairMatches c (.ecdh d.1) pub) = (.ok true, after)) :
    ∃ Q e probe, c.importRaw pub = some Q ∧
      before ++ [⟨.getRandomValues 32, probe⟩, ⟨.generateKey, e⟩] = after ∧
      c.kwUnwrap (ecdhEsA256kwKek c (c.curve.agree d.1 (c.curve.publicKey e.1)).toList [])
        (c.kwWrap (ecdhEsA256kwKek c (c.curve.agree e.1 Q).toList []) probe.toList) = some probe.toList := by
  simp only [kemKeypairMatches, run_bind_ok, run_getRandomValues_ok, run_attempt_ok, run_pure_ok] at h
  obtain ⟨probe, _, ⟨rfl, rfl⟩, recovered, _, hrecovered, hmatched, rfl⟩ := h
  cases recovered with
  | error e => cases hmatched
  | ok recovered =>
    rw [decide_eq_true_eq] at hmatched
    obtain ⟨envelope, _, hwrap, hcheck⟩ := run_bind_ok.mp hrecovered
    obtain ⟨hunwrap, rfl⟩ := run_check_ok.mp hcheck
    obtain ⟨Q, e, hQ, rfl, hopen⟩ := unwrapWith_of_wrapTo (d := d) hwrap hunwrap
    rw [hmatched] at hopen
    exact ⟨Q, e, _, hQ, by rw [List.append_assoc]; rfl, hopen⟩

lemma length_ecdhEsA256kwKek (z partyV : Bytes) : (ecdhEsA256kwKek c z partyV).length = 32 := by
  simp [ecdhEsA256kwKek, concatKdfSha256]

lemma epkFromX963_exportRaw (P : Point) : epkFromX963 c (exportRaw c P) =
    .ok ⟨"EC", "P-256", c.b64uEncode (c.curve.x P).toList, c.b64uEncode (c.curve.y P).toList⟩ := by
  have hx : ((exportRaw c P).drop 1).take 32 = (c.curve.x P).toList := by simp [exportRaw]
  have hy : ((exportRaw c P).drop 33).take 32 = (c.curve.y P).toList := by simp [exportRaw]
  simp only [epkFromX963, except_bind_ok, ensure_ok, except_pure_ok, hx, hy]
  exact ⟨(), ⟨length_exportRaw P, rfl⟩, trivial⟩

lemma wrapTo_ok {pub key : Bytes} {Q : Point} {e : c.curve.Scalar} (hQ : c.importRaw pub = some Q)
    (hkey : key.length = 32) (he : answer before .generateKey = e) :
    ∃ rfp, run answer before (wrapTo c pub key []) =
      (.ok ⟨1, ECDH_ES_A256KW, ⟨"EC", "P-256", c.b64uEncode (c.curve.x (c.curve.publicKey e.1)).toList,
          c.b64uEncode (c.curve.y (c.curve.publicKey e.1)).toList⟩,
          c.b64uEncode (c.kwWrap (ecdhEsA256kwKek c (c.curve.agree e.1 Q).toList []) key), rfp⟩,
        before ++ [⟨.generateKey, e⟩]) := by
  have hspki : (c.spki pub).isSome := by rw [c.spki_isSome, hQ, Option.isSome_some]
  obtain ⟨spki, hspki⟩ := Option.isSome_iff_exists.mp hspki
  refine ⟨hexEncode (c.sha256 spki).toList, ?_⟩
  simp only [wrapTo, run_require_bind_ok, run_check_bind_ok, ask, run_question_bind_ok, run_pure_ok,
    importEcdhPublicX963, okOr_ok, deriveZ, aesKwWrap, except_bind_ok, ensure_ok, except_pure_ok,
    Except.ok.injEq, webFingerprint, he]
  exact ⟨hkey, Q, hQ, _, rfl, _, ⟨(), by omega, (), length_ecdhEsA256kwKek _ _, rfl⟩, _,
    epkFromX963_exportRaw _, _, ⟨spki, hspki, rfl⟩, rfl, trivial⟩

lemma unwrapWith_ok {wrapped key : Bytes} {e : c.curve.Scalar} (v : ℕ) (rfp : String)
    (hlength : wrapped.length = 40) (hkey : key.length = 32)
    (hopen : c.kwUnwrap (ecdhEsA256kwKek c (c.curve.agree d.1 (c.curve.publicKey e.1)).toList []) wrapped =
    some key) : unwrapWith c (.ecdh d.1)
    ⟨v, ECDH_ES_A256KW, ⟨"EC", "P-256", c.b64uEncode (c.curve.x (c.curve.publicKey e.1)).toList,
      c.b64uEncode (c.curve.y (c.curve.publicKey e.1)).toList⟩, c.b64uEncode wrapped, rfp⟩ [] = .ok key := by
  have hepk := epkToX963_of_epkFromX963 (epkFromX963_exportRaw (c := c) (c.curve.publicKey e.1))
  have himport := c.importRaw_exportRaw _ e.publicKey_ne_zero
  simp only [unwrapWith, except_bind_ok, ensure_ok, except_pure_ok, okOr_ok, importEcdhPublicX963, deriveZ,
    aesKwUnwrap, Except.ok.injEq, c.b64uDecode_b64uEncode, Option.some_inj]
  exact ⟨(), trivial, _, hepk, _, himport, _, rfl, _, rfl, key,
    ⟨(), by omega, (), length_ecdhEsA256kwKek _ _, hopen⟩, (), hkey, rfl⟩

lemma kemKeypairMatches_of_opposite {pub : Bytes} {e : c.curve.Scalar} {Q : Point}
    {probe : List.Vector UInt8 32} (hQ : c.importRaw pub = some Q)
    (hopposite : Q = c.curve.publicKey d.1 ∨ Q = -c.curve.publicKey d.1)
    (hprobe : answer before (.getRandomValues 32) = probe)
    (he : answer (before ++ [⟨.getRandomValues 32, probe⟩]) .generateKey = e) :
    run answer before (kemKeypairMatches c (.ecdh d.1) pub) =
      (.ok true, before ++ [⟨.getRandomValues 32, probe⟩, ⟨.generateKey, e⟩]) := by
  subst hprobe
  have hagree := (CurveGroup.agree_iff d e (c.importRaw_ne_zero pub Q hQ)).mpr hopposite
  obtain ⟨rfp, hwrap⟩ := wrapTo_ok hQ (List.Vector.toList_length _) he
  have hopen := c.kwUnwrap_kwWrap (ecdhEsA256kwKek c (c.curve.agree e.1 Q).toList [])
    (answer before (.getRandomValues 32)).toList
  nth_rewrite 1 [hagree] at hopen
  have hwrapped : (c.kwWrap (ecdhEsA256kwKek c (c.curve.agree e.1 Q).toList [])
      (answer before (.getRandomValues 32)).toList).length = 40 := by
    rw [c.length_kwWrap, List.Vector.toList_length]
  have hunwrap := unwrapWith_ok 1 rfp hwrapped (List.Vector.toList_length _) hopen
  simp only [kemKeypairMatches, run_bind_ok, run_getRandomValues_ok, run_attempt_ok, run_pure_ok]
  refine ⟨_, _, ⟨rfl, rfl⟩, _, _, run_bind_ok.mpr ⟨_, _, hwrap, run_check_ok.mpr ⟨hunwrap, rfl⟩⟩, ?_, ?_⟩
  · exact decide_eq_true rfl
  · rw [List.append_assoc]
    rfl

lemma epkToX963_hybridEpkFromX963 (P : Point) :
    epkToX963 c (hybridEpkFromX963 c (exportRaw c P)) = .ok (exportRaw c P) := by
  apply epkToX963_of_epkFromX963
  simp only [epkFromX963, except_bind_ok, ensure_ok, except_pure_ok]
  exact ⟨(), ⟨length_exportRaw P, rfl⟩, rfl⟩

lemma hybridUnwrapWith_of_wrapTo {seed key partyV : Bytes} {envelope : HybridWrapEnvelope}
    (hseed : seed.length = MLKEM_SEED_LEN) (hwrap : run answer before
        (hybridWrapTo c (exportRaw c (c.curve.publicKey d.1)) (c.mlkemEk seed) key partyV) =
      (.ok envelope, after)) :
    hybridUnwrapWith c (.ecdh d.1) seed envelope (exportRaw c (c.curve.publicKey d.1)) (c.mlkemEk seed) partyV =
      .ok key := by
  unfold hybridWrapTo ask at hwrap
  simp only [↓run_require_bind_ok, ↓run_check_bind_ok, ↓run_question_bind_ok, run_bind_ok, run_check_ok,
    run_getRandomValues_ok, importEcdhPublicX963, okOr_ok, deriveZ, Except.ok.injEq, hybridWrapFromSecrets,
    except_bind_ok, ensure_ok, except_pure_ok, canonicalEpk, webContentWrapKek, aesKwWrap] at hwrap
  obtain ⟨_, hvalid, Q, hQ, z, rfl, -, drawn, _, -,
    ⟨_, -, _, hparty, _, hct, _, hkey, epk, ⟨E, hE, rfl⟩, kek, ⟨_, hz, rfl⟩, wk, ⟨_, -, _, -, rfl⟩, rfp, -,
      rfl⟩, -⟩ := hwrap
  generalize answer before .generateKey = e at *
  have himport := fun k : c.curve.Scalar => c.importRaw_exportRaw _ k.publicKey_ne_zero
  obtain rfl : c.curve.publicKey d.1 = Q := Option.some_inj.mp ((himport d).symm.trans hQ)
  obtain rfl : c.curve.publicKey e.1 = E := Option.some_inj.mp ((himport e).symm.trans hE)
  have hagree := (CurveGroup.agree_iff d e d.publicKey_ne_zero).mpr (Or.inl rfl)
  simp only [hybridUnwrapWith, hybridUnwrapFromSecrets, except_bind_ok, ensure_ok, except_pure_ok, okOr_ok,
    importEcdhPublicX963, deriveZ, webContentWrapKek, aesKwUnwrap, Except.ok.injEq, c.b64uDecode_b64uEncode,
    Option.some_inj, epkToX963_hybridEpkFromX963]
  refine ⟨(), trivial, _, rfl, _, himport e, _, rfl, _, rfl, (), hct, (), hseed, (), trivial, (),
    hvalid, (), hparty, _,
    rfl, _, rfl, (), hct, _, ⟨(), ⟨List.Vector.toList_length _, ?_⟩, rfl⟩, _, rfl, key,
      ⟨(), ?_, (), ?_, ?_⟩, (), hkey, rfl⟩
  · rw [c.mlkemDecaps_encaps]
    exact hz.2
  · rw [c.length_kwWrap]
    omega
  · exact c.length_hkdfSha256 _ _ _ _
  · rw [← hagree, c.mlkemDecaps_encaps]
    exact c.kwUnwrap_kwWrap _ _

def fiveCurve : CurveGroup (ZMod 5) where
  base := 1
  order := 5
  prime := by decide
  order_nsmul := by decide
  base_ne_zero := by decide
  x P := List.Vector.replicate 32 (UInt8.ofNat (min P.val (5 - P.val)))
  y P := List.Vector.replicate 32 (UInt8.ofNat P.val)
  x_eq_iff := by
    have hfirst : ∀ P Q : ZMod 5, P ≠ 0 → Q ≠ 0 →
        (UInt8.ofNat (min P.val (5 - P.val)) = UInt8.ofNat (min Q.val (5 - Q.val)) ↔ P = Q ∨
          P = -Q) := by decide
    intro P Q hP hQ
    rw [← hfirst P Q hP hQ]
    exact ⟨fun h => congrArg List.Vector.head h, fun h => by rw [h]⟩

def firstBytes (n : ℕ) (bytes : Bytes) : Bytes := (bytes ++ List.replicate n 0).take n

lemma length_firstBytes (n : ℕ) (bytes : Bytes) : (firstBytes n bytes).length = n := by
  simp [firstBytes]

def tagCipher : Aead.Cipher Bytes Bytes Bytes Bytes Bytes where
  encrypt key _ message _ := some (message ++ firstBytes 16 key)
  decrypt key _ sealed _ :=
    if sealed.drop (sealed.length - 16) = firstBytes 16 key then some (sealed.take (sealed.length - 16))
    else none
  decrypt_encrypt := by
    intro key nonce message aad sealed h
    cases h
    have hlength : (message ++ firstBytes 16 key).length - 16 = message.length := by
      rw [List.length_append, length_firstBytes, Nat.add_sub_cancel]
    rw [hlength, List.drop_left, if_pos rfl, List.take_left]

lemma length_tagCipher_encrypt {key nonce message aad sealed : Bytes}
    (h : tagCipher.encrypt key nonce message aad = some sealed) : sealed.length = message.length + 16 := by
  cases h
  rw [List.length_append, length_firstBytes]

lemma length_tagCipher_decrypt {key nonce sealed aad message : Bytes}
    (h : tagCipher.decrypt key nonce sealed aad = some message) : sealed.length = message.length + 16 := by
  simp only [tagCipher] at h
  split_ifs at h with htag
  rw [← Option.some_inj.mp h, List.length_take]
  have hlength := congrArg List.length htag
  rw [length_firstBytes, List.length_drop] at hlength
  omega

def fiveImport (bytes : Bytes) : Option (ZMod 5) :=
  [1, 2, 3, 4].find? fun P => [0x04] ++ (fiveCurve.x P).toList ++ (fiveCurve.y P).toList = bytes

lemma fiveImport_ne_zero {P : ZMod 5} (h : fiveImport bytes = some P) : P ≠ 0 := by
  have hmem : P ∈ ([1, 2, 3, 4] : List (ZMod 5)) := List.mem_of_find?_eq_some h
  simp only [List.mem_cons, List.not_mem_nil, or_false] at hmem
  rcases hmem with rfl | rfl | rfl | rfl <;> decide

lemma fiveImport_exportRaw : ∀ P : ZMod 5, P ≠ 0 →
    fiveImport ([0x04] ++ (fiveCurve.x P).toList ++ (fiveCurve.y P).toList) = some P := by
  decide

lemma one_mem_five : 0 < 1 ∧ 1 < fiveCurve.order := by decide

def fivePoints : KeyPlatform (ZMod 5) where
  b64uDecode s := decodeHex s.toList
  spki bytes := (fiveImport bytes).map fun _ => bytes
  sha256 bytes := ⟨firstBytes 32 (bytes.drop 4), length_firstBytes 32 _⟩
  toCanonicalBytes _ := .ok []
  ecdsaVerify _ _ _ := none
  vrfVerify _ _ _ := .ok []
  toLowerCase s := s
  belowTwo _ := false
  text _ := ""
  engineError := "not a function"
  b64uEncode := hexEncode
  b64uDecode_b64uEncode := decodeHex_hexEncode
  curve := fiveCurve
  importRaw := fiveImport
  importRaw_ne_zero _ _ := fiveImport_ne_zero
  spki_isSome bytes := Option.isSome_map
  importRaw_exportRaw := fiveImport_exportRaw
  importPkcs8
    | [b] => if h : 0 < b.toNat ∧ b.toNat < 5 then some ⟨b.toNat, h⟩ else none
    | _ => none
  exportPkcs8 d := [UInt8.ofNat d.1]
  importPkcs8_exportPkcs8 := by
    intro d
    have hd : d.1 < 5 := d.2.2
    have hbyte : (UInt8.ofNat d.1).toNat = d.1 := UInt8.toNat_ofNat_of_lt (hd.trans (by decide))
    simp only [hbyte]
    exact dif_pos d.2
  gcm := tagCipher
  length_encrypt _ _ _ _ _ := length_tagCipher_encrypt
  length_decrypt _ _ _ _ _ := length_tagCipher_decrypt
  kwWrap kek message := firstBytes 8 kek ++ message
  kwUnwrap kek wrapped := if wrapped.take 8 = firstBytes 8 kek then some (wrapped.drop 8) else none
  kwUnwrap_kwWrap := by
    intro kek message
    have hlength := length_firstBytes 8 kek
    rw [List.take_left' hlength, if_pos rfl, List.drop_left' hlength]
  length_kwWrap := by
    intro kek message
    rw [List.length_append, length_firstBytes, Nat.add_comm]
  hkdfSha256 ikm _ _ n := firstBytes n ikm
  length_hkdfSha256 := by
    intro ikm salt info n
    exact length_firstBytes n ikm
  mlkemEk _ := List.replicate MLKEM1024_EK_LEN 0
  mlkemEncaps _ _ := (List.replicate MLKEM1024_CT_LEN 0, List.replicate 32 0)
  mlkemDecaps _ _ := List.replicate 32 0
  mlkemDecaps_encaps _ _ := rfl
  spreadOther _ := []

end SignetDrive.Proofs
