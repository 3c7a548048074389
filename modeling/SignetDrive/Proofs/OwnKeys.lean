import SignetDrive.Proofs.PrfSecrecy
import SignetDrive.Proofs.UnlockRecords

/-!
# The own keys of a session

The P-256 public key of a session is a text of the server that passed the probe, which does not
tell a key from its opposite.
-/

namespace SignetDrive.Proofs

open Dialogue Client Unlock

variable {Point : Type} [AddCommGroup Point] {c : KeyPlatform Point} {V : Type}
variable {answer : Answers c} {before after : Transcript c}

/-! ### Keys of a session -/

variable (c) in
/-- The P-256 public key is that of the private key. -/
def OwnPublicKey (s : Session CryptoKey) : Prop :=
  ∃ d : c.curve.Scalar, s.kemPrivateKey = .ecdh d.1 ∧
    c.b64uDecode s.kemPubkeyX963 = some (exportRaw c (c.curve.publicKey d.1))

variable (c) in
/-- The encapsulation key is that of the seed. -/
def OwnEncapsulationKey (s : Session CryptoKey) : Prop :=
  ∃ ek, mlkemEkFromSeed c s.mlkemSeed = .ok ek ∧ c.b64uDecode s.kemPqPubkeyEk = some ek

variable (c) in
/-- Bytes that are not the public key of the secret, but are imported as that key or as its opposite. -/
def Substitute (d : c.curve.Scalar) (bytes : Bytes) : Prop :=
  bytes ≠ exportRaw c (c.curve.publicKey d.1) ∧
    ∃ Q, c.importRaw bytes = some Q ∧ (Q = c.curve.publicKey d.1 ∨ Q = -c.curve.publicKey d.1)

variable (c) in
/-- The probes of the transcript come back only where both sides derived the same secret. -/
def ProbesApart (key : CryptoKey) (text : String) (transcript : Transcript c) : Prop :=
  ∀ (d e : c.curve.Scalar) (bytes : Bytes) (Q : Point) (probe : List.Vector UInt8 32),
    key = .ecdh d.1 → c.b64uDecode text = some bytes → c.importRaw bytes = some Q →
    ⟨.getRandomValues 32, probe⟩ ∈ transcript → ⟨.generateKey, e⟩ ∈ transcript →
    c.kwUnwrap (ecdhEsA256kwKek c (c.curve.agree d.1 (c.curve.publicKey e.1)).toList [])
      (c.kwWrap (ecdhEsA256kwKek c (c.curve.agree e.1 Q).toList []) probe.toList) = some probe.toList →
    c.curve.agree e.1 Q = c.curve.agree d.1 (c.curve.publicKey e.1)

variable {s : Session CryptoKey} {prfOutput : Bytes} {options : RequestOptions}

lemma ownPublicKey_iff_of_probe {d : c.curve.Scalar} {bytes : Bytes} (hkey : s.kemPrivateKey = .ecdh d.1)
    (hbytes : c.b64uDecode s.kemPubkeyX963 = some bytes)
    (hprobe : run answer before (kemKeypairMatches c (.ecdh d.1) bytes) = (.ok true, after))
    (hapart : ProbesApart c s.kemPrivateKey s.kemPubkeyX963 after) :
    OwnPublicKey c s ↔ ¬Substitute c d bytes := by
  obtain ⟨Q, e, probe, hQ, rfl, hopen⟩ := kemKeypairMatches_true hprobe
  have hagree := hapart d e bytes Q probe hkey hbytes hQ (by simp) (by simp) hopen
  have hopposite := (CurveGroup.agree_iff d e (c.importRaw_ne_zero bytes Q hQ)).mp hagree
  constructor
  · rintro ⟨d', hkey', hbytes'⟩ ⟨hne, -⟩
    rw [hkey, CryptoKey.ecdh.injEq] at hkey'
    rw [hbytes, ← hkey', Option.some_inj] at hbytes'
    exact hne hbytes'
  · intro hsubstitute
    refine ⟨d, hkey, ?_⟩
    by_contra hne
    rw [hbytes, Option.some_inj] at hne
    exact hsubstitute ⟨hne, Q, hQ, hopposite⟩

/-! ### Sign-in -/

lemma asString_ok {v : Option Json} {s : String} : asString c.toWebPrimitives v = .ok s ↔
    v = some (.string s) := by
  cases v with
  | none => simp [asString, engineThrows]
  | some v => cases v <;> simp [asString, engineThrows]

lemma deriveWrapKey_ok {wrapKey : Bytes} :
    deriveWrapKey c prfOutput = .ok wrapKey ↔
      prfOutput.length = 32 ∧ c.hkdfSha256 prfOutput [] KEM_WRAP_LABEL 32 = wrapKey := by
  simp only [deriveWrapKey, except_bind_ok, ensure_ok, except_pure_ok, exists_const]

variable {session : Session CryptoKey}

lemma recoverKeys_ok {result : Option Json} :
    run answer before (recoverKeys c result prfOutput) = (.ok session, after) ↔
      ∃ plain pkcs8 d bytes ek middle, prfOutput.length = 32 ∧
        run answer before (unwrapKemPrivkey c (c.hkdfSha256 prfOutput [] KEM_WRAP_LABEL 32)
          (optionalProp result "wrapped_kem_privkey_blob")) = (.ok plain, middle) ∧
        decodeKeyBlobV2 plain = .ok (pkcs8, session.mlkemSeed) ∧ c.importPkcs8 pkcs8 = some d ∧
        optionalProp result "kem_pubkey" = some (.string session.kemPubkeyX963) ∧
        c.b64uDecode session.kemPubkeyX963 = some bytes ∧
        run answer middle (kemKeypairMatches c (.ecdh d.1) bytes) = (.ok true, after) ∧
        optionalProp result "kem_pq_pubkey" = some (.string session.kemPqPubkeyEk) ∧ session.kemPqPubkeyEk ≠ ""
        ∧ mlkemEkFromSeed c session.mlkemSeed = .ok ek ∧ c.b64uDecode session.kemPqPubkeyEk = some ek ∧
        session = ⟨accountIdText c (optionalProp result "account_id"), .ecdh d.1, session.kemPubkeyX963,
          session.mlkemSeed, session.kemPqPubkeyEk, optionalProp result "wrapped_kem_privkey_blob"⟩ := by
  rw [recoverKeys]
  simp only [↓run_check_bind_ok, ↓run_require_bind_ok, run_bind_ok, run_pure_ok, deriveWrapKey_ok, asString_ok,
    decode_string, importKemPrivateNonExtractable, except_bind_ok, okOr_ok, except_pure_ok,
    hexEncode_injective.eq_iff]
  constructor
  · rintro ⟨_, ⟨hlength, rfl⟩, plain, middle, hplain, ⟨pkcs8, seed⟩, hdecoded, _, ⟨d, hd, rfl⟩, text, htext,
      bytes, hbytes, h⟩
    obtain ⟨matched, _, hprobe, rfl, htruthy, ek, hek, ekText, hekText, _, hekBytes, rfl, rfl, rfl⟩ := h
    rw [hekText] at htruthy
    exact ⟨plain, pkcs8, d, bytes, ek, middle, hlength, hplain, hdecoded, hd, htext, hbytes, hprobe, hekText,
      of_decide_eq_true htruthy, hek, hekBytes, rfl⟩
  · rintro ⟨plain, pkcs8, d, bytes, ek, middle, hlength, hplain, hdecoded, hd, htext, hbytes, hprobe, hekText,
      hne, hek, hekBytes, hsession⟩
    have htruthy : truthy (optionalProp result "kem_pq_pubkey") = true := by
      rw [hekText]
      exact decide_eq_true hne
    exact ⟨_, ⟨hlength, rfl⟩, plain, middle, hplain, (pkcs8, session.mlkemSeed), hdecoded, _, ⟨d, hd, rfl⟩, _,
      htext, bytes, hbytes, true, _, hprobe, rfl, htruthy, ek, hek, _, hekText, ek, hekBytes, rfl,
      hsession.symm, rfl⟩

lemma api_ok {r : PasskeyRequest Json} {v : Option Json} :
    run answer before (api c r) = (.ok v, after) ↔
      answer before (.request r) = .ok v ∧ before ++ [⟨.request r, .ok v⟩] = after := by
  rw [api, ask, run_question_bind_ok, run_check_ok]
  exact and_congr_right fun ha => by rw [ha]

lemma initializeKeysFromPrf_ok {accountId : String} {credentialId : Bytes}
    (h : run answer before (initializeKeysFromPrf c accountId prfOutput credentialId) = (.ok session, after)) :
    ∃ (d : c.curve.Scalar) (seed : List.Vector UInt8 64) (iv : List.Vector UInt8 12)
      (plain : Bytes) (blob : Json)
      (r : PasskeyRequest Json) (v : Option Json) (middle sealed : Transcript c),
      prfOutput.length = 32 ∧ encodeKeyBlobV2 (c.exportPkcs8 d) seed.toList = .ok plain ∧
      middle = before ++ [⟨.generateKey, d⟩, ⟨.mlkemSeed, seed⟩, ⟨.getRandomValues 12, iv⟩] ∧
      run answer middle (wrapKemPrivkey c (c.hkdfSha256 prfOutput [] KEM_WRAP_LABEL 32) plain iv.toList) =
        (.ok blob, sealed) ∧
      after = sealed ++ [⟨.request r, .ok v⟩] ∧
      session = ⟨accountId, .ecdh d.1, c.b64uEncode (exportRaw c (c.curve.publicKey d.1)), seed.toList,
        c.b64uEncode (c.mlkemEk seed.toList), some blob⟩ := by
  unfold initializeKeysFromPrf ask at h
  simp only [↓run_check_bind_ok, ↓run_question_bind_ok, run_bind_ok, run_pure_ok, deriveWrapKey_ok,
    run_getRandomValues_ok, api_ok, importKemPrivateNonExtractable, except_bind_ok, okOr_ok, except_pure_ok,
    c.importPkcs8_exportPkcs8, Option.some_inj] at h
  obtain ⟨_, ⟨hlength, rfl⟩, _, _, ⟨rfl, rfl⟩, plain, hplain, blob, sealed, hblob, v, _, ⟨-, rfl⟩, _,
    ⟨_, rfl, rfl⟩, rfl, rfl⟩ := h
  exact ⟨_, _, _, plain, blob, _, v, _, sealed, hlength, hplain, by simp, hblob, rfl, rfl⟩

lemma gatewayGet_ok {v : Option AssertionCredential} :
    run answer before (gatewayGet c options) = (.ok v, after) ↔
      answer before (.get options) = .ok v ∧ before ++ [⟨.get options, .ok v⟩] = after := by
  rw [gatewayGet, ask, run_question_bind_ok, run_check_ok]
  exact and_congr_right fun ha => by rw [ha]

lemma gesture_ok {dismissed : WebError} {assertion : AssertionCredential} :
    run answer before (gesture c options dismissed) = (.ok assertion, after) ↔
      answer before (.get options) = .ok (some assertion) ∧
        before ++ [⟨.get options, .ok (some assertion)⟩] = after := by
  simp only [gesture, run_bind_ok, gatewayGet_ok, run_check_ok, okOr_ok]
  constructor
  · rintro ⟨_, _, ⟨ha, rfl⟩, rfl, rfl⟩
    exact ⟨ha, rfl⟩
  · rintro ⟨ha, rfl⟩
    exact ⟨_, _, ⟨ha, rfl⟩, rfl, rfl⟩

/-- The gesture of a sign-in with the first output of its PRF, and the answer of the server. -/
def SignInHeard (transcript : Transcript c) (prfOutput : Bytes) (result : Option Json) : Prop :=
  ∃ options assertion body, ⟨.get options, .ok (some assertion)⟩ ∈ transcript ∧
    extractPrfFirst assertion = .ok prfOutput ∧ ⟨.request (.completeSignin body), .ok result⟩ ∈ transcript

def hasKeys (result : Option Json) : Bool :=
  truthy (optionalProp result "wrapped_kem_privkey_blob") && truthy (optionalProp result "kem_pubkey")

lemma optionalProp_of_propOf {v w : Option Json} {key : String} (h : propOf c v key = .ok w) :
    optionalProp v key = w := by
  cases v with
  | none => cases h
  | some v => cases v <;> first | exact Except.ok.inj h | cases h

lemma signIn_ok {email : String}
    (h : run answer [] (signIn c email) = (.ok session, after)) :
    ∃ prfOutput result middle credentialId, SignInHeard after prfOutput result ∧
      (hasKeys result = true ∧ run answer middle (recoverKeys c result prfOutput) = (.ok session, after) ∨
        hasKeys result = false ∧ run answer middle (initializeKeysFromPrf c
          (accountIdText c (optionalProp result "account_id")) prfOutput credentialId) =
          (.ok session, after)) := by
  simp only [signIn, signInGesture, ↓run_check_bind_ok, run_bind_ok, run_pure_ok, api_ok, gesture_ok] at h
  obtain ⟨_, _, ⟨begun, _, ⟨-, rfl⟩, options, -, request, -, assertion, _, ⟨-, rfl⟩, h⟩, blob,
    hblob, hrest⟩ := h
  obtain ⟨prfOutput, hprf, result, _, ⟨-, rfl⟩, rfl, rfl⟩ := h
  have hkept := isPrefix_of_run hrest
  have hheard : SignInHeard after prfOutput result := ⟨request, assertion, _, hkept.subset (by simp), hprf,
    hkept.subset (List.mem_append_right _ List.mem_cons_self)⟩
  rw [← optionalProp_of_propOf hblob] at hrest
  split_ifs at hrest with hkeys
  · exact ⟨prfOutput, result, _, assertion.rawId, hheard, .inl ⟨hkeys, hrest⟩⟩
  · exact ⟨prfOutput, result, _, assertion.rawId, hheard, .inr ⟨eq_false_of_ne_true hkeys, hrest⟩⟩

variable (c) in
def BlobHolds (wrapKey : Bytes) (blob : Option Json) (d : c.curve.Scalar) (seed : Bytes) : Prop :=
  ∃ iv sealed plain pkcs8, blobParts c blob = .ok (iv, sealed) ∧
    c.gcm.decrypt wrapKey iv sealed KEM_WRAP_LABEL = some plain ∧ decodeKeyBlobV2 plain = .ok (pkcs8, seed) ∧
    c.importPkcs8 pkcs8 = some d

variable (c) in
/-- The answer to a sign-in has, beside a blob, a substitute for the public key of the blob's halves. -/
def AnswerSubstitutes (result : Option Json) (prfOutput : Bytes) : Prop :=
  hasKeys result = true ∧ ∃ d seed text bytes,
    BlobHolds c (c.hkdfSha256 prfOutput [] KEM_WRAP_LABEL 32) (optionalProp result "wrapped_kem_privkey_blob") d
    seed ∧ optionalProp result "kem_pubkey" = some (.string text) ∧ c.b64uDecode text = some bytes ∧
    Substitute c d bytes

variable (c) in
/-- Both halves were generated in the exchanges. -/
def Generated (transcript : Transcript c) (s : Session CryptoKey) : Prop :=
  ∃ (d : c.curve.Scalar) (seed : List.Vector UInt8 64), ⟨.generateKey, d⟩ ∈ transcript ∧
    ⟨.mlkemSeed, seed⟩ ∈ transcript ∧ s.kemPrivateKey = .ecdh d.1 ∧ s.mlkemSeed = seed.toList

variable (c) in
/-- Both halves are those of a sealed key blob. -/
def FromBlob (made : Set (Aead.Call Bytes Bytes Bytes)) (s : Session CryptoKey) : Prop :=
  ∃ call ∈ made, call.aad = KEM_WRAP_LABEL ∧ ∃ pkcs8 d, decodeKeyBlobV2 call.message = .ok (pkcs8, s.mlkemSeed)
    ∧ c.importPkcs8 pkcs8 = some d ∧ s.kemPrivateKey = .ecdh d.1

variable (c) in
/-- What the transcript opens was sealed by one of the calls made under its key. -/
def OpensOnlySealed (honest : Bytes → Set (Aead.Call Bytes Bytes Bytes))
    (transcript : Transcript c) : Prop :=
  ∀ key nonce sealed aad plain, ⟨.decrypt key nonce sealed aad, some plain⟩ ∈ transcript →
    c.gcm.Unforged key (honest key) nonce sealed aad

section

variable {o : Outside c V} {prf : Prf} {honest : Bytes → Set (Aead.Call Bytes Bytes Bytes)}

lemma unwrapKemPrivkey_honest {wrapKey plain : Bytes} {blob : Option Json}
    (h : run (o.answer prf) before (unwrapKemPrivkey c wrapKey blob) = (.ok plain, after)) :
    ∃ iv sealed, blobParts c blob = .ok (iv, sealed) ∧
      c.gcm.decrypt wrapKey iv sealed KEM_WRAP_LABEL = some plain ∧
      ⟨.decrypt wrapKey iv sealed KEM_WRAP_LABEL, some plain⟩ ∈ after := by
  obtain ⟨iv, sealed, hparts, hopen⟩ := unwrapKemPrivkey_ok.mp h
  obtain ⟨-, hplain, rfl⟩ := aesGcmOpenWith_ok.mp hopen
  exact ⟨iv, sealed, hparts, hplain, by simp⟩

lemma recoverKeys_own {result : Option Json} {session : Session CryptoKey}
    (h : run (o.answer prf) before (recoverKeys c result prfOutput) = (.ok session, after))
    (hsealed : OpensOnlySealed c honest after)
    (hapart : ProbesApart c session.kemPrivateKey session.kemPubkeyX963 after)
    (hkeys : hasKeys result = true) :
    FromBlob c (honest (c.hkdfSha256 prfOutput [] KEM_WRAP_LABEL 32)) session ∧ OwnEncapsulationKey c session ∧
      (OwnPublicKey c session ↔ ¬AnswerSubstitutes c result prfOutput) := by
  obtain ⟨plain, pkcs8, d, bytes, ek, middle, -, hplain, hdecoded, hd, htext, hbytes, hprobe, -, -, hek,
    hekBytes, hsession⟩ := recoverKeys_ok.mp h
  obtain ⟨iv, sealed, hparts, hopen, hmem⟩ := unwrapKemPrivkey_honest hplain
  have hkey : session.kemPrivateKey = .ecdh d.1 := congrArg Session.kemPrivateKey hsession
  refine ⟨⟨_, (hsealed _ _ _ _ _ ((isPrefix_of_run hprobe).subset hmem)).mem hopen, rfl, pkcs8, d, hdecoded, hd,
    hkey⟩, ⟨ek, hek, hekBytes⟩, ?_⟩
  rw [ownPublicKey_iff_of_probe hkey hbytes hprobe hapart, not_iff_not]
  constructor
  · intro hsubstitute
    exact ⟨hkeys, d, _, _, bytes, ⟨iv, sealed, plain, pkcs8, hparts, hopen, hdecoded, hd⟩, htext,
      hbytes, hsubstitute⟩
  · rintro ⟨-, d', seed', text', bytes', ⟨iv', sealed', plain', pkcs8', hparts', hopen', hdecoded', hd'⟩,
      htext', hbytes', hsubstitute⟩
    -- the blob and the text are read the same way in both
    obtain ⟨rfl, rfl⟩ := Prod.mk.inj (Except.ok.inj (hparts.symm.trans hparts'))
    obtain rfl : plain = plain' := Option.some_inj.mp (hopen.symm.trans hopen')
    obtain ⟨rfl, -⟩ := Prod.mk.inj (Except.ok.inj (hdecoded.symm.trans hdecoded'))
    obtain rfl : d = d' := Option.some_inj.mp (hd.symm.trans hd')
    rw [htext, Option.some_inj, Json.string.injEq] at htext'
    rw [← htext', hbytes, Option.some_inj] at hbytes'
    rwa [hbytes']

lemma initializeKeysFromPrf_own {accountId : String} {credentialId : Bytes} {session : Session CryptoKey}
    (h : run answer before (initializeKeysFromPrf c accountId prfOutput credentialId) = (.ok session, after)) :
    Generated c after session ∧ OwnEncapsulationKey c session ∧ OwnPublicKey c session := by
  obtain ⟨d, seed, iv, plain, blob, r, v, middle, sealed, -, -, rfl, hblob, rfl, rfl⟩ :=
    initializeKeysFromPrf_ok h
  have hkept := (isPrefix_of_run hblob).trans (List.prefix_append sealed [⟨.request r, .ok v⟩])
  refine ⟨⟨d, seed, hkept.subset (by simp), hkept.subset (by simp), rfl, rfl⟩,
    ⟨c.mlkemEk seed.toList, ?_, ?_⟩, d, rfl, ?_⟩
  · simp only [mlkemEkFromSeed, except_bind_ok, ensure_ok, except_pure_ok]
    exact ⟨(), by rw [List.Vector.toList_length, MLKEM_SEED_LEN], trivial⟩
  · exact c.b64uDecode_b64uEncode _
  · exact c.b64uDecode_b64uEncode _

end

/-! ### Restore -/

section

variable {Held : Unlock.Session CryptoKey → Prop} {Draws : Answers c → Prop}

variable (c) in
/-- A step, with what the platform draws in it. -/
def unlockStep (s : Unlock.State CryptoKey) (e : Answers c × Unlock.Event CryptoKey) :
    Option (Unlock.State CryptoKey) :=
  Unlock.step (unlockCrypto c e.1) s e.2

variable (c) in
def ValueOf (session : Unlock.Session CryptoKey) (value : StoredValue CryptoKey) : Prop :=
  ∃ draws hours sealKey sealIv now, value = unlockValue (unlockCrypto c draws) session hours sealKey sealIv now

variable (c) in
def RecordOf (session : Unlock.Session CryptoKey) (record : UnlockRecord CryptoKey) : Prop :=
  ∃ value, ValueOf c session value ∧ isRecordShaped value = some record

variable (c) in
def Probed (Draws : Answers c → Prop) (key : CryptoKey) (text : String) : Prop :=
  ∃ draws, Draws draws ∧ ∃ bytes, c.b64uDecode text = some bytes ∧
    ∃ transcript, run draws [] (kemKeypairMatches c key bytes) = (.ok true, transcript)

variable (c Held Draws) in
/-- A call works on sessions that were held; what it has checked so far holds. -/
def CallOf : Unlock.Call CryptoKey → Prop
  | .fetchingConfig session | .sealing session _ => Held session
  | .putting value => ∃ session, Held session ∧ ValueOf c session value
  | .askingMe record | .unsealing record => ∃ session, Held session ∧ RecordOf c session record
  | .matching record seed => ∃ session, Held session ∧ RecordOf c session record ∧ session.mlkemSeed = seed
  | .derivingEk record seed => ∃ session, Held session ∧ RecordOf c session record ∧ session.mlkemSeed = seed ∧
      Probed c Draws session.kemPrivateKey session.kemPubkeyX963
  | .restored (some session) => Held session ∧ Probed c Draws session.kemPrivateKey session.kemPubkeyX963 ∧
      OwnEncapsulationKey c session
  | _ => True

lemma callOf_idle : IgnoresIdle (CallOf c Held Draws) :=
  ⟨trivial, trivial, trivial, trivial, fun _ => trivial, fun _ => trivial⟩

variable {session : Unlock.Session CryptoKey} {record : UnlockRecord CryptoKey}
  {draws : Answers c}

lemma RecordOf.eq (h : RecordOf c session record) :
    ∃ sealKey sealIv expiresAt, record = ⟨session.accountId, session.kemPrivateKey, sealKey,
      some ((sealUnder c sealKey sealIv (sealAad session.accountId) session.mlkemSeed).getD []), some sealIv,
      session.kemPubkeyX963, session.kemPqPubkeyEk, session.wrappedKemPrivkeyBlob, expiresAt⟩ := by
  obtain ⟨_, ⟨draws, hours, sealKey, sealIv, now, rfl⟩, hrecord⟩ := h
  exact ⟨sealKey, sealIv, _, (Option.some_inj.mp hrecord).symm⟩

lemma openUnder_sealUnder {key : CryptoKey} {iv aad message opened : Bytes}
    (h : openUnder c key iv aad ((sealUnder c key iv aad message).getD []) = some opened) :
    message = opened := by
  cases key with
  | ecdh d => cases h
  | aesGcm key =>
    simp only [openUnder, sealUnder] at h
    cases hsealed : c.gcm.encrypt key iv message aad with
    | none =>
      -- nothing that opens is shorter than a tag
      rw [hsealed, Option.getD_none] at h
      have hlength := c.length_decrypt _ _ _ _ _ h
      rw [List.length_nil] at hlength
      omega
    | some sealed =>
      rw [hsealed, Option.getD_some, c.gcm.decrypt_encrypt _ _ _ _ _ hsealed] at h
      exact Option.some_inj.mp h

lemma unsealSeed_of_record
    {seed : Bytes} (h : RecordOf c session record)
    (hseed : unsealSeed (unlockCrypto c draws) record = some seed) : session.mlkemSeed = seed := by
  obtain ⟨sealKey, sealIv, expiresAt, rfl⟩ := h.eq
  exact openUnder_sealUnder hseed

lemma probed_of_keypairGate (hdraws : Draws draws)
    (h : RecordOf c session record)
    (hgate : keypairGate (unlockCrypto c draws) record = true) :
    Probed c Draws session.kemPrivateKey session.kemPubkeyX963 := by
  obtain ⟨sealKey, sealIv, expiresAt, rfl⟩ := h.eq
  obtain ⟨bytes, hbytes, hmatched⟩ := Option.bind_eq_some_iff.mp (of_decide_eq_true hgate)
  exact ⟨draws, hdraws, bytes, hbytes, _, Prod.ext (toOption_eq_some.mp hmatched) rfl⟩

lemma own_of_ekGate
    (h : RecordOf c session record)
    (hgate : ekGate (unlockCrypto c draws) record session.mlkemSeed = true) :
    OwnEncapsulationKey c session := by
  obtain ⟨sealKey, sealIv, expiresAt, rfl⟩ := h.eq
  unfold ekGate at hgate
  split at hgate
  · rename_i ek registered hek hregistered
    have heq := hexEncode_injective (of_decide_eq_true hgate)
    exact ⟨ek, toOption_eq_some.mp hek, by rw [heq]; exact hregistered⟩
  · cases hgate

lemma restoredSession_of_record
    (h : RecordOf c session record) : restoredSession record session.mlkemSeed = session := by
  obtain ⟨sealKey, sealIv, expiresAt, rfl⟩ := h.eq
  rfl

lemma callOf_afterGet {value : StoredValue CryptoKey} (now : ℚ)
    (h : ∃ session, Held session ∧ ValueOf c session value) :
    CallOf c Held Draws (afterGet (some value) now) := by
  obtain ⟨session, hheld, hvalue⟩ := h
  cases hrecord : isRecordShaped value with
  | none =>
    simp only [afterGet, hrecord]
    trivial
  | some record =>
    simp only [afterGet, hrecord]
    split_ifs
    · trivial
    · exact ⟨session, hheld, value, hvalue, hrecord⟩

lemma callOf_resume (hdraws : Draws draws) {call next : Unlock.Call CryptoKey}
    {e : Unlock.Event CryptoKey} (h : CallOf c Held Draws call)
    (hnext : call.resume (unlockCrypto c draws) e = some next) : CallOf c Held Draws next := by
  unfold Call.resume at hnext
  split at hnext
  · cases hnext
    exact h
  · rename_i session hours _ drawn now
    cases hnext
    cases drawn with
    | none => trivial
    | some drawn => exact ⟨session, h, draws, hours, drawn.1, drawn.2, now, rfl⟩
  · rename_i record _ answered
    cases hnext
    cases answered with
    | error status =>
      simp only [afterMe]
      split_ifs <;> trivial
    | ok me =>
      simp only [afterMe]
      split_ifs
      · exact h
      · trivial
  · rename_i record _
    cases hseed : unsealSeed (unlockCrypto c draws) record with
    | none =>
      rw [hseed] at hnext
      cases hnext
      trivial
    | some seed =>
      rw [hseed] at hnext
      cases hnext
      obtain ⟨session, hheld, hrecord⟩ := h
      exact ⟨session, hheld, hrecord, unsealSeed_of_record hrecord hseed⟩
  · cases hnext
    obtain ⟨session, hheld, hrecord, hseed⟩ := h
    split_ifs with hgate
    · exact ⟨session, hheld, hrecord, hseed, probed_of_keypairGate hdraws hrecord hgate⟩
    · trivial
  · cases hnext
    obtain ⟨session, hheld, hrecord, rfl, hprobed⟩ := h
    split_ifs with hgate
    · rw [restoredSession_of_record hrecord]
      exact ⟨hheld, hprobed, own_of_ekGate hrecord hgate⟩
    · trivial
  · cases hnext

lemma restored_was_held {events : List (Answers c × Unlock.Event CryptoKey)} {t : Unlock.State CryptoKey}
    (hrun : Automaton.run (unlockStep c) ⟨none, []⟩ events = some t)
    (hheld : ∀ draws session, (draws, .persist session) ∈ events → Held session)
    (hrestored : .restored (some session) ∈ t.calls) :
    Held session ∧
      Probed c (fun draws => ∃ e, (draws, e) ∈ events) session.kemPrivateKey session.kemPubkeyX963 ∧
      OwnEncapsulationKey c session := by
  have hrecords : Records (fun value => ∃ session, Held session ∧ ValueOf c session value)
      (CallOf c Held fun draws => ∃ e, (draws, e) ∈ events) t := by
    refine Automaton.invariant (Records _ _) ⟨fun _ h => (by cases h), fun _ h => (by cases h)⟩ ?_ hrun
    intro e he u v hu hstep
    refine hu.step callOf_idle ?_ (fun _ h => h) (fun _ now h => callOf_afterGet now h)
      (fun _ _ h hnext => callOf_resume ⟨e.2, he⟩ h hnext) hstep
    intro session hpersist
    exact hheld e.1 session (hpersist ▸ he)
  exact hrecords.calls _ hrestored

end

/-! ### What is wrapped to a session -/

variable (c) in
/-- Every key that is wrapped to the public keys of the first session is unwrapped by the second. -/
def OpensLater (s later : Session CryptoKey) : Prop :=
  ∀ answer before after key partyV envelope rkEc rkPq rkEc' rkPq',
    c.b64uDecode s.kemPubkeyX963 = some rkEc → c.b64uDecode s.kemPqPubkeyEk = some rkPq →
    c.b64uDecode later.kemPubkeyX963 = some rkEc' → c.b64uDecode later.kemPqPubkeyEk = some rkPq' →
    run answer before (hybridWrapTo c rkEc rkPq key partyV) = (.ok envelope, after) →
    hybridUnwrapWith c later.kemPrivateKey later.mlkemSeed envelope rkEc' rkPq' partyV = .ok key

lemma OwnEncapsulationKey.eq (h : OwnEncapsulationKey c s) :
    s.mlkemSeed.length = MLKEM_SEED_LEN ∧ c.b64uDecode s.kemPqPubkeyEk = some (c.mlkemEk s.mlkemSeed) := by
  obtain ⟨ek, hek, htext⟩ := h
  simp only [mlkemEkFromSeed, except_bind_ok, ensure_ok, except_pure_ok] at hek
  obtain ⟨_, hlength, rfl⟩ := hek
  exact ⟨hlength, htext⟩

lemma opensLater_of_own {later : Session CryptoKey} (hs : OwnPublicKey c s) (hsEk : OwnEncapsulationKey c s)
    (hlater : OwnPublicKey c later) (hlaterEk : OwnEncapsulationKey c later)
    (hkey : s.kemPrivateKey = later.kemPrivateKey) (hseed : s.mlkemSeed = later.mlkemSeed) :
    OpensLater c s later := by
  intro answer before after key partyV envelope rkEc rkPq rkEc' rkPq' hrkEc hrkPq hrkEc' hrkPq' hwrap
  obtain ⟨d, hd, htext⟩ := hs
  obtain ⟨d', hd', htext'⟩ := hlater
  obtain ⟨hlength, hek⟩ := hsEk.eq
  obtain ⟨-, hek'⟩ := hlaterEk.eq
  have hdd : d.1 = d'.1 := CryptoKey.ecdh.inj (hd.symm.trans (hkey.trans hd'))
  rw [htext, Option.some_inj] at hrkEc
  rw [htext', ← hdd, Option.some_inj] at hrkEc'
  rw [hek, Option.some_inj] at hrkPq
  rw [hek', ← hseed, Option.some_inj] at hrkPq'
  rw [← hrkEc, ← hrkPq] at hwrap
  rw [← hkey, hd, ← hseed, ← hrkEc', ← hrkPq']
  exact hybridUnwrapWith_of_wrapTo hlength hwrap

/-! ### A sign-in with either key -/

lemma fivePoints_kek (z : List.Vector UInt8 32) (partyV : Bytes) :
    ecdhEsA256kwKek fivePoints z.toList partyV = z.toList := by
  have hfirst : ∀ info : Bytes, firstBytes 32 (((toBeBytes 4 1 ++ z.toList) ++ info).drop 4) = z.toList := by
    intro info
    have hfront : (toBeBytes 4 1).length = 4 := by decide
    rw [List.append_assoc, List.drop_left' hfront, firstBytes, List.append_assoc,
      List.take_left' (List.Vector.toList_length z)]
  have hkdf : ecdhEsA256kwKek fivePoints z.toList partyV = (firstBytes 32 (((toBeBytes 4 1 ++ z.toList) ++
      joseOtherInfo (utf8 ECDH_ES_A256KW) [] partyV 256).drop 4) ++ []).take 32 := rfl
  rw [hkdf, hfirst, List.append_nil]
  exact List.take_of_length_le (List.Vector.toList_length z).le

lemma fivePoints_probesApart (key : CryptoKey) (text : String) (transcript : Transcript fivePoints) :
    ProbesApart fivePoints key text transcript := by
  intro d e bytes Q probe _ _ _ _ _ hopen
  rw [fivePoints_kek, fivePoints_kek] at hopen
  change (if (firstBytes 8 _ ++ _).take 8 = firstBytes 8 _ then _ else _) = _ at hopen
  split_ifs at hopen with htag
  rw [List.take_left' (length_firstBytes 8 _)] at htag
  exact congrArg (List.Vector.replicate 32) (List.head_eq_of_cons_eq htag)

def zeroKeyBlob : Bytes := [KEY_BLOB_V2] ++ pushField [1] ++ pushField (List.replicate 64 0)

def zeroIv : Bytes := List.replicate 12 0

def zeroKeyBlobSealed : Bytes := zeroKeyBlob ++ List.replicate 16 0

variable (P : ZMod 5)

def signInAnswer : Json := .object [
  ("options", .object [("publicKey", .object [("challenge", .string "")])]),
  ("account_id", .string "pat"),
  ("kem_pubkey", .string (hexEncode (exportRaw fivePoints P))),
  ("wrapped_kem_privkey_blob", kemPrivkeyWrap fivePoints zeroIv zeroKeyBlobSealed),
  ("kem_pq_pubkey", .string (hexEncode (List.replicate MLKEM1024_EK_LEN 0)))]

def signInOutside : Outside fivePoints Unit where
  view _ := ()
  server _ := .ok (some (signInAnswer P))
  create _ := .ok none
  get _ := .ok (some ⟨"any", [6], "public-key", [], [], [], none, ⟨some ⟨true, none, none⟩, []⟩⟩)
  randomBytes _ n := List.Vector.replicate n 0
  secret _ := ⟨1, one_mem_five⟩
  seed _ := List.Vector.replicate 64 0

def signInSession : Unlock.Session CryptoKey :=
  ⟨"pat", .ecdh 1, hexEncode (exportRaw fivePoints P), List.replicate 64 0,
    hexEncode (List.replicate MLKEM1024_EK_LEN 0), some (kemPrivkeyWrap fivePoints zeroIv zeroKeyBlobSealed)⟩

lemma signInAnswer_hasKeys : hasKeys (some (signInAnswer P)) = true := by
  change (true && truthy (some (.string (hexEncode (exportRaw fivePoints P))))) = true
  exact decide_eq_true (hexEncode_ne_empty (List.cons_ne_nil _ _))

def signInBegun : Transcript fivePoints :=
  let request : RequestOptions := ⟨[], none, none, none, none, none⟩
  let assertion : AssertionCredential := ⟨"any", [6], "public-key", [], [], [], none,
    ⟨some ⟨true, some (List.replicate 32 0), none⟩, []⟩⟩
  [⟨.request (.beginSignin "pat"), .ok (some (signInAnswer P))⟩, ⟨.get request, .ok (some assertion)⟩,
    ⟨.request (.completeSignin (jsonObject [("ceremony_id", none),
      ("credential", some (serializeAssertionResponse fivePoints assertion))])), .ok (some (signInAnswer P))⟩]

def signInTranscript : Transcript fivePoints :=
  signInBegun P ++ [⟨.decrypt (List.replicate 32 0) zeroIv zeroKeyBlobSealed KEM_WRAP_LABEL, some zeroKeyBlob⟩]
    ++ [⟨.getRandomValues 32, List.Vector.replicate 32 0⟩, ⟨.generateKey, ⟨1, one_mem_five⟩⟩]

lemma signIn_sample_unwraps : run ((signInOutside P).answer zeroPrf) (signInBegun P)
    (unwrapKemPrivkey fivePoints (List.replicate 32 0)
      (some (kemPrivkeyWrap fivePoints zeroIv zeroKeyBlobSealed))) =
      (.ok zeroKeyBlob,
        signInBegun P ++ [⟨.decrypt (List.replicate 32 0) zeroIv zeroKeyBlobSealed KEM_WRAP_LABEL,
          some zeroKeyBlob⟩]) := by
  apply unwrapKemPrivkey_ok.mpr
  refine ⟨zeroIv, zeroKeyBlobSealed, blobParts_kemPrivkeyWrap (by decide) (by decide), ?_⟩
  exact aesGcmOpenWith_ok.mpr ⟨List.length_replicate, by rfl, rfl⟩

lemma zeroKeyBlob_decoded : decodeKeyBlobV2 zeroKeyBlob = .ok ([1], List.replicate 64 0) := by
  apply decodeKeyBlobV2_of_encode (by decide)
  simp only [encodeKeyBlobV2, except_bind_ok, ensure_ok, except_pure_ok]
  exact ⟨(), by decide, (), List.length_replicate, rfl⟩

lemma zeroSeed_ek : mlkemEkFromSeed fivePoints (List.replicate 64 0) =
    .ok (List.replicate MLKEM1024_EK_LEN 0) := by
  simp only [mlkemEkFromSeed, except_bind_ok, ensure_ok, except_pure_ok]
  exact ⟨(), List.length_replicate, rfl⟩

lemma signIn_sample {P : ZMod 5} (hP : P = 1 ∨ P = -1) :
    run ((signInOutside P).answer zeroPrf) [] (signIn fivePoints "pat") =
    (.ok (signInSession P), signInTranscript P) := by
  have hne : P ≠ 0 := by rcases hP with rfl | rfl <;> decide
  have hbytes : fivePoints.b64uDecode (hexEncode (exportRaw fivePoints P)) = some (exportRaw fivePoints P) :=
    fivePoints.b64uDecode_b64uEncode _
  have hQ : fivePoints.importRaw (exportRaw fivePoints P) = some P := fivePoints.importRaw_exportRaw P hne
  have hrest : run ((signInOutside P).answer zeroPrf) (signInBegun P)
      (recoverKeys fivePoints (some (signInAnswer P)) (List.replicate 32 0)) =
        (.ok (signInSession P), signInTranscript P) := by
    have hek : fivePoints.b64uDecode (hexEncode (List.replicate MLKEM1024_EK_LEN 0)) =
        some (List.replicate MLKEM1024_EK_LEN 0) := fivePoints.b64uDecode_b64uEncode _
    have hekText : hexEncode (List.replicate MLKEM1024_EK_LEN 0) ≠ "" :=
      hexEncode_ne_empty fun h => absurd (congrArg List.length h) (by rw [List.length_replicate]; decide)
    apply recoverKeys_ok.mpr
    exact ⟨zeroKeyBlob, [1], ⟨1, one_mem_five⟩, exportRaw fivePoints P, List.replicate MLKEM1024_EK_LEN 0, _,
      List.length_replicate, signIn_sample_unwraps P, zeroKeyBlob_decoded, rfl, rfl, hbytes,
      kemKeypairMatches_of_opposite hQ hP rfl rfl, rfl, hekText, zeroSeed_ek, hek, rfl⟩
  simp only [signIn, signInGesture, ↓run_check_bind_ok, run_bind_ok, run_pure_ok, api_ok, gesture_ok]
  refine ⟨_, _, ⟨_, _, ⟨rfl, rfl⟩, _, rfl, _, rfl, _, _, ⟨rfl, rfl⟩, _, rfl, _, _, ⟨rfl, rfl⟩, rfl,
    rfl⟩, _, rfl, ?_⟩
  exact (congrArg (run _ _) (if_pos (signInAnswer_hasKeys P))).trans hrest

def zeroClient (_ : Bytes) : Set (Aead.Call Bytes Bytes Bytes) := {⟨zeroIv, KEM_WRAP_LABEL, zeroKeyBlob⟩}

lemma signIn_sample_sealed : OpensOnlySealed fivePoints zeroClient (signInTranscript P) := by
  intro key nonce sealed aad plain hmem message _
  have hquestion : (Question.decrypt key nonce sealed aad) ∈ (signInTranscript P).map Sigma.fst :=
    List.mem_map_of_mem hmem
  have hdecrypt : Question.decrypt key nonce sealed aad =
      .decrypt (List.replicate 32 0) zeroIv zeroKeyBlobSealed KEM_WRAP_LABEL := by
    simpa [signInTranscript, signInBegun] using hquestion
  obtain ⟨rfl, rfl, rfl, rfl⟩ := Question.decrypt.inj hdecrypt
  exact ⟨_, rfl, rfl, rfl, rfl⟩

/-- The keys of a session that a sign-in or a restore returns: the halves have a known origin and the
encapsulation key is that of the seed; the P-256 public key is the own one exactly if the server did
not send a substitute that passes the probe. With own keys on both sides, what is wrapped to one
session opens in every other one with the same halves. -/
theorem own_keys_iff (c : KeyPlatform Point) :
    (∀ (o : Outside c V) (prf : Prf) (email : String) (honest : Bytes → Set (Aead.Call Bytes Bytes Bytes))
        (session : Unlock.Session CryptoKey) (transcript : List (Exchange (FlowAnswer c))),
      run (o.answer prf) [] (signIn c email) = (.ok session, transcript) → OpensOnlySealed c honest transcript →
      ProbesApart c session.kemPrivateKey session.kemPubkeyX963 transcript →
      ∃ prfOutput result, SignInHeard transcript prfOutput result ∧
        (Generated c transcript session ∨ FromBlob c (honest (c.hkdfSha256 prfOutput [] KEM_WRAP_LABEL 32))
        session) ∧ OwnEncapsulationKey c session ∧
        (OwnPublicKey c session ↔ ¬AnswerSubstitutes c result prfOutput)) ∧
    (∀ (Held : Unlock.Session CryptoKey → Prop)
      (events : List (Surroundings (FlowAnswer c) × Unlock.Event CryptoKey))
        (t : Unlock.State CryptoKey) (session : Unlock.Session CryptoKey) (d : c.curve.Scalar) (bytes : Bytes),
      Automaton.run (unlockStep c) ⟨none, []⟩ events = some t →
      (∀ draws held, (draws, .persist held) ∈ events → Held held) → .restored (some session) ∈ t.calls →
      session.kemPrivateKey = .ecdh d.1 → c.b64uDecode session.kemPubkeyX963 = some bytes →
      (∀ draws e, (draws, e) ∈ events → ProbesApart c session.kemPrivateKey session.kemPubkeyX963
        (run draws [] (kemKeypairMatches c session.kemPrivateKey bytes)).2) →
      Held session ∧ OwnEncapsulationKey c session ∧ (OwnPublicKey c session ↔ ¬Substitute c d bytes)) ∧
    (∀ s later : Unlock.Session CryptoKey, OwnPublicKey c s → OwnEncapsulationKey c s → OwnPublicKey c later →
      OwnEncapsulationKey c later → s.kemPrivateKey = later.kemPrivateKey → s.mlkemSeed = later.mlkemSeed →
      OpensLater c s later) := by
  refine ⟨?_, ?_, fun s later => opensLater_of_own⟩
  · intro o prf email honest session transcript hrun hsealed hapart
    obtain ⟨prfOutput, result, middle, credentialId, hheard, ⟨hkeys, hrest⟩ | ⟨hkeys, hrest⟩⟩ := signIn_ok hrun
    · obtain ⟨hblob, hek, hiff⟩ := recoverKeys_own hrest hsealed hapart hkeys
      exact ⟨prfOutput, result, hheard, .inr hblob, hek, hiff⟩
    · obtain ⟨hgenerated, hek, hown⟩ := initializeKeysFromPrf_own hrest
      refine ⟨prfOutput, result, hheard, .inl hgenerated, hek, iff_of_true hown ?_⟩
      rintro ⟨htrue, -⟩
      rw [hkeys] at htrue
      cases htrue
  · intro Held events t session d bytes hrun hheld hrestored hkey hbytes hapart
    obtain ⟨hheldSession, ⟨draws, ⟨e, he⟩, bytes', hbytes', transcript, hprobe⟩, hek⟩ :=
      restored_was_held hrun hheld hrestored
    obtain rfl : bytes = bytes' := Option.some_inj.mp (hbytes.symm.trans hbytes')
    have hprobes := hapart draws e he
    rw [hprobe] at hprobes
    rw [hkey] at hprobe
    exact ⟨hheldSession, hek, ownPublicKey_iff_of_probe hkey hbytes hprobe hprobes⟩

theorem own_keys_after_signIn : OwnPublicKey fivePoints (signInSession 1) ∧
    ∃ prfOutput result, SignInHeard (signInTranscript 1) prfOutput result ∧
      OwnEncapsulationKey fivePoints (signInSession 1) ∧ ¬AnswerSubstitutes fivePoints result prfOutput := by
  have hown : OwnPublicKey fivePoints (signInSession 1) :=
    ⟨⟨1, one_mem_five⟩, rfl, fivePoints.b64uDecode_b64uEncode _⟩
  obtain ⟨prfOutput, result, hheard, -, hek, hiff⟩ := (own_keys_iff fivePoints).1 (signInOutside 1) zeroPrf
    "pat" zeroClient (signInSession 1) (signInTranscript 1) (signIn_sample (.inl rfl)) (signIn_sample_sealed 1)
    (fivePoints_probesApart _ _ _)
  exact ⟨hown, prfOutput, result, hheard, hek, hiff.mp hown⟩

/-- A server that sends the opposite of the public key: the session has that key. -/
theorem opposite_key_signs_in : ∃ session transcript,
    run ((signInOutside (-1)).answer zeroPrf) [] (signIn fivePoints "pat") = (.ok session, transcript) ∧
    OpensOnlySealed fivePoints zeroClient transcript ∧
    ProbesApart fivePoints session.kemPrivateKey session.kemPubkeyX963 transcript ∧
    ¬OwnPublicKey fivePoints session := by
  refine ⟨_, _, signIn_sample (.inr rfl), signIn_sample_sealed (-1), fivePoints_probesApart _ _ _, ?_⟩
  rintro ⟨d, hkey, htext⟩
  have hd : 1 = d.1 := CryptoKey.ecdh.inj hkey
  have hbytes := (fivePoints.b64uDecode_b64uEncode (exportRaw fivePoints (-1))).symm.trans htext
  rw [← hd] at hbytes
  revert hbytes
  decide

end SignetDrive.Proofs
