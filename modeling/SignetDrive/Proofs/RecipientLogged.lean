import SignetDrive.Proofs.RecipientVerify

/-!
# Whose keys are in the log

On the attestation path the receipts are counted and matched to the attestation's fingerprints, never
to its keys.
-/

namespace SignetDrive.Proofs
open Client Program

/-- A receipt was accepted for each of the two keys. -/
def KeysLogged (p : Primitives) (keys : RecipientWrapKeys) (accepted : List (Accepted p)) : Prop :=
  (∃ fp ∈ p.fingerprint keys.rkEc, Logged "kem" fp accepted) ∧
    ∃ rkPq ∈ keys.rkPq, Logged "kem_pq" (p.fingerprintRaw rkPq) accepted

lemma keysLogged_iff {p : Primitives} {keys : RecipientWrapKeys} {accepted : List (Accepted p)} {fp : String}
    {rkPq : Bytes} (hfp : p.fingerprint keys.rkEc = some fp) (hrkPq : keys.rkPq = some rkPq) :
    KeysLogged p keys accepted ↔
      Logged "kem" fp accepted ∧ Logged "kem_pq" (p.fingerprintRaw rkPq) accepted := by
  simp [KeysLogged, hfp, hrkPq]

/-- The answer for the attestation that the bundle names carries the receipts of the two KEM keys, and
the attestation states the bundle's fingerprints. -/
def AttestationLogsKeys (server : HttpServer) (sent : List String) (serverUrl : String)
    (bundle : Json) : Prop :=
  ∃ id response attestation, bundle.getStr "attestation_id" = some id ∧
    server (sent ++ [attestationUrl serverUrl id]) = .ok response ∧
    response.get "attestation" = some attestation ∧
    (response.get "subject_kem_pubkey_receipt").isSome ∧
    (response.get "subject_kem_pq_pubkey_receipt").isSome ∧
    attestation.getStr "subject_kem_pubkey_fingerprint" = bundle.getStr "kem_pubkey_fingerprint" ∧
    attestation.getStr "subject_kem_pq_pubkey_fingerprint" =
      bundle.getStr "kem_pq_pubkey_fingerprint"

/-- Whatever the server answers, the keys a writer takes are logged exactly if the recipient is
not a PRSN or the attestation answer logs them. -/
theorem verifiedWrapKeys_keysLogged_iff (p : Primitives) (server : HttpServer) (trust : ServerTrust)
    (serverUrl : String) (bundle : Json) (expectation : HandleExpectation) (who : String)
    (sent : List String) (keys : RecipientWrapKeys) (s' : Session String (Accepted p))
    (h : verifiedWrapKeys p server trust serverUrl bundle expectation who ⟨sent, []⟩ =
      .ok (keys, s')) :
    KeysLogged p keys s'.noted ↔
      ∀ handle, bundle.getStr "handle" = some handle → isPrsn handle →
        AttestationLogsKeys server sent serverUrl bundle := by
  obtain ⟨handle, hhandle, _, hkeys, _, accountId, proof, _, _, hpath⟩ := verifiedWrapKeys_ok.mp h
  obtain ⟨fp, rkPq, hfp, hstated, hrkPq, hstatedPq⟩ := verifyRecipientWrapKeys_ok hkeys
  rw [keysLogged_iff hfp hrkPq]
  simp only [hhandle, Option.some.injEq, forall_eq']
  by_cases hprsn : isPrsn handle
  · obtain ⟨id, response, att, hid, hresponse, hatt, hlogged⟩ :=
      verifiedWrapKeys_logged_prsn h hhandle hprsn
    have hcond : AttestationLogsKeys server sent serverUrl bundle ↔
        (response.get "subject_kem_pubkey_receipt").isSome ∧
          (response.get "subject_kem_pq_pubkey_receipt").isSome ∧
          att.getStr "subject_kem_pubkey_fingerprint" = some fp ∧
          att.getStr "subject_kem_pq_pubkey_fingerprint" = some (p.fingerprintRaw rkPq) := by
      simp [AttestationLogsKeys, hid, hresponse, hatt, hstated, hstatedPq]
    simp only [hprsn, true_imp_iff, hcond, hlogged]
    simp [inlineReceipts]
    tauto
  · rw [if_neg hprsn] at hpath
    obtain ⟨_, fpEc, fpPq, _, _, _, a, a', _, hec, hpq, _, _, _, ha, ha', rfl⟩ :=
      verifyAgainstReceipts_noted hpath
    rw [hstated, Option.some.injEq] at hec
    rw [hstatedPq, Option.some.injEq] at hpq
    subst hec hpq
    have hboth (purpose fp : String) : Logged purpose fp [a, a'] ↔ Logged purpose fp [a] ∨
        Logged purpose fp [a'] := by
      rw [← List.singleton_append, logged_append]
    exact ⟨fun _ hprsn' => absurd hprsn' hprsn,
      fun _ => ⟨(hboth _ _).mpr (.inl ha.logged), (hboth _ _).mpr (.inr ha'.logged)⟩⟩

def ecKey : Bytes := toBeBytes 65
  0x046b17d1f2e12c4247f8bce6e563a440f277037d812deb33a0f4a13945d898c2964fe342e2fe1a7f9b8ee7eb4a7c0f9e162bce33576b315ececbb6406837bf51f5

def ecKeyB64 : String :=
  "BGsX0fLhLEJH-Lzm5WOkQPJ3A32BLeszoPShOUXYmMKWT-NC4v4af5uO5-tKfA-eFivOM1drMV7Oy7ZAaDe_UfU"

def ecKeyDer : Bytes := toBeBytes 26 0x3059301306072a8648ce3d020106082a8648ce3d030107034200 ++ ecKey

def ecKeyHash : Hash := hashOfNat 0x5cd252fb0ce8932436faf8ccd1040981b89ee4ad6b9fe9e2a2b7e71aacb27cd3

def ecKeyFp : String := hexEncode ecKeyHash.toList

def pqKey : Bytes := List.replicate 1568 0

def pqKeyHash : Hash := hashOfNat 0x7fbcfcd86bdfa943dbd68f67c3fcba6e7ab86fda2d14d28862c176bf18579fca

def pqKeyFp : String := hexEncode pqKeyHash.toList

def pairHash : Hash := hashOfNat 0x3e85b4acd7a994adde089feff6941c02f81dfe58fc54fba768aece2421d0078b

def pairRfp : String := hexEncode pairHash.toList

def zerosB64 (chars : ℕ) : String := String.ofList (List.replicate chars 'A')

def samplePrimitives : Primitives where
  base64UrlDecode s :=
    if s.toList.all (· = 'A') then some (List.replicate (s.toList.length * 3 / 4) 0)
    else if s = ecKeyB64 then some ecKey else none
  hexDecode _ := none
  jsonText _ := ""
  debugStr s := "\"" ++ s ++ "\""
  jcsToVec
    | .object members => some (utf8 ("\x7b" ++ ",".intercalate (members.map fun m =>
        "\"" ++ m.1 ++ "\":\"" ++ m.2.asStr.getD "" ++ "\"") ++ "\x7d"))
    | _ => none
  sha256 bytes :=
    if bytes = ecKeyDer then ecKeyHash else if bytes = pqKey then pqKeyHash else pairHash
  fromSec1Bytes bytes := bytes = ecKey
  toPublicKeyDer bytes := if bytes = ecKey then some ecKeyDer else none
  verifyEs256 _ _ _ := true
  mldsa87Decodes _ := true
  mldsa87Verifies _ _ _ _ := true
  uuidParse _ := none
  vrfVerify _ _ _ := none

def sampleTrust : ServerTrust where
  info := .object [("current_signing_keys", .array
    [.object [("key_id", .string "es-1"), ("public_key", .string ecKeyB64),
        ("purpose", .string "attestation_verification")],
      .object [("key_id", .string "pq-1"), ("public_key", .string (zerosB64 3456)),
        ("purpose", .string "attestation_verification_pq")]])]
  mode := .legacy
  epoch := 1

def sampleBundle : Json := .object
  [("account_id", .string "pat"), ("attestation_id", .string "1"), ("handle", .string "pat-ai"),
    ("kem_pq_pubkey", .string (zerosB64 2091)), ("kem_pq_pubkey_fingerprint", .string pqKeyFp),
    ("kem_pubkey", .string ecKeyB64), ("kem_pubkey_fingerprint", .string ecKeyFp)]

def sampleReceipt (purpose fp : String) : Json := .object
  [("key_purpose", .string purpose), ("public_key_fingerprint", .string fp),
    ("server_key_id", .string "es-1"), ("server_pq_key_id", .string "pq-1"),
    ("server_signature", .string (zerosB64 86)),
    ("server_signature_mldsa87", .string (zerosB64 6170))]

def sampleAttestation : Json := .object
  [("rfp", .string pairRfp), ("status", .string "active"), ("subject_account_id", .string "pat"),
    ("subject_handle", .string "pat-ai"), ("subject_kem_pq_pubkey", .string (zerosB64 2091)),
    ("subject_kem_pq_pubkey_fingerprint", .string pqKeyFp),
    ("subject_kem_pubkey", .string ecKeyB64), ("subject_kem_pubkey_fingerprint", .string ecKeyFp),
    ("subject_signing_pubkey_fingerprint", .string ecKeyFp)]

def sampleResponse (receipts : List (String × Json)) : Json := .object
  ([("attestation", sampleAttestation), ("server_key_id", .string "es-1"),
    ("server_pq_key_id", .string "pq-1"), ("server_signature", .string (zerosB64 86)),
    ("server_signature_mldsa87", .string (zerosB64 6170)),
    ("signed_at", .number (.posInt 1700000000))] ++ receipts)

def kemReceipts : List (String × Json) :=
  [("subject_kem_pq_pubkey_receipt", sampleReceipt "kem_pq" pqKeyFp),
    ("subject_kem_pubkey_receipt", sampleReceipt "kem" ecKeyFp)]

def signingReceipts : List (String × Json) :=
  [("subject_kem_pubkey_receipt", sampleReceipt "kem" ecKeyFp),
    ("subject_signing_pubkey_receipt", sampleReceipt "signing" ecKeyFp)]

lemma samplePrimitives_zerosB64 (n : ℕ) :
    samplePrimitives.base64UrlDecode (zerosB64 n) = some (List.replicate (n * 3 / 4) 0) := by
  simp [samplePrimitives, zerosB64]

lemma samplePrimitives_ecKeyB64 : samplePrimitives.base64UrlDecode ecKeyB64 = some ecKey := by
  have hall : ecKeyB64.toList.all (· = 'A') = false := by
    simp [ecKeyB64]
  simp only [samplePrimitives, hall]
  simp

lemma samplePrimitives_fingerprint : samplePrimitives.fingerprint ecKey = some ecKeyFp := by
  simp [Primitives.fingerprint, samplePrimitives, ecKeyFp]

lemma samplePrimitives_fingerprintRaw : samplePrimitives.fingerprintRaw pqKey = pqKeyFp := by
  have hne : pqKey ≠ ecKeyDer := by
    intro h
    exact absurd (congrArg List.head? h) (by decide)
  simp only [Primitives.fingerprintRaw, samplePrimitives, if_neg hne, if_true, pqKeyFp]

lemma samplePrimitives_hybridRfp : hybridRfp samplePrimitives ecKey pqKey = some pairRfp := by
  have hlen : pqKey.length = MLKEM1024_EK_LEN := List.length_replicate
  have hder : pushField ecKey ++ pushField pqKey ≠ ecKeyDer := by
    intro h
    exact absurd (congrArg List.head? h) (by decide)
  have hpq : pushField ecKey ++ pushField pqKey ≠ pqKey := by
    intro h
    have hlen' := congrArg List.length h
    simp [pushField, hlen] at hlen'
    omega
  have hcond : ecKey.length = 65 ∧ ecKey.head? = some 0x04 ∧ samplePrimitives.fromSec1Bytes ecKey ∧
      pqKey.length = MLKEM1024_EK_LEN := ⟨rfl, by decide, by simp [samplePrimitives], hlen⟩
  simp only [hybridRfp, if_pos hcond]
  simp only [samplePrimitives, if_neg hder, if_neg hpq, pairRfp]

lemma samplePrimitives_mldsa87 (msg ctx : Bytes) :
    samplePrimitives.verifyMldsa87 (List.replicate 2592 0) msg ctx (List.replicate 4627 0) =
      .ok () := by
  simp only [Primitives.verifyMldsa87, except_bind_ok, ensure_ok, exists_const,
    List.length_replicate]
  exact ⟨trivial, trivial, rfl, rfl⟩

lemma sampleReceipt_ok (purpose fp : String) :
    samplePrimitives.verifyOneReceipt (sampleReceipt purpose fp) fp .attested purpose ecKey
      (some (List.replicate 2592 0)) = .ok () := by
  simp only [Primitives.verifyOneReceipt, except_bind_ok, okOr_ok, ensure_ok, exists_const]
  refine ⟨fp, rfl, rfl, (), rfl, rfl, zerosB64 86, rfl, _, samplePrimitives_zerosB64 86, rfl, _, rfl, rfl, ?_⟩
  simp only [Primitives.checkCosignature]
  rw [if_pos (by rfl)]
  simp only [except_bind_ok, okOr_ok]
  refine ⟨zerosB64 6170, rfl, _, rfl, _, samplePrimitives_zerosB64 6170, ?_⟩
  rw [samplePrimitives_mldsa87]

lemma sampleTrust_es : ServerTrust.findKeyById samplePrimitives sampleTrust.info "es-1" = .ok (some ecKey) := by
  apply findKeyById_of_find rfl
  simp only [publicKeyOf, except_bind_ok, okOr_ok]
  exact ⟨_, rfl, samplePrimitives_ecKeyB64⟩

lemma sampleTrust_pq :
    ServerTrust.findKeyById samplePrimitives sampleTrust.info "pq-1" = .ok (some (List.replicate 2592 0)) := by
  apply findKeyById_of_find rfl
  simp only [publicKeyOf, except_bind_ok, okOr_ok]
  exact ⟨_, rfl, samplePrimitives_zerosB64 3456⟩

lemma verifyPresentReceipts_sample {response : Json} (fields : List (String × String × String))
    (hfields : ∀ f ∈ fields, response.get f.1 = none ∨ ∃ fp,
      response.get f.1 = some (sampleReceipt f.2.2 fp) ∧ sampleAttestation.getStr f.2.1 = some fp)
    (s : Session String (Accepted samplePrimitives)) :
    ∃ s', verifyPresentReceipts samplePrimitives response sampleAttestation ecKey
        (some (List.replicate 2592 0)) .attested (some 1) fields s =
      .ok ((fields.filter fun f => (response.get f.1).isSome).length, s') := by
  induction fields generalizing s with
  | nil => exact ⟨s, rfl⟩
  | cons f rest ih =>
    obtain ⟨receiptField, fpField, purpose⟩ := f
    have hrest := ih fun f hf => hfields f (List.mem_cons_of_mem _ hf)
    rcases hfields _ List.mem_cons_self with hnone | ⟨fp, hsome, hfp⟩
    · obtain ⟨s', hs'⟩ := hrest s
      simp only at hnone
      refine ⟨s', ?_⟩
      simp only [verifyPresentReceipts, hnone, hs', List.filter_cons, Option.isSome_none]
      rfl
    · simp only at hsome hfp
      have hnote := verifyAndNote_of_ok (s := s) (sampleReceipt_ok purpose fp)
      obtain ⟨s', hs'⟩ := hrest _
      refine ⟨s', ?_⟩
      simp only [verifyPresentReceipts, hsome, bind_ok, check_ok, okOr_ok, pure_ok]
      exact ⟨(), s, ⟨rfl, rfl⟩, fp, s, ⟨hfp, rfl⟩, (), _, hnote, _, s', hs', by simp [hsome], rfl⟩

lemma sampleKeys_of_fields (bundle : Json) (who : String) (hk : bundle.getStr "kem_pubkey" = some ecKeyB64)
    (hfp : bundle.getStr "kem_pubkey_fingerprint" = some ecKeyFp)
    (hpqKey : bundle.getStr "kem_pq_pubkey" = some (zerosB64 2091))
    (hpqFp : bundle.getStr "kem_pq_pubkey_fingerprint" = some pqKeyFp) :
    verifyRecipientWrapKeys samplePrimitives bundle who = .ok ⟨ecKey, some pqKey⟩ := by
  have hec : verifyRecipientKemPub samplePrimitives bundle who = .ok ecKey := by
    simp only [verifyRecipientKemPub, except_bind_ok, okOr_ok, ensure_ok, except_pure_ok,
      exists_const]
    exact ⟨_, hk, ecKeyFp, hfp, ecKey, samplePrimitives_ecKeyB64, ecKeyFp,
      samplePrimitives_fingerprint, rfl, rfl⟩
  have hpq : verifyRecipientKemPqPub samplePrimitives bundle who = .ok pqKey := by
    simp only [verifyRecipientKemPqPub, hpqKey, hpqFp, except_bind_ok, okOr_ok, ensure_ok,
      except_pure_ok, exists_const]
    exact ⟨pqKey, samplePrimitives_zerosB64 2091, List.length_replicate,
      samplePrimitives_fingerprintRaw, rfl⟩
  simp only [verifyRecipientWrapKeys, except_bind_ok, except_pure_ok]
  exact ⟨ecKey, hec, pqKey, hpq, rfl⟩

lemma sampleAttestation_keys :
    attestedKeys samplePrimitives sampleAttestation "pat-ai" "pat" = .ok (ecKey, pqKey) := by
  simp only [attestedKeys, decodeB64, except_bind_ok, okOr_ok, ensure_ok, except_pure_ok,
    exists_const]
  exact ⟨ecKey, ⟨_, rfl, samplePrimitives_ecKeyB64⟩, _, rfl, pqKey, samplePrimitives_zerosB64 2091,
    pairRfp, samplePrimitives_hybridRfp, pairRfp, rfl, rfl, rfl⟩

lemma sampleAttestation_signed (signedAt : I64) :
    ∃ bytes, samplePrimitives.verificationSigningInput sampleAttestation "es-1" signedAt =
      some bytes := by
  have hkeys : sampleAttestation.checkKeys = true := rfl
  have hjcs : ∃ bytes, samplePrimitives.jcsToVec sampleAttestation = some bytes := ⟨_, rfl⟩
  obtain ⟨bytes, hbytes⟩ := hjcs
  simp [Primitives.verificationSigningInput, Primitives.toCanonicalBytes, hkeys, hbytes]

lemma sampleResponse_verified {receipts : List (String × Json)}
    (hfields : ∀ f ∈ inlineReceipts, (sampleResponse receipts).get f.1 = none ∨ ∃ fp,
      (sampleResponse receipts).get f.1 = some (sampleReceipt f.2.2 fp) ∧
        sampleAttestation.getStr f.2.1 = some fp)
    (htwo : (inlineReceipts.filter fun f => ((sampleResponse receipts).get f.1).isSome).length = 2)
    (server : HttpServer) (serverUrl : String) (s : Session String (Accepted samplePrimitives)) :
    ∃ s', verifyVerificationResponse samplePrimitives server sampleTrust serverUrl
      (sampleResponse receipts) "pat" s = .ok (sampleAttestation, s') := by
  obtain ⟨s', hpresent⟩ := verifyPresentReceipts_sample inlineReceipts hfields s
  rw [htwo] at hpresent
  obtain ⟨input, hinput⟩ := sampleAttestation_signed 1700000000
  refine ⟨s', verifyVerificationResponse_ok.mpr ?_⟩
  refine ⟨rfl, "es-1", rfl, _, rfl, zerosB64 86, rfl, _, samplePrimitives_zerosB64 86, input, hinput,
    ecKey, s, keyById_of_found sampleTrust_es, rfl, _, s, keyById_of_found sampleTrust_pq,
    zerosB64 6170, rfl, _, samplePrimitives_zerosB64 6170, samplePrimitives_mldsa87 _ _, "pat", rfl,
    none, rfl, ?_⟩
  simp only [verifyInlineReceipts, bind_ok, pure_ok]
  exact ⟨2, s', hpresent, rfl, rfl⟩

lemma isPrsn_sample : isPrsn "pat-ai" := by
  refine ⟨['p', 'a', 't'], ?_⟩
  simp

def sampleRun (receipts : List (String × Json)) :
    Except CliError (RecipientWrapKeys × Session String (Accepted samplePrimitives)) :=
  verifiedWrapKeys samplePrimitives (fun _ => .ok (sampleResponse receipts)) sampleTrust "server"
    sampleBundle (.userNamed "pat-ai") "pat" ⟨[], []⟩

lemma sampleRun_ok {receipts : List (String × Json)}
    (hfields : ∀ f ∈ inlineReceipts, (sampleResponse receipts).get f.1 = none ∨ ∃ fp,
      (sampleResponse receipts).get f.1 = some (sampleReceipt f.2.2 fp) ∧
        sampleAttestation.getStr f.2.1 = some fp)
    (htwo : (inlineReceipts.filter fun f => ((sampleResponse receipts).get f.1).isSome).length = 2) :
    ∃ s', sampleRun receipts = .ok (⟨ecKey, some pqKey⟩, s') := by
  obtain ⟨s', hresponse⟩ := sampleResponse_verified hfields htwo
    (fun _ => .ok (sampleResponse receipts)) "server" ⟨[attestationUrl "server" "1"], []⟩
  refine ⟨s', verifiedWrapKeys_ok.mpr ?_⟩
  refine ⟨"pat-ai", rfl, rfl, sampleKeys_of_fields _ "pat" rfl rfl rfl rfl, rfl, "pat", none, rfl, rfl, ?_⟩
  rw [if_pos isPrsn_sample]
  exact verifyAgainstAttestation_ok.mpr ⟨"1", rfl, _, rfl, _, hresponse, rfl, rfl, pqKey,
    sampleAttestation_keys, rfl⟩

lemma signingReceipts_fields : ∀ f ∈ inlineReceipts,
    (sampleResponse signingReceipts).get f.1 = none ∨ ∃ fp,
      (sampleResponse signingReceipts).get f.1 = some (sampleReceipt f.2.2 fp) ∧
        sampleAttestation.getStr f.2.1 = some fp := by
  simp only [inlineReceipts, List.forall_mem_cons]
  exact ⟨Or.inr ⟨_, rfl, rfl⟩, Or.inr ⟨_, rfl, rfl⟩, Or.inl rfl, Or.inl rfl, by simp⟩

lemma kemReceipts_fields : ∀ f ∈ inlineReceipts,
    (sampleResponse kemReceipts).get f.1 = none ∨ ∃ fp,
      (sampleResponse kemReceipts).get f.1 = some (sampleReceipt f.2.2 fp) ∧
        sampleAttestation.getStr f.2.1 = some fp := by
  simp only [inlineReceipts, List.forall_mem_cons]
  exact ⟨Or.inl rfl, Or.inr ⟨_, rfl, rfl⟩, Or.inl rfl, Or.inr ⟨_, rfl, rfl⟩, by simp⟩

/-- The answer carries the receipt of the signing key in place of that of the ML-KEM key. -/
theorem verifiedWrapKeys_pq_unlogged :
    ∃ keys s', sampleRun signingReceipts = .ok (keys, s') ∧
      ¬ KeysLogged samplePrimitives keys s'.noted := by
  obtain ⟨s', hrun⟩ := sampleRun_ok signingReceipts_fields rfl
  refine ⟨_, s', hrun, ?_⟩
  obtain ⟨id, response, att, _, hresponse, _, hlogged⟩ :=
    verifiedWrapKeys_logged_prsn hrun rfl isPrsn_sample
  obtain rfl : sampleResponse signingReceipts = response := Except.ok.inj hresponse
  rintro ⟨-, rkPq, -, hkemPq⟩
  rw [hlogged] at hkemPq
  obtain ⟨f, hf, hpurpose, hpresent, -⟩ := hkemPq
  simp only [inlineReceipts, List.mem_cons, List.not_mem_nil, or_false] at hf
  rcases hf with rfl | rfl | rfl | rfl
  · simp at hpurpose
  · simp at hpurpose
  · simp at hpurpose
  · cases hpresent

theorem verifiedWrapKeys_keysLogged_iff_prsn :
    ∃ keys s', sampleRun kemReceipts = .ok (keys, s') ∧
      KeysLogged samplePrimitives keys s'.noted := by
  obtain ⟨s', hrun⟩ := sampleRun_ok kemReceipts_fields rfl
  refine ⟨_, s', hrun, (verifiedWrapKeys_keysLogged_iff _ _ _ _ _ _ _ _ _ _ hrun).mpr ?_⟩
  intro handle _ _
  exact ⟨"1", _, _, rfl, rfl, rfl, rfl, rfl, rfl, rfl⟩

end SignetDrive.Proofs
