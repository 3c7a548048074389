import SignetDrive.Proofs.RecipientLogged

/-!
# Which records carry both signatures

A receipt shows an ML-DSA-87 signature only if it names a PQ key, and whether it does is up to the
server.
-/

namespace SignetDrive.Proofs
open Client Program Primitives ServerTrust

section

variable (p : Primitives) (server : HttpServer) (trust : ServerTrust) (serverUrl : String)

/-- The record carries an ML-DSA-87 signature over the input that verifies under the key. -/
def SignedUnder (vk : Bytes) (record : Json) (input : Option Bytes) (ctx : Bytes) : Prop :=
  ∃ sigB64 sig msg, record.getStr "server_signature_mldsa87" = some sigB64 ∧
    p.base64UrlDecode sigB64 = some sig ∧ input = some msg ∧ p.verifyMldsa87 vk msg ctx sig = .ok ()

/-- The ML-DSA-87 signature of the receipt verifies under the key. -/
def CosignedUnder (vk : Bytes) (receipt : Json) : Prop :=
  SignedUnder p vk receipt (p.receiptSigningInput (unsigned receipt)) Primitives.RECEIPT_MLDSA_CTX

def Cosigned (sent : List String) (receipt : Json) : Prop :=
  ∃ vk, ServerInfoKey p server trust serverUrl sent vk ∧ CosignedUnder p vk receipt

/-- The response is signed with ML-DSA-87 over the attestation in it, under a key of server-info. -/
def ResponseCosigned (sent : List String) (response : Json) : Prop :=
  ∃ attestation keyId signedAt vk, response.get "attestation" = some attestation ∧
    response.getStr "server_key_id" = some keyId ∧
    (response.get "signed_at").bind Json.asI64 = some signedAt ∧
    ServerInfoKey p server trust serverUrl sent vk ∧
    SignedUnder p vk response (p.verificationSigningInput attestation keyId signedAt)
      Primitives.SERVER_VERIFY_MLDSA_CTX

/-- The receipts that the server serves for a bundle, after the requests. -/
def servedReceipts (bundle : Json) (sent : List String) : Option (List Json) := do
  let handle ← bundle.getStr "handle"
  if isPrsn handle then
    let id ← bundle.getStr "attestation_id"
    let response ← (server (sent ++ [attestationUrl serverUrl id])).toOption
    return inlineReceipts.filterMap fun f => response.get f.1
  else
    let fpEc ← bundle.getStr "kem_pubkey_fingerprint"
    let fpPq ← bundle.getStr "kem_pq_pubkey_fingerprint"
    let asked := sent ++ [receiptUrl serverUrl fpEc "kem" trust.epoch]
    let kem ← (server asked).toOption
    let asked := asked ++ keyRequests p trust serverUrl (kem.getStr "server_key_id") ++
      [receiptUrl serverUrl fpPq "kem_pq" trust.epoch]
    let kemPq ← (server asked).toOption
    return [kem, kemPq]

/-- The primitives under which no ML-DSA-87 signature verifies. -/
def withoutMldsa : Primitives := { p with mldsa87Verifies := fun _ _ _ _ => false }

variable {p} in
/-- The receipt was accepted on its ES256 signature alone. -/
def Accepted.classical (a : Accepted p) : Prop :=
  (withoutMldsa p).verifyOneReceipt a.receipt a.assertedFp a.binding a.expectedPurpose a.serverPub
    a.serverPqVk = .ok ()

/-- Every record that the call rests on is co-signed under a key of server-info, and no receipt was
accepted without its co-signature. -/
def RecordsCosigned (bundle : Json) (sent : List String) (s : Session String (Accepted p)) : Prop :=
  (∀ a ∈ s.noted, Cosigned p server trust serverUrl s.sent a.receipt ∧ ¬ Accepted.classical a) ∧
    ∀ handle, bundle.getStr "handle" = some handle → isPrsn handle →
      ∃ id response, bundle.getStr "attestation_id" = some id ∧
        server (sent ++ [attestationUrl serverUrl id]) = .ok response ∧
        ResponseCosigned p server trust serverUrl s.sent response

end

section

variable {p : Primitives} {server : HttpServer} {trust : ServerTrust} {serverUrl : String}
  {s s' : Session String (Accepted p)}

variable {vk : Bytes} {binding : AccountBinding}

lemma unsigned_names (receipt : Json) :
    (unsigned receipt).get "server_pq_key_id" = receipt.get "server_pq_key_id" := by
  rw [unsigned, Json.get_remove_of_ne (by decide), Json.get_remove_of_ne (by decide)]

variable {receipt : Json}

lemma checkCosignature_ok {msg vk : Bytes} {purpose : String} {u : Unit}
    (hmsg : p.receiptSigningInput (unsigned receipt) = some msg)
    (hnames : (receipt.get "server_pq_key_id").isSome) :
    p.checkCosignature receipt msg purpose (some vk) = .ok u ↔ CosignedUnder p vk receipt := by
  rw [checkCosignature, if_pos (by rwa [unsigned_names])]
  simp only [except_bind_ok, okOr_ok, Option.some.injEq, exists_eq_left']
  constructor
  · rintro ⟨sigB64, hsigB64, sig, hsig, hok⟩
    refine ⟨sigB64, sig, msg, hsigB64, hsig, hmsg, ?_⟩
    split at hok
    next hverify => exact hverify
    · cases hok
  · rintro ⟨sigB64, sig, msg', hsigB64, hsig, hmsg', hverify⟩
    obtain rfl := Option.some.inj (hmsg.symm.trans hmsg')
    exact ⟨sigB64, hsigB64, sig, hsig, by rw [hverify]⟩

lemma verifyOneReceipt_cosigned {fp purpose : String} {pub vk : Bytes}
    (h : p.verifyOneReceipt receipt fp binding purpose pub (some vk) = .ok ())
    (hnames : (receipt.get "server_pq_key_id").isSome) : CosignedUnder p vk receipt := by
  simp only [verifyOneReceipt, except_bind_ok, okOr_ok, ensure_ok] at h
  obtain ⟨_, _, _, _, _, _, _, _, _, _, _, _, _, _, msg, hmsg, _, _, hcosign⟩ := h
  exact (checkCosignature_ok hmsg hnames).mp hcosign

lemma names_of_not_classical {a : Accepted p} (h : ¬ Accepted.classical a) :
    (a.receipt.get "server_pq_key_id").isSome := by
  by_contra hnames
  -- without the name the co-signature is not looked at
  have hskip (q : Primitives) (msg : Bytes) (purpose : String) (vk : Option Bytes) :
      q.checkCosignature a.receipt msg purpose vk = .ok () :=
    if_neg (by rwa [unsigned_names])
  have hok := a.ok
  simp only [verifyOneReceipt, hskip] at hok
  refine h ?_
  simp only [Accepted.classical, verifyOneReceipt, hskip]
  exact hok

lemma not_cosignedUnder : ¬ CosignedUnder (withoutMldsa p) vk receipt := by
  rintro ⟨_, _, _, _, _, _, hverify⟩
  simp only [verifyMldsa87, except_bind_ok, ensure_ok] at hverify
  obtain ⟨_, _, _, _, _, _, hverifies⟩ := hverify
  cases hverifies

lemma not_classical {a : Accepted p} (hvk : a.serverPqVk = some vk)
    (hnames : (a.receipt.get "server_pq_key_id").isSome) : ¬ Accepted.classical a := by
  intro h
  rw [Accepted.classical, hvk] at h
  exact not_cosignedUnder (verifyOneReceipt_cosigned h hnames)

lemma verifyVerificationResponse_noted {who : String} {response attestation : Json}
    (h : verifyVerificationResponse p server trust serverUrl response who s = .ok (attestation, s')) :
    ∃ new vk, s' = ⟨s.sent ++ keyRequests p trust serverUrl (response.getStr "server_key_id") ++
        keyRequests p trust serverUrl (response.getStr "server_pq_key_id"), s.noted ++ new⟩ ∧
      new.map Accepted.receipt = inlineReceipts.filterMap (fun f => response.get f.1) ∧
      (∀ a ∈ new, a.serverPqVk = some vk) ∧ ServerInfoKey p server trust serverUrl s'.sent vk ∧
      ResponseCosigned p server trust serverUrl s'.sent response := by
  rw [verifyVerificationResponse_ok] at h
  obtain ⟨hatt, keyId, hkeyId, signedAt, hsignedAt, _, _, _, _, input, hinput, pub, t, hpub, _, vk, t', hpq,
    sigB64, hsigB64, sig, hsig, hverify, _, _, _, _, hreceipts⟩ := h
  simp only [verifyInlineReceipts, bind_ok, pure_ok] at hreceipts
  obtain ⟨_, _, hpresent, _, rfl⟩ := hreceipts
  obtain ⟨rfl, _⟩ := keyById_serverInfo hpub
  obtain ⟨rfl, hvk⟩ := responsePqKey_serverInfo hpq
  obtain ⟨new, rfl, hnew, hnewVk, _⟩ := verifyPresentReceipts_ok hpresent
  rw [hkeyId]
  exact ⟨new, vk, rfl, hnew, hnewVk, hvk, attestation, keyId, signedAt, vk, hatt, hkeyId, hsignedAt, hvk,
    sigB64, sig, input, hsigB64, hsig, hinput, hverify⟩

lemma verifiedWrapKeys_served {bundle : Json} {expectation : HandleExpectation} {who : String}
    {keys : RecipientWrapKeys} {sent : List String}
    (h : verifiedWrapKeys p server trust serverUrl bundle expectation who ⟨sent, []⟩ = .ok (keys, s')) :
    servedReceipts p server trust serverUrl bundle sent = some (s'.noted.map Accepted.receipt) ∧
      (∀ a ∈ s'.noted, ∃ vk, a.serverPqVk = some vk ∧ ServerInfoKey p server trust serverUrl s'.sent vk) ∧
      ∀ handle, bundle.getStr "handle" = some handle → isPrsn handle →
        ∃ id response, bundle.getStr "attestation_id" = some id ∧
          server (sent ++ [attestationUrl serverUrl id]) = .ok response ∧
          ResponseCosigned p server trust serverUrl s'.sent response := by
  obtain ⟨handle, hhandle, _, _, _, accountId, proof, _, _, hpath⟩ := verifiedWrapKeys_ok.mp h
  by_cases hprsn : isPrsn handle
  · rw [if_pos hprsn, verifyAgainstAttestation_ok] at hpath
    obtain ⟨id, hid, response, hresponse, attestation, hverify, _⟩ := hpath
    obtain ⟨new, vk, rfl, hnew, hnewVk, hvk, hcosigned⟩ := verifyVerificationResponse_noted hverify
    refine ⟨?_, ?_, ?_⟩
    · simp only [servedReceipts, hhandle, hid, hresponse, Option.bind_eq_bind, Option.bind_some, if_pos hprsn,
        Except.toOption, List.nil_append, hnew]
      rfl
    · intro a ha
      exact ⟨vk, hnewVk a ha, hvk⟩
    · intro handle' hhandle' _
      exact ⟨id, response, hid, hresponse, hcosigned⟩
  · rw [if_neg hprsn] at hpath
    obtain ⟨_, fpEc, fpPq, vk, kem, kemPq, a, a', _, hec, hpq, hvk, hkem, hkemPq, ha, ha', rfl⟩ :=
      verifyAgainstReceipts_noted hpath
    refine ⟨?_, ?_, ?_⟩
    · simp only [servedReceipts, hhandle, hec, hpq, hkem, hkemPq, Option.bind_eq_bind, Option.bind_some,
        if_neg hprsn, Except.toOption, List.nil_append, List.map_cons, List.map_nil, ha.receipt, ha'.receipt]
      rfl
    · intro b hb
      simp only [List.nil_append, List.mem_cons, List.not_mem_nil, or_false] at hb
      rcases hb with rfl | rfl
      · exact ⟨vk, ha.vk, activePqKey_serverInfo hvk⟩
      · exact ⟨vk, ha'.vk, activePqKey_serverInfo hvk⟩
    · intro handle' hhandle' hprsn'
      obtain rfl : handle = handle' := Option.some.inj (hhandle.symm.trans hhandle')
      exact absurd hprsn' hprsn

end

/-- Whatever the server answers, the records that a successful call rests on are dual-signed, and taken
for that, exactly if each receipt served names a PQ key. -/
theorem verifiedWrapKeys_cosigned_iff (p : Primitives) (server : HttpServer) (trust : ServerTrust)
    (serverUrl : String) (bundle : Json) (expectation : HandleExpectation) (who : String)
    (sent : List String) (keys : RecipientWrapKeys) (s' : Session String (Accepted p))
    (h : verifiedWrapKeys p server trust serverUrl bundle expectation who ⟨sent, []⟩ = .ok (keys, s')) :
    RecordsCosigned p server trust serverUrl bundle sent s' ↔
      ∀ receipts, servedReceipts p server trust serverUrl bundle sent = some receipts →
        ∀ r ∈ receipts, (r.get "server_pq_key_id").isSome := by
  obtain ⟨hserved, hvk, hresponse⟩ := verifiedWrapKeys_served h
  constructor
  · rintro ⟨hnoted, -⟩ receipts hreceipts r hr
    obtain rfl := Option.some.inj (hserved.symm.trans hreceipts)
    obtain ⟨a, ha, rfl⟩ := List.mem_map.mp hr
    exact names_of_not_classical (hnoted a ha).2
  · intro hnames
    refine ⟨fun a ha => ?_, hresponse⟩
    have hname := hnames _ hserved a.receipt (List.mem_map_of_mem ha)
    obtain ⟨vk, havk, hinfo⟩ := hvk a ha
    have hok := a.ok
    rw [havk] at hok
    exact ⟨⟨vk, hinfo, verifyOneReceipt_cosigned hok hname⟩, not_classical havk hname⟩

def humanBundle : Json := .object
  [("account_id", .string "pat"), ("handle", .string "pat"),
    ("kem_pq_pubkey", .string (zerosB64 2091)), ("kem_pq_pubkey_fingerprint", .string pqKeyFp),
    ("kem_pubkey", .string ecKeyB64), ("kem_pubkey_fingerprint", .string ecKeyFp)]

def classicalReceipt (purpose fp : String) : Json := .object
  [("account_id", .string "pat"), ("key_purpose", .string purpose), ("public_key_fingerprint", .string fp),
    ("server_key_id", .string "es-1"), ("server_signature", .string (zerosB64 86))]

def receiptServer (kem kemPq : Json) : HttpServer
  | [_] => .ok kem
  | _ => .ok kemPq

def classicalPrimitives : Primitives := withoutMldsa samplePrimitives

lemma not_isPrsn_pat : ¬ isPrsn "pat" := by
  unfold isPrsn
  simp only [String.reduceToList]
  decide

lemma classicalReceipt_ok (p : Primitives) (hdecode : p.base64UrlDecode = samplePrimitives.base64UrlDecode)
    (hjcs : p.jcsToVec = samplePrimitives.jcsToVec) (hes : ∀ pub msg sig, p.verifyEs256 pub msg sig)
    (purpose fp : String) (vk : Option Bytes) :
    p.verifyOneReceipt (classicalReceipt purpose fp) fp (bindingOf none (.accountId "pat")) purpose ecKey vk =
      .ok () := by
  obtain ⟨msg, hmsg⟩ : ∃ msg, samplePrimitives.receiptSigningInput
      (unsigned (classicalReceipt purpose fp)) = some msg := ⟨_, rfl⟩
  have hinput : p.receiptSigningInput = samplePrimitives.receiptSigningInput := by
    funext receipt
    simp only [receiptSigningInput, toCanonicalBytes, hjcs]
  simp only [verifyOneReceipt, bindingOf, Primitives.checkBinding, except_bind_ok, okOr_ok,
    ensure_ok, exists_const, hdecode, hinput, hes]
  exact ⟨fp, rfl, rfl, ⟨"pat", rfl, by simp [eqIgnoreAsciiCase]⟩, rfl, zerosB64 86, rfl, _,
    samplePrimitives_zerosB64 86, rfl, msg, hmsg, trivial, rfl⟩

lemma sampleTrust_activePq : sampleTrust.activePqKey samplePrimitives = .ok (List.replicate 2592 0) := by
  simp only [activePqKey, publicKeyOf, except_bind_ok, okOr_ok]
  exact ⟨_, rfl, _, rfl, _, rfl, samplePrimitives_zerosB64 3456⟩

lemma classicalReceipt_known (purpose fp : String) :
    SignerKnown classicalPrimitives sampleTrust (classicalReceipt purpose fp) ecKey :=
  ⟨"es-1", rfl, sampleTrust_es⟩

lemma classicalRun_ok : ∃ s', verifiedWrapKeys classicalPrimitives
    (receiptServer (classicalReceipt "kem" ecKeyFp) (classicalReceipt "kem_pq" pqKeyFp)) sampleTrust "server"
    humanBundle (.userNamed "pat") "pat" ⟨[], []⟩ = .ok (⟨ecKey, some pqKey⟩, s') := by
  obtain ⟨s', hpath⟩ : ∃ s', verifyAgainstReceipts classicalPrimitives
      (receiptServer (classicalReceipt "kem" ecKeyFp) (classicalReceipt "kem_pq" pqKeyFp)) sampleTrust "server"
      humanBundle "pat" none "pat" ⟨[], []⟩ = .ok ((), s') := by
    have hactive : activePqKey classicalPrimitives = activePqKey samplePrimitives := rfl
    have hpq := sampleTrust_activePq
    rw [← hactive] at hpq
    refine (verifyAgainstReceipts_of_known none rfl rfl rfl hpq rfl rfl
      (classicalReceipt_known "kem" ecKeyFp) (classicalReceipt_known "kem_pq" pqKeyFp)).mpr ?_
    exact ⟨classicalReceipt_ok classicalPrimitives rfl rfl (fun _ _ _ => rfl) _ _ _,
      classicalReceipt_ok classicalPrimitives rfl rfl (fun _ _ _ => rfl) _ _ _⟩
  have hbundle : verifyRecipientWrapKeys classicalPrimitives = verifyRecipientWrapKeys samplePrimitives := rfl
  have hkeys := sampleKeys_of_fields humanBundle "pat" rfl rfl rfl rfl
  rw [← hbundle] at hkeys
  refine ⟨s', verifiedWrapKeys_ok.mpr ?_⟩
  refine ⟨"pat", rfl, rfl, hkeys, rfl, "pat", none, rfl, rfl, ?_⟩
  rw [if_neg not_isPrsn_pat]
  exact hpath

/-- No ML-DSA-87 signature verifies, and yet the keys are taken: the receipts name no PQ key. -/
theorem verifiedWrapKeys_es256_only :
    (∀ vk msg ctx sig, classicalPrimitives.mldsa87Verifies vk msg ctx sig = false) ∧
      ∃ keys s', verifiedWrapKeys classicalPrimitives
        (receiptServer (classicalReceipt "kem" ecKeyFp) (classicalReceipt "kem_pq" pqKeyFp)) sampleTrust
        "server" humanBundle (.userNamed "pat") "pat" ⟨[], []⟩ = .ok (keys, s') ∧
      ¬ RecordsCosigned classicalPrimitives
        (receiptServer (classicalReceipt "kem" ecKeyFp) (classicalReceipt "kem_pq" pqKeyFp)) sampleTrust
        "server" humanBundle [] s' := by
  obtain ⟨s', hrun⟩ := classicalRun_ok
  refine ⟨fun _ _ _ _ => rfl, _, s', hrun, ?_⟩
  rintro ⟨hnoted, -⟩
  obtain ⟨handle, hhandle, _, _, _, _, _, _, _, hpath⟩ := verifiedWrapKeys_ok.mp hrun
  obtain rfl : "pat" = handle := Option.some.inj hhandle
  rw [if_neg not_isPrsn_pat] at hpath
  obtain ⟨_, _, _, _, _, _, a, a', _, _, _, _, _, _, _, _, rfl⟩ := verifyAgainstReceipts_noted hpath
  obtain ⟨⟨vk, -, hcosigned⟩, -⟩ := hnoted a List.mem_cons_self
  exact not_cosignedUnder hcosigned

theorem verifiedWrapKeys_cosigned_iff_prsn :
    ∃ keys s', sampleRun kemReceipts = .ok (keys, s') ∧
      RecordsCosigned samplePrimitives (fun _ => .ok (sampleResponse kemReceipts)) sampleTrust "server"
        sampleBundle [] s' := by
  obtain ⟨s', hrun⟩ := sampleRun_ok kemReceipts_fields rfl
  refine ⟨_, s', hrun, (verifiedWrapKeys_cosigned_iff _ _ _ _ _ _ _ _ _ _ hrun).mpr ?_⟩
  intro receipts hserved r hr
  have hreceipts : receipts = [sampleReceipt "kem" ecKeyFp, sampleReceipt "kem_pq" pqKeyFp] := by
    have hhandle : sampleBundle.getStr "handle" = some "pat-ai" := rfl
    have hid : sampleBundle.getStr "attestation_id" = some "1" := rfl
    simp only [servedReceipts, hhandle, hid, Option.bind_eq_bind, Option.bind_some, if_pos isPrsn_sample,
      Except.toOption] at hserved
    obtain rfl := Option.some.inj hserved
    rfl
  rw [hreceipts, List.mem_pair] at hr
  rcases hr with rfl | rfl
  · rfl
  · rfl

end SignetDrive.Proofs
