import SignetDrive.Model.RecipientVerify

/-!
# What a recipient's keys rest on
-/

namespace SignetDrive.Proofs
open Client Program Primitives ServerTrust

section

variable (p : Primitives) (server : HttpServer) (trust : ServerTrust) (serverUrl : String)

/-- The key stands in the server-info of the call, or in one the server gave for the requests. -/
def ServerInfoKey (sent : List String) (vk : Bytes) : Prop :=
  ∃ info, (info = trust.info ∨ ∃ past, past ++ [s!"{serverUrl}/v1/server-info"] <+: sent ∧
      server (past ++ [s!"{serverUrl}/v1/server-info"]) = .ok info) ∧
    ∃ key ∈ signingKeys info "current_signing_keys" ++
      signingKeys info "retired_signing_keys", publicKeyOf p key = .ok vk

/-- A key that server-info does not list is asked for once more. -/
def keyRequests (keyId : Option String) : List String :=
  match keyId.map (findKeyById p trust.info) with
  | some (.ok none) => [s!"{serverUrl}/v1/server-info"]
  | _ => []

end

variable {p : Primitives} {server : HttpServer} {trust : ServerTrust}
  {s s' : Session String (Accepted p)}

/-- A receipt of the purpose was accepted for the fingerprint. -/
def Logged {p : Primitives} (purpose fp : String) (accepted : List (Accepted p)) : Prop :=
  ∃ a ∈ accepted, a.receipt.getStr "key_purpose" = some purpose ∧
    a.receipt.getStr "public_key_fingerprint" = some fp

variable {binding : AccountBinding} {bundle : Json} {keys : RecipientWrapKeys} {receipt : Json}
  {pqVk : Option Bytes} {response attestation : Json}

variable {pub vk : Bytes} {purpose serverUrl who : String} {u : Unit} {expectation : HandleExpectation}

lemma verifyOneReceipt_ok {fp : String}
    (h : p.verifyOneReceipt receipt fp binding purpose pub pqVk = .ok u) :
    receipt.getStr "public_key_fingerprint" = some fp ∧ receipt.getStr "key_purpose" = some purpose := by
  simp only [verifyOneReceipt, except_bind_ok, okOr_ok, ensure_ok] at h
  obtain ⟨receiptFp, hfp, -, rfl, -, -, -, hpurpose, -⟩ := h
  exact ⟨hfp, hpurpose⟩

lemma verifyAndNote_ok {fp : String}
    (h : verifyAndNote p receipt fp binding purpose pub pqVk s = .ok (u, s')) :
    ∃ hok, s' = { s with noted := s.noted ++ [⟨receipt, fp, binding, purpose, pub, pqVk, hok⟩] } := by
  unfold verifyAndNote at h
  split at h
  next hok =>
    rw [note_ok] at h
    exact ⟨hok, h.symm⟩
  next => cases h

lemma verifyAndNote_of_ok {fp : String}
    (hok : p.verifyOneReceipt receipt fp binding purpose pub pqVk = .ok ()) :
    verifyAndNote p receipt fp binding purpose pub pqVk s =
      .ok ((), { s with noted := s.noted ++ [⟨receipt, fp, binding, purpose, pub, pqVk, hok⟩] }) := by
  unfold verifyAndNote
  split
  next => rfl
  next e herror => cases hok.symm.trans herror

lemma findKeyById_of_find {info : Json} {keyId : String} {key : Json}
    (hfind : (signingKeys info "current_signing_keys" ++
      signingKeys info "retired_signing_keys").find?
        (fun key => key.getStr "key_id" = some keyId) = some key) (hkey : publicKeyOf p key = .ok vk) :
    findKeyById p info keyId = .ok (some vk) := by
  simp [findKeyById, hfind, hkey]

lemma keyById_of_found {keyId : String}
    (hfound : findKeyById p trust.info keyId = .ok (some vk)) :
    trust.keyById p server serverUrl keyId s = .ok (vk, s) := by
  simp [keyById, hfound]

lemma findKeyById_some {info : Json} {keyId : String} (h : findKeyById p info keyId = .ok (some vk)) :
    ∃ key ∈ signingKeys info "current_signing_keys" ++
      signingKeys info "retired_signing_keys", publicKeyOf p key = .ok vk := by
  unfold findKeyById at h
  split at h
  · cases h
  next key hfind =>
    simp only [except_bind_ok, except_pure_ok, Option.some.injEq] at h
    obtain ⟨vk', hvk, rfl⟩ := h
    exact ⟨key, List.mem_of_find?_eq_some hfind, hvk⟩

lemma activePqKey_serverInfo {sent : List String} (h : trust.activePqKey p = .ok vk) :
    ServerInfoKey p server trust serverUrl sent vk := by
  simp only [activePqKey, except_bind_ok, okOr_ok] at h
  obtain ⟨keys, hkeys, key, hfind, hvk⟩ := h
  refine ⟨trust.info, Or.inl rfl, key, ?_, hvk⟩
  rw [signingKeys, hkeys]
  exact List.mem_append_left _ (List.mem_of_find?_eq_some hfind)

lemma keyById_serverInfo {keyId : String}
    (h : trust.keyById p server serverUrl keyId s = .ok (vk, s')) :
    s' = { s with sent := s.sent ++ keyRequests p trust serverUrl (some keyId) } ∧
      ServerInfoKey p server trust serverUrl s'.sent vk := by
  simp only [keyById, bind_ok, check_ok] at h
  obtain ⟨found, t, ⟨hfound, rfl⟩, h⟩ := h
  cases found with
  | some vk' =>
    simp only [pure_ok] at h
    obtain ⟨rfl, rfl⟩ := h
    refine ⟨?_, trust.info, Or.inl rfl, findKeyById_some hfound⟩
    simp [keyRequests, hfound]
  | none =>
    simp only [bind_ok, request_ok, check_ok, okOr_ok] at h
    obtain ⟨fresh, t, ⟨hfresh, rfl⟩, _, _, ⟨hfind, rfl⟩, rfl, rfl⟩ := h
    refine ⟨?_, fresh, Or.inr ⟨s.sent, List.prefix_rfl, hfresh⟩, findKeyById_some hfind⟩
    simp [keyRequests, hfound]

lemma responsePqKey_serverInfo {response : Json}
    (h : responsePqKey p server trust serverUrl response s = .ok (vk, s')) :
    s' = { s with sent := s.sent ++ keyRequests p trust serverUrl (response.getStr "server_pq_key_id") } ∧
      ServerInfoKey p server trust serverUrl s'.sent vk := by
  cases hkid : response.getStr "server_pq_key_id" with
  | some pqKid =>
    simp only [responsePqKey, hkid] at h
    exact keyById_serverInfo h
  | none =>
    simp only [responsePqKey, hkid, check_ok] at h
    obtain ⟨hvk, rfl⟩ := h
    refine ⟨?_, activePqKey_serverInfo hvk⟩
    simp [keyRequests]

lemma verifyRecipientWrapKeys_ok (h : verifyRecipientWrapKeys p bundle who = .ok keys) :
    ∃ fp rkPq, p.fingerprint keys.rkEc = some fp ∧
      bundle.getStr "kem_pubkey_fingerprint" = some fp ∧ keys.rkPq = some rkPq ∧
      bundle.getStr "kem_pq_pubkey_fingerprint" = some (p.fingerprintRaw rkPq) := by
  simp only [verifyRecipientWrapKeys, except_bind_ok, except_pure_ok] at h
  obtain ⟨rkEc, hec, rkPq, hpq, rfl⟩ := h
  simp only [verifyRecipientKemPub, except_bind_ok, except_pure_ok, okOr_ok,
    ensure_ok] at hec
  obtain ⟨_, _, fp, hstated, _, _, _, hfp, _, rfl, rfl⟩ := hec
  unfold verifyRecipientKemPqPub at hpq
  split at hpq
  · cases hpq
  · rename_i k fpPq hk hstatedPq
    simp only [except_bind_ok, except_pure_ok, okOr_ok, ensure_ok] at hpq
    obtain ⟨_, _, _, _, _, rfl, rfl⟩ := hpq
    exact ⟨_, _, hfp, hstated, rfl, hstatedPq⟩
  · cases hpq

@[simp] lemma not_logged_nil {fp : String} : ¬ Logged purpose fp ([] : List (Accepted p)) := by
  simp [Logged]

lemma logged_append {fp : String} {xs ys : List (Accepted p)} :
    Logged purpose fp (xs ++ ys) ↔ Logged purpose fp xs ∨ Logged purpose fp ys := by
  simp only [Logged, List.mem_append, or_and_right, exists_or]

structure AcceptedAs (a : Accepted p) (receipt : Json) (fp purpose : String) (binding : AccountBinding)
    (vk : Bytes) : Prop where
  receipt : a.receipt = receipt
  fp : a.assertedFp = fp
  purpose : a.expectedPurpose = purpose
  binding : a.binding = binding
  vk : a.serverPqVk = some vk

lemma AcceptedAs.logged {a : Accepted p} {fp purpose : String} {vk : Bytes}
    (h : AcceptedAs a receipt fp purpose binding vk) : Logged purpose fp [a] := by
  obtain ⟨hfp, hpurpose⟩ := verifyOneReceipt_ok a.ok
  rw [h.fp] at hfp
  rw [h.purpose] at hpurpose
  exact ⟨a, List.mem_singleton_self a, hpurpose, hfp⟩

/-- The receipts accepted from a response are those it carries, each for the fingerprint that
the attestation states for it. -/
lemma verifyPresentReceipts_ok {epoch : Option U16} {fields : List (String × String × String)} {n : ℕ}
    (h : verifyPresentReceipts p response attestation pub pqVk binding epoch fields s = .ok (n, s')) :
    ∃ new, s' = { s with noted := s.noted ++ new } ∧
      new.map Accepted.receipt = fields.filterMap (fun f => response.get f.1) ∧
      (∀ a ∈ new, a.serverPqVk = pqVk) ∧ ∀ purpose fp, Logged purpose fp new ↔
        ∃ f ∈ fields, f.2.2 = purpose ∧ (response.get f.1).isSome ∧ attestation.getStr f.2.1 = some fp := by
  induction fields generalizing s n with
  | nil =>
    simp only [verifyPresentReceipts, pure_ok] at h
    exact ⟨[], by simp [h.2], rfl, by simp, by simp⟩
  | cons f rest ih =>
    obtain ⟨receiptField, fpField, purpose'⟩ := f
    cases hget : response.get receiptField with
    | none =>
      simp only [verifyPresentReceipts, hget] at h
      simpa [hget] using ih h
    | some receipt =>
      simp only [verifyPresentReceipts, hget, bind_ok, check_ok, pure_ok, okOr_ok] at h
      obtain ⟨_, t₁, ⟨_, rfl⟩, fp', t₂, ⟨hfp, rfl⟩, _, t₃, hnote, n', t₄, hrest, _, rfl⟩ := h
      obtain ⟨hok, rfl⟩ := verifyAndNote_ok hnote
      obtain ⟨hreceiptFp, hpurpose⟩ := verifyOneReceipt_ok hok
      obtain ⟨new, rfl, hreceipts, hvk, hlogged⟩ := ih hrest
      refine ⟨⟨receipt, fp', binding, purpose', pub, pqVk, hok⟩ :: new,
        by simp, by simp [hget, hreceipts], ?_, ?_⟩
      · simpa using hvk
      · intro purpose fp
        rw [← List.singleton_append, logged_append, hlogged]
        simp [Logged, hget, hfp, hreceiptFp, hpurpose]

lemma verifyVerificationResponse_ok :
    verifyVerificationResponse p server trust serverUrl response who s = .ok (attestation, s') ↔
      response.get "attestation" = some attestation ∧
      ∃ keyId, response.getStr "server_key_id" = some keyId ∧
      ∃ signedAt, (response.get "signed_at").bind Json.asI64 = some signedAt ∧
      ∃ sigB64, response.getStr "server_signature" = some sigB64 ∧
      ∃ sig, p.base64UrlDecode sigB64 = some sig ∧
      ∃ input, p.verificationSigningInput attestation keyId signedAt = some input ∧
      ∃ pub t, trust.keyById p server serverUrl keyId s = .ok (pub, t) ∧
      p.verifyEs256 pub input sig ∧
      ∃ pqVk t', responsePqKey p server trust serverUrl response t = .ok (pqVk, t') ∧
      ∃ pqSigB64, response.getStr "server_signature_mldsa87" = some pqSigB64 ∧
      ∃ pqSig, p.base64UrlDecode pqSigB64 = some pqSig ∧
      p.verifyMldsa87 pqVk input Primitives.SERVER_VERIFY_MLDSA_CTX pqSig = .ok () ∧
      ∃ account, attestation.getStr "subject_account_id" = some account ∧
      ∃ index, trust.indexFor p account (attestation.getStr "subject_account_vrf_proof") who =
        .ok index ∧
      verifyInlineReceipts p response attestation pub (some pqVk) (bindingOf index .attested)
        (some trust.epoch) t' = .ok (.verified, s') := by
  simp only [verifyVerificationResponse, bind_ok, check_ok, pure_ok, okOr_ok,
    ensure_ok, and_assoc, exists_and_left, exists_eq_left', exists_const]
  constructor
  · rintro ⟨keyId, hkeyId, signedAt, hsignedAt, att, hatt, sigB64, hsigB64, sig, hsig, input, hinput,
      pub, t, hpub, hes, pqVk, t', hpqVk, pqSigB64, hpqSigB64, pqSig, hpqSig, _, hpq, account,
      haccount, index, hindex, _, _, hreceipts, rfl, rfl, rfl⟩
    exact ⟨hatt, keyId, hkeyId, signedAt, hsignedAt, sigB64, hsigB64, sig, hsig, input, hinput, pub, t,
      hpub, hes, pqVk, t', hpqVk, pqSigB64, hpqSigB64, pqSig, hpqSig, hpq, account, haccount, index,
      hindex, hreceipts⟩
  · rintro ⟨hatt, keyId, hkeyId, signedAt, hsignedAt, sigB64, hsigB64, sig, hsig, input, hinput, pub,
      t, hpub, hes, pqVk, t', hpqVk, pqSigB64, hpqSigB64, pqSig, hpqSig, hpq, account, haccount,
      index, hindex, hreceipts⟩
    exact ⟨keyId, hkeyId, signedAt, hsignedAt, attestation, hatt, sigB64, hsigB64, sig, hsig, input,
      hinput, pub, t, hpub, hes, pqVk, t', hpqVk, pqSigB64, hpqSigB64, pqSig, hpqSig, (), hpq,
      account, haccount, index, hindex, .verified, s', hreceipts, rfl, rfl, rfl⟩

lemma verifyVerificationResponse_logged
    (h : verifyVerificationResponse p server trust serverUrl response who s =
      .ok (attestation, s')) :
    response.get "attestation" = some attestation ∧
      ∀ purpose fp, Logged purpose fp s'.noted ↔ Logged purpose fp s.noted ∨
        ∃ f ∈ inlineReceipts, f.2.2 = purpose ∧ (response.get f.1).isSome ∧
          attestation.getStr f.2.1 = some fp := by
  rw [verifyVerificationResponse_ok] at h
  obtain ⟨hatt, _, _, _, _, _, _, _, _, _, _, pub, t, hpub, _, pqVk, t', hpqVk, _, _, _, _, _, _, _, _, _,
    hreceipts⟩ := h
  simp only [verifyInlineReceipts, bind_ok, pure_ok] at hreceipts
  obtain ⟨n, _, hpresent, _, rfl⟩ := hreceipts
  refine ⟨hatt, ?_⟩
  intro purpose fp
  obtain ⟨rfl, _⟩ := keyById_serverInfo hpub
  obtain ⟨rfl, _⟩ := responsePqKey_serverInfo hpqVk
  obtain ⟨new, rfl, _, _, hlogged⟩ := verifyPresentReceipts_ok hpresent
  rw [logged_append, hlogged]

lemma verifyAgainstAttestation_ok {accountId handle : String} :
    verifyAgainstAttestation p server trust serverUrl bundle keys accountId handle who s =
        .ok ((), s') ↔
      ∃ id, bundle.getStr "attestation_id" = some id ∧
      ∃ response, server (s.sent ++ [attestationUrl serverUrl id]) = .ok response ∧
      ∃ attestation, verifyVerificationResponse p server trust serverUrl response who
        { s with sent := s.sent ++ [attestationUrl serverUrl id] } = .ok (attestation, s') ∧
      checkStatus p attestation handle who = .ok () ∧
      checkSubject attestation accountId handle who = .ok () ∧
      ∃ rkPq, attestedKeys p attestation handle who = .ok (keys.rkEc, rkPq) ∧
        keys.rkPq = some rkPq := by
  simp only [verifyAgainstAttestation, bind_ok, check_ok, request_ok, okOr_ok,
    ensure_ok, and_assoc, exists_and_left, exists_eq_left']
  constructor
  · rintro ⟨id, hid, response, hresponse, att, t, hatt, _, hstatus, _, hsubject, ⟨attKem, attKemPq⟩,
      hkeys, hec, hpq, rfl⟩
    obtain rfl : keys.rkEc = attKem := hec
    exact ⟨id, hid, response, hresponse, att, hatt, hstatus, hsubject, attKemPq, hkeys, hpq⟩
  · rintro ⟨id, hid, response, hresponse, att, hatt, hstatus, hsubject, rkPq, hkeys, hpq⟩
    exact ⟨id, hid, response, hresponse, att, s', hatt, (), hstatus, (), hsubject, _, hkeys, rfl, hpq,
      rfl⟩

/-- On the attestation path: a receipt is accepted exactly for the fingerprints that the
attestation states, and only where the response carries it. -/
lemma verifyAgainstAttestation_logged {accountId handle : String}
    (h : verifyAgainstAttestation p server trust serverUrl bundle keys accountId handle who s =
      .ok ((), s')) :
    ∃ id response attestation, bundle.getStr "attestation_id" = some id ∧
      server (s.sent ++ [attestationUrl serverUrl id]) = .ok response ∧
      response.get "attestation" = some attestation ∧
      ∀ purpose fp, Logged purpose fp s'.noted ↔ Logged purpose fp s.noted ∨
        ∃ f ∈ inlineReceipts, f.2.2 = purpose ∧ (response.get f.1).isSome ∧
          attestation.getStr f.2.1 = some fp := by
  obtain ⟨id, hid, response, hresponse, att, hatt, _⟩ := verifyAgainstAttestation_ok.mp h
  have hlogged := verifyVerificationResponse_logged hatt
  exact ⟨id, response, att, hid, hresponse, hlogged⟩

lemma verifyLogReceipt_noted {who fp purpose : String} {u : Unit}
    (h : verifyLogReceipt p server trust serverUrl binding vk who fp purpose s = .ok (u, s')) :
    ∃ receipt a, server (s.sent ++ [receiptUrl serverUrl fp purpose trust.epoch]) = .ok receipt ∧
      AcceptedAs a receipt fp purpose binding vk ∧
      s' = ⟨s.sent ++ [receiptUrl serverUrl fp purpose trust.epoch] ++
        keyRequests p trust serverUrl (receipt.getStr "server_key_id"), s.noted ++ [a]⟩ := by
  simp only [verifyLogReceipt, bind_ok, check_ok, mapError_ok, request_ok, okOr_ok, and_assoc,
    exists_and_left, exists_eq_left'] at h
  obtain ⟨receipt, hreceipt, keyId, hkeyId, pub, t, hpub, hnote⟩ := h
  obtain ⟨rfl, _⟩ := keyById_serverInfo hpub
  obtain ⟨hok, rfl⟩ := verifyAndNote_ok hnote
  refine ⟨receipt, ⟨receipt, fp, binding, purpose, pub, some vk, hok⟩, hreceipt, ⟨rfl, rfl, rfl, rfl, rfl⟩, ?_⟩
  rw [hkeyId]

lemma verifyAgainstReceipts_noted {accountId who : String} {proof : Option String} {bundle : Json} {u : Unit}
    (h : verifyAgainstReceipts p server trust serverUrl bundle accountId proof who s = .ok (u, s')) :
    ∃ index fpEc fpPq vk kem kemPq a a', trust.indexFor p accountId proof who = .ok index ∧
      bundle.getStr "kem_pubkey_fingerprint" = some fpEc ∧
      bundle.getStr "kem_pq_pubkey_fingerprint" = some fpPq ∧ trust.activePqKey p = .ok vk ∧
      server (s.sent ++ [receiptUrl serverUrl fpEc "kem" trust.epoch]) = .ok kem ∧
      server (s.sent ++ [receiptUrl serverUrl fpEc "kem" trust.epoch] ++
        keyRequests p trust serverUrl (kem.getStr "server_key_id") ++
        [receiptUrl serverUrl fpPq "kem_pq" trust.epoch]) = .ok kemPq ∧
      AcceptedAs a kem fpEc "kem" (bindingOf index (.accountId accountId)) vk ∧
      AcceptedAs a' kemPq fpPq "kem_pq" (bindingOf index (.accountId accountId)) vk ∧
      s' = ⟨s.sent ++ [receiptUrl serverUrl fpEc "kem" trust.epoch] ++
        keyRequests p trust serverUrl (kem.getStr "server_key_id") ++
        [receiptUrl serverUrl fpPq "kem_pq" trust.epoch] ++
        keyRequests p trust serverUrl (kemPq.getStr "server_key_id"), s.noted ++ [a, a']⟩ := by
  simp only [verifyAgainstReceipts, bind_ok, check_ok, okOr_ok, and_assoc, exists_and_left,
    exists_eq_left'] at h
  obtain ⟨index, hindex, fpEc, hec, fpPq, hpq, vk, hvk, _, t, hkem, hkemPq⟩ := h
  obtain ⟨kem, a, hanswer, ha, rfl⟩ := verifyLogReceipt_noted hkem
  obtain ⟨kemPq, a', hanswer', ha', rfl⟩ := verifyLogReceipt_noted hkemPq
  refine ⟨index, fpEc, fpPq, vk, kem, kemPq, a, a', hindex, hec, hpq, hvk, hanswer, hanswer', ha, ha', ?_⟩
  rw [List.append_assoc s.noted, List.singleton_append]

def SignerKnown (p : Primitives) (trust : ServerTrust) (receipt : Json) (pub : Bytes) : Prop :=
  ∃ keyId, receipt.getStr "server_key_id" = some keyId ∧
    findKeyById p trust.info keyId = .ok (some pub)

lemma verifyLogReceipt_of_known {fp : String}
    (hreceipt : server (s.sent ++ [receiptUrl serverUrl fp purpose trust.epoch]) = .ok receipt)
    (hknown : SignerKnown p trust receipt pub) :
    verifyLogReceipt p server trust serverUrl binding vk who fp purpose s = .ok (u, s') ↔
      ∃ hok, s' = ⟨s.sent ++ [receiptUrl serverUrl fp purpose trust.epoch],
        s.noted ++ [⟨receipt, fp, binding, purpose, pub, some vk, hok⟩]⟩ := by
  obtain ⟨keyId, hkeyId, hfound⟩ := hknown
  have hkey (t : Session String (Accepted p)) : trust.keyById p server serverUrl keyId t = .ok (pub, t) :=
    keyById_of_found hfound
  simp only [verifyLogReceipt, bind_ok, check_ok, mapError_ok, request_ok, okOr_ok, hreceipt,
    Except.ok.injEq, and_assoc, exists_and_left, exists_eq_left', hkeyId, Option.some.injEq,
    hkey, Prod.mk.injEq]
  constructor
  · intro h
    exact verifyAndNote_ok h
  · rintro ⟨hok, rfl⟩
    exact verifyAndNote_of_ok hok

lemma verifyAgainstReceipts_of_known {accountId fpEc fpPq : String} {proof : Option String}
    {bundle kem kemPq : Json} (index : Option (U16 × List.Vector UInt8 64)) {pub' : Bytes}
    (hindex : trust.indexFor p accountId proof who = .ok index)
    (hec : bundle.getStr "kem_pubkey_fingerprint" = some fpEc)
    (hpq : bundle.getStr "kem_pq_pubkey_fingerprint" = some fpPq) (hvk : trust.activePqKey p = .ok vk)
    (hkem : server (s.sent ++ [receiptUrl serverUrl fpEc "kem" trust.epoch]) = .ok kem)
    (hkemPq : server (s.sent ++ [receiptUrl serverUrl fpEc "kem" trust.epoch] ++
      [receiptUrl serverUrl fpPq "kem_pq" trust.epoch]) = .ok kemPq) (hknown : SignerKnown p trust kem pub)
    (hknown' : SignerKnown p trust kemPq pub') :
    (∃ s', verifyAgainstReceipts p server trust serverUrl bundle accountId proof who s = .ok ((), s')) ↔
      p.verifyOneReceipt kem fpEc (bindingOf index (.accountId accountId)) "kem" pub (some vk) = .ok () ∧
      p.verifyOneReceipt kemPq fpPq (bindingOf index (.accountId accountId)) "kem_pq" pub' (some vk) =
        .ok () := by
  simp only [verifyAgainstReceipts, bind_ok, check_ok, okOr_ok, hindex, hec, hpq, hvk, Except.ok.injEq,
    Option.some.injEq, and_assoc, exists_and_left, exists_eq_left']
  constructor
  · rintro ⟨s', u, t, hfirst, hsecond⟩
    obtain ⟨hok, rfl⟩ := (verifyLogReceipt_of_known hkem hknown).mp hfirst
    obtain ⟨hok', -⟩ := (verifyLogReceipt_of_known hkemPq hknown').mp hsecond
    exact ⟨hok, hok'⟩
  · rintro ⟨hok, hok'⟩
    exact ⟨_, (), _, (verifyLogReceipt_of_known hkem hknown).mpr ⟨hok, rfl⟩,
      (verifyLogReceipt_of_known hkemPq hknown').mpr ⟨hok', rfl⟩⟩

lemma verifiedWrapKeys_ok :
    verifiedWrapKeys p server trust serverUrl bundle expectation who s = .ok (keys, s') ↔
      ∃ handle, bundle.getStr "handle" = some handle ∧
      checkExpectation expectation handle who = .ok () ∧
      verifyRecipientWrapKeys p bundle who = .ok keys ∧
      checkAccountType bundle handle who = .ok () ∧
      ∃ accountId proof, bundleAccount bundle = some (accountId, proof) ∧
      checkBundleEpoch p bundle trust.epoch who = .ok () ∧
      if isPrsn handle then
        verifyAgainstAttestation p server trust serverUrl bundle keys accountId handle who s =
          .ok ((), s')
      else
        verifyAgainstReceipts p server trust serverUrl bundle accountId proof who s =
          .ok ((), s') := by
  simp only [verifiedWrapKeys, bind_ok, check_ok, okOr_ok, and_assoc, exists_and_left,
    exists_eq_left']
  constructor
  · rintro ⟨handle, hhandle, _, hexpectation, keys', hkeys, _, htype, ⟨accountId, proof⟩, haccount, _,
      hepoch, h⟩
    split at h
    next hprsn =>
      simp only [bind_ok, pure_ok] at h
      obtain ⟨_, _, hpath, rfl, rfl⟩ := h
      refine ⟨handle, hhandle, hexpectation, hkeys, htype, accountId, proof, haccount, hepoch, ?_⟩
      rwa [if_pos hprsn]
    next hhuman =>
      simp only [bind_ok, pure_ok] at h
      obtain ⟨_, _, hpath, rfl, rfl⟩ := h
      refine ⟨handle, hhandle, hexpectation, hkeys, htype, accountId, proof, haccount, hepoch, ?_⟩
      rwa [if_neg hhuman]
  · rintro ⟨handle, hhandle, hexpectation, hkeys, htype, accountId, proof, haccount, hepoch, hpath⟩
    refine ⟨handle, hhandle, (), hexpectation, keys, hkeys, (), htype, _, haccount, (), hepoch, ?_⟩
    split at hpath
    next hprsn =>
      simp only [if_pos hprsn, bind_ok, pure_ok]
      exact ⟨(), s', hpath, trivial, rfl⟩
    next hhuman =>
      simp only [if_neg hhuman, bind_ok, pure_ok]
      exact ⟨(), s', hpath, trivial, rfl⟩

lemma verifiedWrapKeys_logged_prsn {handle : String} {sent : List String}
    (h : verifiedWrapKeys p server trust serverUrl bundle expectation who ⟨sent, []⟩ = .ok (keys, s'))
    (hhandle : bundle.getStr "handle" = some handle) (hprsn : isPrsn handle) :
    ∃ id response attestation, bundle.getStr "attestation_id" = some id ∧
      server (sent ++ [attestationUrl serverUrl id]) = .ok response ∧
      response.get "attestation" = some attestation ∧
      ∀ purpose fp, Logged purpose fp s'.noted ↔ ∃ f ∈ inlineReceipts, f.2.2 = purpose ∧
        (response.get f.1).isSome ∧ attestation.getStr f.2.1 = some fp := by
  obtain ⟨handle', hhandle', _, _, _, accountId, proof, _, _, hpath⟩ := verifiedWrapKeys_ok.mp h
  obtain rfl : handle = handle' := Option.some.inj (hhandle.symm.trans hhandle')
  rw [if_pos hprsn] at hpath
  simpa using verifyAgainstAttestation_logged hpath

end SignetDrive.Proofs
