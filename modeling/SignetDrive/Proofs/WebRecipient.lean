import SignetDrive.Model.WebRecipient
import SignetDrive.Proofs.RecipientLogged

/-!
# Whose keys are in the log, in the browser
-/

namespace SignetDrive.Proofs
open Client Program

def WebLogged (purpose fp : String) (accepted : List WebAccepted) : Prop :=
  ∃ a ∈ accepted, a.receipt.get "key_purpose" = some (.string purpose) ∧
    a.receipt.get "public_key_fingerprint" = some (.string fp)

/-- A receipt was accepted for each of the two keys. -/
def WebKeysLogged (p : WebPrimitives) (r : VerifiedRecipient) (accepted : List WebAccepted) : Prop :=
  (∃ fp, webFingerprint p r.pubkey = .ok fp ∧ WebLogged "kem" fp accepted) ∧
    ∃ pq ∈ r.pqPubkey, WebLogged "kem_pq" (webFingerprintRaw p pq) accepted

variable {accepted : List WebAccepted} {pq : Bytes} {v proof : Option Json} {who handle : String}
  {binding : ReceiptBinding} {attestation : Json} {fields : List (String × String × String)}

lemma webKeysLogged_iff {p : WebPrimitives} {r : VerifiedRecipient} {fp : String}
    (hfp : webFingerprint p r.pubkey = .ok fp) (hpq : r.pqPubkey = some pq) :
    WebKeysLogged p r accepted ↔
      WebLogged "kem" fp accepted ∧ WebLogged "kem_pq" (webFingerprintRaw p pq) accepted := by
  simp [WebKeysLogged, hfp, hpq]

/-! ### Values -/

section

variable {p : WebPrimitives}

lemma strictEq_string {s : String} {v : Json} : strictEq (.string s) v ↔ v = .string s := by
  cases v <;> simp [strictEq, eq_comm]

lemma any_strictEq_string {s : String} : v.any (strictEq (.string s)) ↔ v = some (.string s) := by
  cases v <;> simp [strictEq_string]

lemma prop_ok {v : Json} {key : String} {member : Option Json} (h : prop p v key = .ok member) :
    v.get key = member := by
  cases v <;> first | exact Except.ok.inj h | cases h

lemma str_ok {v : Json} {key : String} {s : Option String} (h : str p v key = .ok s) : v.getStr key = s := by
  simp only [str, except_bind_ok, except_pure_ok] at h
  obtain ⟨member, hmember, rfl⟩ := h
  rw [Json.getStr, prop_ok hmember]

lemma filter_truthy_eq_some {w : Json} (h : v.filter (fun v => truthy (some v)) = some w) : v = some w := by
  cases v with
  | none => cases h
  | some v =>
    rw [Option.filter_some] at h
    split at h <;> cases h
    rfl

lemma coalesce_none_eq_some {w : Json} (h : coalesce v none = some w) : v = some w := by
  unfold coalesce at h
  split at h
  · cases h
  · cases h
  · exact h

end

/-! ### One receipt -/

section

variable {p : WebPrimitives} {server : WebServer} {trust trust' : WebTrust} {s s' : Session ApiCall WebAccepted}

/-- The requests until the server info is known. -/
def sentAfterFetch (trust : WebTrust) (sent : List ApiCall) : List ApiCall :=
  if (trust.info.filter fun info => truthy (some info)).isSome then sent else sent ++ [.serverInfo]

lemma fetch_session {info : Json} (h : trust.fetch p server s = .ok ((info, trust'), s')) :
    s'.sent = sentAfterFetch trust s.sent ∧ s'.noted = s.noted := by
  unfold WebTrust.fetch at h
  cases hinfo : trust.info.filter fun info => truthy (some info) with
  | some cached =>
    simp only [hinfo, pure_ok] at h
    obtain ⟨-, rfl⟩ := h
    simp [sentAfterFetch, hinfo]
  | none =>
    simp only [hinfo, ↓check_bind_ok, bind_ok, request_ok, pure_ok] at h
    obtain ⟨_, _, ⟨-, rfl⟩, _, -, _, -, _, -, -, rfl⟩ := h
    simp [sentAfterFetch, hinfo]

lemma anchor_session {anchored : Json × Option Json}
    (h : trust.anchor p server s = .ok ((anchored, trust'), s')) : s'.sent = sentAfterFetch trust s.sent ∧
    s'.noted = s.noted := by
  simp only [WebTrust.anchor, ↓check_bind_ok, bind_ok, pure_ok] at h
  obtain ⟨⟨info, t⟩, _, hfetch, _, -, -, rfl⟩ := h
  exact fetch_session hfetch

lemma epoch_session {epoch : Json} (h : trust.epoch p server s = .ok ((epoch, trust'), s')) :
    s'.sent = sentAfterFetch trust s.sent ∧ s'.noted = s.noted := by
  simp only [WebTrust.epoch, bind_ok, pure_ok] at h
  obtain ⟨⟨anchored, t⟩, _, hanchor, -, rfl⟩ := h
  exact anchor_session hanchor

lemma indexFor_noted {accountId : Json} {index : Option (Json × String)}
    (h : trust.indexFor p server accountId proof who s = .ok ((index, trust'), s')) :
    s'.noted = s.noted := by
  simp only [WebTrust.indexFor, bind_ok] at h
  obtain ⟨⟨⟨epoch, key⟩, t⟩, _, hanchor, h⟩ := h
  rw [← (anchor_session hanchor).2]
  by_cases hbelow : p.belowTwo epoch
  · rw [if_pos hbelow, pure_ok] at h
    rw [h.2]
  · rw [if_neg hbelow] at h
    simp only [check_bind_ok, pure_ok] at h
    obtain ⟨_, -, _, -, _, -, -, rfl⟩ := h
    rfl

lemma webKeyById_noted {keyId : String} {key : Bytes}
    (h : trust.keyById p server keyId s = .ok ((key, trust'), s')) : s'.noted = s.noted := by
  simp only [WebTrust.keyById, ↓check_bind_ok, bind_ok] at h
  obtain ⟨⟨info, t⟩, _, hfetch, found, -, h⟩ := h
  rw [← (fetch_session hfetch).2]
  cases found with
  | some cached =>
    simp only [check_bind_ok, pure_ok] at h
    obtain ⟨_, -, _, -, -, rfl⟩ := h
    rfl
  | none =>
    simp only [↓check_bind_ok, bind_ok, pure_ok] at h
    obtain ⟨⟨info', t'⟩, _, hagain, _, -, _, -, _, -, _, -, -, rfl⟩ := h
    exact (fetch_session hagain).2

lemma webVerifyOneReceipt_ok {receipt assertedFp : Json} {purpose : String}
    (h : webVerifyOneReceipt p server trust receipt assertedFp binding purpose who s = .ok (trust', s')) :
    s'.noted = s.noted ++ [⟨receipt, assertedFp, purpose⟩] ∧
      receipt.get "key_purpose" = some (.string purpose) ∧
      (receipt.get "public_key_fingerprint").any (strictEq assertedFp) := by
  rw [webVerifyOneReceipt] at h
  simp only [↓check_bind_ok, bind_ok, ensure_ok, note_ok, pure_ok] at h
  obtain ⟨fp, hfp, _, hfpEq, named, hnamed, _, hnamedEq, _, -, sig, -, keyId, -, _, -, ⟨pub, t⟩, _, hkey, _, -,
    _, -, _, -, _, -, _, _, rfl, -, rfl⟩ := h
  refine ⟨?_, ?_, ?_⟩
  · rw [← webKeyById_noted hkey]
  · rw [prop_ok hnamed]
    exact any_strictEq_string.mp hnamedEq
  · rw [prop_ok hfp]
    exact hfpEq

end

/-! ### The attestation path -/

section

variable {p : WebPrimitives} {server : WebServer} {trust trust' : WebTrust} {s s' : Session ApiCall WebAccepted}

lemma verifyEachReceipt_ok {response epoch : Json}
    (h : verifyEachReceipt p server response attestation epoch binding who fields trust s = .ok (trust', s')) :
    ∃ accepted, s'.noted = s.noted ++ accepted ∧ List.Forall₂ (fun f a => ∃ fp,
      attestation.getStr f.2.1 = some fp ∧ a.receipt.get "key_purpose" = some (.string f.2.2) ∧
        a.receipt.get "public_key_fingerprint" = some (.string fp)) fields accepted := by
  induction fields generalizing trust s with
  | nil =>
    simp only [verifyEachReceipt, pure_ok] at h
    exact ⟨[], by simp [h.2], .nil⟩
  | cons f rest ih =>
    obtain ⟨receiptField, fpField, purpose⟩ := f
    rw [verifyEachReceipt] at h
    simp only [↓check_bind_ok, bind_ok, okOr_ok] at h
    obtain ⟨_, -, assertedFp, hasserted, receipt, -, fp, hfp, _, -, t, _, hone, hrest⟩ := h
    obtain ⟨hnoted, hpurpose, hreceiptFp⟩ := webVerifyOneReceipt_ok hone
    obtain ⟨accepted, hnoted', haccepted⟩ := ih hrest
    refine ⟨⟨receipt, .string fp, purpose⟩ :: accepted, ?_, .cons ⟨fp, ?_, hpurpose, ?_⟩ haccepted⟩
    · rw [hnoted', hnoted, List.append_assoc]
      rfl
    · rw [str_ok hasserted, hfp]
    · exact any_strictEq_string.mp hreceiptFp

lemma webLogged_of_forall₂ (h : List.Forall₂ (fun f a => ∃ fp, attestation.getStr f.2.1 = some fp ∧
      a.receipt.get "key_purpose" = some (.string f.2.2) ∧
        a.receipt.get "public_key_fingerprint" = some (.string fp)) fields accepted) (purpose fp : String) :
    WebLogged purpose fp accepted ↔ ∃ f ∈ fields, f.2.2 = purpose ∧ attestation.getStr f.2.1 = some fp := by
  induction h with
  | nil => simp [WebLogged]
  | cons hhead _ ih =>
    obtain ⟨stated, hstated, hpurpose, hfp⟩ := hhead
    rw [List.exists_mem_cons_iff, ← ih, WebLogged, WebLogged, List.exists_mem_cons_iff, hpurpose, hfp, hstated]
    simp

lemma webVerifyVerificationResponse_noted {response : Json}
    (h : webVerifyVerificationResponse p server trust response who s = .ok ((attestation, trust'), s')) :
    response.get "attestation" = some attestation ∧ s'.noted = s.noted := by
  rw [webVerifyVerificationResponse] at h
  simp only [↓check_bind_ok, bind_ok, okOr_ok, pure_ok] at h
  obtain ⟨_, hatt, _, -, _, -, _, htruthy, _, -, _, -, _, -, ⟨pub, t⟩, _, hkey, _, -, _, -, _, -, _, -,
    ⟨rfl, -⟩, rfl⟩ := h
  exact ⟨(prop_ok hatt).trans (filter_truthy_eq_some htruthy), webKeyById_noted hkey⟩

variable {r : VerifiedRecipient} {bundle accountId : Json} {expectation : HandleExpectation}

lemma webVerifyAgainstAttestation_logged {recipient : VerifiedRecipient} (hnoted : s.noted = [])
    (h : webVerifyAgainstAttestation p server trust bundle recipient accountId handle who s =
    .ok (trust', s')) : ∃ id response attestation, bundle.get "attestation_id" = some id ∧
      server (s.sent ++ [.attestation id]) = .ok response ∧ response.get "attestation" = some attestation ∧
      ∀ purpose fp, WebLogged purpose fp s'.noted ↔
        ∃ f ∈ inlineReceipts, f.2.2 = purpose ∧ attestation.getStr f.2.1 = some fp := by
  rw [webVerifyAgainstAttestation] at h
  simp only [webVerifyInlineReceipts, ↓check_bind_ok, bind_ok, okOr_ok,
    request_ok] at h
  obtain ⟨_, hid, id, htruthy, response, _, ⟨hresponse, rfl⟩, ⟨attestation, t⟩, _, hatt, _, -, ⟨kem, kemPq⟩, -,
    _, -, _, -, ⟨index, t'⟩, _, hindex, ⟨epoch, t''⟩, _, hepoch, heach⟩ := h
  obtain ⟨hattestation, hnoted'⟩ := webVerifyVerificationResponse_noted hatt
  obtain ⟨accepted, haccepted, hall⟩ := verifyEachReceipt_ok heach
  refine ⟨id, response, attestation, (prop_ok hid).trans (filter_truthy_eq_some htruthy), hresponse,
    hattestation, ?_⟩
  rw [haccepted, (epoch_session hepoch).2, indexFor_noted hindex, hnoted', hnoted]
  exact webLogged_of_forall₂ hall

/-! ### The receipt path -/

lemma webVerifyLogReceipt_ok {bundle epoch : Json} {fpField purpose : String}
    (h : webVerifyLogReceipt p server bundle epoch binding who fpField purpose trust s = .ok (trust', s')) :
    ∃ a, s'.noted = s.noted ++ [a] ∧ a.receipt.get "key_purpose" = some (.string purpose) ∧
      ∃ fp, bundle.get fpField = some fp ∧ (a.receipt.get "public_key_fingerprint").any (strictEq fp) := by
  rw [webVerifyLogReceipt] at h
  simp only [↓check_bind_ok, bind_ok, okOr_ok, mapError_ok, request_ok] at h
  obtain ⟨_, hfp, fp, htruthy, receipt, _, ⟨-, rfl⟩, hone⟩ := h
  obtain ⟨hnoted, hpurpose, hreceiptFp⟩ := webVerifyOneReceipt_ok hone
  exact ⟨_, hnoted, hpurpose, fp, (prop_ok hfp).trans (filter_truthy_eq_some htruthy), hreceiptFp⟩

lemma webVerifyAgainstReceipts_logged {fp fpPq : String}
    (h : webVerifyAgainstReceipts p server trust bundle accountId proof who s = .ok (trust', s'))
    (hfp : bundle.get "kem_pubkey_fingerprint" = some (.string fp))
    (hfpPq : bundle.get "kem_pq_pubkey_fingerprint" = some (.string fpPq)) :
    WebLogged "kem" fp s'.noted ∧ WebLogged "kem_pq" fpPq s'.noted := by
  simp only [webVerifyAgainstReceipts, bind_ok] at h
  obtain ⟨⟨epoch, t⟩, _, -, ⟨index, t'⟩, _, -, _, _, hkem, hkemPq⟩ := h
  obtain ⟨a, hnoted, hpurpose, fp', hfp', hreceiptFp⟩ := webVerifyLogReceipt_ok hkem
  obtain ⟨b, hnoted', hpurpose', fpPq', hfpPq', hreceiptFpPq⟩ := webVerifyLogReceipt_ok hkemPq
  obtain rfl := Option.some.inj (hfp.symm.trans hfp')
  obtain rfl := Option.some.inj (hfpPq.symm.trans hfpPq')
  rw [hnoted', hnoted]
  exact ⟨⟨a, by simp, hpurpose, any_strictEq_string.mp hreceiptFp⟩,
    ⟨b, by simp, hpurpose', any_strictEq_string.mp hreceiptFpPq⟩⟩

/-! ### The entry point -/

lemma verifyRecipientBundle_ok {bundle : Json} (h : verifyRecipientBundle p bundle who = .ok r) : ∃ fp pq,
      webFingerprint p r.pubkey = .ok fp ∧ bundle.get "kem_pubkey_fingerprint" = some (.string fp) ∧
      r.pqPubkey = some pq ∧
      bundle.get "kem_pq_pubkey_fingerprint" = some (.string (webFingerprintRaw p pq)) := by
  simp only [verifyRecipientBundle, except_bind_ok, ensure_ok] at h
  obtain ⟨kem, -, kemFp, hkemFp, -, -, pubkey, -, fp, hfp, -, hkemFpEq, pqKey, -, pqFp, hpqFp, h⟩ := h
  split at h
  · cases h
  next key stated _ hstated =>
    simp only [except_bind_ok, ensure_ok, except_pure_ok] at h
    obtain ⟨pq, -, -, -, -, hstatedEq, rfl⟩ := h
    refine ⟨fp, pq, hfp, (prop_ok hkemFp).trans (any_strictEq_string.mp hkemFpEq), rfl, ?_⟩
    rw [prop_ok hpqFp, coalesce_none_eq_some hstated, strictEq_string.mp hstatedEq]
  · cases h

lemma webCheckBundle_ok (h : webCheckBundle p bundle expectation who = .ok (r, handle, accountId, proof)) :
    verifyRecipientBundle p bundle who = .ok r ∧ bundle.get "handle" = some (.string handle) := by
  simp only [webCheckBundle, except_bind_ok, okOr_ok, except_pure_ok] at h
  obtain ⟨_, hget, v, htruthy, -, -, r', hr, handle', hhandle, -, -, ⟨_, _⟩, -, heq⟩ := h
  cases heq
  refine ⟨hr, ?_⟩
  rw [prop_ok hget, filter_truthy_eq_some htruthy]
  unfold asString at hhandle
  split at hhandle
  next hsome => cases hhandle; exact hsome
  · cases hhandle

lemma verifiedRecipient_ok {bundle : Json}
    (h : verifiedRecipient p server trust bundle expectation who s = .ok ((r, trust'), s')) :
    ∃ handle accountId proof epoch t t₁, webCheckBundle p bundle expectation who =
      .ok (r, handle, accountId, proof) ∧
      trust.epoch p server s = .ok ((epoch, t), t₁) ∧
      if isPrsn handle then webVerifyAgainstAttestation p server t bundle r accountId handle who t₁ =
        .ok (trust', s')
      else webVerifyAgainstReceipts p server t bundle accountId proof who t₁ = .ok (trust', s') := by
  rw [verifiedRecipient] at h
  simp only [↓check_bind_ok, bind_ok] at h
  obtain ⟨⟨r', handle, accountId, proof⟩, hbundle, ⟨epoch, t⟩, t₁, hepoch, _, -, hpath⟩ := h
  by_cases hprsn : isPrsn handle
  · rw [if_pos hprsn] at hpath
    simp only [bind_ok, pure_ok, Prod.mk.injEq] at hpath
    obtain ⟨_, _, hpath, ⟨rfl, rfl⟩, rfl⟩ := hpath
    exact ⟨handle, accountId, proof, epoch, t, t₁, hbundle, hepoch, (if_pos hprsn).mpr hpath⟩
  · rw [if_neg hprsn] at hpath
    simp only [bind_ok, pure_ok, Prod.mk.injEq] at hpath
    obtain ⟨_, _, hpath, ⟨rfl, rfl⟩, rfl⟩ := hpath
    exact ⟨handle, accountId, proof, epoch, t, t₁, hbundle, hepoch, (if_neg hprsn).mpr hpath⟩

lemma verifiedRecipient_logged_prsn {bundle : Json} {sent : List ApiCall}
    (h : verifiedRecipient p server trust bundle expectation who ⟨sent, []⟩ = .ok ((r, trust'), s'))
    (hhandle : bundle.get "handle" = some (.string handle)) (hprsn : isPrsn handle) :
    ∃ id response attestation, bundle.get "attestation_id" = some id ∧
      server (sentAfterFetch trust sent ++ [.attestation id]) = .ok response ∧
      response.get "attestation" = some attestation ∧
      ∀ purpose fp, WebLogged purpose fp s'.noted ↔
        ∃ f ∈ inlineReceipts, f.2.2 = purpose ∧ attestation.getStr f.2.1 = some fp := by
  obtain ⟨handle', accountId, proof, epoch, t, t₁, hbundle, hepoch, hpath⟩ := verifiedRecipient_ok h
  obtain ⟨hsent, hnoted⟩ := epoch_session hepoch
  have hsame := (webCheckBundle_ok hbundle).2
  rw [hhandle] at hsame
  cases hsame
  rw [if_pos hprsn] at hpath
  have hlogged := webVerifyAgainstAttestation_logged hnoted hpath
  rwa [hsent] at hlogged

end

/-! ### An attestation that states another fingerprint -/

section

variable {p : WebPrimitives} {server : WebServer} {trust : WebTrust} {s : Session ApiCall WebAccepted}
  {who keyId sigB64 : String} {input key signature : Bytes}

lemma webVerifyOneReceipt_attested {receipt : Json} {purpose fp : String}
    (hfp : prop p receipt "public_key_fingerprint" = .ok (some (.string fp)))
    (hpurpose : prop p receipt "key_purpose" = .ok (some (.string purpose)))
    (hsig : str p receipt "server_signature" = .ok (some sigB64))
    (hkeyId : str p receipt "server_key_id" = .ok (some keyId))
    (hinput : webReceiptSigningInput p (unsignedOf receipt) = .ok input)
    (hkey : trust.keyById p server keyId s = .ok ((key, trust), s))
    (hdecode : decodeText p (some (.string sigB64)) = .ok signature)
    (hverify : webVerifyEs256 p key input signature = .ok true)
    (hco : truthy (receipt.get "server_signature_mldsa87")) :
    webVerifyOneReceipt p server trust receipt (.string fp) .attested purpose who s =
      .ok (trust, { s with noted := s.noted ++ [⟨receipt, .string fp, purpose⟩] }) := by
  rw [webVerifyOneReceipt]
  simp only [↓check_bind_ok, bind_ok, ensure_ok, note_ok, pure_ok, hsig, hkeyId]
  exact ⟨_, hfp, (), any_strictEq_string.mpr rfl, _, hpurpose, (), any_strictEq_string.mpr rfl, (), rfl, sigB64,
    rfl, keyId, rfl, input, hinput, _, s, hkey, signature, hdecode, true, hverify, (), rfl, (), fun _ => hco,
      (), _, rfl, rfl, rfl⟩

lemma webVerifyVerificationResponse_of_parts {response signedAt : Json}
    (hatt : prop p response "attestation" = .ok (some attestation)) (htruthy : truthy (some attestation))
    (hkeyId : str p response "server_key_id" = .ok (some keyId))
    (hsigned : prop p response "signed_at" = .ok (some signedAt)) (hnumber : isNumber signedAt)
    (hinput : webVerificationSigningInput p attestation keyId signedAt = .ok input)
    (hkey : trust.keyById p server keyId s = .ok ((key, trust), s))
    (hdecode : decodeText p (response.get "server_signature") = .ok signature)
    (hverify : webVerifyEs256 p key input signature = .ok true)
    (hpq : truthy (response.get "server_pq_key_id") ∧ truthy (response.get "server_signature_mldsa87")) :
    webVerifyVerificationResponse p server trust response who s = .ok ((attestation, trust), s) := by
  rw [webVerifyVerificationResponse]
  simp only [↓check_bind_ok, bind_ok, ensure_ok, okOr_ok, pure_ok]
  exact ⟨_, hatt, _, hkeyId, _, hsigned, attestation, Option.filter_eq_some_iff.mpr ⟨rfl, htruthy⟩, keyId, rfl,
    signedAt, Option.filter_eq_some_iff.mpr ⟨rfl, hnumber⟩, input, hinput, _, s, hkey, signature, hdecode, true,
    hverify, (), rfl, (), hpq, rfl, rfl⟩

lemma verifyRecipientBundle_of_parts {bundle : Json} {kem pqB64 fp : String} (pq : Bytes)
    (hkem : prop p bundle "kem_pubkey" = .ok (some (.string kem))) (htruthy : truthy (some (.string kem)))
    (hkemFp : prop p bundle "kem_pubkey_fingerprint" = .ok (some (.string fp)))
    (hfpTruthy : truthy (some (.string fp))) (hdecode : decodeText p (some (.string kem)) = .ok key)
    (hfp : webFingerprint p key = .ok fp) (hpqKey : prop p bundle "kem_pq_pubkey" = .ok (some (.string pqB64)))
    (hpqFp : prop p bundle "kem_pq_pubkey_fingerprint" = .ok (some (.string (webFingerprintRaw p pq))))
    (hpqDecode : decodeText p (some (.string pqB64)) = .ok pq) (hlength : pq.length = 1568) :
    verifyRecipientBundle p bundle who = .ok ⟨key, some pq⟩ := by
  simp only [verifyRecipientBundle, except_bind_ok, ensure_ok]
  refine ⟨_, hkem, _, hkemFp, (), ⟨htruthy, hfpTruthy⟩, key, hdecode, fp, hfp, (), any_strictEq_string.mpr rfl,
    _, hpqKey, _, hpqFp, ?_⟩
  simp only [coalesce, except_bind_ok, ensure_ok, except_pure_ok]
  exact ⟨pq, hpqDecode, (), hlength, (), strictEq_string.mpr rfl, rfl⟩

lemma webAttestedKeys_of_parts {kem pqB64 rfp : String}
    (hkem : str p attestation "subject_kem_pubkey" = .ok (some kem)) (hkemNe : kem ≠ "")
    (hpq : str p attestation "subject_kem_pq_pubkey" = .ok (some pqB64)) (hpqNe : pqB64 ≠ "")
    (hdecode : decodeText p (some (.string kem)) = .ok key)
    (hpqDecode : decodeText p (some (.string pqB64)) = .ok pq) (hrfp : webHybridRfp p key pq = .ok rfp)
    (hstated : str p attestation "rfp" = .ok (some rfp)) :
    webAttestedKeys p attestation handle who = .ok (key, pq) := by
  simp only [webAttestedKeys, except_bind_ok, okOr_ok, ensure_ok, except_pure_ok]
  exact ⟨_, hkem, kem, Option.filter_eq_some_iff.mpr ⟨rfl, decide_eq_true hkemNe⟩, key, hdecode, _, hpq, pqB64,
    Option.filter_eq_some_iff.mpr ⟨rfl, decide_eq_true hpqNe⟩, pq, hpqDecode, rfp, hrfp, _,
    hstated, (), rfl, rfl⟩

lemma verifiedRecipient_of_attested {bundle accountId response epoch id : Json}
    {expectation : HandleExpectation} {fresh : WebTrust} {t s' : Session ApiCall WebAccepted}
    (hbundle : webCheckBundle p bundle expectation who = .ok (⟨key, some pq⟩, handle, accountId, proof))
    (hepoch : fresh.epoch p server s = .ok ((epoch, trust), t))
    (hbundleEpoch : webCheckBundleEpoch p bundle epoch who = .ok ()) (hprsn : isPrsn handle)
    (hid : prop p bundle "attestation_id" = .ok (some id)) (htruthy : truthy (some id))
    (hresponse : server (t.sent ++ [.attestation id]) = .ok response)
    (hatt : ∀ s, webVerifyVerificationResponse p server trust response who s = .ok ((attestation, trust), s))
    (hsubject : webCheckSubject p attestation accountId handle who = .ok ())
    (hkeys : webAttestedKeys p attestation handle who = .ok (key, pq))
    (hproof : str p attestation "subject_account_vrf_proof" = .ok none)
    (hindex : ∀ s, trust.indexFor p server accountId none who s = .ok ((none, trust), s))
    (hreceipts : webVerifyInlineReceipts p server trust response attestation none who
      { t with sent := t.sent ++ [.attestation id] } = .ok (trust, s')) :
    verifiedRecipient p server fresh bundle expectation who s = .ok ((⟨key, some pq⟩, trust), s') := by
  rw [verifiedRecipient]
  simp only [↓check_bind_ok, bind_ok]
  refine ⟨_, hbundle, _, _, hepoch, (), hbundleEpoch, ?_⟩
  rw [if_pos hprsn]
  rw [webVerifyAgainstAttestation]
  simp only [↓check_bind_ok, bind_ok, okOr_ok, ensure_ok, request_ok, pure_ok]
  exact ⟨trust, s', ⟨_, hid, id, Option.filter_eq_some_iff.mpr ⟨rfl, htruthy⟩, response, _, ⟨hresponse, rfl⟩, _,
    _, hatt _, (), hsubject, _, hkeys, (), ⟨rfl, rfl⟩, _, hproof, _, _, hindex _, hreceipts⟩, rfl, rfl⟩

lemma verifyEachReceipt_of_accepted (response attestation epoch : Json)
    (fields : List (String × String × String))
    (hfields : ∀ f ∈ fields, ∃ receipt fp, prop p response f.1 = .ok (some receipt) ∧ truthy (some receipt) ∧
      str p attestation f.2.1 = .ok (some fp) ∧ webCheckReceiptEpoch p receipt epoch who f.2.2 = .ok () ∧
      ∀ s, ∃ s', webVerifyOneReceipt p server trust receipt (.string fp) binding f.2.2 who s = .ok (trust, s'))
    (s : Session ApiCall WebAccepted) :
    ∃ s', verifyEachReceipt p server response attestation epoch binding who fields trust s =
      .ok (trust, s') := by
  induction fields generalizing s with
  | nil => exact ⟨s, rfl⟩
  | cons f rest ih =>
    obtain ⟨⟨receipt, fp, hreceipt, htruthy, hfp, hepoch, hone⟩, hrest⟩ := List.forall_mem_cons.mp hfields
    obtain ⟨t, ht⟩ := hone s
    obtain ⟨s', hs'⟩ := ih hrest t
    refine ⟨s', ?_⟩
    rw [verifyEachReceipt]
    simp only [↓check_bind_ok, bind_ok, okOr_ok]
    exact ⟨_, hreceipt, _, hfp, receipt, Option.filter_eq_some_iff.mpr ⟨rfl, htruthy⟩, fp, rfl, (), hepoch,
      trust, t, ht, hs'⟩

end

def webPrimitives : WebPrimitives where
  b64uDecode := samplePrimitives.base64UrlDecode
  spki := samplePrimitives.toPublicKeyDer
  sha256 := samplePrimitives.sha256
  toCanonicalBytes v := okOr (samplePrimitives.jcsToVec v) (.invalidInput "jcs")
  ecdsaVerify _ _ _ := some true
  vrfVerify _ _ _ := .error (.integrity "authentication failed")
  toLowerCase s := String.ofList (s.toList.map asciiLower)
  belowTwo
    | .number (.posInt n) => n < 2
    | _ => false
  text
    | .number (.posInt n) => toString n.val
    | .string s => s
    | _ => ""
  engineError := "not a function"

def webAttestation (kemFp : String) : Json := .object
  [("rfp", .string pairRfp), ("status", .string "active"), ("subject_account_id", .string "pat"),
    ("subject_handle", .string "pat-ai"), ("subject_kem_pq_pubkey", .string (zerosB64 2091)),
    ("subject_kem_pq_pubkey_fingerprint", .string pqKeyFp), ("subject_kem_pubkey", .string ecKeyB64),
    ("subject_kem_pubkey_fingerprint", .string kemFp),
    ("subject_signing_pq_pubkey_fingerprint", .string pqKeyFp),
    ("subject_signing_pubkey_fingerprint", .string ecKeyFp)]

def webResponse (kemFp : String) : Json := .object
  [("attestation", webAttestation kemFp), ("server_key_id", .string "es-1"),
    ("server_pq_key_id", .string "pq-1"),
    ("server_signature", .string (zerosB64 86)), ("server_signature_mldsa87", .string (zerosB64 6170)),
    ("signed_at", .number (.posInt 1700000000)),
    ("subject_kem_pq_pubkey_receipt", sampleReceipt "kem_pq" pqKeyFp),
    ("subject_kem_pubkey_receipt", sampleReceipt "kem" kemFp),
    ("subject_signing_pq_pubkey_receipt", sampleReceipt "signing_pq" pqKeyFp),
    ("subject_signing_pubkey_receipt", sampleReceipt "signing" ecKeyFp)]

def webServer (kemFp : String) : WebServer := fun sent =>
  match sent.getLast? with
  | some (.attestation _) => .ok (webResponse kemFp)
  | _ => .ok sampleTrust.info

def epochOne : Json := .number (.posInt 1)

def webTrust : WebTrust := ⟨some sampleTrust.info, some (epochOne, none)⟩

section

variable {server : WebServer} {s : Session ApiCall WebAccepted} {who : String}

lemma webTrust_fetch : webTrust.fetch webPrimitives server s = .ok ((sampleTrust.info, webTrust), s) := rfl

lemma webTrust_epoch : webTrust.epoch webPrimitives server s = .ok ((epochOne, webTrust), s) := rfl

lemma webTrust_first (kemFp : String) : WebTrust.epoch webPrimitives (webServer kemFp) ⟨none, none⟩ ⟨[], []⟩ =
    .ok ((epochOne, webTrust), ⟨[.serverInfo], []⟩) := rfl

lemma webTrust_index (accountId : Json) (proof : Option Json) :
    webTrust.indexFor webPrimitives server accountId proof who s = .ok ((none, webTrust), s) := rfl

lemma ecKeyB64_decoded : decodeText webPrimitives (some (.string ecKeyB64)) = .ok ecKey := by
  simp only [decodeText, except_bind_ok, okOr_ok]
  exact ⟨_, rfl, samplePrimitives_ecKeyB64⟩

lemma webTrust_key : webTrust.keyById webPrimitives server "es-1" s = .ok ((ecKey, webTrust), s) := by
  have hfound : findById webPrimitives sampleTrust.info "es-1" = .ok (some (.object [("key_id", .string "es-1"),
      ("public_key", .string ecKeyB64), ("purpose", .string "attestation_verification")])) := rfl
  simp only [WebTrust.keyById, ↓check_bind_ok, bind_ok]
  refine ⟨_, s, webTrust_fetch, _, hfound, ?_⟩
  simp only [check_bind_ok, pure_ok]
  exact ⟨_, rfl, ecKey, ecKeyB64_decoded, rfl, trivial⟩

lemma zerosB64_ne {n : ℕ} (hn : 0 < n) : zerosB64 n ≠ "" := by
  intro h
  have hlength := congrArg (fun s => s.toList.length) h
  simp only [zerosB64, String.toList_ofList, List.length_replicate] at hlength
  exact absurd hlength hn.ne'

lemma truthy_zerosB64 {n : ℕ} (hn : 0 < n) : truthy (some (.string (zerosB64 n))) :=
  decide_eq_true (zerosB64_ne hn)

lemma zerosB64_decoded (n : ℕ) :
    decodeText webPrimitives (some (.string (zerosB64 n))) = .ok (List.replicate (n * 3 / 4) 0) := by
  simp only [decodeText, except_bind_ok, okOr_ok]
  exact ⟨_, rfl, samplePrimitives_zerosB64 n⟩

lemma sampleSignature_verified (message : Bytes) :
    webVerifyEs256 webPrimitives ecKey message (List.replicate (86 * 3 / 4) 0) = .ok true := by
  rw [webVerifyEs256, if_neg (by rw [List.length_replicate]; simp [ecKey, length_toBeBytes])]
  rfl

lemma sampleReceipt_accepted (purpose fp : String) :
    webVerifyOneReceipt webPrimitives server webTrust (sampleReceipt purpose fp)
    (.string fp) .attested purpose who s =
      .ok (webTrust, { s with noted := s.noted ++ [⟨sampleReceipt purpose fp, .string fp, purpose⟩] }) :=
  webVerifyOneReceipt_attested rfl rfl rfl rfl rfl webTrust_key (zerosB64_decoded 86)
    (sampleSignature_verified _) (truthy_zerosB64 (by norm_num))

lemma webResponse_verified (kemFp : String) :
    webVerifyVerificationResponse webPrimitives server webTrust (webResponse kemFp) who s =
      .ok ((webAttestation kemFp, webTrust), s) :=
  webVerifyVerificationResponse_of_parts rfl rfl rfl rfl rfl rfl webTrust_key (zerosB64_decoded 86)
    (sampleSignature_verified _) ⟨rfl, truthy_zerosB64 (by norm_num)⟩

lemma webReceipts_verified (kemFp : String) (server : WebServer) (who : String)
    (s : Session ApiCall WebAccepted) :
    ∃ s', webVerifyInlineReceipts webPrimitives server webTrust (webResponse kemFp)
      (webAttestation kemFp) none who s = .ok (webTrust, s') := by
  have haccepted (purpose fp : String) (s : Session ApiCall WebAccepted) :
      ∃ s', webVerifyOneReceipt webPrimitives server webTrust (sampleReceipt purpose fp)
        (.string fp) .attested purpose
        who s = .ok (webTrust, s') := ⟨_, sampleReceipt_accepted purpose fp⟩
  obtain ⟨s', hs'⟩ := verifyEachReceipt_of_accepted (p := webPrimitives) (webResponse kemFp)
    (webAttestation kemFp) epochOne inlineReceipts (by
      simp only [inlineReceipts, List.forall_mem_cons]
      exact ⟨⟨_, ecKeyFp, rfl, rfl, rfl, rfl, haccepted "signing" ecKeyFp⟩,
        ⟨_, kemFp, rfl, rfl, rfl, rfl, haccepted "kem" kemFp⟩,
        ⟨_, pqKeyFp, rfl, rfl, rfl, rfl, haccepted "signing_pq" pqKeyFp⟩,
        ⟨_, pqKeyFp, rfl, rfl, rfl, rfl, haccepted "kem_pq" pqKeyFp⟩, by simp⟩) s
  refine ⟨s', ?_⟩
  simp only [webVerifyInlineReceipts, bind_ok]
  exact ⟨_, s, webTrust_epoch, hs'⟩

end

lemma truthy_hexEncode (h : Hash) : truthy (some (.string (hexEncode h.toList))) := by
  have hne : hexEncode h.toList ≠ "" := by
    intro hempty
    have hlength := congrArg String.length hempty
    rw [length_hexEncode, h.toList_length] at hlength
    cases hlength
  exact decide_eq_true hne

lemma webPrimitives_spki : webPrimitives.spki = samplePrimitives.toPublicKeyDer := rfl

lemma webPrimitives_sha256 : webPrimitives.sha256 = samplePrimitives.sha256 := rfl

lemma webPrimitives_fingerprint : webFingerprint webPrimitives ecKey = .ok ecKeyFp := by
  simp only [webFingerprint, except_bind_ok, okOr_ok, except_pure_ok, webPrimitives_spki, webPrimitives_sha256]
  exact ⟨ecKeyDer, by simp [samplePrimitives], by simp [samplePrimitives, ecKeyFp]⟩

lemma webPrimitives_fingerprintRaw : webFingerprintRaw webPrimitives pqKey = pqKeyFp := by
  rw [webFingerprintRaw, webPrimitives_sha256]
  exact samplePrimitives_fingerprintRaw

lemma webBundle_checked : webCheckBundle webPrimitives sampleBundle (.userNamed "pat-ai") "pat" =
    .ok (⟨ecKey, some pqKey⟩, "pat-ai", .string "pat", none) := by
  have hkeys : verifyRecipientBundle webPrimitives sampleBundle "pat" = .ok ⟨ecKey, some pqKey⟩ := by
    refine verifyRecipientBundle_of_parts pqKey rfl rfl rfl (truthy_hexEncode _) ecKeyB64_decoded
      webPrimitives_fingerprint rfl ?_ (zerosB64_decoded 2091) List.length_replicate
    rw [webPrimitives_fingerprintRaw]
    rfl
  simp only [webCheckBundle, except_bind_ok, okOr_ok, except_pure_ok]
  exact ⟨_, rfl, .string "pat-ai", rfl, (), rfl, _, hkeys, "pat-ai", rfl, (), rfl, _, rfl, rfl⟩

lemma webAttestation_keys (kemFp : String) :
    webAttestedKeys webPrimitives (webAttestation kemFp) "pat-ai" "pat" = .ok (ecKey, pqKey) := by
  have hrfp : webHybridRfp webPrimitives ecKey pqKey = .ok pairRfp := by
    have hpair : hexEncode (samplePrimitives.sha256 (pushField ecKey ++ pushField pqKey)).toList = pairRfp := by
      have hsome := samplePrimitives_hybridRfp
      unfold hybridRfp at hsome
      split at hsome
      · exact Option.some.inj hsome
      · cases hsome
    simp only [webHybridRfp, except_bind_ok, ensure_ok, except_pure_ok, webPrimitives_spki,
      webPrimitives_sha256, hpair]
    exact ⟨(), ⟨rfl, by decide⟩, (), by simp [samplePrimitives], (), List.length_replicate, trivial⟩
  exact webAttestedKeys_of_parts rfl
    (by decide) rfl (zerosB64_ne (by norm_num)) ecKeyB64_decoded (zerosB64_decoded 2091) hrfp rfl

lemma webRun_ok (kemFp : String) : ∃ s', verifiedRecipient webPrimitives (webServer kemFp) ⟨none, none⟩
    sampleBundle (.userNamed "pat-ai") "pat" ⟨[], []⟩ = .ok ((⟨ecKey, some pqKey⟩, webTrust), s') := by
  obtain ⟨s', hs'⟩ := webReceipts_verified kemFp (webServer kemFp) "pat"
    ⟨[.serverInfo, .attestation (.string "1")], []⟩
  have hsubject : webCheckSubject webPrimitives (webAttestation kemFp)
      (.string "pat") "pat-ai" "pat" = .ok () := by
    rfl
  exact ⟨s', verifiedRecipient_of_attested webBundle_checked (webTrust_first kemFp) rfl isPrsn_sample rfl rfl
    rfl (fun _ => webResponse_verified kemFp) hsubject (webAttestation_keys kemFp) rfl
      (fun _ => webTrust_index _ _) hs'⟩

/-- The server's answer for the attestation that the bundle names states the fingerprints that the bundle
states. -/
def AttestationStatesKeys (server : WebServer) (sent : List ApiCall) (bundle : Json) : Prop :=
  ∃ id response attestation, bundle.get "attestation_id" = some id ∧
    server (sent ++ [.attestation id]) = .ok response ∧ response.get "attestation" = some attestation ∧
    attestation.getStr "subject_kem_pubkey_fingerprint" = bundle.getStr "kem_pubkey_fingerprint" ∧
    attestation.getStr "subject_kem_pq_pubkey_fingerprint" = bundle.getStr "kem_pq_pubkey_fingerprint"

/-- The attestation states the fingerprint of another key, and its receipt is for that one. -/
theorem verifiedRecipient_kem_unlogged : ∃ r trust' s',
    verifiedRecipient webPrimitives (webServer pqKeyFp) ⟨none, none⟩ sampleBundle
      (.userNamed "pat-ai") "pat" ⟨[], []⟩ = .ok ((r, trust'), s') ∧
    ¬ WebKeysLogged webPrimitives r s'.noted := by
  obtain ⟨s', hrun⟩ := webRun_ok pqKeyFp
  refine ⟨_, _, s', hrun, ?_⟩
  obtain ⟨id, response, attestation, hid, hresponse, hattestation, hall⟩ :=
    verifiedRecipient_logged_prsn hrun rfl isPrsn_sample
  obtain rfl : .string "1" = id := Option.some.inj hid
  obtain rfl : webResponse pqKeyFp = response := Except.ok.inj hresponse
  obtain rfl : webAttestation pqKeyFp = attestation := Option.some.inj hattestation
  rw [webKeysLogged_iff webPrimitives_fingerprint rfl, hall]
  have hne : pqKeyFp ≠ ecKeyFp := fun h => absurd (hexEncode_injective h) (by decide)
  rintro ⟨⟨f, hf, hpurpose, hstated⟩, -⟩
  simp only [inlineReceipts, List.mem_cons, List.not_mem_nil, or_false] at hf
  rcases hf with rfl | rfl | rfl | rfl
  · simp at hpurpose
  · exact hne (Option.some.inj hstated)
  · simp at hpurpose
  · simp at hpurpose

/-- Whatever the server answers, the keys a web writer takes are logged exactly if the recipient is
not a PRSN or the attestation states their fingerprints. -/
theorem verifiedRecipient_keysLogged_iff (p : WebPrimitives) (server : WebServer) (trust : WebTrust)
    (bundle : Json) (expectation : HandleExpectation) (who : String) (sent : List ApiCall)
    (r : VerifiedRecipient) (trust' : WebTrust) (s' : Session ApiCall WebAccepted)
    (h : verifiedRecipient p server trust bundle expectation who ⟨sent, []⟩ = .ok ((r, trust'), s')) :
    WebKeysLogged p r s'.noted ↔
      ∀ handle, bundle.get "handle" = some (.string handle) → isPrsn handle →
        AttestationStatesKeys server (sentAfterFetch trust sent) bundle := by
  obtain ⟨handle, accountId, proof, epoch, t, t₁, hbundle, hepoch, hpath⟩ := verifiedRecipient_ok h
  obtain ⟨hkeys, hhandle⟩ := webCheckBundle_ok hbundle
  obtain ⟨fp, pq, hfp, hstated, hpq, hstatedPq⟩ := verifyRecipientBundle_ok hkeys
  rw [webKeysLogged_iff hfp hpq]
  simp only [hhandle, Option.some.injEq, Json.string.injEq, forall_eq']
  by_cases hprsn : isPrsn handle
  · obtain ⟨id, response, attestation, hid, hresponse, hattestation, hall⟩ :=
      verifiedRecipient_logged_prsn h hhandle hprsn
    have hcond : AttestationStatesKeys server (sentAfterFetch trust sent) bundle ↔
        attestation.getStr "subject_kem_pubkey_fingerprint" = some fp ∧
          attestation.getStr "subject_kem_pq_pubkey_fingerprint" = some (webFingerprintRaw p pq) := by
      simp [AttestationStatesKeys, hid, hresponse, hattestation, Json.getStr, hstated, hstatedPq, Json.asStr]
    simp only [hprsn, true_imp_iff, hcond, hall]
    simp [inlineReceipts]
  · rw [if_neg hprsn] at hpath
    exact ⟨fun _ hprsn' => absurd hprsn' hprsn,
      fun _ => webVerifyAgainstReceipts_logged hpath hstated hstatedPq⟩

theorem verifiedRecipient_keysLogged_iff_prsn : ∃ r trust' s',
    verifiedRecipient webPrimitives (webServer ecKeyFp) ⟨none, none⟩ sampleBundle
      (.userNamed "pat-ai") "pat" ⟨[], []⟩ = .ok ((r, trust'), s') ∧
    WebKeysLogged webPrimitives r s'.noted := by
  obtain ⟨s', hrun⟩ := webRun_ok ecKeyFp
  refine ⟨_, _, s', hrun, (verifiedRecipient_keysLogged_iff _ _ _ _ _ _ _ _ _ _ hrun).mpr ?_⟩
  intro handle _ _
  exact ⟨.string "1", _, _, rfl, rfl, rfl, rfl, rfl⟩

end SignetDrive.Proofs
