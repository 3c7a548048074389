import SignetDrive.Model.Receipt

/-!
# Verified-source recipient keys

`cli/src/recipient_verify.rs`, with `verify_recipient_wrap_keys` and `verify_inline_receipts` of
`cli/src/commands.rs`, built without `classical-write`. Every receipt that passes its check is noted.
-/

namespace SignetDrive
open Client Program

structure Accepted (p : Primitives) where
  receipt : Json
  assertedFp : String
  binding : AccountBinding
  expectedPurpose : String
  serverPub : Bytes
  serverPqVk : Option Bytes
  ok : p.verifyOneReceipt receipt assertedFp binding expectedPurpose serverPub serverPqVk = .ok ()

abbrev Verify (p : Primitives) := Program String (Accepted p) CliError

abbrev HttpServer := Server String Json CliError

structure ServerTrust where
  info : Json
  mode : LogMode
  epoch : U16

structure RecipientWrapKeys where
  rkEc : Bytes
  rkPq : Option Bytes

inductive HandleExpectation where
  | userNamed (expected : String)
  | serverListed

inductive Transparency where
  | absent
  | verified
  | part
  deriving DecidableEq

def Transparency.asStr : Transparency → String
  | absent => "absent"
  | verified => "verified"
  | part => "partial"

/-- `u32::to_be_bytes` of the length, then the bytes. -/
def pushField (data : Bytes) : Bytes :=
  let n := data.length % 2 ^ 32
  [UInt8.ofNat (n / 2 ^ 24), UInt8.ofNat (n / 2 ^ 16), UInt8.ofNat (n / 2 ^ 8), UInt8.ofNat n] ++ data

def MLKEM1024_EK_LEN : ℕ := 1568

def publicKeyOf (p : Primitives) (key : Json) : Except CliError Bytes := do
  let pkB64 ← okOr (key.getStr "public_key") (.invalidData "server-info key missing public_key")
  okOr (p.base64UrlDecode pkB64) (.invalidData "server-info public_key base64url")

section

variable (p : Primitives)

def verifyRecipientKemPub (value : Json) (who : String) : Except CliError Bytes := do
  let kemB64 ← okOr (value.getStr "kem_pubkey") (.invalidData s!"{who} has no KEM public key")
  let statedFp ← okOr (value.getStr "kem_pubkey_fingerprint")
    (.invalidData s!"{who} KEM key has no fingerprint")
  let pubkey ← okOr (p.base64UrlDecode kemB64) (.invalidData s!"{who} KEM pubkey is not base64url")
  let computed ← okOr (p.fingerprint pubkey)
    (.invalidData s!"{who} KEM pubkey is not a valid P-256 point")
  ensure (computed = statedFp) (.transparencyViolation s!"{who} KEM-key fingerprint mismatch")
  return pubkey

def verifyRecipientKemPqPub (value : Json) (who : String) : Except CliError Bytes :=
  match value.getStr "kem_pq_pubkey", value.getStr "kem_pq_pubkey_fingerprint" with
  | none, none => .error (.transparencyViolation
      (s!"{who} has no published ML-KEM key: refusing a classical-only wrap " ++
        "(mandatory hybrid write, PQR §9.2: every v1 identity is hybrid; " ++
        "a PQ-less bundle is a stripped directory response)"))
  | some k, some fp => do
    let ek ← okOr (p.base64UrlDecode k) (.invalidData s!"{who} ML-KEM pubkey is not base64url")
    ensure (ek.length = MLKEM1024_EK_LEN) (.invalidData s!"{who} ML-KEM pubkey must be 1568 bytes")
    ensure (p.fingerprintRaw ek = fp)
      (.transparencyViolation s!"{who} ML-KEM-key fingerprint mismatch")
    return ek
  | _, _ => .error (.transparencyViolation
      s!"{who} hybrid KEM bundle is half-stripped (ML-KEM key/fingerprint pair incomplete)")

def verifyRecipientWrapKeys (value : Json) (who : String) : Except CliError RecipientWrapKeys := do
  let rkEc ← verifyRecipientKemPub p value who
  let rkPq ← verifyRecipientKemPqPub p value who
  return ⟨rkEc, some rkPq⟩

variable (server : HttpServer) (trust : ServerTrust) (serverUrl : String) (bundle : Json)

def checkBundleEpoch (epoch : U16) (who : String) : Except CliError Unit :=
  let shown := (bundle.get "epoch").elim "1 (absent)" p.jsonText
  ensure (Primitives.namedEpoch bundle = some epoch.val) (CliError.asEpochMove (.transparencyViolation
    (s!"{who}: the recipient bundle names epoch {shown}, " ++
      s!"but the anchored epoch is {epoch.val}")))

def hybridRfp (rkEcX963 rkPq : Bytes) : Option String :=
  if rkEcX963.length = 65 ∧ rkEcX963.head? = some 0x04 ∧ p.fromSec1Bytes rkEcX963 ∧
      rkPq.length = MLKEM1024_EK_LEN then
    some (hexEncode (p.sha256 (pushField rkEcX963 ++ pushField rkPq)).toList)
  else none

def decodeB64 (obj : Json) (field who : String) : Except CliError Bytes := do
  let b64 ← okOr (obj.getStr field) (.invalidData s!"{who}: missing {field}")
  okOr (p.base64UrlDecode b64) (.invalidData s!"{who}: {field} base64url")

namespace ServerTrust

def signingKeys (info : Json) (field : String) : List Json :=
  ((info.get field).bind Json.asArray).getD []

def findKeyById (info : Json) (keyId : String) : Except CliError (Option Bytes) :=
  match (signingKeys info "current_signing_keys" ++ signingKeys info "retired_signing_keys").find?
      fun key => key.getStr "key_id" = some keyId with
  | none => .ok none
  | some key => do
    let vk ← publicKeyOf p key
    return some vk

def keyById (self : ServerTrust) (serverUrl keyId : String) : Verify p Bytes := do
  match ← check (findKeyById p self.info keyId) with
  | some vk => return vk
  | none => do
    let fresh ← request server s!"{serverUrl}/v1/server-info"
    let found ← check (findKeyById p fresh keyId)
    check (okOr found (.transparencyViolation s!"server-info has no signing key with id {keyId}"))

def activePqKey (self : ServerTrust) : Except CliError Bytes := do
  let keys ← okOr ((self.info.get "current_signing_keys").bind Json.asArray)
    (.invalidData "server-info missing current_signing_keys")
  let key ← okOr (keys.find? fun key => key.getStr "purpose" = some "attestation_verification_pq")
    (.transparencyViolation ("server publishes no active ML-DSA-87 verification key: refusing to " ++
      "verify recipient identity records ES256-only (MF-2/N9)"))
  publicKeyOf p key

def indexFor (self : ServerTrust) (accountId : String) (proof : Option String) (who : String) :
    Except CliError (Option (U16 × List.Vector UInt8 64)) :=
  p.indexUnder self.mode accountId proof who

end ServerTrust

def verifyAndNote (receipt : Json) (assertedFp : String) (binding : AccountBinding)
    (expectedPurpose : String) (serverPub : Bytes) (serverPqVk : Option Bytes) : Verify p Unit :=
  fun s =>
    match h : p.verifyOneReceipt receipt assertedFp binding expectedPurpose serverPub serverPqVk with
    | .ok () => note ⟨receipt, assertedFp, binding, expectedPurpose, serverPub, serverPqVk, h⟩ s
    | .error e => .error e

def inlineReceipts : List (String × String × String) :=
  [("subject_signing_pubkey_receipt", "subject_signing_pubkey_fingerprint", "signing"),
    ("subject_kem_pubkey_receipt", "subject_kem_pubkey_fingerprint", "kem"),
    ("subject_signing_pq_pubkey_receipt", "subject_signing_pq_pubkey_fingerprint", "signing_pq"),
    ("subject_kem_pq_pubkey_receipt", "subject_kem_pq_pubkey_fingerprint", "kem_pq")]

def verifyPresentReceipts (response attestation : Json) (serverPub : Bytes) (serverPqVk : Option Bytes)
    (binding : AccountBinding) (anchoredEpoch : Option U16) :
    List (String × String × String) → Verify p ℕ
  | [] => return 0
  | (receiptField, fpField, purpose) :: rest =>
    match response.get receiptField with
    | none => verifyPresentReceipts response attestation serverPub serverPqVk binding anchoredEpoch rest
    | some receipt => do
      check (match anchoredEpoch with
        | some epoch => p.checkReceiptEpoch receipt epoch "attestation"
        | none => .ok ())
      let assertedFp ← check (okOr (attestation.getStr fpField)
        (.invalidData s!"attestation missing {fpField}"))
      verifyAndNote p receipt assertedFp binding purpose serverPub serverPqVk
      let present ← verifyPresentReceipts response attestation serverPub serverPqVk binding
        anchoredEpoch rest
      return present + 1

def verifyInlineReceipts (response attestation : Json) (serverPub : Bytes) (serverPqVk : Option Bytes)
    (binding : AccountBinding) (anchoredEpoch : Option U16) : Verify p Transparency := do
  let expected := if (attestation.get "subject_signing_pq_pubkey_fingerprint").isSome then 4 else 2
  let present ← verifyPresentReceipts p response attestation serverPub serverPqVk binding
    anchoredEpoch inlineReceipts
  return if present = 0 then .absent else if present = expected then .verified else .part

/-- The account that receipts must name, and otherwise what stands for it in epoch 1. -/
def bindingOf (index : Option (U16 × List.Vector UInt8 64)) (legacy : AccountBinding) : AccountBinding :=
  match index with
  | none => legacy
  | some (epoch, index) => .index epoch index

def responsePqKey (response : Json) : Verify p Bytes :=
  match response.getStr "server_pq_key_id" with
  | some pqKid => trust.keyById p server serverUrl pqKid
  | none => check (trust.activePqKey p)

def verifyVerificationResponse (response : Json) (who : String) : Verify p Json := do
  let serverKeyId ← check (okOr (response.getStr "server_key_id")
    (.invalidData "response missing server_key_id"))
  let signedAt ← check (okOr ((response.get "signed_at").bind Json.asI64)
    (.invalidData "response missing signed_at"))
  let attestation ← check (okOr (response.get "attestation")
    (.invalidData "response missing attestation"))
  let signatureB64 ← check (okOr (response.getStr "server_signature")
    (.invalidData "response missing server_signature"))
  let signature ← check (okOr (p.base64UrlDecode signatureB64)
    (.invalidData "server_signature base64url"))
  let signingInput ← check (okOr (p.verificationSigningInput attestation serverKeyId signedAt)
    (.invalidData "verification canonical bytes"))
  let serverPub ← trust.keyById p server serverUrl serverKeyId
  check (ensure (p.verifyEs256 serverPub signingInput signature)
    (.signatureInvalid s!"{who}: server signature does not verify"))
  let pqVk ← responsePqKey p server trust serverUrl response
  let pqSigB64 ← check (okOr (response.getStr "server_signature_mldsa87") (.signatureInvalid
    (s!"{who}: ES256-only verification response rejected: the server has a " ++
      "published ML-DSA-87 key, so the §9 response MUST be dual-signed (MF-2/N9)")))
  let pqSig ← check (okOr (p.base64UrlDecode pqSigB64)
    (.invalidData "server_signature_mldsa87 base64url"))
  check (p.verifyMldsa87 pqVk signingInput Primitives.SERVER_VERIFY_MLDSA_CTX pqSig)
  let subjectAccount ← check (okOr (attestation.getStr "subject_account_id")
    (.invalidData "attestation missing subject_account_id"))
  let index ← check (trust.indexFor p subjectAccount
    (attestation.getStr "subject_account_vrf_proof") who)
  let transparency ← verifyInlineReceipts p response attestation serverPub (some pqVk)
    (bindingOf index .attested) (some trust.epoch)
  check (ensure (transparency = .verified) (.transparencyViolation
    (s!"{who}: attestation response's transparency receipts are {transparency.asStr}: " ++
      "the write path requires the full receipt set")))
  return attestation

def checkStatus (attestation : Json) (handle who : String) : Except CliError Unit :=
  match attestation.getStr "status" with
  | some status =>
    if status = "active" then .ok ()
    else if status = "revoked" then
      .error (.attestationRevoked s!"{who}: '{handle}' attestation is revoked")
    else if status = "expired" then
      .error (.attestationExpired s!"{who}: '{handle}' attestation is expired")
    else .error (.invalidData
      s!"{who}: attestation has unknown status Some({p.debugStr status})")
  | none => .error (.invalidData s!"{who}: attestation has unknown status None")

def checkSubject (attestation : Json) (accountId handle who : String) : Except CliError Unit := do
  let subjectAccount ← okOr (attestation.getStr "subject_account_id")
    (.invalidData "attestation missing subject_account_id")
  ensure (eqIgnoreAsciiCase subjectAccount accountId) (.transparencyViolation
    (s!"{who}: attestation subject is a DIFFERENT account than the directory " ++
      "row: substitution"))
  let subjectHandle ← okOr (attestation.getStr "subject_handle") (.transparencyViolation
    (s!"{who}: attestation carries no subject_handle: refusing " ++
      "(the §9 schema guarantees the field)"))
  ensure (subjectHandle = handle) (.transparencyViolation
    (s!"{who}: attestation subject handle '{subjectHandle}' does not " ++ s!"match '{handle}'"))

def attestedKeys (attestation : Json) (handle who : String) : Except CliError (Bytes × Bytes) := do
  let attKem ← decodeB64 p attestation "subject_kem_pubkey" who
  let attKemPqB64 ← okOr (attestation.getStr "subject_kem_pq_pubkey") (.transparencyViolation
    (s!"{who}: '{handle}' attestation carries no ML-KEM key: refusing a " ++
      "classical-only wrap (mandatory hybrid write, PQR §9.2)"))
  let attKemPq ← okOr (p.base64UrlDecode attKemPqB64)
    (.invalidData s!"{who} attested ML-KEM key base64url")
  let rfp ← okOr (hybridRfp p attKem attKemPq)
    (.invalidData s!"{who} attested KEM keys non-canonical")
  let committed ← okOr (attestation.getStr "rfp") (.transparencyViolation
    s!"{who}: hybrid attestation carries no rfp pair-commitment")
  ensure (committed = rfp) (.transparencyViolation
    s!"{who}: recomputed rfp does not match the attestation's pair-commitment")
  return (attKem, attKemPq)

def attestationUrl (attestationId : String) : String :=
  s!"{serverUrl}/v1/attestations/{attestationId}/verification"

def verifyAgainstAttestation (bundleKeys : RecipientWrapKeys) (accountId handle who : String) :
    Verify p Unit := do
  let attestationId ← check (okOr (bundle.getStr "attestation_id") (.transparencyViolation
    (s!"{who}: '{handle}' is a PRSN but its bundle names no attestation: " ++
      "cannot verified-source the wrap keys")))
  let response ← request server (attestationUrl serverUrl attestationId)
  let attestation ← verifyVerificationResponse p server trust serverUrl response who
  check (checkStatus p attestation handle who)
  check (checkSubject attestation accountId handle who)
  let (attKem, attKemPq) ← check (attestedKeys p attestation handle who)
  check (ensure (bundleKeys.rkEc = attKem ∧ bundleKeys.rkPq = some attKemPq) (.transparencyViolation
    s!"{who}: directory bundle keys differ from the attested keys: substitution"))

def receiptUrl (fp purpose : String) (epoch : U16) : String :=
  s!"{serverUrl}/v1/transparency/log/receipt?fingerprint={fp}&purpose={purpose}&epoch={epoch.val}"

def noReceipt (who purpose : String) (e : CliError) : CliError :=
  if e.epochMoved then e
  else .transparencyViolation
    (s!"{who}: no verifiable {purpose} log receipt for the offered key " ++
      s!"({e.code}: {e.message}); an unlogged key is not a wrap target")

def verifyLogReceipt (binding : AccountBinding) (pqVk : Bytes) (who fp purpose : String) :
    Verify p Unit := do
  let receipt ← mapError (noReceipt who purpose)
    (request server (receiptUrl serverUrl fp purpose trust.epoch))
  let keyId ← check (okOr (receipt.getStr "server_key_id")
    (.transparencyViolation "receipt missing server_key_id"))
  let serverPub ← trust.keyById p server serverUrl keyId
  verifyAndNote p receipt fp binding purpose serverPub (some pqVk)

def verifyAgainstReceipts (accountId : String) (proof : Option String) (who : String) : Verify p Unit := do
  let index ← check (trust.indexFor p accountId proof who)
  let binding := bindingOf index (.accountId accountId)
  let fpEc ← check (okOr (bundle.getStr "kem_pubkey_fingerprint")
    (.invalidData s!"{who} bundle missing KEM fingerprint"))
  let fpPq ← check (okOr (bundle.getStr "kem_pq_pubkey_fingerprint")
    (.invalidData s!"{who} bundle missing ML-KEM fingerprint"))
  let pqVk ← check (trust.activePqKey p)
  verifyLogReceipt p server trust serverUrl binding pqVk who fpEc "kem"
  verifyLogReceipt p server trust serverUrl binding pqVk who fpPq "kem_pq"

def isPrsn (handle : String) : Prop := "-ai".toList <:+ handle.toList

instance : DecidablePred isPrsn := by
  intro handle
  unfold isPrsn
  infer_instance

def checkExpectation (expectation : HandleExpectation) (handle who : String) : Except CliError Unit :=
  match expectation with
  | .userNamed expected => ensure (handle = expected) (.transparencyViolation
      (s!"{who}: asked the directory for '{expected}' but the bundle answers " ++
        s!"for '{handle}'; refusing (substitution)"))
  | .serverListed => .ok ()

def checkAccountType (handle who : String) : Except CliError Unit :=
  match bundle.getStr "account_type" with
  | none => .ok ()
  | some claimed => ensure (claimed = "prsn" ↔ isPrsn handle) (.transparencyViolation
      (s!"{who}: the server calls '{handle}' a {claimed}, but the handle " ++
        "says otherwise (PRSN handles end in -ai); refusing"))

def bundleAccount : Option (String × Option String) :=
  match bundle.getStr "account_id" with
  | some id => some (id, bundle.getStr "account_vrf_proof")
  | none =>
    match bundle.getStr "recipient_account_id" with
    | some id => some (id, bundle.getStr "recipient_account_vrf_proof")
    | none => none

def verifiedWrapKeys (expectation : HandleExpectation) (who : String) : Verify p RecipientWrapKeys := do
  let handle ← check (okOr (bundle.getStr "handle") (.transparencyViolation
    (s!"{who}: recipient bundle carries no handle: cannot classify for " ++
      "verified-source key resolution")))
  check (checkExpectation expectation handle who)
  let keys ← check (verifyRecipientWrapKeys p bundle who)
  check (checkAccountType bundle handle who)
  let (accountId, proof) ← check (okOr (bundleAccount bundle) (.transparencyViolation
    (s!"{who}: recipient bundle carries no account id: cannot bind the " ++
      "keys to an identity record")))
  check (checkBundleEpoch p bundle trust.epoch who)
  if isPrsn handle then
    verifyAgainstAttestation p server trust serverUrl bundle keys accountId handle who
  else
    verifyAgainstReceipts p server trust serverUrl bundle accountId proof who
  return keys

end

end SignetDrive
