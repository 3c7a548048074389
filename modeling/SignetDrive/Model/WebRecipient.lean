import SignetDrive.Model.RecipientVerify

/-!
# Verified-source recipient keys in the browser

`web/src/lib/recipient_verify.ts`. What the server sends has the semantics of JavaScript: an absent
member is undefined, and a method that a value does not have throws.
-/

namespace SignetDrive
open Client Program

inductive WebError where
  | integrity (message : String)
  | invalidInput (message : String)
  | epochChanged (message : String) (refusal : Bool)
  | moduleLoad (message : String)
  /-- `SignetApiError`. -/
  | api (status : ℕ) (code message : String)
  /-- An error of the engine, or of the connection. -/
  | other (message : String)

def WebError.message : WebError → String
  | integrity m | invalidInput m | epochChanged m _ | moduleLoad m | api _ _ m | other m => m

structure WebPrimitives where
  /-- `b64uDecode`; none for a text that `atob` refuses. -/
  b64uDecode : String → Option Bytes
  /-- The SPKI of the ECDH key of these bytes; none when the import refuses them. -/
  spki : Bytes → Option Bytes
  sha256 : Bytes → Hash
  /-- `toCanonicalBytes` of `crypto/jcs.ts`. -/
  toCanonicalBytes : Json → Except WebError Bytes
  /-- `crypto.subtle.verify` of a key, a message and a signature; none when the import refuses the key. -/
  ecdsaVerify : Bytes → Bytes → Bytes → Option Bool
  /-- `vrfVerify` of a key, an account and a proof. -/
  vrfVerify : Bytes → Bytes → Bytes → Except WebError Bytes
  toLowerCase : String → String
  /-- Whether a value is below 2, as the comparison coerces it. -/
  belowTwo : Json → Bool
  text : Json → String
  engineError : String

def Number.isZero : Number → Bool
  | posInt n => n = 0
  | negInt _ => false
  | float bits => bits.val % 2 ^ 63 = 0

def truthy : Option Json → Bool
  | none | some .null => false
  | some (.bool b) => b
  | some (.number n) => !n.isZero
  | some (.string s) => s ≠ ""
  | some (.array _) | some (.object _) => true

def coalesce (v w : Option Json) : Option Json :=
  match v with
  | none | some .null => w
  | v => v

/-- Each number of a parsed text has one form here, up to the sign of zero. -/
def Number.strictEq : Number → Number → Bool
  | posInt m, posInt n => m = n
  | negInt m, negInt n => m.1 = n.1
  | float m, float n => m = n || (Number.float m).isZero && (Number.float n).isZero
  | m, n => m.isZero && n.isZero

/-- `v === w`, where two objects are never the same one. -/
def strictEq : Json → Json → Bool
  | .null, .null => true
  | .bool a, .bool b => a = b
  | .number m, .number n => m.strictEq n
  | .string s, .string t => s = t
  | _, _ => false

def isHexText (s : String) (digits : ℕ) : Bool :=
  s.toList.length = digits && s.toList.all fun c => (hexValue c).isSome

section

variable (p : WebPrimitives)

def engineThrows {α : Type} : Except WebError α := .error (.other p.engineError)

/-- `v[key]`, which throws on null. -/
def prop (v : Json) (key : String) : Except WebError (Option Json) :=
  match v with
  | .null => engineThrows p
  | v => .ok (v.get key)

/-- What a method of strings does with another value. -/
def asString (v : Option Json) : Except WebError String :=
  match v with
  | some (.string s) => .ok s
  | _ => engineThrows p

def str (v : Json) (key : String) : Except WebError (Option String) := do
  let member ← prop p v key
  return member.bind Json.asStr

def decodeText (v : Option Json) : Except WebError Bytes := do
  let s ← asString p v
  okOr (p.b64uDecode s) (.other p.engineError)

def webFingerprint (pubX963 : Bytes) : Except WebError String := do
  let spki ← okOr (p.spki pubX963) (.other p.engineError)
  return hexEncode (p.sha256 spki).toList

def webFingerprintRaw (raw : Bytes) : String := hexEncode (p.sha256 raw).toList

def strictHex (v : Json) (len : ℕ) (what : String) : Except WebError Bytes := do
  -- the test of the pattern coerces its argument, `toLowerCase` does not
  ensure (isHexText (p.text v) (len * 2)) (.integrity s!"{what} is not {len} bytes of hex")
  let s ← asString p (some v)
  okOr (decodeHex s.toList) (.other p.engineError)

def uuidBytes (uuid : Json) (who : String) : Except WebError Bytes := do
  let s ← asString p (some uuid)
  let hex := String.ofList (s.toList.filter (· ≠ '-'))
  ensure (isHexText hex 32) (.integrity s!"{who}: the account id is not a UUID")
  okOr (decodeHex hex.toList) (.other p.engineError)

def webHybridRfp (rkEcX963 rkPq : Bytes) : Except WebError String := do
  ensure (rkEcX963.length = 65 ∧ rkEcX963.head? = some 0x04)
    (.invalidInput "rk_ec must be a 65-byte uncompressed x9.63 point")
  ensure (p.spki rkEcX963).isSome (.invalidInput "rk_ec not on curve")
  ensure (rkPq.length = MLKEM1024_EK_LEN)
    (.invalidInput "rk_pq must be a 1568-byte ml-kem-1024 encapsulation key")
  return hexEncode (p.sha256 (pushField rkEcX963 ++ pushField rkPq)).toList

def webVerifyEs256 (pubX963 message signature : Bytes) : Except WebError Bool :=
  if pubX963.length ≠ 65 ∨ signature.length ≠ 64 then .ok false
  else okOr (p.ecdsaVerify pubX963 message signature) (.other p.engineError)

structure VerifiedRecipient where
  pubkey : Bytes
  pqPubkey : Option Bytes

def verifyRecipientBundle (r : Json) (who : String) : Except WebError VerifiedRecipient := do
  let kem ← prop p r "kem_pubkey"
  let kemFp ← prop p r "kem_pubkey_fingerprint"
  ensure (truthy kem ∧ truthy kemFp) (.invalidInput s!"{who} has no current encryption key")
  let pubkey ← decodeText p kem
  let computed ← webFingerprint p pubkey
  ensure (kemFp.any (strictEq (.string computed))) (.integrity s!"{who} KEM-key fingerprint mismatch")
  let pqKey ← prop p r "kem_pq_pubkey"
  let pqFp ← prop p r "kem_pq_pubkey_fingerprint"
  match coalesce pqKey none, coalesce pqFp none with
  | none, none => .error (.integrity
      (s!"{who} has no published ML-KEM key: refusing a classical-only wrap " ++
        "(mandatory hybrid write, PQR §9.2 — a PQ-less bundle is a stripped " ++ "directory response)"))
  | some pqKey, some pqFp => do
    let pqPubkey ← decodeText p (some pqKey)
    ensure (pqPubkey.length = 1568) (.invalidInput s!"{who} ML-KEM key must be 1568 bytes")
    ensure (strictEq (.string (webFingerprintRaw p pqPubkey)) pqFp)
      (.integrity s!"{who} ML-KEM-key fingerprint mismatch")
    return ⟨pubkey, some pqPubkey⟩
  | _, _ => .error (.integrity s!"{who} hybrid KEM bundle is half-stripped")

inductive ApiCall where
  | serverInfo
  | attestation (id : Json)
  | logReceipt (fingerprint : Json) (purpose : String) (epoch : Json)

structure WebAccepted where
  receipt : Json
  assertedFp : Json
  purpose : String

abbrev WebVerify := Program ApiCall WebAccepted WebError

abbrev WebServer := Server ApiCall Json WebError

/-- The first of the values whose member is the text. A null before it throws. -/
def findMember (key value : String) : List Json → Except WebError (Option Json)
  | [] => .ok none
  | k :: rest => do
    let member ← prop p k key
    if member.any (strictEq (.string value)) then return some k else findMember key value rest

/-- `info[field] ?? []`, spread; the characters of a text are no keys. -/
def spreadKeys (info : Json) (field : String) : Except WebError (List Json) := do
  match coalesce (← prop p info field) none with
  | none => return []
  | some (.array items) => return items
  | some (.string _) => return []
  | some _ => engineThrows p

def findById (info : Json) (keyId : String) : Except WebError (Option Json) := do
  let current ← spreadKeys p info "current_signing_keys"
  let retired ← spreadKeys p info "retired_signing_keys"
  findMember p "key_id" keyId (current ++ retired)

def findByPurpose (info : Json) (purpose : String) : Except WebError (Option Json) := do
  match coalesce (← prop p info "current_signing_keys") none with
  | none => return none
  | some (.array items) => findMember p "purpose" purpose items
  | some _ => engineThrows p

/-- The trust of one operation: the server's info, and the epoch and VRF key that it was anchored at. -/
structure WebTrust where
  info : Option Json
  anchored : Option (Json × Option Json)

def anchorAt (info : Json) : Except WebError (Json × Option Json) := do
  match coalesce (← prop p info "translog") none with
  | none => return (.number (.posInt 1), none)
  | some translog => do
    let epoch ← prop p translog "epoch"
    let key ← prop p translog "vrf_public_key"
    return ((coalesce epoch none).getD (.number (.posInt 1)), coalesce key none)

variable (server : WebServer)

namespace WebTrust

variable (self : WebTrust)

def fetch : WebVerify (Json × WebTrust) :=
  match self.info.filter fun info => truthy (some info) with
  | some info => return (info, self)
  | none => do
    let info ← request server .serverInfo
    let key ← check (findByPurpose p info "attestation_verification_pq")
    check (ensure key.isSome (.integrity
      ("server publishes no active ML-DSA-87 verification key: refusing to " ++
        "treat its identity records as trustworthy (MF-2 downgrade signal)")))
    let anchored ← check (self.anchored.elim (anchorAt p info) .ok)
    return (info, ⟨some info, some anchored⟩)

def anchor : WebVerify ((Json × Option Json) × WebTrust) := do
  let (_, trust) ← self.fetch p server
  let anchored ← check (okOr trust.anchored (.other p.engineError))
  return (anchored, trust)

def epoch : WebVerify (Json × WebTrust) := do
  let (anchored, trust) ← self.anchor p server
  return (anchored.1, trust)

/-- A verifier that did not load proves nothing; every other failure is a substitution. -/
def indexError (who : String) (e : WebError) : WebError :=
  match e with
  | .moduleLoad m => .moduleLoad m
  | e => .integrity
      (s!"{who}: the account's VRF proof does not verify under the epoch's key — " ++
        s!"substitution ({e.message})")

def indexFor (accountId : Json) (proof : Option Json) (who : String) :
    WebVerify (Option (Json × String) × WebTrust) := do
  let ((epoch, key), trust) ← self.anchor p server
  if p.belowTwo epoch then return (none, trust)
  else do
    let shown := p.text epoch
    let key ← check (okOr (key.filter fun key => truthy (some key)) (.integrity
      s!"server-info names epoch {shown} but no VRF key: cannot bind {who}'s keys to the log"))
    let proof ← check (okOr (proof.filter fun proof => truthy (some proof)) (.integrity
      (s!"{who}: no VRF proof for the account in epoch {shown} — cannot bind its keys " ++ "to the log")))
    let index ← check (Except.mapError (indexError who) do
      let key ← strictHex p key 32 "VRF key"
      let account ← uuidBytes p accountId who
      let proof ← strictHex p proof 80 "VRF proof"
      p.vrfVerify key account proof)
    return (some (epoch, hexEncode index), trust)

/-- A signing key by its id; a miss drops the info and reads it once more. -/
def keyById (keyId : String) : WebVerify (Bytes × WebTrust) := do
  let (info, trust) ← self.fetch p server
  match ← check (findById p info keyId) with
  | some cached => do
    let key ← check (prop p cached "public_key")
    let bytes ← check (decodeText p key)
    return (bytes, trust)
  | none => do
    let (info, trust) ← fetch p server { trust with info := none }
    let found ← check (findById p info keyId)
    let fresh ← check (okOr found (.integrity s!"server-info has no signing key with id {keyId}"))
    let key ← check (prop p fresh "public_key")
    let bytes ← check (decodeText p key)
    return (bytes, trust)

end WebTrust

inductive ReceiptBinding where
  | accountId (account : Json)
  | index (epoch : Json) (index : String)
  /-- `null`: the attestation binds the account. -/
  | attested

variable (trust : WebTrust) (bundle receipt : Json)

def checkBinding (binding : ReceiptBinding) (purpose who : String) : Except WebError Unit :=
  match binding with
  | .attested => .ok ()
  | .accountId account => do
    let refusal : WebError := .integrity
      (s!"{who}: {purpose} receipt binds the key to a DIFFERENT account — a " ++
        "logged key that is not this recipient's is a substitution")
    let receiptAccount ← okOr (← str p receipt "account_id") refusal
    let account ← asString p (some account)
    ensure (p.toLowerCase receiptAccount = p.toLowerCase account) refusal
  | .index epoch index => do
    let shown := p.text epoch
    let refusal : WebError := .integrity
      (s!"{who}: {purpose} receipt is not under the account's index in epoch " ++
        s!"{shown} — a logged key that is not this recipient's is a substitution")
    ensure ((← prop p receipt "epoch").any (strictEq epoch)) refusal
    let receiptIndex ← okOr (← str p receipt "account_index") refusal
    ensure (p.toLowerCase receiptIndex = index) refusal

/-- The members that both signatures cover. Assigning `__proto__` sets no member. -/
def unsignedOf : Json :=
  ((receipt.remove "server_signature").remove "server_signature_mldsa87").remove "__proto__"

/-- `unsigned[key]`, which also sees what the receipt names as `__proto__`. -/
def unsignedMember (key : String) : Option Json :=
  ((unsignedOf receipt).get key).or ((receipt.get "__proto__").bind fun proto => proto.get key)

def webReceiptSigningInput (unsigned : Json) : Except WebError Bytes := do
  let canonical ← p.toCanonicalBytes unsigned
  return utf8 "signet-pubkey-log-receipt-v1\n" ++ canonical

def webVerifyOneReceipt (assertedFp : Json) (binding : ReceiptBinding) (purpose who : String) :
    WebVerify WebTrust := do
  let fp ← check (prop p receipt "public_key_fingerprint")
  check (ensure (fp.any (strictEq assertedFp))
    (.integrity s!"{who}: {purpose} receipt fingerprint does not match the asserted public key"))
  let named ← check (prop p receipt "key_purpose")
  check (ensure (named.any (strictEq (.string purpose)))
    (.integrity s!"{who}: {purpose} receipt has an unexpected key_purpose"))
  check (checkBinding p receipt binding purpose who)
  let unsignedError : WebError := .integrity s!"{who}: {purpose} receipt is missing its server signature"
  let sigB64 ← check (do okOr (← str p receipt "server_signature") unsignedError)
  let keyId ← check (do okOr (← str p receipt "server_key_id") unsignedError)
  let signingInput ← check (webReceiptSigningInput p (unsignedOf receipt))
  let (serverPub, trust) ← trust.keyById p server keyId
  let signature ← check (decodeText p (some (.string sigB64)))
  let verified ← check (webVerifyEs256 p serverPub signingInput signature)
  check (ensure verified (.integrity s!"{who}: {purpose} receipt signature does not verify"))
  check (ensure ((unsignedMember receipt "server_pq_key_id").isSome →
      truthy (receipt.get "server_signature_mldsa87")) (.integrity
    (s!"{who}: {purpose} receipt names a server PQ key but carries no " ++ "ML-DSA-87 co-signature (MF-2)")))
  note ⟨receipt, assertedFp, purpose⟩
  return trust

def webCheckReceiptEpoch (epoch : Json) (who purpose : String) : Except WebError Unit := do
  let named := (coalesce (← prop p receipt "epoch") none).getD (.number (.posInt 1))
  let shown := p.text named
  let anchored := p.text epoch
  ensure (strictEq named epoch) (.epochChanged
    (s!"{who}: the {purpose} receipt answers for epoch {shown}, but the anchored " ++
      s!"epoch is {anchored}") false)

def verifyEachReceipt (response attestation epoch : Json) (binding : ReceiptBinding) (who : String) :
    List (String × String × String) → WebTrust → WebVerify WebTrust
  | [], trust => return trust
  | (receiptField, fpField, purpose) :: rest, trust => do
    let missing : WebError := .integrity
      (s!"{who}: attestation response is missing its {purpose} transparency " ++
        "receipt — the write path requires the full receipt set")
    let receipt ← check (prop p response receiptField)
    let assertedFp ← check (str p attestation fpField)
    let receipt ← check (okOr (receipt.filter fun receipt => truthy (some receipt)) missing)
    let assertedFp ← check (okOr assertedFp missing)
    check (webCheckReceiptEpoch p receipt epoch who purpose)
    let trust ← webVerifyOneReceipt p server trust receipt (.string assertedFp) binding purpose who
    verifyEachReceipt response attestation epoch binding who rest trust

def webBindingOf (index : Option (Json × String)) (legacy : ReceiptBinding) : ReceiptBinding :=
  match index with
  | none => legacy
  | some (epoch, index) => .index epoch index

def webVerifyInlineReceipts (response attestation : Json) (index : Option (Json × String)) (who : String) :
    WebVerify WebTrust := do
  let (epoch, trust) ← trust.epoch p server
  verifyEachReceipt p server response attestation epoch (webBindingOf index .attested) who inlineReceipts trust

def webVerificationSigningInput (attestation : Json) (serverKeyId : String) (signedAt : Json) :
    Except WebError Bytes := do
  let canonical ← p.toCanonicalBytes attestation
  let shown := p.text signedAt
  return utf8 "signet-server-attestation-verify-v1\n" ++ canonical ++ utf8 s!"\n{serverKeyId}\n{shown}"

def isNumber : Json → Bool
  | .number _ => true
  | _ => false

def webVerifyVerificationResponse (response : Json) (who : String) :
    WebVerify (Json × WebTrust) := do
  let malformed : WebError := .invalidInput s!"{who}: malformed verification response"
  let attestation ← check (prop p response "attestation")
  let serverKeyId ← check (str p response "server_key_id")
  let signedAt ← check (prop p response "signed_at")
  let attestation ← check (okOr (attestation.filter fun a => truthy (some a)) malformed)
  let serverKeyId ← check (okOr serverKeyId malformed)
  let signedAt ← check (okOr (signedAt.filter isNumber) malformed)
  let signingInput ← check (webVerificationSigningInput p attestation serverKeyId signedAt)
  let (serverPub, trust) ← trust.keyById p server serverKeyId
  let signature ← check (decodeText p (response.get "server_signature"))
  let verified ← check (webVerifyEs256 p serverPub signingInput signature)
  check (ensure verified (.integrity s!"{who}: server signature does not verify"))
  check (ensure (truthy (response.get "server_pq_key_id") ∧ truthy (response.get "server_signature_mldsa87"))
    (.integrity
      (s!"{who}: ES256-only verification response rejected — the server has a " ++
        "published ML-DSA-87 key, so the §9 response MUST be dual-signed (MF-2/N9)")))
  return (attestation, trust)

def webCheckSubject (attestation accountId : Json) (handle who : String) : Except WebError Unit := do
  let status ← str p attestation "status"
  let shown := status.getD "malformed"
  ensure (status = some "active") (.integrity s!"{who}: '{handle}' attestation is {shown}")
  let subject ← str p attestation "subject_account_id"
  let account ← asString p (some accountId)
  ensure (subject.map p.toLowerCase = some (p.toLowerCase account)) (.integrity
    s!"{who}: attestation subject is a DIFFERENT account than the directory row — substitution")
  let subjectHandle ← okOr ((← str p attestation "subject_handle").filter (· ≠ "")) (.integrity
    (s!"{who}: attestation carries no subject_handle — refusing (the §9 schema " ++ "guarantees the field)"))
  ensure (subjectHandle = handle) (.integrity
    s!"{who}: attestation subject handle '{subjectHandle}' does not match '{handle}'")

def webAttestedKeys (attestation : Json) (handle who : String) : Except WebError (Bytes × Bytes) := do
  let attKemB64 ← okOr ((← str p attestation "subject_kem_pubkey").filter (· ≠ ""))
    (.invalidInput s!"{who}: attestation missing subject_kem_pubkey")
  let attKem ← decodeText p (some (.string attKemB64))
  let attKemPqB64 ← okOr ((← str p attestation "subject_kem_pq_pubkey").filter (· ≠ "")) (.integrity
    (s!"{who}: '{handle}' attestation carries no ML-KEM key: refusing a " ++
      "classical-only wrap (mandatory hybrid write, PQR §9.2)"))
  let attKemPq ← decodeText p (some (.string attKemPqB64))
  let rfp ← webHybridRfp p attKem attKemPq
  ensure ((← str p attestation "rfp") = some rfp)
    (.integrity s!"{who}: recomputed rfp does not match the attestation's pair-commitment")
  return (attKem, attKemPq)

def webVerifyAgainstAttestation (recipient : VerifiedRecipient) (accountId : Json) (handle who : String) :
    WebVerify WebTrust := do
  let attestationId ← check (prop p bundle "attestation_id")
  let attestationId ← check (okOr (attestationId.filter fun id => truthy (some id)) (.integrity
    (s!"{who}: '{handle}' is a PRSN but its bundle names no attestation — " ++
      "cannot verified-source the wrap keys")))
  let response ← request server (.attestation attestationId)
  let (attestation, trust) ← webVerifyVerificationResponse p server trust response who
  check (webCheckSubject p attestation accountId handle who)
  let (attKem, attKemPq) ← check (webAttestedKeys p attestation handle who)
  check (ensure (recipient.pubkey = attKem ∧ recipient.pqPubkey = some attKemPq)
    (.integrity s!"{who}: directory bundle keys differ from the attested keys — substitution"))
  let proof ← check (str p attestation "subject_account_vrf_proof")
  let (index, trust) ← trust.indexFor p server accountId (proof.map Json.string) who
  webVerifyInlineReceipts p server trust response attestation index who

def receiptError (who purpose : String) (e : WebError) : WebError :=
  match e with
  | .api status code message =>
    if (status = 410 ∧ code = "epoch_retired") ∨ (status = 404 ∧ code = "epoch_unknown") then
      .epochChanged s!"the server's epoch changed during this operation ({code}: {message})" true
    else .integrity
      (s!"{who}: no verifiable {purpose} log receipt for the offered key — " ++
        s!"an unlogged key is not a wrap target ({message})")
  | e => .integrity
      (s!"{who}: no verifiable {purpose} log receipt for the offered key — " ++
        s!"an unlogged key is not a wrap target ({e.message})")

def webVerifyLogReceipt (epoch : Json) (binding : ReceiptBinding) (who fpField purpose : String)
    (trust : WebTrust) : WebVerify WebTrust := do
  let fp ← check (prop p bundle fpField)
  let fp ← check (okOr (fp.filter fun fp => truthy (some fp))
    (.invalidInput s!"{who} bundle missing {purpose} fingerprint"))
  let receipt ← mapError (receiptError who purpose) (request server (.logReceipt fp purpose epoch))
  webVerifyOneReceipt p server trust receipt fp binding purpose who

def webVerifyAgainstReceipts (accountId : Json) (proof : Option Json) (who : String) :
    WebVerify WebTrust := do
  let (epoch, trust) ← trust.epoch p server
  let (index, trust) ← trust.indexFor p server accountId proof who
  let binding := webBindingOf index (.accountId accountId)
  let trust ← webVerifyLogReceipt p server bundle epoch binding who "kem_pubkey_fingerprint" "kem" trust
  webVerifyLogReceipt p server bundle epoch binding who "kem_pq_pubkey_fingerprint" "kem_pq" trust

def checkHandle (handle : Json) (expectation : HandleExpectation) (who : String) : Except WebError Unit :=
  match expectation with
  | .serverListed => .ok ()
  | .userNamed expected =>
    let shown := p.text handle
    ensure (strictEq handle (.string expected)) (.integrity
      (s!"{who}: asked the directory for '{expected}' but the " ++
        s!"bundle answers for '{shown}' — refusing (substitution)"))

def checkClaimedType (handle who : String) : Except WebError Unit := do
  let claimed ← prop p bundle "account_type"
  let shown := claimed.elim "" p.text
  ensure (truthy claimed → (claimed.any (strictEq (.string "prsn")) ↔ isPrsn handle)) (.integrity
    (s!"{who}: the server calls '{handle}' a {shown}, but the handle says " ++
      "otherwise (PRSN handles end in -ai) — refusing"))

def webBundleAccount (who : String) : Except WebError (Json × Option Json) := do
  let account ← prop p bundle "account_id"
  let recipient ← prop p bundle "recipient_account_id"
  let accountId ← okOr ((coalesce account recipient).filter fun id => truthy (some id)) (.integrity
    (s!"{who}: recipient bundle carries no account id — cannot bind the keys " ++ "to an identity record"))
  let proof ← prop p bundle (if truthy account then "account_vrf_proof" else "recipient_account_vrf_proof")
  return (accountId, proof)

def webCheckBundleEpoch (epoch : Json) (who : String) : Except WebError Unit := do
  let named := coalesce (← prop p bundle "epoch") none
  let shown := named.elim "1 (absent)" p.text
  let anchored := p.text epoch
  ensure (strictEq (named.getD (.number (.posInt 1))) epoch) (.epochChanged
    (s!"{who}: the recipient bundle names epoch {shown}, but the " ++ s!"anchored epoch is {anchored}") false)

def webCheckBundle (expectation : HandleExpectation) (who : String) :
    Except WebError (VerifiedRecipient × String × Json × Option Json) := do
  let handle ← okOr ((← prop p bundle "handle").filter fun handle => truthy (some handle)) (.integrity
    (s!"{who}: recipient bundle carries no handle — cannot classify for " ++ "verified-source key resolution"))
  checkHandle p handle expectation who
  let recipient ← verifyRecipientBundle p bundle who
  let handle ← asString p (some handle)
  checkClaimedType p bundle handle who
  let (accountId, proof) ← webBundleAccount p bundle who
  return (recipient, handle, accountId, proof)

def verifiedRecipient (expectation : HandleExpectation) (who : String) :
    WebVerify (VerifiedRecipient × WebTrust) := do
  let (recipient, handle, accountId, proof) ← check (webCheckBundle p bundle expectation who)
  let (epoch, trust) ← trust.epoch p server
  check (webCheckBundleEpoch p bundle epoch who)
  let trust ← if isPrsn handle then
      webVerifyAgainstAttestation p server trust bundle recipient accountId handle who
    else webVerifyAgainstReceipts p server trust bundle accountId proof who
  return (recipient, trust)

end

end SignetDrive
