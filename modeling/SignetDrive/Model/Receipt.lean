import SignetDrive.Lib.Client
import SignetDrive.Model.CliError
import SignetDrive.Model.Json

/-!
# Log receipts

`verify_one_receipt` of `cli/src/commands.rs`, the epoch rules of `cli/src/anchors.rs`, and the signing
inputs of `crypto/src/translog.rs` and `crypto/src/attest.rs`. The primitives and encodings of other
crates are parameters.
-/

namespace SignetDrive
open Client

abbrev U16 := Fin (2 ^ 16)

instance neZeroU16 : NeZero (2 ^ 16) := ⟨by norm_num⟩

structure Primitives where
  /-- `URL_SAFE_NO_PAD.decode`. -/
  base64UrlDecode : String → Option Bytes
  /-- `hex::decode`. -/
  hexDecode : String → Option Bytes
  /-- `Value::to_string`. -/
  jsonText : Json → String
  /-- The text that `{:?}` writes for a string. -/
  debugStr : String → String
  /-- `serde_jcs::to_vec`. -/
  jcsToVec : Json → Option Bytes
  sha256 : Bytes → Hash
  /-- `PublicKey::from_sec1_bytes` of `p256` accepts the bytes. -/
  fromSec1Bytes : Bytes → Bool
  /-- `to_public_key_der` of the key of these bytes. -/
  toPublicKeyDer : Bytes → Option Bytes
  /-- `ecdsa::verify_es256` accepts, of a public key, a message and a signature. -/
  verifyEs256 : Bytes → Bytes → Bytes → Bool
  /-- `Signature::<MlDsa87>::decode` accepts the bytes. -/
  mldsa87Decodes : Bytes → Bool
  /-- `verify_with_context`, of a key, a message, a context and a signature. -/
  mldsa87Verifies : Bytes → Bytes → Bytes → Bytes → Bool
  uuidParse : String → Option (List.Vector UInt8 16)
  /-- `vrf::verify`, of a key, an account and a proof: the index. -/
  vrfVerify : List.Vector UInt8 32 → List.Vector UInt8 16 → List.Vector UInt8 80 →
    Option (List.Vector UInt8 64)

def utf8 (s : String) : Bytes := s.toUTF8.data.toList

lemma utf8_inj {a b : String} (h : utf8 a = utf8 b) : a = b :=
  String.toByteArray_inj.mp (ByteArray.ext (Array.toList_inj.mp h))

def hexDigit (n : ℕ) : Char := if n < 10 then Char.ofNat (48 + n) else Char.ofNat (87 + n)

def hexEncode (bytes : Bytes) : String :=
  String.ofList (bytes.flatMap fun b => [hexDigit (b.toNat / 16), hexDigit (b.toNat % 16)])

lemma length_hexEncode (bytes : Bytes) : (hexEncode bytes).length = 2 * bytes.length := by
  simp [hexEncode, Nat.mul_comm]

def hexValue (c : Char) : Option ℕ :=
  if 48 ≤ c.toNat ∧ c.toNat ≤ 57 then some (c.toNat - 48)
  else if 97 ≤ c.toNat ∧ c.toNat ≤ 102 then some (c.toNat - 87)
  else if 65 ≤ c.toNat ∧ c.toNat ≤ 70 then some (c.toNat - 55)
  else none

def decodeHex : List Char → Option Bytes
  | [] => some []
  | [_] => none
  | high :: low :: rest => do
    let h ← hexValue high
    let l ← hexValue low
    let bytes ← decodeHex rest
    return UInt8.ofNat (16 * h + l) :: bytes

lemma hexValue_hexDigit : ∀ n < 16, hexValue (hexDigit n) = some n := by decide

lemma decodeHex_hexEncode (bytes : Bytes) : decodeHex (hexEncode bytes).toList = some bytes := by
  rw [hexEncode, String.toList_ofList]
  induction bytes with
  | nil => rfl
  | cons b bytes ih =>
    have hb := b.toNat_lt
    have hhigh := hexValue_hexDigit (b.toNat / 16) (by omega)
    have hlow := hexValue_hexDigit (b.toNat % 16) (by omega)
    have hbyte : UInt8.ofNat (16 * (b.toNat / 16) + b.toNat % 16) = b := by
      rw [Nat.div_add_mod, UInt8.ofNat_toNat]
    simp only [List.flatMap_cons, List.cons_append, List.nil_append, decodeHex, hhigh, hlow, ih,
      Option.bind_eq_bind, Option.bind_some, hbyte]
    rfl

lemma hexEncode_injective : Function.Injective hexEncode := by
  intro a b h
  have hdecoded := congrArg (fun text => decodeHex text.toList) h
  rwa [decodeHex_hexEncode, decodeHex_hexEncode, Option.some_inj] at hdecoded

lemma hexEncode_ne_empty {bytes : Bytes} (h : bytes ≠ []) : hexEncode bytes ≠ "" := fun hempty =>
  h (hexEncode_injective (hempty.trans rfl))

def asciiLower (c : Char) : Char :=
  if 65 ≤ c.toNat ∧ c.toNat ≤ 90 then Char.ofNat (c.toNat + 32) else c

def eqIgnoreAsciiCase (a b : String) : Bool := a.toList.map asciiLower = b.toList.map asciiLower

namespace Primitives

variable (p : Primitives)

def fingerprint (pubkeyX963 : Bytes) : Option String := do
  if ¬ p.fromSec1Bytes pubkeyX963 then none
  let der ← p.toPublicKeyDer pubkeyX963
  return hexEncode (p.sha256 der).toList

def fingerprintRaw (publicKey : Bytes) : String := hexEncode (p.sha256 publicKey).toList

def toCanonicalBytes (value : Json) : Option Bytes :=
  if value.checkKeys then p.jcsToVec value else none

def receiptSigningInput (receipt : Json) : Option Bytes := do
  let canonical ← p.toCanonicalBytes receipt
  return utf8 "signet-pubkey-log-receipt-v1\n" ++ canonical

def RECEIPT_MLDSA_CTX : Bytes := utf8 "signet-pubkey-log-receipt-v1"

def verificationSigningInput (attestation : Json) (serverKeyId : String) (signedAt : I64) :
    Option Bytes := do
  let canonical ← p.toCanonicalBytes attestation
  return utf8 "signet-server-attestation-verify-v1\n" ++ canonical ++ utf8 "\n" ++
    utf8 serverKeyId ++ utf8 "\n" ++ utf8 (toString signedAt.1)

def SERVER_VERIFY_MLDSA_CTX : Bytes := utf8 "signet-server-attestation-verify-v1"

def verifyMldsa87 (vkBytes msg ctx sig : Bytes) : Except CliError Unit := do
  ensure (vkBytes.length = 2592) (.invalidData "server ML-DSA-87 key size")
  ensure (sig.length = 4627) (.signatureInvalid "ML-DSA-87 signature size")
  ensure (p.mldsa87Decodes sig) (.signatureInvalid "malformed ML-DSA-87 signature")
  ensure (p.mldsa87Verifies vkBytes msg ctx sig)
    (.signatureInvalid "ML-DSA-87 signature does not verify")

end Primitives

inductive LogMode where
  | legacy
  | v3 (epoch : U16) (vrfPublicKey : List.Vector UInt8 32) (genesisEntryHash : Hash)

inductive AccountBinding where
  | attested
  | accountId (account : String)
  | index (epoch : U16) (index : List.Vector UInt8 64)

namespace Primitives

variable (p : Primitives)

def accountIndex (vrfPublicKey : List.Vector UInt8 32) (accountId : String) (proofHex : Option String)
    (who : String) : Except CliError (List.Vector UInt8 64) := do
  let account ← okOr (p.uuidParse accountId) (.invalidData s!"{who}: the account id is not a UUID")
  let proofHex ← okOr proofHex (.transparencyViolation
    (s!"{who}: the response names an account but carries no VRF proof for it, so its " ++
      "keys cannot be bound to the log in this epoch"))
  let bytes ← okOr ((p.hexDecode proofHex).bind fun b => if h : b.length = 80 then
      some (⟨b, h⟩ : List.Vector UInt8 80) else none)
    (.transparencyViolation s!"{who}: the account's VRF proof is not 80-byte hex")
  okOr (p.vrfVerify vrfPublicKey account bytes) (.transparencyViolation
    (s!"{who}: the account's VRF proof does not verify under the pinned epoch key: " ++
      "substitution"))

def indexUnder (mode : LogMode) (accountId : String) (proof : Option String) (who : String) :
    Except CliError (Option (U16 × List.Vector UInt8 64)) :=
  match mode with
  | .legacy => .ok none
  | .v3 epoch vrfPublicKey _ => do
    let index ← p.accountIndex vrfPublicKey accountId proof who
    return some (epoch, index)

/-- The epoch that a receipt or a bundle names: 1 when it names none. -/
def namedEpoch (value : Json) : Option ℕ :=
  match value.get "epoch" with
  | none => some 1
  | some e => e.asU64.map Fin.val

variable (receipt : Json)

def checkReceiptEpoch (epoch : U16) (who : String) : Except CliError Unit :=
  let named := (receipt.get "epoch").elim "1" p.jsonText
  ensure (namedEpoch receipt = some epoch.val) (CliError.asEpochMove (.transparencyViolation
    (s!"{who}: a log receipt answers for epoch {named}, " ++
      s!"but the anchored epoch is {epoch.val}")))

def checkReceiptIndex (epoch : U16) (index : List.Vector UInt8 64) (purpose : String) :
    Except CliError Unit := do
  let refuse := fun why : String => CliError.transparencyViolation s!"{purpose} receipt {why}"
  ensure ((receipt.getU64 "v").map Fin.val = some 2 ∧
      (receipt.getU64 "entry_version").map Fin.val = some 3 ∧ (receipt.get "account_id").isNone)
    (refuse (s!"is not the epoch-{epoch.val} receipt shape " ++
      "(v 2, entry_version 3, no account_id)"))
  ensure ((receipt.getU64 "epoch").map Fin.val = some epoch.val)
    (refuse s!"does not name epoch {epoch.val}, the anchored one")
  let served ← okOr ((receipt.getStr "account_index").bind p.hexDecode)
    (refuse "carries no account_index")
  ensure (served = index.toList)
    (refuse ("binds the key to a DIFFERENT account index. A logged key that is not this " ++
      "account's is a substitution"))

def checkBinding (binding : AccountBinding) (expectedPurpose : String) : Except CliError Unit :=
  match binding with
  | .attested => .ok ()
  | .accountId expectedAccount => do
    let receiptAccount ← okOr (receipt.getStr "account_id")
      (.transparencyViolation "receipt missing account_id")
    ensure (eqIgnoreAsciiCase receiptAccount expectedAccount) (.transparencyViolation
      (s!"{expectedPurpose} receipt binds the key to a DIFFERENT account. " ++
        "A logged key that is not this recipient's is a substitution"))
  | .index epoch index => p.checkReceiptIndex receipt epoch index expectedPurpose

def unsigned : Json :=
  (receipt.remove "server_signature").remove "server_signature_mldsa87"

/-- A receipt that names a PQ key must carry a verifying ML-DSA-87 co-signature. -/
def checkCosignature (signingInput : Bytes) (expectedPurpose : String) (serverPqVk : Option Bytes) :
    Except CliError Unit :=
  if ((unsigned receipt).get "server_pq_key_id").isSome then do
    let pqSigB64 ← okOr (receipt.getStr "server_signature_mldsa87") (.transparencyViolation
      (s!"{expectedPurpose} receipt names a server PQ key but carries no " ++
        "ML-DSA-87 co-signature (MF-2)"))
    let pqVk ← okOr serverPqVk (.transparencyViolation
      ("a dual-signed receipt cannot be verified without the server's " ++
        "ML-DSA-87 key (use --server-pq-pubkey offline)"))
    let pqSig ← okOr (p.base64UrlDecode pqSigB64)
      (.transparencyViolation "receipt server_signature_mldsa87 base64url")
    match p.verifyMldsa87 pqVk signingInput RECEIPT_MLDSA_CTX pqSig with
    | .ok () => .ok ()
    | .error _ => .error (.transparencyViolation
        s!"{expectedPurpose} receipt ML-DSA-87 co-signature does not verify")
  else .ok ()

def verifyOneReceipt (assertedFp : String) (binding : AccountBinding) (expectedPurpose : String)
    (serverPub : Bytes) (serverPqVk : Option Bytes) :
    Except CliError Unit := do
  let receiptFp ← okOr (receipt.getStr "public_key_fingerprint")
    (.transparencyViolation "receipt missing public_key_fingerprint")
  ensure (receiptFp = assertedFp) (.transparencyViolation
    s!"{expectedPurpose} receipt fingerprint does not match the asserted public key")
  p.checkBinding receipt binding expectedPurpose
  ensure (receipt.getStr "key_purpose" = some expectedPurpose)
    (.transparencyViolation s!"{expectedPurpose} receipt has an unexpected key_purpose")
  let sigB64 ← okOr (receipt.getStr "server_signature")
    (.transparencyViolation "receipt missing server_signature")
  let sig ← okOr (p.base64UrlDecode sigB64)
    (.transparencyViolation "receipt server_signature base64url")
  ensure receipt.isObject (.invalidData "receipt is not a JSON object")
  let signingInput ← okOr (p.receiptSigningInput (unsigned receipt))
    (.invalidData "receipt canonical bytes")
  ensure (p.verifyEs256 serverPub signingInput sig)
    (.transparencyViolation s!"{expectedPurpose} receipt signature does not verify")
  p.checkCosignature receipt signingInput expectedPurpose serverPqVk

end Primitives

end SignetDrive
