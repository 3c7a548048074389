import SignetDrive.Lib.CurveGroup
import SignetDrive.Lib.Dialogue
import SignetDrive.Model.HybridWrap
import SignetDrive.Model.WebRecipient

/-!
# The keys of a human in the browser

`web/src/lib/crypto/kem_wrap.ts`, `keyblob.ts`, `wrap.ts`, `hybrid_wrap.ts` and `web/src/lib/kem.ts`. A
function that awaits randomness, the cipher, the authenticator or the server is a dialogue; what the
platform computes from its arguments alone is a parameter.
-/

namespace SignetDrive
open Client Dialogue

inductive CryptoKey where
  | ecdh (scalar : ℕ)
  | aesGcm (key : Bytes)
  deriving DecidableEq

structure KeyPlatform (Point : Type) [AddCommGroup Point] extends WebPrimitives where
  b64uEncode : Bytes → String
  b64uDecode_b64uEncode : ∀ bytes, b64uDecode (b64uEncode bytes) = some bytes
  curve : CurveGroup Point
  /-- The import of a raw public key. It may know other encodings of a point than X9.63. -/
  importRaw : Bytes → Option Point
  importRaw_ne_zero : ∀ bytes P, importRaw bytes = some P → P ≠ 0
  /-- The fingerprint exports what the import accepts. -/
  spki_isSome : ∀ bytes, (spki bytes).isSome = (importRaw bytes).isSome
  importRaw_exportRaw : ∀ P, P ≠ 0 → importRaw ([0x04] ++ (curve.x P).toList ++ (curve.y P).toList) = some P
  importPkcs8 : Bytes → Option curve.Scalar
  exportPkcs8 : curve.Scalar → Bytes
  importPkcs8_exportPkcs8 : ∀ d, importPkcs8 (exportPkcs8 d) = some d
  /-- AES-256-GCM of a key, a nonce, a message and additional data. -/
  gcm : Aead.Cipher Bytes Bytes Bytes Bytes Bytes
  length_encrypt : ∀ key nonce message aad sealed,
    gcm.encrypt key nonce message aad = some sealed → sealed.length = message.length + 16
  length_decrypt : ∀ key nonce sealed aad message,
    gcm.decrypt key nonce sealed aad = some message → sealed.length = message.length + 16
  kwWrap : Bytes → Bytes → Bytes
  kwUnwrap : Bytes → Bytes → Option Bytes
  kwUnwrap_kwWrap : ∀ kek message, kwUnwrap kek (kwWrap kek message) = some message
  length_kwWrap : ∀ kek message, (kwWrap kek message).length = message.length + 8
  hkdfSha256 : Bytes → Bytes → Bytes → ℕ → Bytes
  length_hkdfSha256 : ∀ ikm salt info n, (hkdfSha256 ikm salt info n).length = n
  /-- ML-KEM-1024: the encapsulation key of a seed; the ciphertext and secret of a key and what is
    drawn; the secret of a decapsulation. -/
  mlkemEk : Bytes → Bytes
  mlkemEncaps : Bytes → Bytes → Bytes × Bytes
  mlkemDecaps : Bytes → Bytes → Bytes
  mlkemDecaps_encaps : ∀ seed drawn,
    mlkemDecaps seed (mlkemEncaps (mlkemEk seed) drawn).1 = (mlkemEncaps (mlkemEk seed) drawn).2
  /-- The own members of a value that is no object, as a spread copies them. -/
  spreadOther : Json → List (String × Json)

/-- A request of the flows; `Blob` is what is sent as a wrapped key. -/
inductive PasskeyRequest (Blob : Type) where
  | beginRegistration (accountId : String)
  | completeRegistration (accountId : String) (body : Json)
  | keysInitialize (kemPubkey kemPqPubkey credentialId : String) (wrappedKemPrivkeyBlob : Blob)
  | beginSignin (email : String)
  | completeSignin (body : Json)
  | rotatePasskeyBegin
  /-- The body without its last member, and the new blob. -/
  | rotatePasskeyComplete (body : Json) (newWrappedKemPrivkeyBlob : Blob)
  | ceremonyBegin (operation : String) (body : Json)
  | ceremonyComplete (operation : String) (body : Json)

def PasskeyRequest.map {Blob Blob' : Type} (f : Blob → Blob') : PasskeyRequest Blob → PasskeyRequest Blob'
  | beginRegistration accountId => .beginRegistration accountId
  | completeRegistration accountId body => .completeRegistration accountId body
  | keysInitialize kemPubkey kemPqPubkey credentialId blob =>
    .keysInitialize kemPubkey kemPqPubkey credentialId (f blob)
  | beginSignin email => .beginSignin email
  | completeSignin body => .completeSignin body
  | rotatePasskeyBegin => .rotatePasskeyBegin
  | rotatePasskeyComplete body blob => .rotatePasskeyComplete body (f blob)
  | ceremonyBegin operation body => .ceremonyBegin operation body
  | ceremonyComplete operation body => .ceremonyComplete operation body

structure CredentialDescriptor where
  id : Bytes
  type : Option Json
  transports : Option Json

/-- An input of an extension: a value of the server, or the decoded salts of `prf.eval`. -/
inductive ExtensionInput where
  | json (value : Json)
  | prfEval (first second : Option Bytes)

structure RequestOptions where
  challenge : Bytes
  timeout : Option Json
  rpId : Option Json
  allowCredentials : Option (List CredentialDescriptor)
  userVerification : Option Json
  extensions : Option (List (String × ExtensionInput))

structure CreationOptions where
  rp : Option Json
  userId : Bytes
  userName : Option Json
  userDisplayName : Option Json
  challenge : Bytes
  pubKeyCredParams : Option Json
  timeout : Option Json
  attestation : Option Json
  authenticatorSelection : Option Json
  excludeCredentials : Option (List CredentialDescriptor)
  extensions : Option Json

structure PrfEntry where
  enabled : Bool
  first : Option Bytes
  second : Option Bytes
  deriving DecidableEq

structure ExtensionResults where
  prf : Option PrfEntry
  others : List (String × Json)

structure RegistrationCredential where
  id : String
  rawId : Bytes
  type : String
  clientDataJSON : Bytes
  attestationObject : Bytes
  transports : Option (List String)
  extensionResults : ExtensionResults

structure AssertionCredential where
  id : String
  rawId : Bytes
  type : String
  clientDataJSON : Bytes
  authenticatorData : Bytes
  signature : Bytes
  userHandle : Option Bytes
  extensionResults : ExtensionResults

inductive Question where
  | request (r : PasskeyRequest Json)
  | create (options : CreationOptions)
  | get (options : RequestOptions)
  | getRandomValues (n : ℕ)
  /-- A key pair of P-256, by its secret. -/
  | generateKey
  /-- The seed of a new ML-KEM key. -/
  | mlkemSeed
  | encrypt (key nonce message aad : Bytes)
  | decrypt (key nonce sealed aad : Bytes)

section

variable {Point : Type} [AddCommGroup Point] (c : KeyPlatform Point)

/-- A request is answered with a value, or nothing where the answer has no body; a gesture may be
dismissed. -/
abbrev FlowAnswer : Question → Type
  | .request _ => Except WebError (Option Json)
  | .create _ => Except WebError (Option RegistrationCredential)
  | .get _ => Except WebError (Option AssertionCredential)
  | .getRandomValues n => List.Vector UInt8 n
  | .generateKey => c.curve.Scalar
  | .mlkemSeed => List.Vector UInt8 64
  | .encrypt _ _ _ _ | .decrypt _ _ _ _ => Option Bytes

abbrev Answers := Dialogue.Surroundings (FlowAnswer c)

abbrev Transcript := List (Dialogue.Exchange (FlowAnswer c))

abbrev Flow (α : Type) := Dialogue (FlowAnswer c) WebError α

def ask (q : Question) : Flow c (FlowAnswer c q) := question q

def api (r : PasskeyRequest Json) : Flow c (Option Json) := do
  let answer ← ask c (.request r)
  check answer

def getRandomValues (n : ℕ) : Flow c Bytes := do
  let bytes ← ask c (.getRandomValues n)
  return bytes.toList

def require (condition : Prop) [Decidable condition] (e : WebError) : Flow c Unit :=
  check (ensure condition e)

/-- `v[key]`, which throws if there is no value. -/
def propOf (v : Option Json) (key : String) : Except WebError (Option Json) :=
  match v with
  | none => engineThrows c.toWebPrimitives
  | some v => prop c.toWebPrimitives v key

def decode (v : Option Json) : Except WebError Bytes := decodeText c.toWebPrimitives v

def exportRaw (P : Point) : Bytes := [0x04] ++ (c.curve.x P).toList ++ (c.curve.y P).toList

def importEcdhPublicX963 (pubX963 : Bytes) : Except WebError Point :=
  okOr (c.importRaw pubX963) (.other c.engineError)

def importKemPrivateNonExtractable (pkcs8 : Bytes) : Except WebError CryptoKey := do
  let d ← okOr (c.importPkcs8 pkcs8) (.other c.engineError)
  return .ecdh d.1

/-- `deriveBits`; a key of another kind throws. -/
def deriveZ (privateKey : CryptoKey) (peerPublic : Point) : Except WebError Bytes :=
  match privateKey with
  | .ecdh d => .ok (c.curve.agree d peerPublic).toList
  | .aesGcm _ => .error (.other c.engineError)

def aesGcmSeal (key nonce plaintext aad : Bytes) : Flow c Bytes := do
  require c (key.length = 32) (.invalidInput "aes-256-gcm key must be 32 bytes")
  let sealed ← ask c (.encrypt key nonce plaintext aad)
  check (okOr sealed (.other c.engineError))

/-- `aesGcmOpen`, of a key that may have the wrong length. -/
def aesGcmOpenWith (key nonce ciphertextAndTag aad : Bytes) : Flow c Bytes := do
  require c (key.length = 32) (.invalidInput "aes-256-gcm key must be 32 bytes")
  let plaintext ← ask c (.decrypt key nonce ciphertextAndTag aad)
  check (okOr plaintext (.integrity "aes-256-gcm authentication failed"))

def GCM_TAG_LEN : ℕ := 16

def KEM_WRAP_LABEL : Bytes := utf8 "signet-drive-kem-wrap-v1"

def prfSalt : Bytes := (c.sha256 KEM_WRAP_LABEL).toList

def deriveWrapKey (prfOutput : Bytes) : Except WebError Bytes := do
  ensure (prfOutput.length = 32) (.invalidInput "prf output must be 32 bytes")
  return c.hkdfSha256 prfOutput [] KEM_WRAP_LABEL 32

def kemPrivkeyWrap (iv sealed : Bytes) : Json :=
  let split := sealed.length - GCM_TAG_LEN
  .object [("v", .number (.posInt 1)), ("alg", .string "A256GCM"), ("iv", .string (c.b64uEncode iv)),
    ("ct", .string (c.b64uEncode (sealed.take split))), ("tag", .string (c.b64uEncode (sealed.drop split)))]

def wrapKemPrivkey (wrapKey pkcs8 iv : Bytes) : Flow c Json := do
  require c (iv.length = 12) (.invalidInput "iv must be 12 bytes")
  let sealed ← aesGcmSeal c wrapKey iv pkcs8 KEM_WRAP_LABEL
  return kemPrivkeyWrap c iv sealed

def unwrapKemPrivkey (wrapKey : Bytes) (envelope : Option Json) : Flow c Bytes := do
  let alg ← check (propOf c envelope "alg")
  require c (alg.bind Json.asStr = some "A256GCM") (.invalidInput "unknown kem wrap alg")
  let iv ← check (do decode c (← propOf c envelope "iv"))
  require c (iv.length = 12) (.invalidInput "kem wrap iv must be 12 bytes")
  let tag ← check (do decode c (← propOf c envelope "tag"))
  require c (tag.length = GCM_TAG_LEN) (.invalidInput "kem wrap tag must be 16 bytes")
  let ct ← check (do decode c (← propOf c envelope "ct"))
  aesGcmOpenWith c wrapKey iv (ct ++ tag) KEM_WRAP_LABEL

def KEY_BLOB_V2 : UInt8 := 0x02

def MLKEM_SEED_LEN : ℕ := 64

def encodeKeyBlobV2 (p256Pkcs8 mlkemSeed : Bytes) : Except WebError Bytes := do
  ensure (p256Pkcs8.length ≠ 0) (.invalidInput "p256 pkcs8 must be non-empty")
  ensure (mlkemSeed.length = MLKEM_SEED_LEN) (.invalidInput "ml-kem seed must be 64 bytes")
  return [KEY_BLOB_V2] ++ pushField p256Pkcs8 ++ pushField mlkemSeed

def readField (bytes : Bytes) : Except WebError (Bytes × Bytes) := do
  ensure (4 ≤ bytes.length) (.invalidInput "key blob truncated")
  let len := fromBeBytes (bytes.take 4)
  ensure (len ≤ (bytes.drop 4).length) (.invalidInput "key blob truncated")
  return ((bytes.drop 4).take len, (bytes.drop 4).drop len)

def decodeKeyBlobV2 (plain : Bytes) : Except WebError (Bytes × Bytes) := do
  ensure (plain.head? = some KEY_BLOB_V2) (.invalidInput "key blob version must be 0x02")
  let (p256Pkcs8, rest) ← readField plain.tail
  let (mlkemSeed, rest) ← readField rest
  ensure (rest = []) (.invalidInput "key blob has trailing bytes")
  ensure (p256Pkcs8.length ≠ 0) (.invalidInput "p256 pkcs8 must be non-empty")
  ensure (mlkemSeed.length = MLKEM_SEED_LEN) (.invalidInput "ml-kem seed must be 64 bytes")
  return (p256Pkcs8, mlkemSeed)

def mlkemEkFromSeed (seed : Bytes) : Except WebError Bytes := do
  ensure (seed.length = MLKEM_SEED_LEN) (.invalidInput "ml-kem seed must be 64 bytes")
  return c.mlkemEk seed

def ECDH_ES_A256KW : String := "ECDH-ES+A256KW"

structure WrapEnvelope where
  v : ℕ
  alg : String
  epk : EpkJwk
  ct : String
  rfp : String

def joseOtherInfo (algorithmId partyU partyV : Bytes) (keydatalenBits : ℕ) : Bytes :=
  pushField algorithmId ++ pushField partyU ++ pushField partyV ++ toBeBytes 4 keydatalenBits

def concatKdfSha256 (z otherInfo : Bytes) (outLen : ℕ) : Bytes :=
  ((List.range ((outLen + 31) / 32)).flatMap fun i =>
    (c.sha256 (toBeBytes 4 (i + 1) ++ z ++ otherInfo)).toList).take outLen

def ecdhEsA256kwKek (z partyV : Bytes) : Bytes :=
  concatKdfSha256 c z (joseOtherInfo (utf8 ECDH_ES_A256KW) [] partyV 256) 32

def aesKwWrap (kek keyData : Bytes) : Except WebError Bytes := do
  ensure (16 ≤ keyData.length ∧ keyData.length % 8 = 0) (.invalidInput "aes-kw key_data length")
  ensure (kek.length = 32) (.invalidInput "aes-kw kek must be 32 bytes")
  return c.kwWrap kek keyData

def aesKwUnwrap (kek wrapped : Bytes) : Except WebError Bytes := do
  ensure (24 ≤ wrapped.length ∧ wrapped.length % 8 = 0) (.invalidInput "aes-kw wrapped length")
  ensure (kek.length = 32) (.invalidInput "aes-kw kek must be 32 bytes")
  okOr (c.kwUnwrap kek wrapped) (.integrity "aes-kw integrity check failed")

def epkToX963 (epk : EpkJwk) : Except WebError Bytes := do
  ensure (epk.kty = "EC" ∧ epk.crv = "P-256") (.invalidInput "epk must be EC P-256")
  let x ← okOr (c.b64uDecode epk.x) (.other c.engineError)
  let y ← okOr (c.b64uDecode epk.y) (.other c.engineError)
  ensure (x.length = 32 ∧ y.length = 32) (.invalidInput "epk coordinates must be 32 bytes")
  return [0x04] ++ x ++ y

def epkFromX963 (x963 : Bytes) : Except WebError EpkJwk := do
  ensure (x963.length = 65 ∧ x963.head? = some 0x04) (.invalidInput "x9.63 uncompressed point")
  return ⟨"EC", "P-256", c.b64uEncode ((x963.drop 1).take 32), c.b64uEncode ((x963.drop 33).take 32)⟩

def wrapTo (recipientPubX963 key partyV : Bytes) : Flow c WrapEnvelope := do
  require c (key.length = 32) (.invalidInput "wrapped key must be 32 bytes")
  let recipientPub ← check (importEcdhPublicX963 c recipientPubX963)
  let ephemeral ← ask c .generateKey
  let z ← check (deriveZ c (.ecdh ephemeral.1) recipientPub)
  let wrapped ← check (aesKwWrap c (ecdhEsA256kwKek c z partyV) key)
  let epk ← check (epkFromX963 c (exportRaw c (c.curve.publicKey ephemeral.1)))
  let rfp ← check (webFingerprint c.toWebPrimitives recipientPubX963)
  return ⟨1, ECDH_ES_A256KW, epk, c.b64uEncode wrapped, rfp⟩

def unwrapWith (recipientPrivateKey : CryptoKey) (envelope : WrapEnvelope) (partyV : Bytes) :
    Except WebError Bytes := do
  ensure (envelope.alg = ECDH_ES_A256KW) (.invalidInput "unknown wrap alg")
  let ephemeralPub ← importEcdhPublicX963 c (← epkToX963 c envelope.epk)
  let z ← deriveZ c recipientPrivateKey ephemeralPub
  let ct ← okOr (c.b64uDecode envelope.ct) (.other c.engineError)
  let key ← aesKwUnwrap c (ecdhEsA256kwKek c z partyV) ct
  ensure (key.length = 32) (.invalidInput "unwrapped key is not 32 bytes")
  return key

/-- The probe comes back; any error is a mismatch. -/
def kemKeypairMatches (privateKey : CryptoKey) (publicX963 : Bytes) : Flow c Bool := do
  let probe ← getRandomValues c 32
  let recovered ← attempt (do
    let envelope ← wrapTo c publicX963 probe []
    check (unwrapWith c privateKey envelope []))
  return match recovered with
    | .ok recovered => recovered = probe
    | .error _ => false

def webContentWrapKek (zEcdh zMlkem fixedInfo : Bytes) : Except WebError Bytes := do
  ensure (zEcdh.length = 32 ∧ zMlkem.length = 32) (.invalidInput "shared secrets must be 32 bytes")
  return c.hkdfSha256 (zEcdh ++ zMlkem) [] fixedInfo 32

def webValidateRecipientKeys (rkEcX963 rkPq : Bytes) : Except WebError Unit := do
  ensure (rkEcX963.length = 65 ∧ rkEcX963.head? = some 0x04)
    (.invalidInput "rk_ec must be a 65-byte uncompressed x9.63 point")
  ensure (c.importRaw rkEcX963).isSome (.invalidInput "rk_ec not on curve")
  ensure (rkPq.length = MLKEM1024_EK_LEN)
    (.invalidInput "rk_pq must be a 1568-byte ml-kem-1024 encapsulation key")

def webValidatePartyV (partyV : Bytes) : Except WebError Unit :=
  ensure (partyV.length = 0 ∨ partyV.length = 16)
    (.invalidInput "party_v must be empty or a 16-byte root_folder_id")

def hybridEpkFromX963 (x963 : Bytes) : EpkJwk :=
  ⟨"EC", "P-256", c.b64uEncode ((x963.drop 1).take 32), c.b64uEncode ((x963.drop 33).take 32)⟩

def canonicalEpk (epkX963 : Bytes) : Except WebError Bytes := do
  let key ← okOr (c.importRaw epkX963) (.invalidInput "epk not on curve")
  return exportRaw c key

def hybridWrapFromSecrets (zEcdh zMlkem epkX963 ek rkEcX963 rkPq key partyV : Bytes) :
    Except WebError HybridWrapEnvelope := do
  webValidateRecipientKeys c rkEcX963 rkPq
  webValidatePartyV partyV
  ensure (ek.length = MLKEM1024_CT_LEN) (.invalidInput "ml-kem ciphertext length")
  ensure (key.length = 32) (.invalidInput "wrapped key must be 32 bytes")
  let epkCanon ← canonicalEpk c epkX963
  let kek ← webContentWrapKek c zEcdh zMlkem (buildFixedInfo epkCanon ek rkEcX963 rkPq partyV)
  let wk ← aesKwWrap c kek key
  let rfp ← webHybridRfp c.toWebPrimitives rkEcX963 rkPq
  return ⟨1, HYBRID_ALG.asJose, hybridEpkFromX963 c epkCanon, c.b64uEncode ek, c.b64uEncode wk, rfp⟩

def hybridUnwrapFromSecrets (zEcdh zMlkem : Bytes) (envelope : HybridWrapEnvelope)
    (rkEcX963 rkPq partyV : Bytes) : Except WebError Bytes := do
  ensure (envelope.alg = HYBRID_ALG.asJose) (.invalidInput "unknown wrap alg")
  webValidateRecipientKeys c rkEcX963 rkPq
  webValidatePartyV partyV
  let epkX963 ← epkToX963 c envelope.epk
  let ek ← okOr (c.b64uDecode envelope.ek) (.other c.engineError)
  ensure (ek.length = MLKEM1024_CT_LEN) (.invalidInput "ml-kem ciphertext length")
  let kek ← webContentWrapKek c zEcdh zMlkem (buildFixedInfo epkX963 ek rkEcX963 rkPq partyV)
  let wk ← okOr (c.b64uDecode envelope.wk) (.other c.engineError)
  let key ← aesKwUnwrap c kek wk
  ensure (key.length = 32) (.invalidInput "unwrapped key is not 32 bytes")
  return key

/-- A fresh ephemeral key and a fresh encapsulation. -/
def hybridWrapTo (rkEcX963 rkPq key partyV : Bytes) : Flow c HybridWrapEnvelope := do
  check (webValidateRecipientKeys c rkEcX963 rkPq)
  let recipientPub ← check (importEcdhPublicX963 c rkEcX963)
  let ephemeral ← ask c .generateKey
  let zEcdh ← check (deriveZ c (.ecdh ephemeral.1) recipientPub)
  require c (rkPq.length = MLKEM1024_EK_LEN) (.invalidInput "ml-kem encapsulation key must be 1568 bytes")
  let drawn ← getRandomValues c 32
  let (ek, zMlkem) := c.mlkemEncaps rkPq drawn
  let epkX963 := exportRaw c (c.curve.publicKey ephemeral.1)
  check (hybridWrapFromSecrets c zEcdh zMlkem epkX963 ek rkEcX963 rkPq key partyV)

def hybridUnwrapWith (recipientEcdhKey : CryptoKey) (mlkemSeed : Bytes) (envelope : HybridWrapEnvelope)
    (rkEcX963 rkPq partyV : Bytes) : Except WebError Bytes := do
  ensure (envelope.alg = HYBRID_ALG.asJose) (.invalidInput "unknown wrap alg")
  let ephemeralPub ← importEcdhPublicX963 c (← epkToX963 c envelope.epk)
  let zEcdh ← deriveZ c recipientEcdhKey ephemeralPub
  let ek ← okOr (c.b64uDecode envelope.ek) (.other c.engineError)
  ensure (ek.length = MLKEM1024_CT_LEN) (.invalidInput "ml-kem ciphertext length")
  ensure (mlkemSeed.length = MLKEM_SEED_LEN) (.invalidInput "ml-kem seed must be 64 bytes")
  hybridUnwrapFromSecrets c zEcdh (c.mlkemDecaps mlkemSeed ek) envelope rkEcX963 rkPq partyV

end

end SignetDrive
