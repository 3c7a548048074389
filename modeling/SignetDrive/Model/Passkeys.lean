import SignetDrive.Model.UnlockPersist
import SignetDrive.Model.WebKeys

/-!
# Passkey flows

`web/src/lib/webauthn.ts`, `auth.ts`, `rotate.ts` and `ceremony.ts`. The options of the server are
whatever JSON it sends.
-/

namespace SignetDrive
open Client Unlock Dialogue

section

variable {Point : Type} [AddCommGroup Point] (c : KeyPlatform Point)

variable (serverOptions v : Option Json)

/-- `v?.[key]`. -/
def optionalProp (key : String) : Option Json :=
  match v with
  | none | some .null => none
  | some v => v.get key

/-- `{ ...v }`. -/
def spread (v : Json) : List (String × Json) :=
  match v with
  | .object members => members
  | v => c.spreadOther v

def setMember {α : Type} (key : String) (value : α) : List (String × α) → List (String × α)
  | [] => [(key, value)]
  | member :: members =>
    if member.1 = key then (key, value) :: members else member :: setMember key value members

def jsonObject (members : List (String × Option Json)) : Json :=
  .object (members.filterMap fun m => m.2.map (m.1, ·))

def toDescriptor (d : Json) : Except WebError CredentialDescriptor := do
  let id ← decode c (← propOf c (some d) "id")
  let transports := d.get "transports"
  return ⟨id, d.get "type", if truthy transports then transports else none⟩

def toDescriptors : Except WebError (Option (List CredentialDescriptor)) :=
  if truthy v then
    match v.bind Json.asArray with
    | some items => do return some (← items.mapM (toDescriptor c))
    | none => engineThrows c.toWebPrimitives
  else .ok none

def whenTruthy : Option Json := if truthy v then v else none

def registrationOptionsFromServer : Except WebError CreationOptions := do
  let pk ← propOf c serverOptions "publicKey"
  let rp ← propOf c pk "rp"
  let user ← propOf c pk "user"
  let userId ← decode c (← propOf c user "id")
  let challenge ← decode c (← propOf c pk "challenge")
  let excludeCredentials ← toDescriptors c (optionalProp pk "excludeCredentials")
  return {
    rp, userId, challenge, excludeCredentials
    userName := optionalProp user "name"
    userDisplayName := optionalProp user "displayName"
    pubKeyCredParams := optionalProp pk "pubKeyCredParams"
    timeout := optionalProp pk "timeout"
    attestation := whenTruthy (optionalProp pk "attestation")
    authenticatorSelection := whenTruthy (optionalProp pk "authenticatorSelection")
    extensions := whenTruthy (optionalProp pk "extensions") }

def decodeSalt (salt : Option Json) : Except WebError (Option Bytes) :=
  match salt with
  | none => .ok none
  | salt => do return some (← decode c salt)

def convertAssertionExtensions (ext : Option Json) :
    Except WebError (Option (List (String × ExtensionInput))) :=
  match whenTruthy ext with
  | none => .ok none
  | some ext => do
    let out := (spread c ext).map fun m => (m.1, ExtensionInput.json m.2)
    let eval := optionalProp (ext.get "prf") "eval"
    if truthy eval then
      let first ← decodeSalt c (optionalProp eval "first")
      let second ← decodeSalt c (optionalProp eval "second")
      return some (setMember "prf" (.prfEval first second) out)
    else return some out

def assertionOptionsFromServer : Except WebError RequestOptions := do
  let pk ← propOf c serverOptions "publicKey"
  let challenge ← decode c (← propOf c pk "challenge")
  let allowCredentials ← toDescriptors c (optionalProp pk "allowCredentials")
  let extensions ← convertAssertionExtensions c (optionalProp pk "extensions")
  return {
    challenge, allowCredentials, extensions
    timeout := optionalProp pk "timeout"
    rpId := whenTruthy (optionalProp pk "rpId")
    userVerification := whenTruthy (optionalProp pk "userVerification") }

def buildPrfAssertionOptions (credentialId prfSaltValue : Bytes) (rpId : Option String) :
    Flow c RequestOptions := do
  let challenge ← getRandomValues c 32
  return {
    challenge
    timeout := none
    rpId := whenTruthy (rpId.map .string)
    allowCredentials := some [⟨credentialId, some (.string "public-key"), none⟩]
    userVerification := some (.string "required")
    extensions := some [("prf", .prfEval (some prfSaltValue) none)] }

def readRpId (options : Option Json) : Option String :=
  (optionalProp (optionalProp (optionalProp options "publicKey") "rp") "id").bind Json.asStr

/-- What is sent of the extension results of a registration: of the `prf` entry the flag only. -/
def registrationExtensionsForServer (results : ExtensionResults) : List (String × Json) :=
  match results.prf with
  | some prf => results.others ++ [("prf", .object [("enabled", .bool prf.enabled)])]
  | none => results.others

def serializeRegistrationResponse (cred : RegistrationCredential) : Json :=
  jsonObject [("id", some (.string cred.id)), ("rawId", some (.string (c.b64uEncode cred.rawId))),
    ("type", some (.string cred.type)),
    ("response", some (jsonObject [
      ("clientDataJSON", some (.string (c.b64uEncode cred.clientDataJSON))),
      ("attestationObject", some (.string (c.b64uEncode cred.attestationObject))),
      ("transports", cred.transports.map fun transports => .array (transports.map .string))])),
    ("clientExtensionResults", some (.object (registrationExtensionsForServer cred.extensionResults)))]

/-- The `prf` entry is not sent at all. -/
def serializeAssertionResponse (cred : AssertionCredential) : Json :=
  jsonObject [("id", some (.string cred.id)), ("rawId", some (.string (c.b64uEncode cred.rawId))),
    ("type", some (.string cred.type)),
    ("response", some (jsonObject [
      ("clientDataJSON", some (.string (c.b64uEncode cred.clientDataJSON))),
      ("authenticatorData", some (.string (c.b64uEncode cred.authenticatorData))),
      ("signature", some (.string (c.b64uEncode cred.signature))),
      ("userHandle", some ((cred.userHandle.map fun h => Json.string (c.b64uEncode h)).getD .null))])),
    ("clientExtensionResults", some (.object cred.extensionResults.others))]

def registrationReportsPrfEnabled (cred : RegistrationCredential) : Bool :=
  cred.extensionResults.prf.any (·.enabled)

def extractPrfFirst (cred : AssertionCredential) : Except WebError Bytes := do
  let first ← okOr (cred.extensionResults.prf.bind (·.first))
    (.invalidInput "assertion did not return a PRF result")
  ensure (first.length = 32) (.invalidInput "PRF output must be 32 bytes")
  return first

def gatewayCreate (options : CreationOptions) : Flow c (Option RegistrationCredential) := do
  let created ← ask c (.create options)
  check created

def gatewayGet (options : RequestOptions) : Flow c (Option AssertionCredential) := do
  let assertion ← ask c (.get options)
  check assertion

/-- A gesture that must not be dismissed. -/
def gesture (options : RequestOptions) (dismissed : WebError) : Flow c AssertionCredential := do
  let assertion ← gatewayGet c options
  check (okOr assertion dismissed)

def prfNotSupported : WebError := .invalidInput "this authenticator does not support the required PRF extension"

/-- A new passkey, which must support the PRF. -/
def newPasskey (options : CreationOptions) (dismissed : WebError) : Flow c RegistrationCredential := do
  let created ← gatewayCreate c options
  let created ← check (okOr created dismissed)
  require c (registrationReportsPrfEnabled created) prfNotSupported
  return created

structure SignupCredential where
  credentialId : Bytes
  rpId : Option String

def registerSignupCredential (accountId : String) : Flow c SignupCredential := do
  let reg ← api c (.beginRegistration accountId)
  let options ← check (propOf c reg "options")
  let creation ← check (registrationOptionsFromServer c options)
  let created ← newPasskey c creation (.invalidInput "passkey registration was cancelled")
  let _ ← api c (.completeRegistration accountId (jsonObject [
    ("ceremony_id", optionalProp reg "ceremony_id"),
    ("credential", some (serializeRegistrationResponse c created))]))
  return ⟨created.rawId, readRpId options⟩

def initializeKeysFromPrf (accountId : String) (prfOutput credentialId : Bytes) :
    Flow c (Session CryptoKey) := do
  let wrapKey ← check (deriveWrapKey c prfOutput)
  let d ← ask c .generateKey
  let seed ← ask c .mlkemSeed
  let iv ← getRandomValues c 12
  let plain ← check (encodeKeyBlobV2 (c.exportPkcs8 d) seed.toList)
  let blob ← wrapKemPrivkey c wrapKey plain iv
  let kemPubkeyX963 := c.b64uEncode (exportRaw c (c.curve.publicKey d.1))
  let kemPqPubkeyEk := c.b64uEncode (c.mlkemEk seed.toList)
  let _ ← api c (.keysInitialize kemPubkeyX963 kemPqPubkeyEk (c.b64uEncode credentialId) blob)
  let kemPrivateKey ← check (importKemPrivateNonExtractable c (c.exportPkcs8 d))
  return {
    accountId, kemPrivateKey, kemPubkeyX963, kemPqPubkeyEk
    mlkemSeed := seed.toList
    wrappedKemPrivkeyBlob := some blob }

def unlockSignupKeys (accountId : String) (credential : SignupCredential) : Flow c (Session CryptoKey) := do
  let options ← buildPrfAssertionOptions c credential.credentialId (prfSalt c) credential.rpId
  let assertion ← gesture c options (.invalidInput "PRF assertion was cancelled")
  let prfOutput ← check (extractPrfFirst assertion)
  initializeKeysFromPrf c accountId prfOutput credential.credentialId

def accountIdText : String :=
  match v with
  | some (.string s) => s
  | some v => c.text v
  | none => "undefined"

/-- `signIn` behind a sign-in that the server accepted and that has keys. -/
def recoverKeys (result : Option Json) (prfOutput : Bytes) : Flow c (Session CryptoKey) := do
  let wrappedKemPrivkeyBlob := optionalProp result "wrapped_kem_privkey_blob"
  let wrapKey ← check (deriveWrapKey c prfOutput)
  let plain ← unwrapKemPrivkey c wrapKey wrappedKemPrivkeyBlob
  let (p256Pkcs8, mlkemSeed) ← check (decodeKeyBlobV2 plain)
  let kemPrivateKey ← check (importKemPrivateNonExtractable c p256Pkcs8)
  let kemPubkey ← check (asString c.toWebPrimitives (optionalProp result "kem_pubkey"))
  let kemPubkeyBytes ← check (decode c (some (.string kemPubkey)))
  let matched ← kemKeypairMatches c kemPrivateKey kemPubkeyBytes
  require c (matched = true)
    (.integrity "the server returned a KEM public key that does not match your account key")
  require c (truthy (optionalProp result "kem_pq_pubkey"))
    (.integrity "the server returned no ML-KEM public key for this account")
  let ekFromSeed ← check (mlkemEkFromSeed c mlkemSeed)
  let kemPqPubkey ← check (asString c.toWebPrimitives (optionalProp result "kem_pq_pubkey"))
  let kemPqPubkeyBytes ← check (decode c (some (.string kemPqPubkey)))
  require c (hexEncode ekFromSeed = hexEncode kemPqPubkeyBytes)
    (.integrity "the server returned an ML-KEM public key that does not match your account key")
  return {
    accountId := accountIdText c (optionalProp result "account_id")
    kemPrivateKey, mlkemSeed, wrappedKemPrivkeyBlob
    kemPubkeyX963 := kemPubkey
    kemPqPubkeyEk := kemPqPubkey }

/-- `signIn` up to the answer of the server. -/
def signInGesture (email : String) : Flow c (AssertionCredential × Bytes × Option Json) := do
  let begun ← api c (.beginSignin email)
  let options ← check (propOf c begun "options")
  let request ← check (assertionOptionsFromServer c options)
  let assertion ← gesture c request (.invalidInput "sign-in was cancelled")
  let prfOutput ← check (extractPrfFirst assertion)
  let result ← api c (.completeSignin (jsonObject [
    ("ceremony_id", optionalProp begun "ceremony_id"),
    ("credential", some (serializeAssertionResponse c assertion))]))
  return (assertion, prfOutput, result)

def signIn (email : String) : Flow c (Session CryptoKey) := do
  let (assertion, prfOutput, result) ← signInGesture c email
  let blob ← check (propOf c result "wrapped_kem_privkey_blob")
  if truthy blob && truthy (optionalProp result "kem_pubkey") then recoverKeys c result prfOutput
  else
    initializeKeysFromPrf c (accountIdText c (optionalProp result "account_id")) prfOutput assertion.rawId

/-- The members of a container that can take a new one; writing to another value throws. -/
def writableMembers (v : Json) : Except WebError (List (String × Json)) :=
  match v with
  | .object members => .ok members
  | .array items => .ok (c.spreadOther (.array items))
  | _ => engineThrows c.toWebPrimitives

def assertionOptionsWithLocalPrf : Except WebError RequestOptions := do
  let pk ← propOf c serverOptions "publicKey"
  let extensions ← propOf c pk "extensions"
  let members ← writableMembers c ((coalesce extensions (some (.object []))).getD .null)
  let salt := Json.object [("eval", .object [("first", .string (c.b64uEncode (prfSalt c)))])]
  let pkMembers := ((pk.getD .null).asObject).getD []
  assertionOptionsFromServer c (some (.object [("publicKey",
    .object (setMember "extensions" (.object (setMember "prf" salt members)) pkMembers))]))

def rotationEnded : WebError := .invalidInput "the rotation was cancelled"

/-- The first gesture of a rotation, which asserts the current passkey, and what its key unwraps. -/
def currentKeys (currentBlob : Option Json) : Flow c (Option Json × AssertionCredential × Bytes) := do
  let begun ← api c .rotatePasskeyBegin
  let options ← check (propOf c begun "options")
  let request ← check (assertionOptionsWithLocalPrf c options)
  let oldAssertion ← gesture c request rotationEnded
  let oldPrf ← check (extractPrfFirst oldAssertion)
  let oldWrapKey ← check (deriveWrapKey c oldPrf)
  let pkcs8 ← unwrapKemPrivkey c oldWrapKey currentBlob
  return (begun, oldAssertion, pkcs8)

/-- The second and the third gesture: the new passkey is registered and then asserted locally, and its
key wraps the same bytes. -/
def rewrap (begun : Option Json) (pkcs8 : Bytes) : Flow c (RegistrationCredential × Json) := do
  let registrationOptions := optionalProp begun "registration_options"
  let creation ← check (registrationOptionsFromServer c registrationOptions)
  let newCredential ← newPasskey c creation rotationEnded
  let request ← buildPrfAssertionOptions c newCredential.rawId (prfSalt c) (readRpId registrationOptions)
  let newPrfAssertion ← gesture c request rotationEnded
  let newPrf ← check (extractPrfFirst newPrfAssertion)
  let newWrapKey ← check (deriveWrapKey c newPrf)
  let iv ← getRandomValues c 12
  let newBlob ← wrapKemPrivkey c newWrapKey pkcs8 iv
  return (newCredential, newBlob)

def completion (begun : Option Json) (oldAssertion : AssertionCredential)
    (newCredential : RegistrationCredential) (newBlob : Json) : PasskeyRequest Json :=
  .rotatePasskeyComplete (jsonObject [
    ("ceremony_id", optionalProp begun "ceremony_id"),
    ("registration_ceremony_id", optionalProp begun "registration_ceremony_id"),
    ("old_credential_assertion", some (serializeAssertionResponse c oldAssertion)),
    ("new_credential", some (serializeRegistrationResponse c newCredential))]) newBlob

def rotatePasskey (currentBlob : Option Json) : Flow c Json := do
  let (begun, oldAssertion, pkcs8) ← currentKeys c currentBlob
  let (newCredential, newBlob) ← rewrap c begun pkcs8
  let _ ← api c (completion c begun oldAssertion newCredential newBlob)
  return newBlob

def runCeremony (operation : String) (beginBody : Json) : Flow c (Option Json) := do
  let begun ← api c (.ceremonyBegin operation beginBody)
  let options ← check (propOf c begun "options")
  let request ← check (assertionOptionsFromServer c options)
  let assertion ← gesture c request (.invalidInput "the authorization was cancelled")
  api c (.ceremonyComplete operation (jsonObject [
    ("ceremony_id", optionalProp begun "ceremony_id"),
    ("credential", some (serializeAssertionResponse c assertion))]))

inductive Gesture where
  | create (options : CreationOptions)
  | get (options : RequestOptions)

/-- The outputs of the PRF at the last of the gestures, for the first and the second salt. -/
abbrev Prf := List Gesture → Option Bytes × Option Bytes

/-- A server and an authenticator, which answer as they like in view of all requests and gestures, and
the values drawn at each place of a run. `view` says how a wrapped key is seen. -/
structure Outside (V : Type) where
  view : Json → V
  server : List (PasskeyRequest V) → Except WebError (Option Json)
  create : List Gesture → Except WebError (Option RegistrationCredential)
  get : List Gesture → Except WebError (Option AssertionCredential)
  randomBytes : ℕ → (n : ℕ) → List.Vector UInt8 n
  secret : ℕ → c.curve.Scalar
  seed : ℕ → List.Vector UInt8 64

/-- The authenticator puts the outputs of its PRF under the `prf` entry. -/
def ExtensionResults.withPrf (results : ExtensionResults) (outputs : Option Bytes × Option Bytes) :
    ExtensionResults :=
  { results with prf := results.prf.map fun entry => { entry with first := outputs.1, second := outputs.2 } }

def RegistrationCredential.withPrf (cred : RegistrationCredential) (outputs : Option Bytes × Option Bytes) :
    RegistrationCredential :=
  { cred with extensionResults := cred.extensionResults.withPrf outputs }

def AssertionCredential.withPrf (cred : AssertionCredential) (outputs : Option Bytes × Option Bytes) :
    AssertionCredential :=
  { cred with extensionResults := cred.extensionResults.withPrf outputs }

def gestureOf : Dialogue.Exchange (FlowAnswer c) → Option Gesture
  | ⟨.create options, _⟩ => some (.create options)
  | ⟨.get options, _⟩ => some (.get options)
  | _ => none

namespace Outside

variable {c} {V : Type} (o : Outside c V)

def requestOf : Dialogue.Exchange (FlowAnswer c) → Option (PasskeyRequest V)
  | ⟨.request r, _⟩ => some (r.map o.view)
  | _ => none

def sent (transcript : Transcript c) : List (PasskeyRequest V) :=
  transcript.filterMap o.requestOf

def answer (prf : Prf) : Answers c
  | before, .request r => o.server (o.sent before ++ [r.map o.view])
  | before, .create options =>
    let gestures := before.filterMap (gestureOf c) ++ [.create options]
    (o.create gestures).map (Option.map (·.withPrf (prf gestures)))
  | before, .get options =>
    let gestures := before.filterMap (gestureOf c) ++ [.get options]
    (o.get gestures).map (Option.map (·.withPrf (prf gestures)))
  | before, .getRandomValues n => o.randomBytes before.length n
  | before, .generateKey => o.secret before.length
  | before, .mlkemSeed => o.seed before.length
  | _, .encrypt key nonce message aad => c.gcm.encrypt key nonce message aad
  | _, .decrypt key nonce sealed aad => c.gcm.decrypt key nonce sealed aad

def transcript (prf : Prf) {α : Type} (flow : Flow c α) : Transcript c :=
  (run (o.answer prf) [] flow).2

end Outside

/-- AES-GCM under a key of the platform; a key of another kind seals nothing. -/
def sealUnder (key : CryptoKey) (iv aad message : Bytes) : Option Bytes :=
  match key with
  | .aesGcm key => c.gcm.encrypt key iv message aad
  | .ecdh _ => none

def openUnder (key : CryptoKey) (iv aad sealed : Bytes) : Option Bytes :=
  match key with
  | .aesGcm key => c.gcm.decrypt key iv sealed aad
  | .ecdh _ => none

/-- The primitives of persist and restore on this platform; the probe draws from the surroundings. -/
def unlockCrypto (answer : Answers c) : UnlockCrypto CryptoKey where
  encrypt key iv aad message := (sealUnder c key iv aad message).getD []
  decrypt key iv aad sealed := do openUnder c key (← iv) aad (← sealed)
  b64uDecode := c.b64uDecode
  kemKeypairMatches key publicX963 := (run answer [] (kemKeypairMatches c key publicX963)).1.toOption
  mlkemEkFromSeed seed := (mlkemEkFromSeed c seed).toOption

end

end SignetDrive
