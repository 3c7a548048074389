import SignetDrive.Lib.Signed
import SignetDrive.Model.Envelope

/-!
# The certificates of the deployment CA

`crypto/src/x509.rs` with `verify_es256` of `crypto/src/ecdsa.rs`, and the server-certificate
verifier of `cli/src/broker_tls.rs`. The DER of each structure is an encoding that is read back.
-/

namespace SignetDrive.Pki
open Client Signed

abbrev Oid := List ℕ

abbrev Scalar := List.Vector UInt8 32

abbrev Name := Bytes

def ECDSA_WITH_SHA256 : Oid := [1, 2, 840, 10045, 4, 3, 2]

def ID_KP_CLIENT_AUTH : String := "1.3.6.1.5.5.7.3.2"

def ID_KP_SERVER_AUTH : String := "1.3.6.1.5.5.7.3.1"

def SAN_URN_PREFIX : String := "urn:signet:prsn:"

def SAN_URN_BROKER_PREFIX : String := "urn:signet:broker:"

def SAN_URN_SERVER_PREFIX : String := "urn:signet:server:"

def SUBJECT_ALT_NAME : Oid := [2, 5, 29, 17]

def BASIC_CONSTRAINTS : Oid := [2, 5, 29, 19]

def EXTENDED_KEY_USAGE : Oid := [2, 5, 29, 37]

def KEY_USAGE : Oid := [2, 5, 29, 15]

structure BitString where
  unusedBits : ℕ
  rawBytes : Bytes
  deriving DecidableEq

/-- `as_bytes`: only a whole number of bytes has them. -/
def BitString.asBytes (bits : BitString) : Option Bytes :=
  if bits.unusedBits = 0 then some bits.rawBytes else none

structure AlgorithmIdentifier where
  oid : Oid
  parameters : Option Bytes
  deriving DecidableEq

structure SubjectPublicKeyInfo where
  algorithm : AlgorithmIdentifier
  subjectPublicKey : BitString
  deriving DecidableEq

/-- A `UTCTime` or a `GeneralizedTime`, in seconds since 1970. -/
structure Time where
  unix : ℕ
  generalized : Bool
  deriving DecidableEq

structure Validity where
  notBefore : Time
  notAfter : Time
  deriving DecidableEq

structure Extension where
  extnId : Oid
  critical : Bool
  extnValue : Bytes
  deriving DecidableEq

structure TbsCertificate where
  version : ℕ
  serialNumber : Bytes
  signature : AlgorithmIdentifier
  issuer : Name
  validity : Validity
  subject : Name
  subjectPublicKeyInfo : SubjectPublicKeyInfo
  issuerUniqueId : Option BitString
  subjectUniqueId : Option BitString
  extensions : Option (List Extension)
  deriving DecidableEq

structure Certificate where
  tbsCertificate : TbsCertificate
  signatureAlgorithm : AlgorithmIdentifier
  signature : BitString
  deriving DecidableEq

inductive GeneralName where
  | uniformResourceIdentifier (uri : String)
  | other (encoding : Bytes)
  deriving DecidableEq

def GeneralName.uri? : GeneralName → Option String
  | uniformResourceIdentifier uri => some uri
  | other _ => none

structure BasicConstraints where
  ca : Bool
  pathLenConstraint : Option ℕ
  deriving DecidableEq

inductive KeyUsages where
  | keyCertSign
  | cRLSign

structure CertReqInfo where
  version : ℕ
  subject : Name
  publicKey : SubjectPublicKeyInfo
  attributes : Bytes
  deriving DecidableEq

structure CertReq where
  info : CertReqInfo
  algorithm : AlgorithmIdentifier
  signature : BitString
  deriving DecidableEq

/-- The parts of `p256`, `x509-cert` and `der` that are used, with what they promise. -/
structure Platform (Key Sig : Type) where
  /-- P-256 keys, and ECDSA with SHA-256. -/
  scheme : Scheme Scalar Key Bytes Sig
  certificate : Codec Bytes Certificate
  tbsCertificate : Codec Bytes TbsCertificate
  certReq : Codec Bytes CertReq
  certReqInfo : Codec Bytes CertReqInfo
  spki : Codec Bytes SubjectPublicKeyInfo
  subjectAltName : Codec Bytes (List GeneralName)
  basicConstraints : Codec Bytes BasicConstraints
  extendedKeyUsage : Codec Bytes (List Oid)
  keyUsage : List KeyUsages → Option Bytes
  /-- `p256::PublicKey::from_public_key_der`. -/
  fromPublicKeyDer : Bytes → Option Key
  toPublicKeyDer : Key → Option Bytes
  fromSec1Bytes : Bytes → Option Key
  /-- `to_encoded_point(false)`. -/
  toX963 : Key → Bytes
  sigFromSlice : Bytes → Option Sig
  sigFromDer : Bytes → Option Sig
  sigToBytes : Sig → Bytes
  sigToDer : Sig → Bytes
  nameFromStr : String → Option Name
  serialNumber : Bytes → Option Bytes
  oidFromStr : String → Option Oid
  ia5String : String → Option String
  /-- `Validity::from_now`, of the clock and a duration in seconds. -/
  validityFromNow : ℕ → ℕ → Option Validity
  /-- Whether the builder marks an extension, by the subject and the extensions before it. -/
  critical : Oid → Name → List Extension → Bool
  /-- What the leaf profile adds, of the subject, its key and the signer's key. -/
  leafExtensions : Name → SubjectPublicKeyInfo → Key → Option (List Extension)
  certificateToPem : Certificate → Option String
  sha256 : Bytes → Hash
  b64uEncode : Bytes → String
  /-- A certificate that can be written can be written with another signature. -/
  certificate_resigned : ∀ cert der sig, certificate.encode cert = some der → sig.length ≤ 72 →
    ∃ der', certificate.encode { cert with signature := ⟨0, sig⟩ } = some der'
  /-- The key information made of a key is the one that is read from it. -/
  fromPublicKeyDer_spki : ∀ key der info, toPublicKeyDer key = some der → spki.decode der = some info →
    ∃ der', spki.encode info = some der' ∧ fromPublicKeyDer der' = some key
  fromSec1Bytes_toX963 : ∀ key, fromSec1Bytes (toX963 key) = some key
  sigFromSlice_toBytes : ∀ sig, sigFromSlice (sigToBytes sig) = some sig
  length_sigToBytes : ∀ sig, (sigToBytes sig).length = 64
  sigFromDer_toDer : ∀ sig, sigFromDer (sigToDer sig) = some sig
  length_sigToDer : ∀ sig, (sigToDer sig).length ≤ 72
  oid_clientAuth : oidFromStr ID_KP_CLIENT_AUTH = some [1, 3, 6, 1, 5, 5, 7, 3, 2]
  oid_serverAuth : oidFromStr ID_KP_SERVER_AUTH = some [1, 3, 6, 1, 5, 5, 7, 3, 1]
  ia5String_eq : ∀ s t, ia5String s = some t → t = s
  /-- A time that can be written is one of an `i64`. -/
  validity_from_now : ∀ now secs validity, validityFromNow now secs = some validity →
    validity.notBefore.unix = now ∧ validity.notAfter.unix = now + secs ∧ now + secs < 2 ^ 63
  /-- The leaf profile adds `CA:FALSE`, and neither names nor usages of the key. -/
  leaf_profile : ∀ subject info key extensions, leafExtensions subject info key = some extensions →
    (∃ e, extensions.find? (·.extnId = BASIC_CONSTRAINTS) = some e ∧
      ∃ constraints, basicConstraints.decode e.extnValue = some constraints ∧ constraints.ca = false) ∧
    ∀ e ∈ extensions, e.extnId ≠ SUBJECT_ALT_NAME ∧ e.extnId ≠ EXTENDED_KEY_USAGE
  b64uEncode_injective : Function.Injective b64uEncode

variable {Key Sig : Type} (p : Platform Key Sig)

/-- Raw `r‖s` is told from DER by the length. -/
def parseSignature (sig : Bytes) : Except CryptoError Sig :=
  if sig.length = 64 then okOr (p.sigFromSlice sig) (.invalidInput "es256 raw r‖s")
  else if sig.length ≤ 72 then okOr (p.sigFromDer sig) (.invalidInput "es256 DER")
  else .error (.invalidInput "es256 signature length")

def verifyEs256 (pubkeyX963 msg sig : Bytes) : Except CryptoError Unit := do
  let vk ← okOr (p.fromSec1Bytes pubkeyX963) (.invalidInput "es256 public key")
  let signature ← parseSignature p sig
  ensure (p.scheme.verify vk msg signature = true) .signatureInvalid

structure VerifiedCsr where
  spki : SubjectPublicKeyInfo
  pubkeyX963 : Bytes

def verifyCsr (csrDer : Bytes) : Except CryptoError VerifiedCsr := do
  let csr ← okOr (p.certReq.decode csrDer) (.invalidInput "garnet csr der")
  ensure (csr.algorithm.oid = ECDSA_WITH_SHA256) (.invalidInput "garnet csr signature algorithm")
  let spki := csr.info.publicKey
  let spkiDer ← okOr (p.spki.encode spki) (.invalidInput "garnet csr spki")
  let publicKey ← okOr (p.fromPublicKeyDer spkiDer) (.invalidInput "garnet csr key not P-256")
  let pubkeyX963 := p.toX963 publicKey
  let signed ← okOr (p.certReqInfo.encode csr.info) (.invalidInput "garnet csr info")
  let sig ← okOr csr.signature.asBytes (.invalidInput "garnet csr signature bits")
  verifyEs256 p pubkeyX963 signed sig
  return ⟨spki, pubkeyX963⟩

/-- The profiles in use: a leaf, with neither key agreement nor encipherment and with a subject key
identifier, and the manual one. -/
inductive BuilderProfile where
  | leaf (issuer : Name)
  | manual (issuer : Option Name)

structure CertificateBuilder where
  tbs : TbsCertificate
  extensions : List Extension

namespace CertificateBuilder

def new (profile : BuilderProfile) (serialNumber : Bytes) (validity : Validity) (subject : Name)
    (info : SubjectPublicKeyInfo) (signer : Key) : Option CertificateBuilder := do
  let issuer := match profile with
    | .leaf issuer => issuer
    | .manual issuer => issuer.getD subject
  let extensions ← match profile with
    | .leaf _ => p.leafExtensions subject info signer
    | .manual _ => some []
  return {
    tbs := {
      version := 2, serialNumber, signature := ⟨ECDSA_WITH_SHA256, none⟩, issuer, validity, subject
      subjectPublicKeyInfo := info, issuerUniqueId := none, subjectUniqueId := none, extensions := none }
    extensions }

def addExtension (builder : CertificateBuilder) (id : Oid) (value : Option Bytes) :
    Option CertificateBuilder := do
  let value ← value
  let extension := ⟨id, p.critical id builder.tbs.subject builder.extensions, value⟩
  return { builder with extensions := builder.extensions ++ [extension] }

def build (builder : CertificateBuilder) (signer : Scalar) : Option Certificate := do
  let tbs := { builder.tbs with extensions :=
    if builder.extensions = [] then none else some builder.extensions }
  let blob ← p.tbsCertificate.encode tbs
  let signature ← p.scheme.sign signer blob
  return ⟨tbs, tbs.signature, ⟨0, p.sigToDer signature⟩⟩

end CertificateBuilder

structure IssuedCert where
  der : Bytes
  pem : String
  serialHex : String
  thumbprintB64url : String

def certThumbprintB64url (der : Bytes) : String := p.b64uEncode (p.sha256 der).toList

def name (s : String) : Except CryptoError Name := okOr (p.nameFromStr s) (.invalidInput "garnet x509 name")

def finish (cert : Certificate) : Except CryptoError IssuedCert := do
  let der ← okOr (p.certificate.encode cert) (.invalidInput "garnet cert der")
  let pem ← okOr (p.certificateToPem cert) (.invalidInput "garnet cert pem")
  return ⟨der, pem, hexEncode cert.tbsCertificate.serialNumber, certThumbprintB64url p der⟩

/-- `rsplit(':').next()`. -/
def lastSegment (s : String) : String := String.ofList (s.toList.reverse.takeWhile (· ≠ ':')).reverse

/-- The last argument is the clock. -/
def buildLeaf (subjectSpki : SubjectPublicKeyInfo) (sanUri ekuOid : String) (caScalar : Scalar)
    (issuerCn : String) (serial : Bytes) (validitySecs now : ℕ) : Except CryptoError IssuedCert := do
  let caKey ← okOr (p.scheme.publicKey caScalar) (.invalidInput "garnet ca key")
  let issuer ← name p ("CN=" ++ issuerCn)
  let subject ← name p ("CN=" ++ lastSegment sanUri)
  let serialNumber ← okOr (p.serialNumber serial) (.invalidInput "garnet cert serial")
  let validity ← okOr (p.validityFromNow now validitySecs) (.invalidInput "garnet cert validity")
  let builder ← okOr (CertificateBuilder.new p (.leaf issuer) serialNumber validity subject subjectSpki caKey)
    (.invalidInput "garnet cert builder")
  let san ← okOr (p.ia5String sanUri) (.invalidInput "garnet san")
  let builder ← okOr (builder.addExtension p SUBJECT_ALT_NAME
    (p.subjectAltName.encode [.uniformResourceIdentifier san])) (.invalidInput "garnet san ext")
  let eku ← okOr (p.oidFromStr ekuOid) (.invalidInput "garnet eku oid")
  let builder ← okOr (builder.addExtension p EXTENDED_KEY_USAGE (p.extendedKeyUsage.encode [eku]))
    (.invalidInput "garnet eku ext")
  let cert ← okOr (builder.build p caScalar) (.invalidInput "garnet cert sign")
  finish p cert

def issueAgentCert (csrDer : Bytes) (handle : String) (caScalar : Scalar) (issuerCn : String) (serial : Bytes)
    (validitySecs now : ℕ) : Except CryptoError IssuedCert := do
  let verified ← verifyCsr p csrDer
  buildLeaf p verified.spki (SAN_URN_PREFIX ++ handle) ID_KP_CLIENT_AUTH caScalar issuerCn serial
    validitySecs now

def issueBrokerClientCert (csrDer : Bytes) (brokerId : String) (caScalar : Scalar) (issuerCn : String)
    (serial : Bytes) (validitySecs now : ℕ) : Except CryptoError IssuedCert := do
  let verified ← verifyCsr p csrDer
  buildLeaf p verified.spki (SAN_URN_BROKER_PREFIX ++ brokerId) ID_KP_CLIENT_AUTH caScalar issuerCn serial
    validitySecs now

def serverSpki (serverPubkeyX963 : Bytes) : Except CryptoError SubjectPublicKeyInfo := do
  let publicKey ← okOr (p.fromSec1Bytes serverPubkeyX963) (.invalidInput "garnet server pubkey not P-256")
  let spkiDer ← okOr (p.toPublicKeyDer publicKey) (.invalidInput "garnet server spki")
  okOr (p.spki.decode spkiDer) (.invalidInput "garnet server spki der")

def buildServerLeaf (serverPubkeyX963 : Bytes) (serverId : String) (caScalar : Scalar) (issuerCn : String)
    (serial : Bytes) (validitySecs now : ℕ) : Except CryptoError IssuedCert := do
  let spki ← serverSpki p serverPubkeyX963
  buildLeaf p spki (SAN_URN_SERVER_PREFIX ++ serverId) ID_KP_SERVER_AUTH caScalar issuerCn serial
    validitySecs now

def buildCaCert (caScalar : Scalar) (subjectCn : String) (serial : Bytes) (validitySecs now : ℕ) :
    Except CryptoError IssuedCert := do
  let caKey ← okOr (p.scheme.publicKey caScalar) (.invalidInput "garnet ca key")
  let spkiDer ← okOr (p.toPublicKeyDer caKey) (.invalidInput "garnet ca spki")
  let spki ← okOr (p.spki.decode spkiDer) (.invalidInput "garnet ca spki der")
  let subject ← name p ("CN=" ++ subjectCn)
  let serialNumber ← okOr (p.serialNumber serial) (.invalidInput "garnet ca serial")
  let validity ← okOr (p.validityFromNow now validitySecs) (.invalidInput "garnet ca validity")
  let builder ← okOr (CertificateBuilder.new p (.manual (some subject)) serialNumber validity subject spki
    caKey) (.invalidInput "garnet ca builder")
  let builder ← okOr (builder.addExtension p BASIC_CONSTRAINTS (p.basicConstraints.encode ⟨true, some 0⟩))
    (.invalidInput "garnet ca basic constraints")
  let builder ← okOr (builder.addExtension p KEY_USAGE (p.keyUsage [.keyCertSign, .cRLSign]))
    (.invalidInput "garnet ca key usage")
  let cert ← okOr (builder.build p caScalar) (.invalidInput "garnet ca sign")
  finish p cert

inductive Issue where
  | caCert (serial : Bytes) (validitySecs : ℕ)
  | agentCert (csrDer : Bytes) (handle : String) (serial : Bytes) (validitySecs : ℕ)
  | brokerClientCert (csrDer : Bytes) (brokerId : String) (serial : Bytes) (validitySecs : ℕ)
  | serverLeaf (serverPubkeyX963 : Bytes) (serverId : String) (serial : Bytes) (validitySecs : ℕ)

def Issue.run (caScalar : Scalar) (cn : String) (now : ℕ) : Issue → Except CryptoError IssuedCert
  | caCert serial secs => buildCaCert p caScalar cn serial secs now
  | agentCert csr handle serial secs => issueAgentCert p csr handle caScalar cn serial secs now
  | brokerClientCert csr id serial secs => issueBrokerClientCert p csr id caScalar cn serial secs now
  | serverLeaf pubkey id serial secs => buildServerLeaf p pubkey id caScalar cn serial secs now

def certSanUri (der : Bytes) : Except CryptoError (Option String) := do
  let cert ← okOr (p.certificate.decode der) (.invalidInput "garnet cert der")
  match cert.tbsCertificate.extensions with
  | none => return none
  | some exts =>
    match exts.find? (·.extnId = SUBJECT_ALT_NAME) with
    | none => return none
    | some ext =>
      let san ← okOr (p.subjectAltName.decode ext.extnValue) (.invalidInput "garnet san")
      return san.findSome? GeneralName.uri?

def checkNotCa (exts : List Extension) : Except CryptoError Unit :=
  match exts.find? (·.extnId = BASIC_CONSTRAINTS) with
  | none => .ok ()
  | some ext => do
    let constraints ← okOr (p.basicConstraints.decode ext.extnValue)
      (.invalidInput "garnet leaf basic constraints")
    ensure (constraints.ca = false) (.invalidInput "garnet leaf is a CA")

def verifyLeafChainsToCaUri (leafDer caDer : Bytes) (requiredEku : String) (nowUnix : I64) :
    Except CryptoError String := do
  let leaf ← okOr (p.certificate.decode leafDer) (.invalidInput "garnet leaf der")
  let ca ← okOr (p.certificate.decode caDer) (.invalidInput "garnet ca der")
  ensure (leaf.signatureAlgorithm.oid = ECDSA_WITH_SHA256) (.invalidInput "garnet leaf signature algorithm")
  -- the names and the signature chain to the CA
  ensure (leaf.tbsCertificate.issuer = ca.tbsCertificate.subject) (.invalidInput "garnet leaf issuer mismatch")
  let caSpkiDer ← okOr (p.spki.encode ca.tbsCertificate.subjectPublicKeyInfo) (.invalidInput "garnet ca spki")
  let caKey ← okOr (p.fromPublicKeyDer caSpkiDer) (.invalidInput "garnet ca key not P-256")
  let tbs ← okOr (p.tbsCertificate.encode leaf.tbsCertificate) (.invalidInput "garnet leaf tbs")
  let sig ← okOr leaf.signature.asBytes (.invalidInput "garnet leaf signature bits")
  verifyEs256 p (p.toX963 caKey) tbs sig
  let now := nowUnix.max0.asU64.val
  ensure (leaf.tbsCertificate.validity.notBefore.unix ≤ now) (.invalidInput "garnet leaf not yet valid")
  ensure (now ≤ leaf.tbsCertificate.validity.notAfter.unix) (.invalidInput "garnet leaf expired")
  let exts ← okOr leaf.tbsCertificate.extensions (.invalidInput "garnet leaf extensions")
  checkNotCa p exts
  let wantEku ← okOr (p.oidFromStr requiredEku) (.invalidInput "garnet required eku oid")
  let ekuExt ← okOr (exts.find? (·.extnId = EXTENDED_KEY_USAGE)) (.invalidInput "garnet leaf eku missing")
  let eku ← okOr (p.extendedKeyUsage.decode ekuExt.extnValue) (.invalidInput "garnet leaf eku")
  ensure (wantEku ∈ eku) (.invalidInput "garnet leaf eku mismatch")
  let uri ← certSanUri p leafDer
  okOr uri (.invalidInput "garnet leaf san missing")

def stripStart (start s : String) : Option String :=
  if start.toList <+: s.toList then some (String.ofList (s.toList.drop start.toList.length)) else none

def verifyLeafChainsToCa (leafDer caDer : Bytes) (requiredEku : String) (nowUnix : I64) :
    Except CryptoError String := do
  let uri ← verifyLeafChainsToCaUri p leafDer caDer requiredEku nowUnix
  okOr (stripStart SAN_URN_PREFIX uri) (.invalidInput "garnet leaf san handle missing")

def certSpkiSha256B64url (der : Bytes) : Except CryptoError String := do
  let cert ← okOr (p.certificate.decode der) (.invalidInput "garnet cert der")
  let spkiDer ← okOr (p.spki.encode cert.tbsCertificate.subjectPublicKeyInfo)
    (.invalidInput "garnet cert spki der")
  return p.b64uEncode (p.sha256 spkiDer).toList

inductive TlsError where
  | unknownIssuer
  | badEncoding
  | applicationVerificationFailure

structure K2ServerCertVerifier where
  caAnchorDer : Bytes
  pinnedBrokerSpki : Option String

def K2ServerCertVerifier.verifyServerCert (verifier : K2ServerCertVerifier) (endEntity : Bytes)
    (intermediates : List Bytes) (now : U64) : Except TlsError Unit := do
  ensure (intermediates = []) .unknownIssuer
  let _ ← (verifyLeafChainsToCaUri p endEntity verifier.caAnchorDer ID_KP_SERVER_AUTH now.asI64).mapError
    fun _ => .unknownIssuer
  match verifier.pinnedBrokerSpki with
  | none => .ok ()
  | some pin =>
    let presented ← (certSpkiSha256B64url p endEntity).mapError fun _ => .badEncoding
    ensure (presented = pin) .applicationVerificationFailure

/-- The verifier in `k2_pinned_client_config`, the configuration of `HttpGrantStatusClient`. -/
def k2PinnedClientConfig (caAnchorDer : Bytes) : K2ServerCertVerifier := ⟨caAnchorDer, none⟩

/-- The verifier in `broker_pinned_client_config`. -/
def brokerPinnedClientConfig (caAnchorDer : Bytes) (brokerSpkiPin : String) : K2ServerCertVerifier :=
  ⟨caAnchorDer, some brokerSpkiPin⟩

end SignetDrive.Pki
