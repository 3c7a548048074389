import SignetDrive.Lib.Signed
import SignetDrive.Model.Broker

/-!
# Garnet access tokens

`crypto/src/garnet_token.rs`. The JSON of the header and of the claims, base64url, the text of a UUID
and ES256 are parameters.
-/

namespace SignetDrive.Token
open Client Signed

def ALG_ES256 : String := "ES256"

def TYP_AT_JWT : String := "at+jwt"

def ISS : String := "https://drive.mysignet.ca"

inductive Audience where
  | server
  | broker
  deriving DecidableEq

def Audience.asStr : Audience → String
  | server => "signet-server"
  | broker => "signet-broker"

structure Header where
  alg : String
  typ : String
  kid : String
  deriving DecidableEq

structure Cnf where
  x5tS256 : String
  deriving DecidableEq

structure Claims where
  iss : String
  sub : String
  aud : String
  iat : I64
  nbf : I64
  exp : I64
  jti : String
  grantId : String
  cnf : Option Cnf
  deriving DecidableEq

structure VerifiedToken where
  sub : String
  grantId : Uuid
  jti : String
  exp : I64
  deriving DecidableEq

inductive TokenError where
  | malformed
  | algNotAllowed
  | typNotAllowed
  | signatureInvalid
  | cnfMissing
  | cnfMismatch
  | subMismatch
  | audMismatch
  | issMismatch
  | expired
  | notYetValid
  deriving DecidableEq

/-- Third-party code, with what it promises. -/
structure TokenPrimitives where
  /-- `URL_SAFE_NO_PAD`. -/
  b64uEncode : Bytes → List Char
  b64uDecode : List Char → Option Bytes
  b64uDecode_b64uEncode : ∀ bytes, b64uDecode (b64uEncode bytes) = some bytes
  /-- A dot is not in the alphabet. -/
  no_dot : ∀ text bytes, b64uDecode text = some bytes → '.' ∉ text
  /-- `serde_json::to_vec` and `serde_json::from_slice`. -/
  headerJson : Codec Bytes Header
  claimsJson : Codec Bytes Claims
  uuidToString : Uuid → String
  uuidParseStr : String → Option Uuid
  uuidParseStr_toString : ∀ id, uuidParseStr (uuidToString id) = some id
  /-- `verify_es256` of a key, a message and a signature. -/
  verifyEs256 : Bytes → Bytes → Bytes → Bool

/-- What a token is minted for; the `jti` is drawn by the function itself. -/
structure Mint where
  kid : Uuid
  audience : Audience
  sub : String
  cnfThumbprint : String
  grantId : Uuid
  ttlSeconds : I64
  now : I64
  jti : Uuid

variable (p : TokenPrimitives)

def mintHeader (m : Mint) : Header := ⟨ALG_ES256, TYP_AT_JWT, p.uuidToString m.kid⟩

/-- The claims; `none` is the panic of a plain addition. -/
def mintClaims (profile : Profile) (m : Mint) : Option Claims := do
  let exp ← profile.i64 (m.now.1 + m.ttlSeconds.1)
  return ⟨ISS, m.sub, m.audience.asStr, m.now, m.now, exp, p.uuidToString m.jti, p.uuidToString m.grantId,
    some ⟨m.cnfThumbprint⟩⟩

/-- `none` is a panic. -/
def encodeSigningInput (profile : Profile) (m : Mint) : Option (Except CryptoError (List Char)) := do
  let claims ← mintClaims p profile m
  return do
    let headerJson ← okOr (p.headerJson.encode (mintHeader p m)) (.invalidInput "garnet token header")
    let claimsJson ← okOr (p.claimsJson.encode claims) (.invalidInput "garnet token claims")
    return p.b64uEncode headerJson ++ '.' :: p.b64uEncode claimsJson

def decodeHeader (part : List Char) : Except TokenError Header := do
  let bytes ← okOr (p.b64uDecode part) .malformed
  okOr (p.headerJson.decode bytes) .malformed

def decodeClaims (part : List Char) : Except TokenError Claims := do
  let bytes ← okOr (p.b64uDecode part) .malformed
  okOr (p.claimsJson.decode bytes) .malformed

def pinHeader (header : Header) : Except TokenError Unit := do
  ensure (header.alg = ALG_ES256) .algNotAllowed
  ensure (header.typ = TYP_AT_JWT) .typNotAllowed

variable (jws : List Char) (verifyKey : Bytes) (expectedAudience : Audience)

def jwsParts : Except TokenError (List Char × List Char × List Char) :=
  match jws.splitOn '.' with
  | [header, claims, signature] => .ok (header, claims, signature)
  | _ => .error .malformed

def verifyStructural (expectedSub presentedCertThumbprint : String) : Except TokenError Claims := do
  let (headerPart, claimsPart, signaturePart) ← jwsParts jws
  let header ← decodeHeader p headerPart
  pinHeader header
  let signingInput := headerPart ++ '.' :: claimsPart
  let sig ← okOr (p.b64uDecode signaturePart) .malformed
  ensure (p.verifyEs256 verifyKey (utf8 (String.ofList signingInput)) sig = true) .signatureInvalid
  let claims ← decodeClaims p claimsPart
  ensure (claims.iss = ISS) .issMismatch
  ensure (claims.aud = expectedAudience.asStr) .audMismatch
  ensure (claims.sub = expectedSub) .subMismatch
  let cnf ← okOr claims.cnf .cnfMissing
  ensure (cnf.x5tS256 ≠ "") .cnfMissing
  ensure (cnf.x5tS256 = presentedCertThumbprint) .cnfMismatch
  return claims

def intoVerified (claims : Claims) : Except TokenError VerifiedToken := do
  let grantId ← okOr (p.uuidParseStr claims.grantId) .malformed
  return ⟨claims.sub, grantId, claims.jti, claims.exp⟩

def verify (expectedSub presentedCertThumbprint : String) (now skewSeconds : I64) :
    Except TokenError VerifiedToken := do
  let claims ← verifyStructural p jws verifyKey expectedAudience expectedSub presentedCertThumbprint
  ensure (¬ now.1 > (claims.exp.saturatingAdd skewSeconds).1) .expired
  ensure (¬ ((claims.nbf.saturatingSub skewSeconds).1 > now.1 ∨
    (claims.iat.saturatingSub skewSeconds).1 > now.1)) .notYetValid
  intoVerified p claims

def verifySkippingTime (expectedSub presentedCertThumbprint : String) :
    Except TokenError VerifiedToken := do
  let claims ← verifyStructural p jws verifyKey expectedAudience expectedSub presentedCertThumbprint
  intoVerified p claims

end SignetDrive.Token
