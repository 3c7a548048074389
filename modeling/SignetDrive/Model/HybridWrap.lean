import SignetDrive.Model.Anchors
import SignetDrive.Model.Envelope
import SignetDrive.Model.RecipientVerify

/-!
# The hybrid wrap of a key

`crypto/src/hybrid_wrap.rs` with the JWK of the ephemeral key (`crypto/src/wrap.rs`), the algorithm
identifiers (`alg.rs`) and the checks around HKDF and AES-KW (`kdf.rs`, `keywrap.rs`).
-/

namespace SignetDrive
open Client CryptoError

inductive AlgId where
  | a256Gcm
  | ecdhEsA256Kw
  | ecdhEsMlKem1024A256Kw
  | es256
  deriving DecidableEq

namespace AlgId

def asJose : AlgId → String
  | a256Gcm => "A256GCM"
  | ecdhEsA256Kw => "ECDH-ES+A256KW"
  | ecdhEsMlKem1024A256Kw => "ECDH-ES+ML-KEM-1024+A256KW"
  | es256 => "ES256"

def fromJose (s : String) : Except CryptoError AlgId :=
  match s with
  | "A256GCM" => .ok a256Gcm
  | "ECDH-ES+A256KW" => .ok ecdhEsA256Kw
  | "ECDH-ES+ML-KEM-1024+A256KW" => .ok ecdhEsMlKem1024A256Kw
  | "ES256" => .ok es256
  | _ => .error .unknownAlgorithm

end AlgId

structure P256Point where
  x : List.Vector UInt8 32
  y : List.Vector UInt8 32
  deriving DecidableEq

def P256Point.uncompressed (point : P256Point) : Bytes := 0x04 :: point.x.toList ++ point.y.toList

/-- What the wrap takes from other crates: base64url without padding, the points of P-256 in their
SEC 1 encodings, HKDF-SHA-256 and AES-256-KW. -/
structure WrapCrypto extends Primitives where
  base64UrlEncode : Bytes → String
  /-- RFC 4648: each sequence of bytes has one text. -/
  base64UrlDecode_eq_some : ∀ s bytes, base64UrlDecode s = some bytes ↔ s = base64UrlEncode bytes
  /-- The point of bytes that `from_sec1_bytes` accepts. -/
  sec1Point : Bytes → P256Point
  /-- SEC 1: what is accepted is a point, whose uncompressed form is accepted. -/
  fromSec1Bytes_uncompressed : ∀ bytes, fromSec1Bytes bytes → fromSec1Bytes (sec1Point bytes).uncompressed
  /-- `Hkdf::expand` of a key, a salt and an info into a buffer. -/
  hkdfExpand : Bytes → Bytes → Bytes → (len : ℕ) → Option (List.Vector UInt8 len)
  /-- `KekAes256::wrap` into a buffer. -/
  kwWrap : Dek → (keyData : Bytes) → Option (List.Vector UInt8 (keyData.length + 8))
  /-- `KekAes256::unwrap` into a buffer. -/
  kwUnwrap : Dek → (wrapped : Bytes) → Option (List.Vector UInt8 (wrapped.length - 8))
  /-- RFC 3394: a wrapped key unwraps under the key it was wrapped with. -/
  kwUnwrap_kwWrap : ∀ kek keyData wrapped, kwWrap kek keyData = some wrapped →
    (kwUnwrap kek wrapped.toList).map List.Vector.toList = some keyData

def KEYDATALEN_BITS : ℕ := 256

def MLKEM1024_CT_LEN : ℕ := 1568

def HYBRID_ALG : AlgId := .ecdhEsMlKem1024A256Kw

structure EpkJwk where
  kty : String
  crv : String
  x : String
  y : String
  deriving DecidableEq

structure HybridWrapEnvelope where
  v : U32
  alg : String
  epk : EpkJwk
  ek : String
  wk : String
  rfp : String
  deriving DecidableEq

def buildFixedInfo (epkX963 ek rkEcX963 rkPq partyV : Bytes) : Bytes :=
  pushField (utf8 HYBRID_ALG.asJose) ++ pushField epkX963 ++ pushField ek ++ pushField rkEcX963 ++
    pushField rkPq ++ pushField (toBeBytes 4 KEYDATALEN_BITS) ++ pushField partyV

section

variable (c : WrapCrypto)

def hkdfSha256 (ikm salt info : Bytes) (outLen : ℕ) : Except CryptoError Bytes := do
  let okm ← okOr (c.hkdfExpand ikm salt info outLen) (invalidInput "hkdf output length")
  return okm.toList

def keywrapWrap (kek : Dek) (keyData : Bytes) : Except CryptoError Bytes := do
  ensure (16 ≤ keyData.length ∧ keyData.length % 8 = 0) (invalidInput "aes-kw key_data length")
  let out ← okOr (c.kwWrap kek keyData) (invalidInput "aes-kw wrap")
  return out.toList

def keywrapUnwrap (kek : Dek) (wrapped : Bytes) : Except CryptoError Bytes := do
  ensure (24 ≤ wrapped.length ∧ wrapped.length % 8 = 0) (invalidInput "aes-kw wrapped length")
  let out ← okOr (c.kwUnwrap kek wrapped) authentication
  return out.toList

def contentWrapKek (zEcdh zMlkem : List.Vector UInt8 32) (fixedInfo : Bytes) : Except CryptoError Dek := do
  let kek ← hkdfSha256 c (zEcdh.toList ++ zMlkem.toList) [] fixedInfo 32
  okOr (toVector 32 kek) (.invalidInput "hybrid kek length")

def epkJwk (pubkey : P256Point) : EpkJwk :=
  ⟨"EC", "P-256", c.base64UrlEncode pubkey.x.toList, c.base64UrlEncode pubkey.y.toList⟩

def x963FromEpk (epk : EpkJwk) : Except CryptoError Bytes := do
  ensure (epk.kty = "EC" ∧ epk.crv = "P-256") (invalidInput "epk must be EC P-256")
  let x ← okOr (c.base64UrlDecode epk.x) (invalidInput "epk x base64url")
  let y ← okOr (c.base64UrlDecode epk.y) (invalidInput "epk y base64url")
  ensure (x.length = 32 ∧ y.length = 32) (invalidInput "epk coordinates must be 32 bytes")
  let point := 0x04 :: x ++ y
  ensure (c.fromSec1Bytes point) (invalidInput "epk not on curve")
  return point

def fixed32 (bytes : Bytes) : Except CryptoError Dek :=
  okOr (toVector 32 bytes) (.invalidInput "unwrapped key is not 32 bytes")

def validateRecipientKeys (rkEcX963 rkPq : Bytes) : Except CryptoError Unit := do
  ensure (rkEcX963.length = 65 ∧ rkEcX963.head? = some 0x04)
    (invalidInput "rk_ec must be a 65-byte uncompressed x9.63 point")
  ensure (c.fromSec1Bytes rkEcX963) (invalidInput "rk_ec not on curve")
  ensure (rkPq.length = MLKEM1024_EK_LEN)
    (.invalidInput "rk_pq must be a 1568-byte ml-kem-1024 encapsulation key")

def validatePartyV (partyV : Bytes) : Except CryptoError Unit :=
  ensure (partyV = [] ∨ partyV.length = 16) (.invalidInput "party_v must be empty or a 16-byte root_folder_id")

def hybridRfpOf (rkEcX963 rkPq : Bytes) : Except CryptoError String := do
  validateRecipientKeys c rkEcX963 rkPq
  return hexEncode (c.sha256 (pushField rkEcX963 ++ pushField rkPq)).toList

def p256Pub (x963 : Bytes) : Except CryptoError P256Point := do
  ensure (c.fromSec1Bytes x963) (invalidInput "epk not on curve")
  return c.sec1Point x963

def wrapFromSecrets (zEcdh zMlkem : List.Vector UInt8 32) (epkX963 ek rkEcX963 rkPq : Bytes) (key : Dek)
    (partyV : Bytes) : Except CryptoError HybridWrapEnvelope := do
  validateRecipientKeys c rkEcX963 rkPq
  validatePartyV partyV
  ensure (ek.length = MLKEM1024_CT_LEN) (invalidInput "ml-kem ciphertext length")
  let pk ← p256Pub c epkX963
  let epkCanon := pk.uncompressed
  let fixedInfo := buildFixedInfo epkCanon ek rkEcX963 rkPq partyV
  let kek ← contentWrapKek c zEcdh zMlkem fixedInfo
  let wk ← keywrapWrap c kek key.toList
  let rfp ← hybridRfpOf c rkEcX963 rkPq
  return ⟨1, HYBRID_ALG.asJose, epkJwk c pk, c.base64UrlEncode ek, c.base64UrlEncode wk, rfp⟩

def unwrapWithSharedSecrets (zEcdh zMlkem : List.Vector UInt8 32) (envelope : HybridWrapEnvelope)
    (rkEcX963 rkPq partyV : Bytes) : Except CryptoError Dek := do
  let alg ← AlgId.fromJose envelope.alg
  ensure (alg = HYBRID_ALG) unknownAlgorithm
  validateRecipientKeys c rkEcX963 rkPq
  validatePartyV partyV
  let epkX963 ← x963FromEpk c envelope.epk
  let ek ← okOr (c.base64UrlDecode envelope.ek) (invalidInput "ek base64url")
  ensure (ek.length = MLKEM1024_CT_LEN) (invalidInput "ml-kem ciphertext length")
  let fixedInfo := buildFixedInfo epkX963 ek rkEcX963 rkPq partyV
  let kek ← contentWrapKek c zEcdh zMlkem fixedInfo
  let wrapped ← okOr (c.base64UrlDecode envelope.wk) (invalidInput "wk base64url")
  let bytes ← keywrapUnwrap c kek wrapped
  fixed32 bytes

end

end SignetDrive
