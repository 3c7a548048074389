import Mathlib.Data.Nat.Size
import SignetDrive.Model.GarnetPki

/-!
# The two encodings of an ES256 signature

`sig_raw_to_der` and `sig_der_to_raw` of `crypto/src/ecdsa.rs`, and the encodings of a pair of scalars
that `p256` writes.
-/

namespace SignetDrive.Pki
open Client

def P256_ORDER : ℕ := 0xffffffff00000000ffffffffffffffffbce6faada7179e84f3b9cac2fc632551

structure P256Signature where
  r : ℕ
  s : ℕ
  r_range : 1 ≤ r ∧ r < P256_ORDER
  s_range : 1 ≤ s ∧ s < P256_ORDER
  deriving DecidableEq

/-- The bytes of a DER integer: the fewest that leave its first bit zero. -/
def derWidth (n : ℕ) : ℕ := n.size / 8 + 1

def derInteger (n : ℕ) : Bytes := 0x02 :: UInt8.ofNat (derWidth n) :: toBeBytes (derWidth n) n

def P256Signature.toBytes (sig : P256Signature) : Bytes := toBeBytes 32 sig.r ++ toBeBytes 32 sig.s

def P256Signature.toDer (sig : P256Signature) : Bytes :=
  let content := derInteger sig.r ++ derInteger sig.s
  0x30 :: UInt8.ofNat content.length :: content

variable {Key Sig : Type} (p : Platform Key Sig)

def sigRawToDer (raw : Bytes) : Except CryptoError Bytes := do
  let signature ← okOr (p.sigFromSlice raw) (.invalidInput "es256 raw r‖s")
  return p.sigToDer signature

def sigDerToRaw (der : Bytes) : Except CryptoError Bytes := do
  let signature ← okOr (p.sigFromDer der) (.invalidInput "es256 DER")
  return p.sigToBytes signature

end SignetDrive.Pki
