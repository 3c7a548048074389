import SignetDrive.Lib.Aead
import SignetDrive.Model.Receipt

/-!
# Chunk envelopes

`crypto/src/envelope.rs`: how a chunk is sealed and opened. AES-256-GCM and HKDF are parameters.
-/

namespace SignetDrive

open Client

inductive CryptoError where
  | authentication
  | invalidInput (what : String)
  | unknownAlgorithm
  | signatureInvalid
  deriving DecidableEq

def CryptoError.display : CryptoError → String
  | authentication => "authentication failed"
  | invalidInput what => "invalid input: " ++ what
  | unknownAlgorithm => "unknown algorithm identifier"
  | signatureInvalid => "signature verification failed"

def CryptoError.toCliError (e : CryptoError) : CliError :=
  match e with
  | authentication => .decryptFailed e.display
  | signatureInvalid => .signatureInvalid e.display
  | unknownAlgorithm => .unsupportedAlgorithm e.display
  | invalidInput _ => .invalidArgs e.display

abbrev Dek := List.Vector UInt8 32

abbrev FileId := List.Vector UInt8 16

abbrev Iv := List.Vector UInt8 12

/-- AES-256-GCM, whose tag adds 16 bytes, and HKDF-SHA-256 of a key, a salt, an info and an
output length. -/
structure EnvelopeCrypto extends Aead.Cipher Dek Iv Bytes Bytes Bytes where
  length_encrypt : ∀ key nonce plaintext aad sealed,
    encrypt key nonce plaintext aad = some sealed → sealed.length = plaintext.length + 16
  hkdfSha256 : Bytes → Bytes → Bytes → ℕ → Except CryptoError Bytes

def FILE_MAGIC_MULTIPART : UInt8 := 0x02

def FILE_ALG_A256GCM : UInt8 := 0x01

def MULTIPART_IV_LABEL : Bytes := utf8 "signet-drive-multipart-iv-v1"

def MULTIPART_HEADER_LEN : ℕ := 18

def MULTIPART_MIN_ENVELOPE_LEN : ℕ := 34

def MULTIPART_CHUNK_OVERHEAD : ℕ := 34

/-- `u64::div_ceil`; `none` is the panic on a zero divisor. -/
def divCeil (a b : U64) : Option U64 :=
  if h : b.val = 0 then none
  else some ⟨(a.val + b.val - 1) / b.val, by
    have hle : (a.val + b.val - 1) / b.val ≤ a.val := by
      rw [Nat.div_le_iff_le_mul_add_pred (by omega)]
      have hmul := Nat.le_mul_of_pos_left a.val (show 0 < b.val by omega)
      omega
    omega⟩

/-- The plaintext length of a chunked file. The outer `none` is a panic of the build, the inner one the
answer for what is no such file. -/
def multipartPlaintextLen (profile : Profile) (ciphertextLen chunkSize : U64) : Option (Option U64) :=
  if chunkSize.val = 0 ∨ ciphertextLen.val < MULTIPART_CHUNK_OVERHEAD then some none
  else do
    let per ← profile.u64 (chunkSize.val + MULTIPART_CHUNK_OVERHEAD)
    let quotient ← divCeil ciphertextLen per
    let chunks := max quotient.val 1
    let overhead ← profile.u64 (chunks * MULTIPART_CHUNK_OVERHEAD)
    return if overhead.val ≤ ciphertextLen.val then some (ciphertextLen - overhead) else none

section

variable (c : EnvelopeCrypto)

def aeadSeal (key : Dek) (nonce : Iv) (plaintext aad : Bytes) : Except CryptoError Bytes :=
  okOr (c.encrypt key nonce plaintext aad) (.invalidInput "aes-256-gcm seal")

def aeadOpen (key : Dek) (nonce : Iv) (ciphertextAndTag aad : Bytes) : Except CryptoError Bytes :=
  okOr (c.decrypt key nonce ciphertextAndTag aad) .authentication

def multipartIv (dek : Dek) (chunkIndex : U32) : Except CryptoError Iv := do
  let iv ← c.hkdfSha256 dek.toList [] (MULTIPART_IV_LABEL ++ toBeBytes 4 chunkIndex.val) 12
  if h : iv.length = 12 then return ⟨iv, h⟩ else throw (.invalidInput "multipart iv length")

def multipartAad (fileId : FileId) (chunkIndex : U32) (isLast : Bool) : Bytes :=
  fileId.toList ++ toBeBytes 4 chunkIndex.val ++ [if isLast then 1 else 0]

def isLastChunk (chunkIndex chunkCount : U32) : Except CryptoError Bool :=
  if chunkCount.val = 0 ∨ chunkIndex ≥ chunkCount then
    .error (.invalidInput "multipart chunk_index out of range for chunk_count")
  else .ok (chunkIndex.val = chunkCount.val - 1)

def sealChunk (dek : Dek) (fileId : FileId) (chunkIndex chunkCount : U32) (plaintext : Bytes) :
    Except CryptoError Bytes := do
  let isLast ← isLastChunk chunkIndex chunkCount
  let iv ← multipartIv c dek chunkIndex
  let sealed ← aeadSeal c dek iv plaintext (multipartAad fileId chunkIndex isLast)
  return [FILE_MAGIC_MULTIPART, FILE_ALG_A256GCM] ++ toBeBytes 4 chunkIndex.val ++ iv.toList ++ sealed

def envelopeIv (envelope : Bytes) : Iv := .ofFn fun i => envelope.getD (6 + i.val) 0

def openChunk (dek : Dek) (fileId : FileId) (chunkIndex chunkCount : U32) (envelope : Bytes) :
    Except CryptoError Bytes := do
  let isLast ← isLastChunk chunkIndex chunkCount
  ensure (¬ envelope.length < MULTIPART_MIN_ENVELOPE_LEN) (.invalidInput "multipart chunk too short")
  ensure (envelope[0]? = some FILE_MAGIC_MULTIPART) (.invalidInput "multipart chunk magic")
  ensure (envelope[1]? = some FILE_ALG_A256GCM) (.invalidInput "multipart chunk alg")
  let storedIndex := fromBeBytes (envelope.extract 2 6)
  ensure (storedIndex = chunkIndex.val) (.invalidInput "multipart chunk index mismatch")
  aeadOpen c dek (envelopeIv envelope) (envelope.drop MULTIPART_HEADER_LEN)
    (multipartAad fileId chunkIndex isLast)

end

end SignetDrive
