import SignetDrive.Model.Keystore

/-!
# The software backend

`cli/src/keystore/software.rs`. The primitives are parameters. The directory of files is the map of
entries: a record is filed under the label and purpose written in it, and failures of the file
system and of the encodings do not occur.
-/

namespace SignetDrive

structure StoredKey where
  algorithm : String
  tier : String
  fingerprint : String
  publicKey : Bytes
  scalarBlob : Bytes
  deriving DecidableEq

structure SoftwareCrypto (Rand : Type) where
  ecdsaGenerate : Rand → Bytes × Bytes
  ecdhGenerate : Rand → Bytes × Bytes
  mlDsaSeed : Rand → Bytes
  mlDsaVerifyingKey : Bytes → Bytes
  mlKemSeed : Rand → Bytes
  mlKemEncapsulationKey : Bytes → Bytes
  fingerprint : Bytes → Except CliError String
  fingerprintRaw : Bytes → String
  /-- `nonce ‖ ciphertext` under the keystore's key. -/
  sealBytes : Rand → Bytes → Bytes → Except CliError Bytes
  openBytes : Bytes → Bytes → Except CliError Bytes
  signEs256 : Bytes → Bytes → Except CliError (List.Vector UInt8 64)
  ecdhP256 : Bytes → Bytes → Except CliError (List.Vector UInt8 32)
  decapsulate : Bytes → Bytes → Except CliError (List.Vector UInt8 32)
  signRandomized : Bytes → Bytes → Bytes → Rand → Except CliError Bytes

def atRestAad (l : KeyLabel) : Bytes :=
  ("signet-cli-keystore-v1\x00" ++ l.full).toUTF8.data.toList

def StoredKey.toMeta (l : KeyLabel) (stored : StoredKey) : KeyMeta :=
  ⟨l.full, l.purpose.asStr, stored.algorithm, stored.tier, stored.fingerprint, stored.publicKey⟩

namespace SoftwareKeystore

variable {Rand : Type} (c : SoftwareCrypto Rand)

def newKeypair (purpose : Purpose) (rand : Rand) : Except CliError (Bytes × Bytes × String) :=
  match purpose with
  | .signing => do
    let (scalar, pub) := c.ecdsaGenerate rand
    return (scalar, pub, ← c.fingerprint pub)
  | .kem => do
    let (scalar, pub) := c.ecdhGenerate rand
    return (scalar, pub, ← c.fingerprint pub)
  | .signingPq =>
    let seed := c.mlDsaSeed rand
    let pub := c.mlDsaVerifyingKey seed
    .ok (seed, pub, c.fingerprintRaw pub)
  | .kemPq =>
    let dz := c.mlKemSeed rand
    let pub := c.mlKemEncapsulationKey dz
    .ok (dz, pub, c.fingerprintRaw pub)

variable (l : KeyLabel) (entry : Option StoredKey)

def newRecord (algorithm : String) (rand : Rand) : Except CliError StoredKey := do
  let (secret, pub, fingerprint) ← newKeypair c l.purpose rand
  let scalarBlob ← c.sealBytes rand secret (atRestAad l)
  return ⟨algorithm, "software", fingerprint, pub, scalarBlob⟩

def generate (algorithm : String) (rand : Rand) (entry : Option StoredKey) :
    Except CliError KeyMeta × Option StoredKey :=
  match entry with
  | some _ => (.error (.keyExists s!"a key '{l.full}' already exists; delete it first"), entry)
  | none =>
    match newRecord c l algorithm rand with
    | .error e => (.error e, none)
    | .ok stored => (.ok (stored.toMeta l), some stored)

def readStored : Option StoredKey → Except CliError StoredKey
  | some stored => .ok stored
  | none => .error (.keyNotFound
      s!"no key '{l.full}'. 'signet keys list' shows what this keystore holds")

def openFor (purpose : Purpose) (refusal : String) (l : KeyLabel) (entry : Option StoredKey) :
    Except CliError Bytes := do
  if l.purpose ≠ purpose then throw (.unsupportedAlgorithm refusal)
  let stored ← readStored l entry
  c.openBytes stored.scalarBlob (atRestAad l)

def requireLength (n : ℕ) (refusal : String) (secret : Bytes) : Except CliError Bytes :=
  if secret.length ≠ n then .error (.decryptFailed refusal) else .ok secret

def sign (l : KeyLabel) (entry : Option StoredKey) (msg : Bytes) (_ : Rand) :
    Except CliError (List.Vector UInt8 64) := do
  let plain ← openFor c .signing "sign requires a signing (ES256) key" l entry
  let scalar ← requireLength 32 "decrypted scalar wrong length" plain
  c.signEs256 scalar msg

def ecdh (l : KeyLabel) (entry : Option StoredKey) (peerPubX963 : Bytes) :
    Except CliError (List.Vector UInt8 32) := do
  let plain ← openFor c .kem "ecdh requires a KEM (ECDH) key" l entry
  let scalar ← requireLength 32 "decrypted scalar wrong length" plain
  c.ecdhP256 scalar peerPubX963

def mlKemDecapsulate (ek : Bytes) :
    Except CliError (List.Vector UInt8 32) := do
  let plain ← openFor c .kemPq "ml-kem decapsulation requires a kem-pq (ML-KEM-1024) key" l entry
  let dz ← requireLength 64 "stored ML-KEM seed wrong length" plain
  if ek.length ≠ 1568 then throw (.invalidData "ml-kem ciphertext must be 1568 bytes")
  c.decapsulate dz ek

def mlDsaSign (msg ctx : Bytes) (rand : Rand) :
    Except CliError Bytes := do
  if l.purpose ≠ .signingPq then
    throw (.unsupportedAlgorithm "ml-dsa signing requires a signing-pq (ML-DSA-87) key")
  validateMldsaCtx ctx
  let stored ← readStored l entry
  let plain ← c.openBytes stored.scalarBlob (atRestAad l)
  let seed ← requireLength 32 "stored ML-DSA seed wrong length" plain
  c.signRandomized seed msg ctx rand

def delete : Except CliError Unit × Option StoredKey :=
  match readStored l entry with
  | .error e => (.error e, none)
  | .ok _ => (.ok (), none)

def backend : Backend StoredKey Rand where
  generate := generate c
  keyMeta l entry := (readStored l entry).map (StoredKey.toMeta l)
  sign := sign c
  ecdh := ecdh c
  mlKemDecapsulate := mlKemDecapsulate c
  mlDsaSign := mlDsaSign c
  delete := delete
  listed := StoredKey.toMeta
  listed_label _ _ := rfl

end SoftwareKeystore

end SignetDrive
