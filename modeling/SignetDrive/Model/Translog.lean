import SignetDrive.Model.Receipt

/-!
# Log entries

The canonical bytes of a log entry, `crypto/src/translog.rs`: format 1, whose key has no length before
it, the formats 2 and 3, which differ in how they name the account, and the payload that opens an
epoch.
-/

namespace SignetDrive

inductive KeyPurpose where
  | epoch
  | signing
  | kem
  | signingPq
  | kemPq
  deriving DecidableEq

def KeyPurpose.asByte : KeyPurpose → UInt8
  | epoch => 0x00
  | signing => 0x01
  | kem => 0x02
  | signingPq => 0x03
  | kemPq => 0x04

section

variable (sha256 : Bytes → Hash) (entryId : U64) (accountId : List.Vector UInt8 16) (keyPurpose : KeyPurpose)
  (algorithm : String) (publicKey : Bytes) (createdAt : U64) (prevEntryHash : Hash)

def entryBytesV1 : Bytes :=
  toBeBytes 8 entryId.val ++ accountId.toList ++ [keyPurpose.asByte] ++
    toBeBytes 4 (utf8 algorithm).length ++ utf8 algorithm ++ publicKey ++
    toBeBytes 8 createdAt.val ++ prevEntryHash.toList

def entryHash : Hash :=
  sha256 (entryBytesV1 entryId accountId keyPurpose algorithm publicKey createdAt prevEntryHash)

end

def ENTRY_VERSION_V2 : UInt8 := 0x02

def ENTRY_VERSION_V3 : UInt8 := 0x03

/-- The canonical bytes of an entry. The lengths are cast to `u32`. -/
def entryBytes (version : UInt8) (entryId : U64) (account : Bytes) (keyPurpose : KeyPurpose)
    (algorithm : String) (publicKey : Bytes) (createdAt : U64) (prevEntryHash : Hash) : Bytes :=
  [version] ++ toBeBytes 8 entryId.val ++ account ++ [keyPurpose.asByte] ++
    toBeBytes 4 (utf8 algorithm).length ++ utf8 algorithm ++
    toBeBytes 4 publicKey.length ++ publicKey ++
    toBeBytes 8 createdAt.val ++ prevEntryHash.toList

def entryBytesV2 (entryId : U64) (accountId : Option (List.Vector UInt8 16)) (keyPurpose : KeyPurpose)
    (algorithm : String) (publicKey : Bytes) (createdAt : U64) (prevEntryHash : Hash) : Bytes :=
  entryBytes ENTRY_VERSION_V2 entryId (accountId.getD (.replicate 16 0)).toList keyPurpose algorithm
    publicKey createdAt prevEntryHash

section

variable (sha256 : Bytes → Hash) (entryId : U64) (accountIndex : Option (List.Vector UInt8 64))
  (keyPurpose : KeyPurpose) (algorithm : String) (publicKey : Bytes) (createdAt : U64) (prevEntryHash : Hash)

def entryBytesV3 : Bytes :=
  entryBytes ENTRY_VERSION_V3 entryId (accountIndex.getD (.replicate 64 0)).toList keyPurpose algorithm
    publicKey createdAt prevEntryHash

def entryHashV3 : Hash :=
  sha256 (entryBytesV3 entryId accountIndex keyPurpose algorithm publicKey createdAt prevEntryHash)

end

def EPOCH_ALGORITHM_V3 : String := "signet-translog-v3"

def EPOCH_PAYLOAD_V3_TAG : Bytes := utf8 "signet-pubkey-log-v3-epoch"

def epochPayloadV3 (sha256 : Bytes → Hash) (epoch : U16) (prevEpochSize : U64) (prevEpochRoot : Hash)
    (vrfPublicKey : List.Vector UInt8 32) : Bytes :=
  EPOCH_PAYLOAD_V3_TAG ++ [0x00] ++ toBeBytes 2 epoch.val ++ toBeBytes 8 prevEpochSize.val ++
    prevEpochRoot.toList ++ (sha256 vrfPublicKey.toList).toList

end SignetDrive
