import SignetDrive.Model.Anchors
import SignetDrive.Model.Merkle

/-!
# Served log entries and the owner's watch

`bind_leaf` and the owner's watch of `cli/src/anchors.rs`.
-/

namespace SignetDrive
open Client

def purposeOf (name : String) : Except CliError KeyPurpose :=
  match name with
  | "epoch" => .ok .epoch
  | "signing" => .ok .signing
  | "kem" => .ok .kem
  | "signing_pq" => .ok .signingPq
  | "kem_pq" => .ok .kemPq
  | other => .error (.invalidData s!"unknown key_purpose {other}")

def unbound (what : String) : CliError :=
  .invalidData (s!"the server did not serve the stored entry ({what}), so the proven leaf cannot " ++
    "be bound to the key asked about (bug256): NOT verified")

def optionalField {α : Type} (v : Option Json) (read : Json → Option α) (e : CliError) :
    Except CliError (Option α) :=
  match v with
  | none => .ok none
  | some .null => .ok none
  | some v => do
    let value ← okOr (read v) e
    return some value

structure LeafFields where
  version : U64
  entryId : U64
  purpose : String
  algorithm : String
  publicKey : Bytes
  createdAt : U64
  prev : Hash
  servedHash : Hash
  keyPurpose : KeyPurpose

section

variable (p : Primitives)

def fingerprintFor (purpose : String) (publicKey : Bytes) : Except CliError String :=
  match purpose with
  | "signing" | "kem" =>
    okOr (p.fingerprint publicKey) (.invalidData "entry public_key is not a P-256 point")
  | "signing_pq" | "kem_pq" | "epoch" => .ok (p.fingerprintRaw publicKey)
  | other => .error (.invalidData s!"unknown key_purpose {other}")

variable (entry : Json)

def leafFields : Except CliError LeafFields := do
  let version ← okOr (entry.getU64 "entry_version") (unbound "entry_version")
  let entryId ← okOr (entry.getU64 "entry_id") (unbound "entry_id")
  let purpose ← okOr (entry.getStr "key_purpose") (unbound "key_purpose")
  let algorithm ← okOr (entry.getStr "algorithm") (unbound "algorithm")
  let publicKeyB64 ← okOr (entry.getStr "public_key") (unbound "public_key")
  let publicKey ← okOr (p.base64UrlDecode publicKeyB64) (.invalidData "entry public_key is not base64url")
  let createdAt ← okOr (entry.getU64 "created_at") (unbound "created_at")
  let prev ← (anchorHex32 p (entry.get "prev_entry_hash") "prev_entry_hash").mapError
    fun _ => unbound "prev_entry_hash"
  let servedHash ← anchorHex32 p (entry.get "entry_hash") "entry_hash"
  let keyPurpose ← purposeOf purpose
  return ⟨version, entryId, purpose, algorithm, publicKey, createdAt, prev, servedHash, keyPurpose⟩

def leafIndex : Except CliError (Option (List.Vector UInt8 64)) :=
  optionalField (entry.get "account_index") (fun v => (v.asStr.bind p.hexDecode).bind (toVector 64))
    (.invalidData "entry account_index is not 64-byte hex")

def leafBytes (fields : LeafFields) : Except CliError Bytes :=
  if fields.version.val = 2 then do
    let account ← optionalField (entry.get "account_id") (fun v => v.asStr.bind p.uuidParse)
      (.invalidData "entry account_id is not a UUID")
    return entryBytesV2 fields.entryId account fields.keyPurpose fields.algorithm fields.publicKey
      fields.createdAt fields.prev
  else if fields.version.val = 3 then do
    let index ← leafIndex p entry
    return entryBytesV3 fields.entryId index fields.keyPurpose fields.algorithm fields.publicKey
      fields.createdAt fields.prev
  else .error (.invalidData
    s!"entry_version {fields.version.val} is not one this CLI can recompute")

/-- The leaf of a served entry, recomputed and bound to its own key and to the key asked about. -/
def bindLeaf (askedFingerprint askedPurpose : Option String) : Except CliError Hash := do
  let fields ← leafFields p entry
  let bytes ← leafBytes p entry fields
  let recomputed := p.sha256 bytes
  ensure (recomputed = fields.servedHash) (.transparencyViolation
    "the served entry does not hash to its entry_hash: the leaf is not this entry")
  let ownFp ← fingerprintFor p fields.purpose fields.publicKey
  ensure (entry.getStr "public_key_fingerprint" = some ownFp)
    (.transparencyViolation "the served fingerprint is not the served key's own")
  ensure (askedFingerprint.all fun asked => eqIgnoreAsciiCase asked ownFp) (.transparencyViolation
    "the proven entry is for a DIFFERENT key than the one asked about")
  let shown := askedPurpose.getD ""
  ensure (askedPurpose.all fun asked => asked = fields.purpose) (.transparencyViolation
    s!"the proven entry is a {fields.purpose} key, not the {shown} key asked about")
  return recomputed

inductive WatchVerdict where
  | clean
  | foreignKey
  | notYetPublished
  deriving DecidableEq

structure OwnerWatch where
  verdict : WatchVerdict
  entries : List Json
  foreign : List String
  unlogged : List String

def isUnderIndex (index : List.Vector UInt8 64) : Bool :=
  ((entry.getStr "account_index").bind p.hexDecode) = some index.toList

/-- The leaves of the entries, which stand at their positions, and the entries under the index. -/
def scanEntries (epoch : U16) (index : List.Vector UInt8 64) :
    ℕ → List Json → Except CliError (List Hash × List Json)
  | _, [] => .ok ([], [])
  | position, entry :: rest => do
    ensure ((entry.getU64 "entry_id").map Fin.val = some position ∧
        (entry.getU64 "entry_version").map Fin.val = some 3) (.transparencyViolation
      (s!"the entry at position {position} of epoch {epoch.val} is not the v3 entry {position}"))
    let leaf ← bindLeaf p entry none none
    let (leaves, mine) ← scanEntries epoch index (position + 1) rest
    return (leaf :: leaves, if isUnderIndex p entry index then entry :: mine else mine)

def sameKey (purpose fp : String) : Bool :=
  entry.getStr "key_purpose" = some purpose &&
    (entry.getStr "public_key_fingerprint").any fun served => eqIgnoreAsciiCase served fp

def isHeld (held : List (String × String)) (entry : Json) : Bool := held.any fun q => sameKey entry q.1 q.2

def reportEntry (held : List (String × String)) (entry : Json) : Json := .object
  [("entry_id", (entry.get "entry_id").getD .null), ("key_purpose", (entry.get "key_purpose").getD .null),
    ("public_key_fingerprint", ((entry.getStr "public_key_fingerprint").map Json.string).getD .null),
    ("created_at", (entry.get "created_at").getD .null), ("held", .bool (isHeld held entry))]

def ownerWatch (scanned : List Json) (epoch : U16) (published : RootLine) (index : List.Vector UInt8 64)
    (held : List (String × String)) : Except CliError OwnerWatch := do
  ensure (scanned.length = published.logSize.val) (.transparencyViolation
    (s!"the server served {scanned.length} entries for epoch {epoch.val}, " ++
      s!"whose published size is {published.logSize.val}"))
  let (leaves, mine) ← scanEntries p epoch index 1 scanned
  ensure (merkleRoot p.sha256 leaves = published.merkleRoot) (.transparencyViolation
    (s!"the {published.logSize.val} entries the server served for epoch {epoch.val} do not produce its " ++
      "published root: what was scanned is not the log"))
  let foreign := (mine.filter fun e => !isHeld held e).map fun e =>
    (e.getStr "public_key_fingerprint").getD ""
  let unlogged := (held.filter fun q => !(mine.any fun e => sameKey e q.1 q.2)).map Prod.snd
  let verdict := if !foreign.isEmpty then WatchVerdict.foreignKey
    else if !unlogged.isEmpty then .notYetPublished else .clean
  return ⟨verdict, mine.map (reportEntry held), foreign, unlogged⟩

end

end SignetDrive
