import SignetDrive.Model.Translog

/-!
# The public anchors of the log

The two anchor files of `cli/src/anchors.rs` and the judgement of a served epoch by them.
`serde_json::from_str` is a parameter.
-/

namespace SignetDrive
open Client

deriving instance DecidableEq for LogMode

def isWhitespace (c : Char) : Bool :=
  let n := c.toNat
  9 ≤ n && n ≤ 13 || n == 0x20 || n == 0x85 || n == 0xa0 || n == 0x1680 || 0x2000 ≤ n && n ≤ 0x200a ||
    n == 0x2028 || n == 0x2029 || n == 0x202f || n == 0x205f || n == 0x3000

def stripCarriageReturn (line : List Char) : List Char :=
  if line.getLast? = some '\r' then line.dropLast else line

/-- The lines of a text cut at its line feeds. What follows the last line feed is a line only if
it is not empty, and keeps its carriage return. -/
def linesOfParts : List (List Char) → List (List Char)
  | [] => []
  | [last] => if last.isEmpty then [] else [last]
  | part :: parts => stripCarriageReturn part :: linesOfParts parts

def lines (text : List Char) : List (List Char) := linesOfParts (text.splitOn '\n')

def isBlank (line : List Char) : Bool := line.all isWhitespace

def nonBlankLines (text : String) : List String :=
  ((lines text.toList).filter fun l => !isBlank l).map String.ofList

structure RootLine where
  epoch : U16
  logSize : U64
  merkleRoot : Hash
  epochEnd : Bool
  deriving DecidableEq

structure EpochKey where
  epoch : U16
  vrfPublicKey : List.Vector UInt8 32
  genesisEntryHash : Hash
  deriving DecidableEq

structure Anchors where
  roots : List RootLine
  keys : List EpochKey
  deriving DecidableEq

def VRF_SUITE : String := "ECVRF-RISTRETTO255-SHA512"

def toVector (len : ℕ) (bytes : Bytes) : Option (List.Vector UInt8 len) :=
  if h : bytes.length = len then some ⟨bytes, h⟩ else none

def epochOf (line : Json) : Except CliError U16 :=
  match line.get "epoch" with
  | none => .ok 1
  | some v => okOr (v.asU64.bind fun n => if h : 1 ≤ n.val ∧ n.val < 2 ^ 16 then some ⟨n.val, h.2⟩ else none)
      (.invalidData "anchor line epoch is not a positive u16")

section

variable (p : Primitives)

def anchorHex32 (v : Option Json) (what : String) : Except CliError Hash := do
  let s ← okOr (v.bind Json.asStr) (.invalidData s!"anchor line missing {what}")
  okOr ((p.hexDecode s).bind (toVector 32)) (.invalidData s!"anchor line {what} is not 32-byte hex")

variable (fromStr : String → Except String Json)

def parseRootLine (line : String) : Except CliError RootLine := do
  let v ← (fromStr line).mapError fun e => CliError.invalidData s!"roots.jsonl line: {e}"
  let epoch ← epochOf v
  let logSize ← okOr (v.getU64 "log_size") (.invalidData "roots.jsonl line missing log_size")
  let merkleRoot ← anchorHex32 p (v.get "merkle_root") "merkle_root"
  return ⟨epoch, logSize, merkleRoot, (v.get "epoch_end").bind Json.asBool = some true⟩

def parseKeyLine (line : String) : Except CliError EpochKey := do
  let v ← (fromStr line).mapError fun e => CliError.invalidData s!"vrf-keys.jsonl line: {e}"
  ensure (v.getStr "vrf_suite" = some VRF_SUITE)
    (.invalidData "vrf-keys.jsonl line names a suite this CLI does not implement")
  let epoch ← epochOf v
  let vrfPublicKey ← anchorHex32 p (v.get "vrf_public_key") "vrf_public_key"
  let genesisEntryHash ← anchorHex32 p (v.get "genesis_entry_hash") "genesis_entry_hash"
  return ⟨epoch, vrfPublicKey, genesisEntryHash⟩

def Anchors.parse (rootsJsonl keysJsonl : String) : Except CliError Anchors := do
  let roots ← (nonBlankLines rootsJsonl).mapM (parseRootLine p fromStr)
  let keys ← (nonBlankLines keysJsonl).mapM (parseKeyLine p fromStr)
  return ⟨roots, keys⟩

end

def U16.saturatingSucc (e : U16) : U16 := ⟨min (e.val + 1) (2 ^ 16 - 1), by omega⟩

/-- `Iterator::max_by_key`: of several greatest elements, the last. -/
def maxByKey {α : Type} (f : α → U64) (xs : List α) : Option α :=
  xs.foldl (fun best x => match best with
    | none => some x
    | some b => if f b ≤ f x then some x else some b) none

namespace Anchors

variable (self : Anchors)

/-- The key line of an epoch. Two lines for one epoch are an error. -/
def key (epoch : U16) : Except CliError (Option EpochKey) :=
  match self.keys.filter fun k => k.epoch = epoch with
  | [] => .ok none
  | [k] => .ok (some k)
  | _ => .error (.transparencyViolation s!"vrf-keys.jsonl carries two lines for epoch {epoch.val}")

def endLine (epoch : U16) : Option RootLine :=
  self.roots.find? fun r => r.epoch = epoch ∧ r.epochEnd

def latestRoot (epoch : U16) : Option RootLine :=
  maxByKey RootLine.logSize (self.roots.filter fun r => r.epoch = epoch ∧ ¬ r.epochEnd)

/-- The highest epoch either file shows. An end line implies the next epoch. -/
def maxEpoch : U16 :=
  let fromKeys := (self.keys.map EpochKey.epoch).max?.getD 1
  let fromEnds := ((self.roots.filter fun r => r.epochEnd).map fun r => r.epoch.saturatingSucc).max?.getD 1
  let fromRoots := (self.roots.map RootLine.epoch).max?.getD 1
  max (max fromKeys fromEnds) fromRoots

/-- Both files carry the epoch: its key line, and the end line of the epoch before. -/
def carries (epoch : U16) : Except CliError Bool := do
  if epoch ≤ 1 then return true
  let k ← self.key epoch
  return k.isSome && (self.endLine (epoch - 1)).isSome

end Anchors

inductive EpochVerdict where
  | anchored (mode : LogMode)
  | unanchored (why : String)
  | violation (why : String)
  deriving DecidableEq

def EpochVerdict.isViolation : EpochVerdict → Bool
  | violation _ => true
  | _ => false

/-- What a server serves about its epoch, which is at least 1. -/
structure ServedEpoch where
  epoch : U16
  vrfPublicKey : Option (List.Vector UInt8 32)
  pos : 1 ≤ epoch

theorem epochOf_pos {line : Json} {e : U16} (h : epochOf line = .ok e) : 1 ≤ e := by
  unfold epochOf at h
  split at h
  · cases h
    exact le_refl _
  · simp only [okOr_ok, Option.bind_eq_some_iff] at h
    obtain ⟨n, _, hn⟩ := h
    split at hn
    next hrange =>
      obtain rfl := Option.some.inj hn
      exact hrange.1
    next => cases hn

def servedVrfKey (p : Primitives) (translog : Json) : Except CliError (Option (List.Vector UInt8 32)) :=
  match translog.get "vrf_public_key" with
  | none | some .null => .ok none
  | v => do
    let key ← anchorHex32 p v "translog.vrf_public_key"
    return some key

def checkSuite (translog : Json) : Except CliError Unit :=
  match translog.getStr "vrf_suite" with
  | none => .ok ()
  | some suite => ensure (suite = VRF_SUITE) (.transparencyViolation
      s!"server-info names VRF suite {suite}, which this CLI does not implement")

/-- The `translog` object of a `/v1/server-info` body. -/
def ServedEpoch.fromServerInfo (p : Primitives) (info : Json) : Except CliError ServedEpoch :=
  match info.get "translog" with
  | none => .ok ⟨1, none, le_refl _⟩
  | some translog =>
    match h : epochOf translog with
    | .error e => .error e
    | .ok epoch => do
      let vrfPublicKey ← servedVrfKey p translog
      checkSuite translog
      return ⟨epoch, vrfPublicKey, epochOf_pos h⟩

def TRANSITION_BOUND : Duration := .fromSecs 900

/-- A disagreement of the files and the server: tolerated until it is older than the bound. -/
def softOrHard (firstUnanchoredAge : Option Duration) (why : String) : EpochVerdict :=
  if firstUnanchoredAge.any fun age => TRANSITION_BOUND.nanos ≤ age.nanos then
    .violation s!"{why}, for longer than {TRANSITION_BOUND.asSecs.val / 60} minutes"
  else .unanchored why

def judgeKey (served : ServedEpoch) (key : EpochKey) : EpochVerdict :=
  match served.vrfPublicKey with
  | some servedKey =>
    if servedKey = key.vrfPublicKey then
      .anchored (.v3 served.epoch key.vrfPublicKey key.genesisEntryHash)
    else .violation (s!"the server's epoch-{served.epoch.val} VRF key is not the key " ++
      "vrf-keys.jsonl publishes for that epoch")
  | none => .violation s!"the server serves epoch {served.epoch.val} without naming its VRF key"

/-- The verdict on a served epoch that is not below the files, when they can be read. -/
def judgeCarried (served : ServedEpoch) (anchors : Anchors) (firstUnanchoredAge : Option Duration) :
    EpochVerdict :=
  if served.epoch = 1 then .anchored .legacy
  else
    match anchors.carries served.epoch with
    | .error e => .violation e.message
    | .ok false => softOrHard firstUnanchoredAge
        (s!"the server serves epoch {served.epoch.val} but the anchor files do not " ++
          "carry it yet")
    | .ok true =>
      match anchors.key served.epoch with
      | .ok (some key) => judgeKey served key
      -- not reached: `carries` has seen the key line
      | .ok none => .violation ""
      | .error e => .violation e.message

/-- `highestSeen` is the ratchet: the highest epoch anchored for the origin. -/
def judgeEpoch (served : ServedEpoch) (anchors : Option Anchors) (highestSeen : U16)
    (firstUnanchoredAge : Option Duration) : EpochVerdict :=
  if served.epoch < highestSeen then
    .violation (s!"the server serves epoch {served.epoch.val} but this CLI has already anchored " ++
      s!"epoch {highestSeen.val} for it: a log cannot go back an epoch")
  else
    match anchors with
    | none =>
      if served.epoch ≤ 1 then .anchored .legacy
      else .unanchored (s!"the anchor files could not be read, so epoch {served.epoch.val}'s " ++
        "VRF key cannot be pinned")
    | some anchors =>
      if served.epoch < anchors.maxEpoch then
        softOrHard firstUnanchoredAge (s!"the anchor files show epoch {anchors.maxEpoch.val} " ++
          s!"but the server serves epoch {served.epoch.val}")
      else judgeCarried served anchors firstUnanchoredAge

/-- The first entry of an epoch must be the genesis that the key line pins, and bind the end of
the epoch before and the key of this one. -/
def checkGenesis (p : Primitives) (mode : LogMode) (anchors : Anchors) (genesis : Json) :
    Except CliError Unit :=
  match mode with
  | .legacy => .ok ()
  | .v3 epoch vrfPublicKey genesisEntryHash => do
    let endLine ← okOr (anchors.endLine (epoch - 1))
      (CliError.transparencyViolation s!"no end line for epoch {(epoch - 1).val}")
    let expectedPayload := epochPayloadV3 p.sha256 epoch endLine.logSize endLine.merkleRoot vrfPublicKey
    let violation := fun what : String =>
      CliError.transparencyViolation s!"epoch {epoch.val}'s genesis entry {what}"
    ensure ((genesis.getU64 "entry_id").map Fin.val = some 1 ∧
        (genesis.getU64 "entry_version").map Fin.val = some 3 ∧
        genesis.getStr "key_purpose" = some "epoch" ∧
        (genesis.get "account_index").all Json.isNull)
      (violation "is not a v3, account-less, first entry")
    let payload ← okOr ((genesis.getStr "public_key").bind p.base64UrlDecode)
      (violation "has no readable payload")
    ensure (payload = expectedPayload) (violation
      "does not bind the published end of the previous epoch and this epoch's key")
    let createdAt ← okOr (genesis.getU64 "created_at") (violation "has no created_at")
    ensure (entryHashV3 p.sha256 1 none .epoch EPOCH_ALGORITHM_V3 payload createdAt (.replicate 32 0) =
        genesisEntryHash)
      (violation "does not hash to the genesis_entry_hash vrf-keys.jsonl pins")

end SignetDrive
