import SignetDrive.Model.Anchors

/-!
# What the client remembers of an origin

The ratchet, the first sightings, the cache and the state file of `cli/src/anchors.rs`. The file is its
JSON value; `none` is a file that is absent, cannot be read or is not JSON.
-/

namespace SignetDrive
open Client

/-- The anchor files as last read, cut to the lines that a judgement needs. -/
structure AnchorCache where
  repo : String
  fetchedAt : U64
  rootsJsonl : String
  vrfKeysJsonl : String
  /-- The epoch whose genesis was checked against these files. -/
  genesisChecked : Option U16
  deriving DecidableEq

structure OriginState where
  highestEpoch : U16
  /-- When each unanchored epoch was first seen, in unix seconds. -/
  firstUnanchored : U16 → Option U64
  anchorCache : Option AnchorCache

namespace OriginState

def default : OriginState := ⟨0, fun _ => none, none⟩

def age (self : OriginState) (epoch : U16) (now : U64) : Option Duration :=
  (self.firstUnanchored epoch).map fun t => .fromSecs ⟨now.val - t.val, by omega⟩

end OriginState

def LogMode.epoch : LogMode → U16
  | .legacy => 1
  | .v3 epoch _ _ => epoch

def updateState (state : OriginState) (servedEpoch : U16) (verdict : EpochVerdict) (now : U64) :
    OriginState :=
  match verdict with
  | .anchored mode => { state with
      highestEpoch := max state.highestEpoch mode.epoch
      firstUnanchored := fun k => if mode.epoch < k then state.firstUnanchored k else none }
  | .unanchored _ => { state with
      firstUnanchored := fun k =>
        if k = servedEpoch then some ((state.firstUnanchored k).getD now) else state.firstUnanchored k }
  | .violation _ => state

/-- One judgement of a served epoch: what the server serves, the files if they could be read,
and the time. -/
structure Judgement where
  served : ServedEpoch
  anchors : Option Anchors
  now : U64

def judgeAndUpdate (state : OriginState) (j : Judgement) : OriginState × EpochVerdict :=
  let verdict := judgeEpoch j.served j.anchors state.highestEpoch (state.age j.served.epoch j.now)
  (updateState state j.served.epoch verdict j.now, verdict)

def stripPlus : List Char → List Char
  | '+' :: rest => rest
  | cs => cs

/-- `str::parse::<u16>`: digits after an optional plus sign. -/
def parseU16 (s : String) : Option U16 :=
  let digits := stripPlus s.toList
  if digits ≠ [] ∧ digits.all Char.isDigit then
    let n := Nat.ofDigitChars 10 digits 0
    if h : n < 2 ^ 16 then some ⟨n, h⟩ else none
  else none

def loadSighting (found : U16 → Option U64) (m : String × Json) : U16 → Option U64 :=
  match parseU16 m.1, m.2.asU64 with
  | some e, some t => Function.update found e (some t)
  | _, _ => found

def loadSightings (members : List (String × Json)) : U16 → Option U64 :=
  members.foldl loadSighting fun _ => none

def asU16 (v : Json) : Option U16 :=
  v.asU64.bind fun n => if h : n.val < 2 ^ 16 then some ⟨n.val, h⟩ else none

def loadCache (c : Json) : Option AnchorCache := do
  let repo ← c.getStr "repo"
  let fetchedAt ← c.getU64 "fetched_at"
  let rootsJsonl ← c.getStr "roots_jsonl"
  let vrfKeysJsonl ← c.getStr "vrf_keys_jsonl"
  return ⟨repo, fetchedAt, rootsJsonl, vrfKeysJsonl, (c.get "genesis_checked").bind asU16⟩

def loadOrigin (o : Json) : OriginState where
  highestEpoch := ((o.get "highest_epoch").bind asU16).getD 0
  firstUnanchored := loadSightings (((o.get "first_unanchored").bind Json.asObject).getD [])
  anchorCache := (o.get "anchor_cache").bind loadCache

def loadState (file : Option Json) (origin : String) : OriginState :=
  match file.bind fun all => all.get origin with
  | none => .default
  | some o => loadOrigin o

def saveSightings (epochs : List U16) (firstUnanchored : U16 → Option U64) : List (String × Json) :=
  epochs.filterMap fun e => (firstUnanchored e).map fun t => (toString e.val, .number (.posInt t))

def saveCache (c : AnchorCache) : Json := .object
  [("repo", .string c.repo), ("fetched_at", .number (.posInt c.fetchedAt)),
    ("roots_jsonl", .string c.rootsJsonl), ("vrf_keys_jsonl", .string c.vrfKeysJsonl),
    ("genesis_checked", c.genesisChecked.elim .null fun e => .number (.posInt ⟨e.val, by omega⟩))]

def saveOrigin (state : OriginState) : Json := .object
  [("highest_epoch", .number (.posInt ⟨state.highestEpoch.val, by omega⟩)),
    ("first_unanchored", .object (saveSightings (List.finRange (2 ^ 16)) state.firstUnanchored)),
    ("anchor_cache", state.anchorCache.elim .null saveCache)]

def saveState (file : Option Json) (origin : String) (state : OriginState) : Json :=
  ((file.filter Json.isObject).getD (.object [])).insert origin (saveOrigin state)

/-- Every end line, and of the other lines the last of each epoch. -/
def keepLines : List (String × RootLine) → List String
  | [] => []
  | (line, r) :: rest =>
    if r.epochEnd || !(rest.any fun later => later.2.epoch = r.epoch && !later.2.epochEnd) then
      line :: keepLines rest
    else keepLines rest

def ANCHOR_CACHE_MAX_AGE : ℕ := 24 * 60 * 60

section

variable (p : Primitives) (fromStr : String → Except String Json)

namespace AnchorCache

def anchors (self : AnchorCache) : Option Anchors :=
  (Anchors.parse p fromStr self.rootsJsonl self.vrfKeysJsonl).toOption

def new (repo : String) (fetchedAt : U64) (rootsJsonl vrfKeysJsonl : String) : Option AnchorCache := do
  let parsed ← (Anchors.parse p fromStr rootsJsonl "").toOption
  let keep := keepLines ((nonBlankLines rootsJsonl).zip parsed.roots)
  let cache : AnchorCache := ⟨repo, fetchedAt, "\n".intercalate keep, vrfKeysJsonl, none⟩
  (cache.anchors p fromStr).map fun _ => cache

end AnchorCache

/-- The verdict from the cache, or `none` to read the files fresh. -/
def cachedVerdict (state : OriginState) (served : ServedEpoch) (repo : String) (now : U64) :
    Option (EpochVerdict × Anchors) := do
  let cache ← state.anchorCache
  if cache.repo ≠ repo ∨ ANCHOR_CACHE_MAX_AGE ≤ now.val - cache.fetchedAt.val then none
  let anchors ← cache.anchors p fromStr
  let verdict := judgeEpoch served (some anchors) state.highestEpoch (state.age served.epoch now)
  match verdict with
  | .anchored .legacy => return (verdict, anchors)
  | .anchored (.v3 epoch _ _) => if cache.genesisChecked = some epoch then return (verdict, anchors) else none
  | _ => none

end

end SignetDrive
