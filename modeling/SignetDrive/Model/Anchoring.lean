import Mathlib.Data.List.DropRight
import SignetDrive.Model.AnchorState
import SignetDrive.Model.RecipientVerify

/-!
# Anchoring a live server

The repository of a server's anchor files and the anchoring of a served epoch (`cli/src/anchors.rs`),
with `ServerTrust::fetch` of `cli/src/recipient_verify.rs`.
-/

namespace SignetDrive
open Client Program

def splitOnce (sep : List Char) : List Char → Option (List Char × List Char)
  | [] => none
  | c :: rest =>
    if sep.isPrefixOf (c :: rest) then some ([], (c :: rest).drop sep.length)
    else (splitOnce sep rest).map fun parts => (c :: parts.1, parts.2)

def trim (s : List Char) : List Char := (s.dropWhile isWhitespace).rdropWhile isWhitespace

def KNOWN_ANCHORS : List (String × String) :=
  [("https://drive.mysignet.ca", "prsnex/signet-drive-transparency-log"),
    ("https://staging.drive.mysignet.ca", "prsnex/signet-drive-transparency-log-staging")]

def isWord (s extra : List Char) : Bool := !s.isEmpty && s.all fun c => c.isAlphanum || extra.contains c

def branchOk (branch : List Char) : Bool :=
  isWord branch ['.', '_', '-', '/'] && !(branch.head?.any fun c => ['-', '/', '.'].contains c) &&
    branch.getLast? != some '/' && (splitOnce ['.', '.'] branch).isNone &&
    (splitOnce ['/', '/'] branch).isNone

def repoAndBranch (repo : String) : Option (String × String) := do
  let (name, branch) := (splitOnce ['@'] repo.toList).getD (repo.toList, "main".toList)
  let (owner, short) ← splitOnce ['/'] name
  if isWord owner ['-'] && isWord short ['.', '_', '-'] && short.head? != some '.' && branchOk branch then
    return (String.ofList name, String.ofList branch)
  else none

def normalizeOrigin (serverUrl : String) : String :=
  let trimmed := (trim serverUrl.toList).rdropWhile (· = '/')
  let (scheme, rest) := (splitOnce "://".toList trimmed).getD ("https".toList, trimmed)
  let host := rest.takeWhile (· ≠ '/')
  String.ofList (scheme.map asciiLower ++ "://".toList ++ host.map asciiLower)

def anchorRepoFor (p : Primitives) (serverUrl : String) (overrideRepo : Option String) :
    Except CliError (Option String) :=
  match overrideRepo.filter fun r => !(trim r.toList).isEmpty with
  | some repo => do
    let repo := String.ofList (trim repo.toList)
    ensure (repoAndBranch repo).isSome (.invalidArgs
      ("--anchor-repo / SIGNET_ANCHOR_REPO must be owner/name or owner/name@branch, " ++
        s!"not {p.debugStr repo}"))
    return some repo
  | none =>
    .ok ((KNOWN_ANCHORS.find? fun known => known.1 = normalizeOrigin serverUrl).map Prod.snd)

/-- What an anchoring reads besides the server and its state: the environment, the clock, and the
answer to the `n`-th read of a public file. -/
structure AnchorEnv where
  envRepo : Option String
  now : U64
  getTextOnce : ℕ → String → Except CliError String

/-- The two files as the repository serves them; a key file that does not exist yet is empty. -/
def fetchRaw (env : AnchorEnv) (n : ℕ) (repo : String) : Option (String × String) := do
  let (name, branch) ← repoAndBranch repo
  let base := s!"https://raw.githubusercontent.com/{name}/{branch}"
  let roots ← (env.getTextOnce n s!"{base}/roots.jsonl").toOption
  match env.getTextOnce n s!"{base}/vrf-keys.jsonl" with
  | .ok keys => return (roots, keys)
  | .error e => if e.code = "not_found" then return (roots, "") else none

structure FreshFiles (p : Primitives) (fromStr : String → Except String Json) where
  anchors : Anchors
  roots : String
  keys : String
  parsed : Anchors.parse p fromStr roots keys = .ok anchors

structure Anchoring where
  served : ServedEpoch
  anchors : Option Anchors
  verdict : EpochVerdict
  repoKnown : Bool

def EpochVerdict.isUnanchored : EpochVerdict → Bool
  | unanchored _ => true
  | _ => false

section

variable (p : Primitives) (fromStr : String → Except String Json)

variable (server : HttpServer) (env : AnchorEnv) (state : OriginState) (serverUrl : String)
  (repo : Option String) (served : ServedEpoch)

def readFiles (n : ℕ) : Option (FreshFiles p fromStr) :=
  match repo.bind (fetchRaw env n) with
  | none => none
  | some (roots, keys) =>
    match h : Anchors.parse p fromStr roots keys with
    | .ok anchors => some ⟨anchors, roots, keys, h⟩
    | .error _ => none

/-- Read the files again, once for each of the given numbers, while the verdict is unanchored. -/
def retryFiles (env : AnchorEnv) (repo : Option String) (judge : Option Anchors → EpochVerdict) :
    List ℕ → Option (FreshFiles p fromStr) × EpochVerdict → Option (FreshFiles p fromStr) × EpochVerdict
  | [], read => read
  | n :: ns, read =>
    if !read.2.isUnanchored || repo.isNone then read
    else
      let fresh := readFiles p fromStr env repo n
      retryFiles env repo judge ns (fresh, judge (fresh.map FreshFiles.anchors))

/-- A fresh read of the files and the verdict on it, with three more reads at most. -/
def readAndJudge (judge : Option Anchors → EpochVerdict) : Option (FreshFiles p fromStr) × EpochVerdict :=
  let fresh := readFiles p fromStr env repo 0
  retryFiles p fromStr env repo judge [1, 2, 3] (fresh, judge (fresh.map FreshFiles.anchors))

def genesisUrl (epoch : U16) : String :=
  s!"{serverUrl}/v1/transparency/log/range?epoch={epoch.val}&start=1&end=1"

def firstEntry (page : Json) : Except CliError Json :=
  okOr (((page.get "entries").bind Json.asArray).bind List.head?)
    (.transparencyViolation "the epoch serves no genesis entry")

variable {E : Type}

/-- The genesis check of a V3 anchor: the epoch whose genesis passed, and the verdict after it. -/
def checkServedGenesis (fresh : Option (FreshFiles p fromStr)) (verdict : EpochVerdict) :
    Program String E CliError (Option U16 × EpochVerdict) :=
  match verdict, fresh with
  | .anchored (.v3 epoch vrfPublicKey genesisEntryHash), some files => do
    let page ← request server (genesisUrl serverUrl epoch)
    let genesis ← check (firstEntry page)
    match checkGenesis p (.v3 epoch vrfPublicKey genesisEntryHash) files.anchors genesis with
    | .ok () => return (some epoch, .anchored (.v3 epoch vrfPublicKey genesisEntryHash))
    | .error e => return (none, .violation e.message)
  | verdict, _ => return (none, verdict)

def refreshCache (now : U64) (fresh : Option (FreshFiles p fromStr)) (genesisChecked : Option U16) :
    OriginState :=
  match repo, fresh with
  | some repo, some files =>
    match AnchorCache.new p fromStr repo now files.roots files.keys with
    | some cache => { state with anchorCache := some { cache with genesisChecked := genesisChecked } }
    | none => state
  | _, _ => state

def anchorFresh (repo : Option String) : Program String E CliError (Anchoring × OriginState) := do
  let judge := fun anchors =>
    judgeEpoch served anchors state.highestEpoch (state.age served.epoch env.now)
  let (fresh, judged) := readAndJudge p fromStr env repo judge
  let (genesisChecked, verdict) ← checkServedGenesis p fromStr server serverUrl fresh judged
  let state := refreshCache p fromStr state repo env.now fresh genesisChecked
  return (⟨served, fresh.map FreshFiles.anchors, verdict, repo.isSome⟩,
    updateState state served.epoch verdict env.now)

def cachedAnswer (repo : Option String) (now : U64) (useCache : Bool) : Option (EpochVerdict × Anchors) :=
  if useCache then repo.bind fun repo => cachedVerdict p fromStr state served repo now else none

def anchorLoaded (repo : Option String) (useCache : Bool) :
    Program String E CliError (Anchoring × OriginState) :=
  match cachedAnswer p fromStr state served repo env.now useCache with
  | some (verdict, anchors) =>
    return (⟨served, some anchors, verdict, true⟩, updateState state served.epoch verdict env.now)
  | none => anchorFresh p fromStr server env state serverUrl served repo

/-- The anchoring of a `/v1/server-info` body against the state file, with the state to save. -/
def anchorServed (file : Option Json) (serverUrl : String) (info : Json) (anchorRepo : Option String)
    (useCache : Bool) :
    Program String E CliError (Anchoring × OriginState) := do
  let served ← check (ServedEpoch.fromServerInfo p info)
  let repo ← check (anchorRepoFor p serverUrl (anchorRepo.or env.envRepo))
  anchorLoaded p fromStr server env (loadState file (normalizeOrigin serverUrl)) serverUrl served repo
    useCache

def anchorLog (file : Option Json) (serverUrl : String) (anchorRepo : Option String) :
    Program String E CliError (Anchoring × OriginState) := do
  let info ← request server s!"{serverUrl}/v1/server-info"
  anchorServed p fromStr server env file serverUrl info anchorRepo false

end

/-- One run of `anchor_served`, and whether the state file can be replaced. -/
structure AnchorRun where
  server : HttpServer
  env : AnchorEnv
  serverUrl : String
  info : Json
  anchorRepo : Option String
  useCache : Bool
  canSave : Bool

/-- A run against the state file. A file that cannot be replaced stays, with a warning. -/
def runAnchorServed (p : Primitives) (fromStr : String → Except String Json) (file : Option Json)
    (run : AnchorRun) : Option Json × Except CliError Anchoring :=
  let program : Program String Unit CliError (Anchoring × OriginState) :=
    anchorServed p fromStr run.server run.env file run.serverUrl run.info run.anchorRepo run.useCache
  match program ⟨[], []⟩ with
  | .ok ((anchoring, state), _) =>
    (if run.canSave then some (saveState file (normalizeOrigin run.serverUrl) state) else file,
      .ok anchoring)
  | .error e => (file, .error e)

/-- The receipt rule that a verdict selects: only an anchored epoch binds keys. -/
def receiptRule (verdict : EpochVerdict) : Except CliError LogMode :=
  match verdict with
  | .anchored mode => .ok mode
  | .unanchored why => .error (.unanchored
      s!"keys cannot be bound to the transparency log yet: {why}")
  | .violation why => .error (.transparencyViolation why)

/-- A command's attempt, and once more when the server's epoch moved under the first. -/
def onceMoreOnEpochChange {α : Type} (first second : Except CliError α) : Except CliError α :=
  match first with
  | .ok a => .ok a
  | .error e => if e.epochMoved then second else .error e

/-- The state that the anchoring saves is not followed here. -/
def ServerTrust.fetch (p : Primitives) (fromStr : String → Except String Json) (server : HttpServer)
    (env : AnchorEnv) (file : Option Json) (serverUrl : String) : Verify p ServerTrust := do
  let info ← request server s!"{serverUrl}/v1/server-info"
  let _ ← check (ServerTrust.activePqKey p ⟨info, .legacy, 1⟩)
  let (anchoring, _) ← anchorServed p fromStr server env file serverUrl info none true
  let mode ← check (receiptRule anchoring.verdict)
  return ⟨info, mode, anchoring.served.epoch⟩

end SignetDrive
