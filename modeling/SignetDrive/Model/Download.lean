import SignetDrive.Lib.Automaton
import SignetDrive.Model.Chunks

/-!
# Downloading a file

`download` of `cli/src/commands.rs`, from the first answer to `download-url` to the rename. The threads
take turns in any order; storage, the disk and the server answer as they like.
-/

namespace SignetDrive

open Client PositionedWrite

structure DownloadPlan where
  chunkCount : U32
  plainStride : U64
  ranges : List (U64 × U64)
  concurrency : ℕ

def CLI_MAX_DOWNLOAD_CONCURRENCY : ℤ := 8

def downloadConcurrency (served : Option I64) : ℕ :=
  (max 1 (min ((served.map Subtype.val).getD 1) CLI_MAX_DOWNLOAD_CONCURRENCY)).toNat

/-- The URL and the plan, from the server's answer; `none` is a panic of the build. -/
def planDownload (profile : Profile) (du : Json) : Option (Except CliError (String × DownloadPlan)) :=
  match du.getStr "download_url" with
  | none => some (.error (.invalidData "download-url response missing download_url"))
  | some downloadUrl =>
    match du.getI64 "size_bytes" with
    | none => some (.error (.invalidData "download-url response missing size_bytes"))
    | some sizeBytes =>
      match du.getI64 "multipart_chunks", du.getI64 "chunk_size" with
      | some chunks, some csize =>
        (chunkRanges profile chunks.max0.asU32 csize.max0.asU64 sizeBytes.max0.asU64).map fun ranges =>
          .ok (downloadUrl, ⟨chunks.max0.asU32, csize.max0.asU64, ranges,
            downloadConcurrency (du.getI64 "concurrency")⟩)
      | _, _ =>
        some (.error (.invalidData
          "download-url returned no multipart chunk metadata (the single-PUT transport is retired)"))

def PRESIGNED_STALE_REFRESH_BUDGET : ℕ := 3

/-- Whether a rejected generation earns a fresh URL, and the count of rejections without
progress after it. -/
def presignedRefreshDecision (progressed : Bool) (staleRefreshes : ℕ) : Bool × ℕ :=
  if progressed then (true, 0)
  else (decide (staleRefreshes + 1 < PRESIGNED_STALE_REFRESH_BUDGET), staleRefreshes + 1)

inductive DownloadWorker where
  /-- About to read `abort`. -/
  | checking
  /-- About to take the next slot from the cursor. -/
  | taking
  | fetching (index : ℕ) (range : U64 × U64)
  /-- In `write_all_at`, with what is left to write and where. -/
  | writing (index len offset : ℕ) (rest : Bytes)
  /-- About to record the error. -/
  | failing (e : CliError)
  /-- About to set `abort`. -/
  | aborting
  | exited
  deriving DecidableEq

structure Generation where
  pending : List (ℕ × U64 × U64)
  doneBefore : ℕ
  cursor : ℕ
  abort : Bool
  firstErr : Option CliError
  workers : List DownloadWorker

inductive DownloadPhase where
  /-- At the top of the loop over generations. -/
  | planning
  | running (generation : Generation)
  | refreshing
  | assembled
  | renaming
  | finished (result : Except CliError ℕ)

structure Download where
  url : String
  file : Bytes
  completed : ℕ → Bool
  done : ℕ
  written : ℕ
  staleRefreshes : ℕ
  phase : DownloadPhase
  /-- The bytes that the rename put under the requested name. -/
  out : Option Bytes

inductive DownloadEvent where
  | main
  | worker (k : ℕ)
  /-- A worker's range request ends; `none` is a panic in it. -/
  | storage (k : ℕ) (answer : Option (Except CliError Bytes))
  /-- A worker's `pwrite` wrote so many bytes. -/
  | wrote (k count : ℕ)
  | writeFailed (k : ℕ) (message : String)
  | refreshed (answer : Except CliError Json)
  | renamed (error : Option String)

structure DownloadArgs where
  profile : Profile
  crypto : EnvelopeCrypto
  dek : Dek
  fileId : FileId
  tmpPath : String
  outPath : String
  plan : DownloadPlan

namespace Generation

def setWorker (g : Generation) (k : ℕ) (w : DownloadWorker) : Generation :=
  { g with workers := g.workers.set k w }

end Generation

namespace Download

def start (url : String) : Download := ⟨url, [], fun _ => false, 0, 0, 0, .planning, none⟩

def running (s : Download) (g : Generation) : Download := { s with phase := .running g }

def fail (s : Download) (e : CliError) : Download := { s with phase := .finished (.error e) }

variable (a : DownloadArgs) (s : Download)

def indexed : List (ℕ × U64 × U64) := a.plan.ranges.zipIdx.map fun r => (r.2, r.1)

def nextGeneration : Download :=
  let pending := (indexed a).filter fun r => !s.completed r.1
  if pending.isEmpty then { s with phase := .assembled }
  else s.running ⟨pending, s.done, 0, false, none,
    List.replicate (max (min a.plan.concurrency pending.length) 1) .checking⟩

def workerPanicked : CliError := .invalidData "a download worker thread panicked; output incomplete"

def openFetched (index : ℕ) (envelope : Bytes) : DownloadWorker :=
  match openChunk a.crypto a.dek a.fileId (indexAsU32 index) a.plan.chunkCount envelope with
  | .error e => .failing e.toCliError
  | .ok plaintext =>
    match chunkOffset a.profile a.plan.plainStride index with
    | none => .failing workerPanicked
    | some offset => .writing index plaintext.length offset.val plaintext

/-- A step of a worker that needs no answer. The three counters of a completed chunk are not
read before the workers have joined. -/
def advance (g : Generation) (k : ℕ) : DownloadWorker → Option Download
  | .checking => some (s.running (g.setWorker k (if g.abort then .exited else .taking)))
  | .taking =>
    let g' := { g with cursor := g.cursor + 1 }
    match g.pending[g.cursor]? with
    | some (index, range) => some (s.running (g'.setWorker k (.fetching index range)))
    | none => some (s.running (g'.setWorker k .exited))
  | .writing index len _ [] =>
    some (running { s with
      completed := Function.update s.completed index true
      written := s.written + len
      done := s.done + 1 } (g.setWorker k .checking))
  | .failing e =>
    some (s.running (Generation.setWorker { g with firstErr := g.firstErr.or (some e) } k .aborting))
  | .aborting => some (s.running (Generation.setWorker { g with abort := true } k .exited))
  | _ => none

def fetched (g : Generation) (k : ℕ) (answer : Option (Except CliError Bytes)) :
    DownloadWorker → Option Download
  | .fetching index _ =>
    some (s.running (g.setWorker k (match answer with
      | none => .failing workerPanicked
      | some (.error e) => .failing e
      | some (.ok envelope) => openFetched a index envelope)))
  | _ => none

/-- A `pwrite` writes some bytes; no file has a byte at `i64::MAX` or beyond. -/
def wrote (g : Generation) (k count : ℕ) : DownloadWorker → Option Download
  | .writing index len offset rest =>
    if 0 < count ∧ count ≤ rest.length ∧ offset + count < 2 ^ 63 then
      some (running { s with file := writeAt s.file offset (rest.take count) }
        (g.setWorker k (.writing index len (offset + count) (rest.drop count))))
    else none
  | _ => none

def writeFailed (g : Generation) (k : ℕ) (message : String) : DownloadWorker → Option Download
  | .writing .. => some (s.running (g.setWorker k (.failing (.outputWrite s!"writing output: {message}"))))
  | _ => none

/-- All workers have exited: the generation's first error, if any, decides. -/
def join (g : Generation) : Option Download :=
  if g.workers.all fun w => w = .exited then
    match g.firstErr with
    | none => some { s with phase := .planning }
    | some e =>
      if e.code = "presigned_rejected" then
        let decision := presignedRefreshDecision (g.doneBefore < s.done) s.staleRefreshes
        let s := { s with staleRefreshes := decision.2 }
        if decision.1 then some { s with phase := .refreshing }
        else some (s.fail (.new 31 "network_error"
          (s!"storage rejected the pre-signed URL {PRESIGNED_STALE_REFRESH_BUDGET} consecutive times with " ++
            "no chunk completing, retries on freshly-requested URLs included. This is not expiry; " ++
            s!"giving up (last: {e.message})")))
      else some (s.fail e)
  else none

def assertComplete : Download :=
  if s.done = (indexed a).length then { s with phase := .renaming }
  else s.fail (.invalidData
    s!"download completeness assertion failed: {s.done} of {(indexed a).length} chunks written with no error recorded")

def refresh (s : Download) : Except CliError Json → Download
  | .error e => s.fail e
  | .ok du =>
    match du.getStr "download_url" with
    | none => s.fail (.invalidData "download-url refresh response missing download_url")
    | some fresh => { s with url := fresh, phase := .planning }

def rename : Option String → Download
  | some e => s.fail (.outputWrite s!"renaming {a.tmpPath} to {a.outPath}: {e}")
  | none => { s with out := some s.file, phase := .finished (.ok s.written) }

def atWorker (k : ℕ) (f : Generation → DownloadWorker → Option Download) : Option Download :=
  match s.phase with
  | .running g => (g.workers[k]?).bind (f g)
  | _ => none

def step : DownloadEvent → Option Download
  | .main =>
    match s.phase with
    | .planning => some (s.nextGeneration a)
    | .running g => s.join g
    | .assembled => some (s.assertComplete a)
    | _ => none
  | .worker k => s.atWorker k fun g w => s.advance g k w
  | .storage k answer => s.atWorker k fun g w => s.fetched a g k answer w
  | .wrote k count => s.atWorker k fun g w => s.wrote g k count w
  | .writeFailed k message => s.atWorker k fun g w => s.writeFailed g k message w
  | .refreshed answer =>
    match s.phase with
    | .refreshing => some (s.refresh answer)
    | _ => none
  | .renamed error =>
    match s.phase with
    | .renaming => some (s.rename a error)
    | _ => none

end Download

end SignetDrive
