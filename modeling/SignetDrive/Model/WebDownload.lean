import SignetDrive.Lib.Automaton
import SignetDrive.Model.Envelope
import SignetDrive.Model.WebRecipient

/-!
# Downloading a file in the browser

`downloadFileVia` of `web/src/lib/drive.ts` and `openChunk` of `web/src/lib/crypto/envelope.ts`. The main
loop and the fetches of the chunks are tasks of one event loop: each runs without interruption up to
its next `await`, in any order.
-/

namespace SignetDrive

open Client

/-- A JavaScript number, up to the sign of zero. -/
inductive JsNumber where
  | nan
  | negInfinity
  | finite (value : ℚ)
  | infinity
  deriving DecidableEq

namespace JsNumber

def ofNat (n : ℕ) : JsNumber := .finite n

def lt : JsNumber → JsNumber → Bool
  | finite x, finite y => x < y
  | negInfinity, finite _ | negInfinity, infinity | finite _, infinity => true
  | _, _ => false

def isInteger : JsNumber → Bool
  | finite x => x.isInt
  | _ => false

end JsNumber

def MAX_U32 : ℕ := 0xffffffff

/-- `isLastChunk` of the browser. Where the last line is reached, the count is an integer below
`2 ** 32` and above the index. -/
def webIsLastChunk (chunkIndex : ℕ) (chunkCount : JsNumber) : Except WebError Bool := do
  ensure (¬ chunkIndex > MAX_U32) (.invalidInput "chunk_index must be a uint32")
  ensure (chunkCount.isInteger ∧ ¬ chunkCount.lt (.ofNat 1) ∧ ¬ (JsNumber.ofNat MAX_U32).lt chunkCount)
    (.invalidInput "chunk_count must be in 1..=uint32_max")
  ensure ((JsNumber.ofNat chunkIndex).lt chunkCount) (.invalidInput "chunk_index out of range for chunk_count")
  return chunkCount = .ofNat (chunkIndex + 1)

def aesGcmOpen (c : EnvelopeCrypto) (key : Dek) (nonce : Iv) (ciphertextAndTag aad : Bytes) :
    Except WebError Bytes :=
  okOr (c.decrypt key nonce ciphertextAndTag aad) (.integrity "aes-256-gcm authentication failed")

def webOpenChunk (c : EnvelopeCrypto) (dek : Dek) (fileId : FileId) (chunkIndex : ℕ) (chunkCount : JsNumber)
    (envelope : Bytes) : Except WebError Bytes := do
  ensure (¬ envelope.length < MULTIPART_MIN_ENVELOPE_LEN) (.invalidInput "multipart chunk too short")
  ensure (envelope[0]? = some FILE_MAGIC_MULTIPART) (.invalidInput "multipart chunk magic")
  ensure (envelope[1]? = some FILE_ALG_A256GCM) (.invalidInput "multipart chunk alg")
  let isLast ← webIsLastChunk chunkIndex chunkCount
  let storedIndex := fromBeBytes (envelope.extract 2 6)
  ensure (storedIndex = chunkIndex) (.invalidInput "multipart chunk index mismatch")
  aesGcmOpen c dek (envelopeIv envelope) (envelope.drop MULTIPART_HEADER_LEN)
    (multipartAad fileId (Fin.ofNat _ chunkIndex) isLast)

def WEB_MAX_DOWNLOAD_CONCURRENCY : ℤ := 4

def webDownloadConcurrency : Option JsNumber → ℕ
  | some (.finite served) => (min (max served.floor 1) WEB_MAX_DOWNLOAD_CONCURRENCY).toNat
  | _ => 1

structure DownloadUrlResponse where
  multipartChunks : Option JsNumber
  chunkSize : Option JsNumber
  concurrency : Option JsNumber

inductive SinkCall where
  | write (chunk : Bytes)
  | close
  | abort
  deriving DecidableEq

inductive WebDownloadPhase where
  | makingSink
  /-- `await Promise.race`, with the chunks that were in flight. -/
  | racing (raced : List ℕ)
  | writing
  | closing
  | aborting (error : WebError)
  | finished (result : Except WebError Unit)

structure WebDownload where
  multipartChunks : JsNumber
  window : ℕ
  nextStart : ℕ
  nextWrite : ℕ
  /-- The chunks that have opened and are not yet written, by index. -/
  opened : List (ℕ × Bytes)
  /-- The chunks whose promise is in the map, each with whether its task has settled. -/
  inFlight : List (ℕ × Bool)
  firstError : Option WebError
  sink : Bool
  calls : List SinkCall
  phase : WebDownloadPhase

/-- What settles next. A progress callback that throws leaves its error. -/
inductive WebDownloadEvent where
  | sinkMade (result : Except WebError Unit) (progress : Option WebError)
  /-- The fetch of a chunk ends, after its retries and with whatever URLs; what came is opened. -/
  | fetched (index : ℕ) (result : Except WebError Bytes)
  /-- A settled task is taken out of the map. -/
  | removed (index : ℕ)
  | raced
  | wrote (result : Except WebError Unit) (progress : Option WebError)
  | closed (result : Except WebError Unit)
  | aborted (result : Except WebError Unit)

namespace WebDownload

variable (s : WebDownload)

def finish (result : Except WebError Unit) : WebDownload := { s with phase := .finished result }

def start (answer : DownloadUrlResponse) : WebDownload :=
  match answer.multipartChunks, answer.chunkSize with
  | some chunks, some _ =>
    ⟨chunks, webDownloadConcurrency answer.concurrency, 0, 0, [], [], none, false, [], .makingSink⟩
  | _, _ =>
    ⟨.nan, 0, 0, 0, [], [], none, false, [],
      .finished (.error (.integrity "download-url returned no multipart chunk metadata"))⟩

def fail (error : WebError) : WebDownload :=
  { s with calls := s.calls ++ [.abort], phase := .aborting error }

def startTasks : WebDownload :=
  let started := ((List.range (s.nextWrite + s.window - s.nextStart)).map (s.nextStart + ·)).takeWhile
    fun index => (JsNumber.ofNat index).lt s.multipartChunks
  { s with
    nextStart := s.nextStart + started.length
    inFlight := s.inFlight ++ started.map (·, false) }

def write (s : WebDownload) (chunk : Bytes) : WebDownload :=
  { s with
    opened := s.opened.filter fun entry => entry.1 ≠ s.nextWrite
    calls := s.calls ++ [.write chunk]
    phase := .writing }

def advance : WebDownload :=
  if (JsNumber.ofNat s.nextWrite).lt s.multipartChunks then
    match s.firstError with
    | some error => s.fail error
    | none =>
      let s := s.startTasks
      match s.opened.lookup s.nextWrite with
      | some chunk => s.write chunk
      | none =>
        if s.inFlight.isEmpty then
          s.fail (s.firstError.getD (.integrity "download scheduler stalled with no error recorded"))
        else { s with phase := .racing (s.inFlight.map Prod.fst) }
  else { s with calls := s.calls ++ [.close], phase := .closing }

/-- The rest of the inner loop, after a chunk has been written. -/
def drain : WebDownload :=
  match s.opened.lookup (s.nextWrite + 1) with
  | some chunk => write { s with nextWrite := s.nextWrite + 1 } chunk
  | none => advance { s with nextWrite := s.nextWrite + 1 }

def settle (index : ℕ) : WebDownload :=
  { s with inFlight := s.inFlight.map fun task => if task.1 = index then (index, true) else task }

def taskDone (index : ℕ) : Except WebError Bytes → WebDownload
  | .ok chunk => settle { s with opened := (index, chunk) :: s.opened } index
  | .error error => settle { s with firstError := s.firstError.or (some error) } index

def step (c : EnvelopeCrypto) (dek : Dek) (fileId : FileId) (s : WebDownload) :
    WebDownloadEvent → Option WebDownload
  | .sinkMade result progress =>
    match s.phase, result, progress with
    | .makingSink, .error error, _ => some (s.finish (.error error))
    | .makingSink, .ok (), some error => some (finish { s with sink := true } (.error error))
    | .makingSink, .ok (), none => some (advance { s with sink := true })
    | _, _, _ => none
  | .fetched index result =>
    if (index, false) ∈ s.inFlight then
      some (s.taskDone index (result.bind (webOpenChunk c dek fileId index s.multipartChunks)))
    else none
  | .removed index =>
    if (index, true) ∈ s.inFlight then some { s with inFlight := s.inFlight.filter fun task => task.1 ≠ index }
    else none
  | .raced =>
    match s.phase with
    | .racing raced => if ∃ index ∈ raced, index ∉ s.inFlight.map Prod.fst then some s.advance else none
    | _ => none
  | .wrote result progress =>
    match s.phase, result, progress with
    | .writing, .error error, _ => some (s.fail error)
    | .writing, .ok (), some error => some (s.fail error)
    | .writing, .ok (), none => some s.drain
    | _, _, _ => none
  | .closed result =>
    match s.phase with
    | .closing => some (s.finish result)
    | _ => none
  | .aborted _ =>
    match s.phase with
    | .aborting error => some (s.finish (.error error))
    | _ => none

end WebDownload

end SignetDrive
