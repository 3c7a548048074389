import SignetDrive.Lib.Automaton
import SignetDrive.Model.Envelope

/-!
# Sending the parts of an upload

`upload_parts` and `send_one` of `cli/src/commands.rs`. The threads take turns in any order, the disk
and storage answer as they like, and a load of the `abort` flag may miss a store.
-/

namespace SignetDrive

open Client

structure PartInput where
  partNumber : I32
  etag : String
  deriving DecidableEq

def partFields (part : Json) : Except CliError (I32 × String) := do
  let partNumber ← okOr (part.getI64 "part_number") (.invalidData "part url missing part_number")
  let url ← okOr (part.getStr "url") (.invalidData "part url missing url")
  return (partNumber.asU64.asI32, url)

def partIndex (partNumber : I32) : U32 := ⟨((partNumber.1 - 1) % 2 ^ 32).toNat, by omega⟩

structure UploadPartsArgs where
  inPath : String
  file : Bytes
  crypto : EnvelopeCrypto
  dek : Dek
  fileId : FileId
  chunkSize : ℕ
  chunkCount : U32
  partUrls : List Json
  prepareAhead : ℕ
  concurrency : ℕ

/-- A part that storage took: what was sent, and the ETag that came back. -/
structure SentPart where
  partNumber : I32
  url : String
  envelope : Bytes
  etag : String

/-- Where the preparation of a part stands: before `seek`, or in `fill_chunk` with what it has read. -/
inductive Preparing where
  | seeking
  | reading (buf : Bytes)

inductive PrepareEvent where
  | seeked (error : Option String)
  | read (result : Except String ℕ)

variable (a : UploadPartsArgs)

def sealPart (partNumber : I32) (bytes : Bytes) : Except CliError Bytes :=
  (sealChunk a.crypto a.dek a.fileId (partIndex partNumber) a.chunkCount bytes).mapError fun _ =>
    .encryptionFailed "chunk encryption failed"

/-- What a `read` could still put into the buffer. -/
def unread (partNumber : I32) (buf : Bytes) : Bytes :=
  (a.file.drop ((partIndex partNumber).val * a.chunkSize + buf.length)).take (a.chunkSize - buf.length)

/-- The head of the loop in `fill_chunk`: read on, or seal what is there. -/
def fillChunk (partNumber : I32) (buf : Bytes) : Preparing ⊕ Except CliError Bytes :=
  if buf.length < a.chunkSize then .inl (.reading buf) else .inr (sealPart a partNumber buf)

/-- The preparation goes on, or ends with an envelope or an error. A `read` returns nothing only at
the end of the file. -/
def Preparing.step (partNumber : I32) : Preparing → PrepareEvent → Option (Preparing ⊕ Except CliError Bytes)
  | seeking, .seeked none => some (fillChunk a partNumber [])
  | seeking, .seeked (some e) => some (.inr (.error (.inputRead s!"seeking input: {e}")))
  | reading _, .read (.error e) => some (.inr (.error (.inputRead s!"reading input: {e}")))
  | reading buf, .read (.ok count) =>
    if count = 0 then
      if (unread a partNumber buf).isEmpty then some (.inr (sealPart a partNumber buf)) else none
    else if count ≤ (unread a partNumber buf).length then
      some (fillChunk a partNumber (buf ++ (unread a partNumber buf).take count))
    else none
  | _, _ => none

def openError (e : String) : CliError := .inputRead s!"opening {a.inPath}: {e}"

def sortParts (parts : List PartInput) : List PartInput :=
  parts.mergeSort fun p q => p.partNumber.1 ≤ q.partNumber.1

inductive SerialPhase where
  | opening
  /-- At the head of the loop, with the parts to come. -/
  | next (rest : List Json)
  | preparing (part : I32 × String) (rest : List Json) (progress : Preparing)
  | putting (part : I32 × String) (envelope : Bytes) (rest : List Json)
  | finished (result : Except CliError (List PartInput))

structure SerialUpload where
  phase : SerialPhase
  parts : List PartInput
  sent : List SentPart

abbrev Item := Except CliError (I32 × String × Bytes)

inductive Producer where
  | opening
  /-- About to load `abort`. -/
  | next (rest : List (I32 × String))
  | preparing (part : I32 × String) (rest : List (I32 × String)) (progress : Preparing)
  /-- In `tx.send`. -/
  | sending (item : Item) (rest : List (I32 × String))
  | exited

inductive UploadWorker where
  /-- Waiting for the lock of the receiver. -/
  | locking
  /-- In `recv`, holding the lock. -/
  | receiving
  /-- About to load `abort`. -/
  | holding (item : Item)
  | putting (partNumber : I32) (url : String) (envelope : Bytes)
  /-- About to push to `parts`. -/
  | recording (part : PartInput)
  /-- About to fill the error slot. -/
  | failing (e : CliError)
  /-- About to store `abort`. -/
  | aborting
  | exited

structure ThreadedUpload where
  producer : Producer
  queue : List Item
  workers : List UploadWorker
  firstError : Option CliError
  abort : Bool
  parts : List PartInput
  sent : List SentPart
  result : Option (Except CliError (List PartInput))

inductive UploadParts where
  | serial (s : SerialUpload)
  | threaded (s : ThreadedUpload)

inductive UploadPartsEvent where
  | opened (error : Option String)
  | next
  | prepare (event : PrepareEvent)
  /-- The producer loads `abort` and sees what is given. -/
  | producerLoads (aborted : Bool)
  /-- A `send` finds room in the buffer of the channel. -/
  | pushed
  /-- A `send` meets the `recv` of a worker; the channel has no buffer. -/
  | met (k : ℕ)
  | locked (k : ℕ)
  | received (k : ℕ)
  | workerLoads (k : ℕ) (aborted : Bool)
  /-- `put_presigned` returns. -/
  | put (k : ℕ) (result : Except CliError String)
  | recorded (k : ℕ)
  | abortStored (k : ℕ)
  | joined

namespace SerialUpload

def finish (s : SerialUpload) (result : Except CliError (List PartInput)) : SerialUpload :=
  { s with phase := .finished result }

def prepared (s : SerialUpload) (part : I32 × String) (rest : List Json) :
    Preparing ⊕ Except CliError Bytes → SerialUpload
  | .inl progress => { s with phase := .preparing part rest progress }
  | .inr (.ok envelope) => { s with phase := .putting part envelope rest }
  | .inr (.error e) => s.finish (.error e)

def step (s : SerialUpload) (event : UploadPartsEvent) : Option SerialUpload :=
  match s.phase, event with
  | .opening, .opened none => some { s with phase := .next a.partUrls }
  | .opening, .opened (some e) => some (s.finish (.error (openError a e)))
  | .next [], .next => some (s.finish (.ok (sortParts s.parts)))
  | .next (part :: rest), .next =>
    match partFields part with
    | .ok fields => some { s with phase := .preparing fields rest .seeking }
    | .error e => some (s.finish (.error e))
  | .preparing part rest progress, .prepare event => (progress.step a part.1 event).map (s.prepared part rest)
  | .putting part envelope rest, .put 0 (.ok etag) =>
    some ⟨.next rest, s.parts ++ [⟨part.1, etag⟩], s.sent ++ [⟨part.1, part.2, envelope, etag⟩]⟩
  | .putting _ _ _, .put 0 (.error e) => some (s.finish (.error e))
  | _, _ => none

end SerialUpload

namespace ThreadedUpload

variable (s : ThreadedUpload)

def produce (producer : Producer) : ThreadedUpload := { s with producer := producer }

def setWorker (k : ℕ) (w : UploadWorker) : ThreadedUpload := { s with workers := s.workers.set k w }

def afterSend (item : Item) (rest : List (I32 × String)) : Producer :=
  match item with
  | .ok _ => .next rest
  | .error _ => .exited

def prepared (part : I32 × String) (rest : List (I32 × String)) : Preparing ⊕ Except CliError Bytes → Producer
  | .inl progress => .preparing part rest progress
  | .inr envelope => .sending (envelope.map fun envelope => (part.1, part.2, envelope)) rest

def producerStep (planned : List (I32 × String)) (s : ThreadedUpload) (event : UploadPartsEvent) :
    Option ThreadedUpload :=
  match s.producer, event with
  | .opening, .opened none => some (s.produce (.next planned))
  | .opening, .opened (some e) => some (s.produce (.sending (.error (openError a e)) []))
  | .next rest, .producerLoads aborted =>
    if aborted && !s.abort then none
    else if aborted then some (s.produce .exited)
    else match rest with
      | [] => some (s.produce .exited)
      | part :: rest => some (s.produce (.preparing part rest .seeking))
  | .preparing part rest progress, .prepare event =>
    (progress.step a part.1 event).map fun outcome => s.produce (prepared part rest outcome)
  | .sending item rest, .pushed =>
    if s.queue.length < a.prepareAhead - 1 then
      some (produce { s with queue := s.queue ++ [item] } (afterSend item rest))
    else none
  | .sending item rest, .met k =>
    match s.workers[k]? with
    | some .receiving =>
      if a.prepareAhead - 1 = 0 then some (setWorker (s.produce (afterSend item rest)) k (.holding item))
      else none
    | _ => none
  | _, _ => none

def workerStep (k : ℕ) (w : UploadWorker) (event : UploadPartsEvent) : Option ThreadedUpload :=
  match w, event with
  | .locking, .locked _ =>
    if s.workers.any fun | .receiving => true | _ => false then none else some (s.setWorker k .receiving)
  | .receiving, .received _ =>
    match s.queue, s.producer with
    | item :: queue, _ => some (setWorker { s with queue := queue } k (.holding item))
    | [], .exited => some (s.setWorker k .exited)
    | [], _ => none
  | .holding item, .workerLoads _ aborted =>
    if aborted && !s.abort then none
    else if aborted then some (s.setWorker k .locking)
    else match item with
      | .ok (partNumber, url, envelope) => some (s.setWorker k (.putting partNumber url envelope))
      | .error e => some (s.setWorker k (.failing e))
  | .putting partNumber url envelope, .put _ (.ok etag) =>
    some (setWorker { s with sent := s.sent ++ [⟨partNumber, url, envelope, etag⟩] } k
      (.recording ⟨partNumber, etag⟩))
  | .putting _ _ _, .put _ (.error e) => some (s.setWorker k (.failing e))
  | .recording part, .recorded _ => some (setWorker { s with parts := s.parts ++ [part] } k .locking)
  | .failing e, .recorded _ => some (setWorker { s with firstError := s.firstError.or (some e) } k .aborting)
  | .aborting, .abortStored _ => some (setWorker { s with abort := true } k .locking)
  | _, _ => none

def outcome : Except CliError (List PartInput) :=
  match s.firstError with
  | some e => .error e
  | none =>
    if s.parts.length ≠ a.partUrls.length then
      .error (.invalidData s!"upload fan-out delivered {s.parts.length} of {a.partUrls.length} parts with no error recorded")
    else .ok (sortParts s.parts)

def join : Option ThreadedUpload :=
  match s.producer, s.result with
  | .exited, none =>
    if s.workers.all fun | .exited => true | _ => false then some { s with result := some (s.outcome a) }
    else none
  | _, _ => none

def atWorker (k : ℕ) (event : UploadPartsEvent) : Option ThreadedUpload :=
  s.workers[k]?.bind fun w => s.workerStep k w event

def step (planned : List (I32 × String)) (s : ThreadedUpload) (event : UploadPartsEvent) :
    Option ThreadedUpload :=
  match event with
  | .opened _ | .prepare _ | .producerLoads _ | .pushed | .met _ => s.producerStep a planned event
  | .locked k | .received k | .workerLoads k _ | .put k _ | .recorded k | .abortStored k => s.atWorker k event
  | .joined => s.join a
  | .next => none

end ThreadedUpload

namespace UploadParts

def start : UploadParts :=
  if a.concurrency ≤ 1 ∧ a.prepareAhead = 0 then .serial ⟨.opening, [], []⟩
  else match a.partUrls.mapM partFields with
    | .ok _ =>
      .threaded ⟨.opening, [], List.replicate (max a.concurrency 1) .locking, none, false, [], [], none⟩
    | .error e => .threaded ⟨.exited, [], [], none, false, [], [], some (.error e)⟩

def planned : List (I32 × String) := ((a.partUrls.mapM partFields).toOption).getD []

def step (s : UploadParts) (event : UploadPartsEvent) : Option UploadParts :=
  match s with
  | .serial s => (s.step a event).map .serial
  | .threaded s => (s.step a (planned a) event).map .threaded

def result : UploadParts → Option (Except CliError (List PartInput))
  | .serial s =>
    match s.phase with
    | .finished result => some result
    | _ => none
  | .threaded s => s.result

def sent : UploadParts → List SentPart
  | .serial s => s.sent
  | .threaded s => s.sent

end UploadParts

end SignetDrive
