import SignetDrive.Lib.Automaton
import SignetDrive.Lib.Procedure
import SignetDrive.Model.HostSigner

/-!
# The sealed channel

`channel/src/auth.rs` and `channel/src/transport.rs`. An event is a step of a client, a step of the
server, or any change of the folder by someone else, with its random draws and failures.
AES-256-GCM, HKDF and the wire format are parameters.
-/

namespace SignetDrive.Channel

abbrev ChannelSecret := List.Vector UInt8 32

def NONCE_LEN : ℕ := 12

abbrev Nonce := Iv

def PROTOCOL_VERSION : ℕ := 1

def REQUEST_KEY_INFO : Bytes := utf8 "signet-channel/v1/request-key"

def RESPONSE_KEY_INFO : Bytes := utf8 "signet-channel/v1/response-key"

def DOMAIN_REQUEST : Bytes := utf8 "signet-channel/v1/request"

def DOMAIN_RESPONSE : Bytes := utf8 "signet-channel/v1/response"

inductive ChannelError where
  | auth
  | replay
  | malformedFrame
  | serialization (e : String)
  | io (e : String)
  | timeout

/-- AES-256-GCM and HKDF-SHA-256 with an output of 32 bytes. Sealing and deriving cannot fail. -/
structure ChannelCrypto where
  aeadSeal : Dek → Nonce → Bytes → Bytes → Bytes
  aeadOpen : Dek → Nonce → Bytes → Bytes → Option Bytes
  open_seal : ∀ key nonce body aad, aeadOpen key nonce (aeadSeal key nonce body aad) aad = some body
  /-- Of a secret, a salt and an info. -/
  hkdfSha256 : Bytes → Bytes → Bytes → Dek

variable (c : ChannelCrypto)

def deriveKey (secret : ChannelSecret) (info : Bytes) : Dek := c.hkdfSha256 secret.toList [] info

def pushLp (field : Bytes) : Bytes := toBeBytes 4 field.length ++ field

def requestAad (channelId reqId : String) : Bytes :=
  pushLp DOMAIN_REQUEST ++ toBeBytes 2 PROTOCOL_VERSION ++ pushLp (utf8 channelId) ++ pushLp (utf8 reqId)

def responseAad (channelId reqId : String) (requestNonce : Nonce) : Bytes :=
  pushLp DOMAIN_RESPONSE ++ toBeBytes 2 PROTOCOL_VERSION ++ pushLp (utf8 channelId) ++
    pushLp (utf8 reqId) ++ pushLp requestNonce.toList

lemma length_take_nonce {frame : Bytes} (h : ¬ frame.length < NONCE_LEN) :
    (frame.take NONCE_LEN).length = 12 := by
  rw [List.length_take]
  exact min_eq_left (not_lt.mp h)

def frameNonce (frame : Bytes) : Except ChannelError Nonce :=
  if h : frame.length < NONCE_LEN then .error .malformedFrame
  else .ok ⟨frame.take NONCE_LEN, length_take_nonce h⟩

def sealWith (key : Dek) (nonce : Nonce) (aad body : Bytes) : Bytes :=
  nonce.toList ++ c.aeadSeal key nonce body aad

def openWith (key : Dek) (aad frame : Bytes) : Except ChannelError Bytes := do
  let nonce ← frameNonce frame
  match c.aeadOpen key nonce (frame.drop NONCE_LEN) aad with
  | some body => .ok body
  | none => .error .auth

def sealRequest (secret : ChannelSecret) (channelId reqId : String) (nonce : Nonce) (body : Bytes) : Bytes :=
  sealWith c (deriveKey c secret REQUEST_KEY_INFO) nonce (requestAad channelId reqId) body

def openRequest (secret : ChannelSecret) (channelId reqId : String) (frame : Bytes) :
    Except ChannelError Bytes :=
  openWith c (deriveKey c secret REQUEST_KEY_INFO) (requestAad channelId reqId) frame

def sealResponse (secret : ChannelSecret) (channelId reqId : String) (requestNonce nonce : Nonce)
    (body : Bytes) : Bytes :=
  sealWith c (deriveKey c secret RESPONSE_KEY_INFO) nonce (responseAad channelId reqId requestNonce) body

def openResponse (secret : ChannelSecret) (channelId reqId : String) (requestNonce : Nonce) (frame : Bytes) :
    Except ChannelError Bytes :=
  openWith c (deriveKey c secret RESPONSE_KEY_INFO) (responseAad channelId reqId requestNonce) frame

structure ReplayGuard where
  seen : Finset Nonce
  order : List Nonce
  capacity : ℕ

namespace ReplayGuard

def new (capacity : ℕ) : ReplayGuard := ⟨∅, [], max capacity 1⟩

def evict (guard : ReplayGuard) : ReplayGuard :=
  if guard.order.length ≥ guard.capacity then
    match guard.order with
    | evicted :: order => { guard with seen := guard.seen.erase evicted, order }
    | [] => guard
  else guard

def checkAndRecord (guard : ReplayGuard) (nonce : Nonce) : Except ChannelError ReplayGuard :=
  if nonce ∈ guard.seen then .error .replay
  else
    .ok { guard.evict with seen := insert nonce guard.evict.seen, order := guard.evict.order ++ [nonce] }

end ReplayGuard

/-- `to_bytes` and `from_bytes` of `Op` and `Response`. -/
structure Wire where
  opToBytes : Op → Except ChannelError Bytes
  opFromBytes : Bytes → Except ChannelError Op
  responseToBytes : Response → Except ChannelError Bytes
  responseFromBytes : Bytes → Except ChannelError Response
  op_round_trip : ∀ op bytes, opToBytes op = .ok bytes → opFromBytes bytes = .ok op
  response_round_trip : ∀ response bytes,
    responseToBytes response = .ok bytes → responseFromBytes bytes = .ok response

abbrev Folder := List (String × Bytes)

namespace Folder

def remove (folder : Folder) (name : String) : Folder := folder.filter fun file => file.1 ≠ name

/-- `write_atomic`: a reader sees the whole file or none of it. -/
def writeAtomic (folder : Folder) (name : String) (bytes : Bytes) : Folder :=
  (name, bytes) :: folder.remove name

end Folder

def reqPath (reqId : String) : String := reqId ++ ".req"

def respPath (reqId : String) : String := reqId ++ ".resp"

def splitAtDot (name : String) : Option (String × String) :=
  let after := (name.toList.reverse.takeWhile (· ≠ '.')).reverse
  let before := name.toList.take (name.length - after.length - 1)
  if after.length = name.length ∨ before = [] ∨ name = ".." then none
  else some (String.ofList before, String.ofList after)

def fileStem (name : String) : String := ((splitAtDot name).map Prod.fst).getD name

def extension (name : String) : Option String := (splitAtDot name).map Prod.snd

/-- What a client keeps of a request it has sealed, with the operation it asks for. -/
structure Request where
  reqId : String
  reqNonce : Nonce
  op : Op
  deriving DecidableEq

structure Execution where
  reqId : String
  frame : Bytes
  op : Op
  response : Response

structure Seal where
  key : Dek
  call : Aead.Call Nonce Bytes Bytes

/-- Where the server is in `poll_once`, with the paths that are left of its snapshot. -/
inductive ClientPhase where
  | idle
  | polling (paths : List String)
  | writing (reqId : String) (respFrame : Bytes) (path : String) (paths : List String)
  | removing (path : String) (paths : List String)

/-- The parties and the folder, and the history of seals, requests, executions and results. -/
structure State (σ : Type) where
  folder : Folder
  waiting : List Request
  phase : ClientPhase
  replay : ReplayGuard
  handlerState : σ
  seals : List Seal
  requests : List Request
  executions : List Execution
  returned : List (Request × Except ChannelError Response)

inductive Event where
  /-- Anyone who can write to the folder. -/
  | tamper (folder : Folder)
  /-- `send`, with the id and the nonce drawn, and the error of the write if it fails. -/
  | send (op : Op) (reqId : String) (nonce : Nonce) (ioError : Option String)
  /-- One round of `await_response`. -/
  | checkResponse (request : Request) (ioError : Option String)
  | timeOut (request : Request)
  /-- `poll_once` takes its snapshot of the folder. -/
  | scan
  /-- It reads and processes its next path. -/
  | serve (nonce : Nonce) (readable : Bool)
  | writeResponse (ok : Bool)
  | removeRequest (ok : Bool)

section Steps

variable {σ : Type} (w : Wire) (secret : ChannelSecret) (channelId : String) (handler : σ → Op → Response × σ)

namespace State

def finish (s : State σ) (request : Request) (result : Except ChannelError Response) : State σ :=
  { s with waiting := s.waiting.erase request, returned := s.returned ++ [(request, result)] }

def cleanup (s : State σ) (reqId : String) : State σ :=
  { s with folder := (s.folder.remove (respPath reqId)).remove (reqPath reqId) }

def logSeal (s : State σ) (key : Dek) (nonce : Nonce) (aad body : Bytes) : State σ :=
  { s with seals := s.seals ++ [⟨key, ⟨nonce, aad, body⟩⟩] }

end State

def send (s : State σ) (op : Op) (reqId : String) (nonce : Nonce) (ioError : Option String) : State σ :=
  match w.opToBytes op with
  | .error _ => s
  | .ok body =>
    let request : Request := ⟨reqId, nonce, op⟩
    let s := s.logSeal (deriveKey c secret REQUEST_KEY_INFO) nonce (requestAad channelId reqId) body
    let s := { s with requests := s.requests ++ [request] }
    match ioError with
    | some _ => s
    | none =>
      { s with
        folder := s.folder.writeAtomic (reqPath reqId) (sealRequest c secret channelId reqId nonce body)
        waiting := s.waiting ++ [request] }

/-- A frame that does not open leaves the client waiting. -/
def checkResponse (s : State σ) (request : Request) (ioError : Option String) : State σ :=
  match ioError with
  | some e => s.finish request (.error (.io e))
  | none =>
    match s.folder.lookup (respPath request.reqId) with
    | none => s
    | some frame =>
      match openResponse c secret channelId request.reqId request.reqNonce frame with
      | .error _ => s
      | .ok body =>
        match w.responseFromBytes body with
        | .error e => s.finish request (.error e)
        | .ok response => (s.cleanup request.reqId).finish request (.ok response)

def recordNonce (nonce : Nonce) : Procedure (State σ) ChannelError Unit := fun s =>
  match s.replay.checkAndRecord nonce with
  | .ok replay => (.ok (), { s with replay })
  | .error e => (.error e, s)

def execute (reqId : String) (frame : Bytes) (op : Op) : Procedure (State σ) ChannelError Response := fun s =>
  let answer := handler s.handlerState op
  (.ok answer.1, { s with
    handlerState := answer.2
    executions := s.executions ++ [⟨reqId, frame, op, answer.1⟩] })

/-- Open first, then check for a replay, then dispatch, and seal the answer. -/
def process (reqId : String) (frame : Bytes) (nonce : Nonce) : Procedure (State σ) ChannelError Bytes := do
  let reqNonce ← Procedure.check (frameNonce frame)
  let body ← Procedure.check (openRequest c secret channelId reqId frame)
  recordNonce reqNonce
  let op ← Procedure.check (w.opFromBytes body)
  let response ← execute handler reqId frame op
  let respBody ← Procedure.check (w.responseToBytes response)
  Procedure.update fun s =>
    s.logSeal (deriveKey c secret RESPONSE_KEY_INFO) nonce (responseAad channelId reqId reqNonce) respBody
  return sealResponse c secret channelId reqId reqNonce nonce respBody

/-- The next path of a poll: a file that is gone is passed over, and one that is not answered is
removed all the same. -/
def serve (s : State σ) (path : String) (paths : List String) (nonce : Nonce) (readable : Bool) : State σ :=
  match if readable then s.folder.lookup path else none with
  | none => { s with phase := .polling paths }
  | some frame =>
    match process c w secret channelId handler (fileStem path) frame nonce s with
    | (.ok respFrame, s) => { s with phase := .writing (fileStem path) respFrame path paths }
    | (.error _, s) => { s with phase := .removing path paths }

def step (s : State σ) (e : Event) : Option (State σ) :=
  match e with
  | .tamper folder => some { s with folder }
  | .send op reqId nonce ioError => some (send c w secret channelId s op reqId nonce ioError)
  | .checkResponse request ioError =>
    if request ∈ s.waiting then some (checkResponse c w secret channelId s request ioError) else none
  | .timeOut request =>
    if request ∈ s.waiting then some ((s.cleanup request.reqId).finish request (.error .timeout)) else none
  | .scan =>
    match s.phase with
    | .idle =>
      some { s with phase := .polling ((s.folder.map Prod.fst).filter fun name => extension name = some "req") }
    | _ => none
  | .serve nonce readable =>
    match s.phase with
    | .polling (path :: paths) => some (serve c w secret channelId handler s path paths nonce readable)
    | .polling [] => some { s with phase := .idle }
    | _ => none
  | .writeResponse ok =>
    match s.phase with
    | .writing reqId respFrame path paths =>
      some { s with
        folder := if ok then s.folder.writeAtomic (respPath reqId) respFrame else s.folder
        phase := .removing path paths }
    | _ => none
  | .removeRequest ok =>
    match s.phase with
    | .removing path paths =>
      some { s with folder := if ok then s.folder.remove path else s.folder, phase := .polling paths }
    | _ => none

/-- A server that has just been made, before any client has sent, over any folder. -/
def initial (folder : Folder) (capacity : ℕ) (handlerState : σ) : State σ where
  folder
  waiting := []
  phase := .idle
  replay := .new capacity
  handlerState
  seals := []
  requests := []
  executions := []
  returned := []

end Steps

end SignetDrive.Channel
