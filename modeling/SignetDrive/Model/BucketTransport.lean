import SignetDrive.Lib.Utf8Lossy
import SignetDrive.Model.Anchoring

/-!
# The storage transport

The HTTP/1.1 client of `cli/src/bucket_transport.rs`. A read is one turn of a loop of `read_response`;
after a timeout a turn gives no bytes.
-/

namespace SignetDrive
open Client

def splitCrlf : List Char → List (List Char)
  | [] => [[]]
  | '\r' :: '\n' :: rest => [] :: splitCrlf rest
  | c :: rest =>
    match splitCrlf rest with
    | [] => [[c]]
    | part :: parts => (c :: part) :: parts

def splitWhitespace (s : List Char) : List (List Char) := (s.splitOnP isWhitespace).filter (· ≠ [])

/-- `str::contains`, of a text that is not empty. -/
def containsText (pattern text : List Char) : Bool := (splitOnce pattern text).isSome

/-- `eq_ignore_ascii_case` with a text in lower case. -/
def isHeader (name : List Char) (lower : String) : Bool := name.map asciiLower = lower.toList

def parseUsize (s : List Char) : Option U64 :=
  let digits := stripPlus s
  if digits ≠ [] ∧ digits.all Char.isDigit then
    let n := Nat.ofDigitChars 10 digits 0
    if h : n < 2 ^ 64 then some ⟨n, h⟩ else none
  else none

/-- A turn of a loop that reads: the deadline has passed, or what the read gives. No bytes are the
end of the stream. -/
inductive WireRead where
  | deadline
  | ok (bytes : Bytes)
  | timedOut
  | failed (e : String)
  deriving DecidableEq

/-- What has come of reading so far: it waits for a read, has failed, or is done with the reads
that are left. -/
inductive Progress (α : Type) where
  | waiting
  | failed (e : CliError)
  | done (value : α) (rest : List WireRead)

def deadlineError : CliError := .transferStalled
  ("the part exceeded the time its measured transfer rate predicts " ++
    "(a trickling or wedged connection); retrying on a fresh connection")

def CRLF2 : Bytes := [13, 10, 13, 10]

def findHeadersEnd : Bytes → Option ℕ
  | [] => none
  | b :: rest =>
    if CRLF2.isPrefixOf (b :: rest) then some 4 else (findHeadersEnd rest).map (· + 1)

def readHeaders (buf : Bytes) (reads : List WireRead) : Progress (Bytes × ℕ) :=
  match findHeadersEnd buf with
  | some headEnd => .done (buf, headEnd) reads
  | none =>
    match reads with
    | [] => .waiting
    | .deadline :: _ => .failed deadlineError
    | .timedOut :: _ => .failed (.transferStalled
        "storage did not answer within the expected window after the body was sent")
    | .failed e :: _ => .failed (.network s!"reading storage response: {e}")
    | .ok bytes :: rest =>
      if bytes = [] then .failed (.network "storage closed the connection before responding")
      else if 64 * 1024 < (buf ++ bytes).length then
        .failed (.network "storage response headers are implausibly large")
      else readHeaders (buf ++ bytes) rest

structure ResponseHead where
  status : U16
  etag : Option String
  contentLength : Option U64
  chunked : Bool
  serverClose : Bool
  deriving DecidableEq

def applyHeader (head : ResponseHead) (line : List Char) : ResponseHead :=
  match splitOnce [':'] line with
  | none => head
  | some (name, value) =>
    let value := trim value
    if isHeader name "etag" then { head with etag := some (String.ofList value) }
    else if isHeader name "content-length" then { head with contentLength := parseUsize value }
    else if isHeader name "transfer-encoding" && containsText "chunked".toList (value.map asciiLower) then
      { head with chunked := true }
    else if isHeader name "connection" && containsText "close".toList (value.map asciiLower) then
      { head with serverClose := true }
    else head

def parseHead (head : List Char) : Except CliError ResponseHead := do
  let lines := splitCrlf head
  let statusLine := lines.headD []
  let shown := String.ofList statusLine
  let status ← okOr ((splitWhitespace statusLine)[1]?.bind fun code => parseU16 (String.ofList code))
    (.network s!"malformed status line from storage: {shown}")
  return lines.tail.foldl applyHeader ⟨status, none, none, false, false⟩

def MAX_ERROR_BODY_BYTES : ℕ := 64 * 1024

def readDiagnosticBody (cap : ℕ) (body : Bytes) (reads : List WireRead) : Progress Bytes :=
  if body.length < min cap MAX_ERROR_BODY_BYTES then
    match reads with
    | [] => .waiting
    | .ok bytes :: rest =>
      if bytes = [] then .done body rest else readDiagnosticBody cap (body ++ bytes) rest
    | .deadline :: rest => .done body rest
    | .timedOut :: rest => .done body rest
    | .failed _ :: rest => .done body rest
  else .done body reads

def readDataBody (target : ℕ) (body : Bytes) (reads : List WireRead) : Progress Bytes :=
  if body.length < target then
    match reads with
    | [] => .waiting
    | .deadline :: _ => .failed deadlineError
    | .timedOut :: _ => .failed (.transferStalled "storage stopped sending the response body")
    | .failed e :: _ => .failed (.network s!"reading storage response body: {e}")
    | .ok bytes :: rest =>
      if bytes = [] then .failed (.network
        (s!"storage closed the connection mid-body: received {body.length} of {target} " ++ "declared bytes"))
      else readDataBody target (body ++ bytes) rest
  else .done body reads

structure BucketResponse where
  status : U16
  etag : Option String
  body : Bytes
  reusable : Bool
  deriving DecidableEq

def ResponseHead.finish (head : ResponseHead) (wantBody overshot : Bool) (body : Bytes) : BucketResponse :=
  ⟨head.status, head.etag, body, !head.serverClose && !head.chunked && !overshot &&
    decide (head.status.val < 300) && wantBody && decide (head.contentLength.map Fin.val = some body.length)⟩

def readBody (wantBody : Bool) (head : ResponseHead) (body : Bytes) (reads : List WireRead) :
    Progress BucketResponse :=
  if wantBody ∨ 400 ≤ head.status.val then
    if head.chunked then .failed (.network
      "storage used chunked transfer-encoding, which this transport does not accept")
    else if 300 ≤ head.status.val then
      match readDiagnosticBody ((head.contentLength.map Fin.val).getD MAX_ERROR_BODY_BYTES) body reads with
      | .waiting => .waiting
      | .failed e => .failed e
      | .done body rest =>
        .done (head.finish wantBody false (body.take ((head.contentLength.map Fin.val).getD body.length))) rest
    else
      match head.contentLength with
      | none => .failed (.network
          ("storage returned a body response with no Content-Length, which " ++
            "this transport cannot bound; treating it as a failed transfer " ++
            "rather than guessing at the length"))
      | some target =>
        match readDataBody target.val body reads with
        | .waiting => .waiting
        | .failed e => .failed e
        | .done body rest =>
          .done (head.finish wantBody (decide (target.val < body.length)) (body.take target.val)) rest
  else .done (head.finish wantBody false body) reads

def readResponse (wantBody : Bool) (reads : List WireRead) : Progress BucketResponse :=
  match readHeaders [] reads with
  | .waiting => .waiting
  | .failed e => .failed e
  | .done (buf, headEnd) rest =>
    match parseHead (Utf8Lossy.decode (buf.take headEnd)) with
    | .error e => .failed e
    | .ok head => readBody wantBody head (buf.drop headEnd) rest

/-- A connection and its history: each byte the server sent, with the number of requests written by
then, and how many were read, before the current request and in all. -/
structure PooledConnection where
  written : ℕ
  sent : List (UInt8 × ℕ)
  start : ℕ
  taken : ℕ
  reads : List WireRead

def PooledConnection.opened : PooledConnection := ⟨0, [], 0, 0, []⟩

variable (c : PooledConnection)

def PooledConnection.receive (bytes : Bytes) : PooledConnection :=
  { c with sent := c.sent ++ bytes.map (·, c.written) }

def PooledConnection.request : PooledConnection :=
  { c with written := c.written + 1, start := c.taken, reads := [] }

def PooledConnection.inFlight : Bytes := (c.sent.drop c.taken).map Prod.fst

def PooledConnection.answer : List (UInt8 × ℕ) :=
  (c.sent.drop c.start).take (c.taken - c.start)

/-- A running `request_with_pool`: its connection, taken from the pool or opened, and whether the
request has been written. -/
structure PooledAttempt where
  authority : String
  reused : Bool
  conn : PooledConnection
  sending : Bool

/-- A response that was returned: which request it answers, the bytes it was read from, where they
stand, and what the server had sent by then. -/
structure PooledResponse where
  request : ℕ
  start : ℕ
  bytes : List (UInt8 × ℕ)
  sent : List (UInt8 × ℕ)
  response : BucketResponse

structure DownloadPool where
  idle : List (String × PooledConnection)
  running : List PooledAttempt
  returned : List PooledResponse

namespace DownloadPool

def new : DownloadPool := ⟨[], [], []⟩

def swapRemove {α : Type} (xs : List α) (i : ℕ) : List α :=
  match xs.getLast? with
  | none => []
  | some last => (xs.set i last).dropLast

variable (pool : DownloadPool)

def take (authority : String) : Option (PooledConnection × DownloadPool) := do
  let i ← pool.idle.findIdx? fun e => e.1 = authority
  let e ← pool.idle[i]?
  return (e.2, { pool with idle := swapRemove pool.idle i })

def putBack (authority : String) (conn : PooledConnection) : DownloadPool :=
  { pool with idle := pool.idle ++ [(authority, conn)] }

/-- A request starts: a pooled connection if there is one, else a new one if it can be opened. -/
def start (authority : String) (opens : Bool) : DownloadPool :=
  match pool.take authority with
  | some (conn, rest) => { rest with running := rest.running ++ [⟨authority, true, conn, true⟩] }
  | none => if opens then { pool with running := pool.running ++ [⟨authority, false, .opened, true⟩] } else pool

/-- A failed attempt: on a reused connection the request runs once more, on a new one. -/
def fail (k : ℕ) (a : PooledAttempt) (opens : Bool) : DownloadPool :=
  if a.reused && opens then { pool with running := pool.running.set k ⟨a.authority, false, .opened, true⟩ }
  else { pool with running := pool.running.eraseIdx k }

/-- What comes of the reads so far. A redirect is an error, and its connection is not kept. -/
def settle (k : ℕ) (a : PooledAttempt) (opens : Bool) : DownloadPool :=
  match readResponse true a.conn.reads with
  | .waiting => { pool with running := pool.running.set k a }
  | .failed _ => pool.fail k a opens
  | .done response _ =>
    let ended := { pool with running := pool.running.eraseIdx k }
    if 300 ≤ response.status.val ∧ response.status.val < 400 then ended
    else
      let answered := { ended with returned := ended.returned ++
        [⟨a.conn.written, a.conn.start, a.conn.answer, a.conn.sent, response⟩] }
      if response.reusable then answered.putBack a.authority a.conn else answered

inductive Event where
  | request (authority : String) (opens : Bool)
  | write (k : ℕ)
  | writeFails (k : ℕ) (opens : Bool)
  | send (k : ℕ) (bytes : Bytes)
  | sendIdle (k : ℕ) (bytes : Bytes)
  | read (k n : ℕ) (opens : Bool)
  | fault (k : ℕ) (read : WireRead) (opens : Bool)

def step : Event → Option DownloadPool
  | .request authority opens => some (pool.start authority opens)
  | .write k => do
    let a ← pool.running[k]?
    if !a.sending then none
    else return { pool with running := pool.running.set k { a with conn := a.conn.request, sending := false } }
  | .writeFails k opens => do
    let a ← pool.running[k]?
    if !a.sending then none else return pool.fail k a opens
  | .send k bytes => do
    let a ← pool.running[k]?
    return { pool with running := pool.running.set k { a with conn := a.conn.receive bytes } }
  | .sendIdle k bytes => do
    let e ← pool.idle[k]?
    return { pool with idle := pool.idle.set k (e.1, e.2.receive bytes) }
  | .read k n opens => do
    let a ← pool.running[k]?
    let bytes := a.conn.inFlight.take n
    if a.sending || bytes.length ≠ n || n = 0 || 8 * 1024 < n then none
    else
      let conn := { a.conn with taken := a.conn.taken + n, reads := a.conn.reads ++ [.ok bytes] }
      return pool.settle k { a with conn := conn } opens
  | .fault k read opens => do
    let a ← pool.running[k]?
    if a.sending then none
    else match read with
      | .ok (_ :: _) => none
      | read => return pool.settle k { a with conn := { a.conn with reads := a.conn.reads ++ [read] } } opens

end DownloadPool

end SignetDrive
