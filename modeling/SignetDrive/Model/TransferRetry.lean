import Mathlib.Tactic

/-!
# Retrying a transfer in the browser

`transferWithRetry` and `isRetryable` of `web/src/lib/transfer.ts`. `outcomes n` is what the call of
`op` number `n` comes to. The hooks return; the backoff and the traces are left out.
-/

namespace SignetDrive

/-- The value of an operation on numbers whose exact value is given. -/
structure Rounding where
  round : ℚ → ℚ
  monotone : Monotone round
  exact : ∀ n : ℕ, n ≤ 2 ^ 53 → round n = n

inductive TransferError where
  | cancelled
  | relayBusy (retryAfterSeconds : ℚ)
  | stall (message : String)
  /-- An object with a status, which may not be a number. -/
  | withStatus (status : Option ℚ) (message : String)
  | other (text : String)

def isRetryable : TransferError → Bool
  | .cancelled => false
  | .relayBusy _ => true
  | .stall _ => true
  | .withStatus none _ => false
  | .withStatus (some status) _ => status = 0 || status = 408 || (500 ≤ status && status < 600)
  | .other _ => true

inductive TransferDirection where
  | upload
  | download

def TransferDirection.text : TransferDirection → String
  | upload => "upload"
  | download => "download"

inductive TransferRejection where
  | thrown (e : TransferError)
  /-- `TransferExhaustedError`. -/
  | exhausted (message : String) (attempts : ℕ) (lastError : Option TransferError)
      (direction : TransferDirection)

def exhaustedError (attempts : ℕ) (lastError : Option TransferError) (direction : TransferDirection) :
    TransferRejection :=
  let noun := direction.text
  .exhausted (s!"{noun} failed after {attempts} attempts on fresh connections — " ++
      "cause NOT determined at this layer; inspect `cause` (a bare TypeError here " ++
      "cannot distinguish a network fault from an expired or rejected URL)")
    attempts lastError direction

def MAX_BUSY_WAIT_MS : ℚ := 10 * 60000

variable (r : Rounding)

/-- The busy time after the wait for a busy relay, if there is room for it. -/
def busyWait (busyWaitedMs : ℚ) : TransferError → Option ℚ
  | .relayBusy retryAfterSeconds =>
    let waitMs := r.round (max 1 (min retryAfterSeconds 60) * 1000)
    let waited := r.round (busyWaitedMs + waitMs)
    if waited ≤ MAX_BUSY_WAIT_MS then some waited else none
  | _ => none

structure RetryState where
  attempt : ℕ
  busyWaitedMs : ℚ
  lastError : Option TransferError
  /-- The numbers that `op` was called with. -/
  calls : List ℕ

variable {α : Type} (attempts : ℕ) (direction : TransferDirection) (outcomes : ℕ → Except TransferError α)

/-- A wait takes the attempt back. -/
def retryLoop : ℕ → RetryState → Option (Except TransferRejection α × List ℕ)
  | 0, _ => none
  | rounds + 1, s =>
    if s.attempt < attempts then
      let calls := s.calls ++ [s.attempt + 1]
      match outcomes s.calls.length with
      | .ok result => some (.ok result, calls)
      | .error e =>
        match busyWait r s.busyWaitedMs e with
        | some waited => retryLoop rounds { s with busyWaitedMs := waited, calls := calls }
        | none =>
          if isRetryable e then retryLoop rounds ⟨s.attempt + 1, s.busyWaitedMs, some e, calls⟩
          else some (.error (.thrown e), calls)
    else some (.error (exhaustedError attempts s.lastError direction), s.calls)

def transferWithRetry (rounds : ℕ) : Option (Except TransferRejection α × List ℕ) :=
  retryLoop r attempts direction outcomes rounds ⟨0, 0, none, []⟩

end SignetDrive
