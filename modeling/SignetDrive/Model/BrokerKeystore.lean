import SignetDrive.Model.GarnetRenewal
import SignetDrive.Model.HostSigner

/-!
# The broker keystore and its recoveries

`perform_op`, `ensure_broker_token` and the re-pickup of `cli/src/keystore/broker.rs`, with
`pickup_and_save` of `cli/src/garnet.rs` and the refusal of writes of `cli/src/http.rs`, in a world
that answers and changes.
-/

namespace SignetDrive

def cliErrorFromWire (e : OpErr) : CliError :=
  match e.code with
  | "key_already_exists" => .keyExists e.message
  | "key_not_found" => .keyNotFound e.message
  | "unsupported_algorithm" => .unsupportedAlgorithm e.message
  | "invalid_arguments" => .invalidArgs e.message
  | "invalid_data" => .invalidData e.message
  | "unsupported_platform" => .new 51 "unsupported_platform" e.message
  | "authorization_denied" => .authorizationDenied e.message
  | "filesystem_error" => .filesystem e.message
  | "encryption_failed" => .encryptionFailed e.message
  | "decrypt_failed" => .decryptFailed e.message
  | "access_paused" => .new 77 "access_paused" e.message
  | _ => .generic e.message

namespace BrokerKeystore

structure World (W : Type) where
  tokenNearExpiry : String → W → Bool
  requestToken : PoPCredential → String → W → Except CliError String × W
  perform : PoPCredential → String → Op → W → Except CliError Response × W
  loadConfig : W → Except CliError Unit × W
  openEnrollmentChannel : W → Except CliError Unit × W
  /-- The pickup up to its request: the label, the key and the CSR. -/
  preparePickup : String → W → Except CliError Unit × W
  /-- The signed request and the reading of its answer. -/
  postPickup : String → W → Except CliError PoPCredential × W
  save : PoPCredential → W → Except CliError Unit × W
  load : W → Except CliError PoPCredential × W
  /-- `BrokerClient::new`. -/
  newClient : PoPCredential → W → Except CliError Unit × W

structure State (W : Type) where
  world : W
  cred : PoPCredential
  client : PoPCredential
  reauthAttempted : Bool

abbrev Step (W α : Type) := Procedure (State W) CliError α

inductive Recovery where
  | pinRefresh
  | reauthOnce
  | none
  deriving DecidableEq

def recoveryFor (code : String) (attempted : Bool) : Recovery × Bool :=
  if code = "broker_pin_mismatch" then (.pinRefresh, attempted)
  else if code = "access_paused" ∨ code = "token_denied" then
    (if attempted then .none else .reauthOnce, true)
  else (.none, attempted)

section

variable {W α : Type} (w : World W)

def call (f : W → Except CliError α × W) : Step W α := fun s =>
  let result := f s.world
  (result.1, { s with world := result.2 })

def getCred : Step W PoPCredential := fun s => (.ok s.cred, s)

def setCred (cred : PoPCredential) : Step W Unit := Procedure.update fun s => { s with cred := cred }

/-- The credential in memory has the new token even if it cannot be saved. -/
def renewBrokerToken : Step W String := do
  let cred ← getCred
  let token ← call (w.requestToken cred "signet-broker")
  setCred (cred.setBrokerToken token)
  call (w.save (cred.setBrokerToken token))
  return token

def brokerTokenStale (s : State W) : Bool :=
  match s.cred.brokerToken with
  | none => true
  | some token => w.tokenNearExpiry token s.world

def ensureBrokerToken (force : Bool) : Step W String := fun s =>
  if force || brokerTokenStale w s then renewBrokerToken w s
  else (Client.okOr s.cred.brokerToken (.generic "broker token unavailable after renewal"), s)

def performWire (token : String) (op : Op) : Step W Response := fun s =>
  call (w.perform s.client token op) s

def performOpInner (op : Op) : Step W OpOk := do
  let token ← ensureBrokerToken w false
  let response ← performWire w token op
  match response with
  | .ok ok => return ok
  | .err e =>
    if e.code = "token_expired" ∨ e.code = "unauthorized" then
      let token ← ensureBrokerToken w true
      let response ← performWire w token op
      match response with
      | .ok ok => return ok
      | .err e => Procedure.check (.error (cliErrorFromWire e))
    else Procedure.check (.error (cliErrorFromWire e))

variable (readOnly : Bool)

def refuseWriteIfReadOnly (method : String) : Except CliError Unit :=
  if readOnly then
    .error (.generic (s!"internal: a {method} inside an epoch-bound attempt, which may run twice; " ++
      "refusing the write"))
  else .ok ()

def pickup (handle : String) : Step W PoPCredential := do
  call (w.preparePickup handle)
  Procedure.check (refuseWriteIfReadOnly readOnly "POST")
  call (w.postPickup handle)

/-- The pickup's error, in the words of `pickup_and_save`. -/
def pickupFailed (e : CliError) : CliError :=
  .generic (s!"signed pickup failed: {e.code}: {e.message}\n  If you have not enrolled yet, run `signet enroll` " ++
    "(your guardian opens it from their Signet Drive account page). If you are " ++
    "enrolled, your guardian may not have authorized Signet Drive access yet.")

def mapError (f : CliError → CliError) (p : Step W α) : Step W α := fun s =>
  let result := p s
  (result.1.mapError f, result.2)

/-- The broker token is asked for too, but the pickup does not need it. -/
def completeWithToken (cred : PoPCredential) : Step W PoPCredential := fun s =>
  match w.requestToken cred "signet-broker" s.world with
  | (.ok token, world) => (.ok (cred.setBrokerToken token), { s with world := world })
  | (.error _, world) => (.ok cred, { s with world := world })

def pickupAndSave (handle : String) : Step W Unit := do
  call w.openEnrollmentChannel
  let cred ← mapError pickupFailed (pickup w readOnly handle)
  let cred ← completeWithToken w cred
  call (w.save cred)

def repickupAndReload (handle : String) : Step W Unit := do
  call w.loadConfig
  pickupAndSave w readOnly handle
  let fresh ← call w.load
  call (w.newClient fresh)
  Procedure.update fun s => { s with cred := fresh, client := fresh }

def repickup : Step W Unit := do
  let cred ← getCred
  repickupAndReload w readOnly cred.handle

/-- After the re-authorization: one retry, or the error that was there before. -/
def retryOr (op : Op) (e : CliError) : Except CliError Unit × State W → Except CliError OpOk × State W
  | (.ok (), s) => performOpInner w op s
  | (.error _, s) => (.error e, s)

def recover (op : Op) (e : CliError) : Step W OpOk := fun s =>
  let decision := recoveryFor e.code s.reauthAttempted
  let s := { s with reauthAttempted := decision.2 }
  match decision.1 with
  | .pinRefresh => (repickup w readOnly >>= fun _ => performOpInner w op) s
  | .reauthOnce => retryOr w op e (repickup w readOnly s)
  | .none => (.error e, s)

def performOp (op : Op) : Step W OpOk := fun s =>
  match performOpInner w op s with
  | (.error e, s) => recover w readOnly op e s
  | (.ok ok, s) => (.ok ok, s)

def performAll (s : State W) : List (Bool × Op) → State W
  | [] => s
  | (readOnly, op) :: rest => performAll (performOp w readOnly op s).2 rest

end

end BrokerKeystore

end SignetDrive
