import SignetDrive.Model.HostSigner
import SignetDrive.Model.Lease

/-!
# The broker

`handle_request` of `cli/src/broker.rs`, run by any number of workers over one set of leases. A worker
holds the lock of its lease while its query is out, and that of the Secure Enclave only after it.
-/

namespace SignetDrive

abbrev Uuid := Fin (2 ^ 128)

instance neZeroUuid : NeZero (2 ^ 128) := ⟨by norm_num⟩

structure VerifiedToken where
  grantId : Uuid
  exp : I64
  deriving DecidableEq

structure BrokerRequest where
  handle : String
  cnf : String
  token : String
  op : Op
  deriving DecidableEq

structure BrokerContext (Key Rand : Type) where
  /-- `garnet_token::verify_skipping_time`, of a token for a handle and a thumbprint. -/
  verifySkippingTime : String → String → String → Option VerifiedToken
  leaseCfg : LeaseConfig
  backend : Backend Key Rand

/-- A request whose worker holds the lease's lock and waits for the answer to its query. -/
structure Querying where
  request : BrokerRequest
  exp : I64
  deriving DecidableEq

structure Broker (Key : Type) where
  leases : Uuid → GrantLease
  querying : Uuid → Option Querying
  /-- Requests to be served, whose workers wait for the lock of the Secure Enclave. -/
  served : List BrokerRequest
  keystore : Keystore Key

inductive BrokerAction (Rand : Type) where
  /-- A worker verifies the token and, once it has the lock of the lease, decides. -/
  | request (r : BrokerRequest)
  /-- The query of the worker that holds the lock of this grant's lease is answered. -/
  | answer (grantId : Uuid) (outcome : GrantStatusOutcome)
  /-- The worker of one of the requests to be served performs its operation. -/
  | perform (index : ℕ) (rand : Rand)

structure BrokerEvent (Rand : Type) where
  now : Instant
  action : BrokerAction Rand

inductive BrokerOutput where
  /-- Nothing happens: the step is not possible now, or the worker panics. -/
  | idle
  | query (grantId : Uuid) (handle cnf : String)
  | serve (grantId : Uuid) (r : BrokerRequest)
  | response (r : BrokerRequest) (response : Response)
  deriving DecidableEq

def FailReason.debug : FailReason → String
  | .revoked => "Revoked"
  | .unreachable => "Unreachable"
  | .tokenExpired => "TokenExpired"

def opErr (code message : String) : Response := .err ⟨code, message⟩

namespace Broker

variable {Key Rand : Type}

def start (keystore : Keystore Key) : Broker Key := ⟨fun _ => .new, fun _ => none, [], keystore⟩

def resolve (self : Broker Key) (grantId : Uuid) (r : BrokerRequest) (decision : Decision) :
    Broker Key × BrokerOutput :=
  match decision with
  | .serve => ({ self with served := self.served ++ [r] }, .serve grantId r)
  | .failClosed .tokenExpired =>
    (self, .response r (opErr "token_expired" "access token expired against trusted server time"))
  | .failClosed reason =>
    (self, .response r (opErr "access_paused" s!"grant not live ({reason.debug})"))
  | .reconfirmRequired => (self, .response r (opErr "internal" "grant check did not resolve"))

variable (ctx : BrokerContext Key Rand) (self : Broker Key)

/-- `handle_request` up to the decision of `decide`, and the query when that asks for one. -/
def request (now : Instant) (r : BrokerRequest) : Broker Key × BrokerOutput :=
  match ctx.verifySkippingTime r.token r.handle r.cnf with
  | none => (self, .response r (opErr "unauthorized" "token verification failed"))
  | some verified =>
    match self.querying verified.grantId with
    | some _ => (self, .idle)
    | none =>
      match (self.leases verified.grantId).decide now verified.exp ctx.leaseCfg with
      | .reconfirmRequired =>
        let querying := Function.update self.querying verified.grantId (some ⟨r, verified.exp⟩)
        ({ self with querying }, .query verified.grantId r.handle r.cnf)
      | decision => self.resolve verified.grantId r decision

/-- `handle_request` from the answer of its query on. -/
def answer (now : Instant) (grantId : Uuid) (outcome : GrantStatusOutcome) : Broker Key × BrokerOutput :=
  match self.querying grantId with
  | none => (self, .idle)
  | some q =>
    let querying := Function.update self.querying grantId none
    match (self.leases grantId).onGrantStatus outcome now q.exp ctx.leaseCfg with
    | none => ({ self with querying }, .idle)
    | some (decision, lease) =>
      let leases := Function.update self.leases grantId lease
      resolve { self with leases, querying } grantId q.request decision

def perform (index : ℕ) (rand : Rand) : Broker Key × BrokerOutput :=
  match self.served[index]? with
  | none => (self, .idle)
  | some r =>
    let (response, keystore) := handleOp ctx.backend self.keystore r.handle r.op rand
    ({ self with served := self.served.eraseIdx index, keystore }, .response r response)

def step (e : BrokerEvent Rand) : Broker Key × BrokerOutput :=
  match e.action with
  | .request r => self.request ctx e.now r
  | .answer grantId outcome => self.answer ctx e.now grantId outcome
  | .perform index rand => self.perform ctx index rand

end Broker

end SignetDrive
