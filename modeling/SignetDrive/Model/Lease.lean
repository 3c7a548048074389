import SignetDrive.Model.RustStd

/-!
# The check-at-use lease

The state machine of `cli/src/garnet_revocation.rs`, fed with the outcome of each grant-status query.
A panicking addition of durations is `none` and leaves the lease as it was.
-/

namespace SignetDrive

structure LeaseConfig where
  lease : Duration
  outageGrace : Duration
  tokenSkew : Duration
  deriving DecidableEq

def LEASE_MIN_SECS : U64 := 5
def LEASE_MAX_SECS : U64 := 120
def OUTAGE_GRACE_MIN_SECS : U64 := 0
def OUTAGE_GRACE_MAX_SECS : U64 := 600

namespace LeaseConfig

def clampedLease (leaseSeconds : I64) : Duration :=
  Duration.fromSecs ((max leaseSeconds ⟨0, by norm_num⟩).asU64.clamp LEASE_MIN_SECS LEASE_MAX_SECS)

def clampedOutageGrace (outageGraceSeconds : I64) : Duration :=
  Duration.fromSecs ((max outageGraceSeconds ⟨0, by norm_num⟩).asU64.clamp
    OUTAGE_GRACE_MIN_SECS OUTAGE_GRACE_MAX_SECS)

/-- Adopt server-supplied values: an allocation over the compiled budget is refused whole. -/
def withServerValues (self : LeaseConfig) (leaseSeconds outageGraceSeconds : I64) :
    Option LeaseConfig := do
  let lease := clampedLease leaseSeconds
  let outageGrace := clampedOutageGrace outageGraceSeconds
  let budget ← self.lease.add self.outageGrace
  let total ← lease.add outageGrace
  if total.nanos > budget.nanos then return self
  return { lease, outageGrace, tokenSkew := self.tokenSkew }

end LeaseConfig

def defaultLeaseConfig : LeaseConfig where
  lease := Duration.fromSecs 30
  outageGrace := Duration.fromSecs 90
  tokenSkew := Duration.fromSecs 30

structure ServerSla where
  leaseSeconds : I64
  outageGraceSeconds : I64
  deriving DecidableEq

inductive GrantStatusOutcome where
  | live (serverTime : I64) (sla : Option ServerSla)
  | revoked
  | unreachable
  deriving DecidableEq

inductive FailReason where
  | revoked
  | unreachable
  | tokenExpired
  deriving DecidableEq

inductive Decision where
  | serve
  | reconfirmRequired
  | failClosed (reason : FailReason)
  deriving DecidableEq

structure Confirm where
  serverTime : I64
  receivedAt : Instant
  deriving DecidableEq

structure GrantLease where
  lastConfirm : Option Confirm
  trustedFloor : I64
  serverSla : Option LeaseConfig
  deriving DecidableEq

namespace GrantLease

def new : GrantLease := ⟨none, I64.MIN, none⟩

variable (self : GrantLease)

def effective (defaults : LeaseConfig) : LeaseConfig :=
  self.serverSla.getD defaults

def trustedNow (confirm : Confirm) (age : Duration) : I64 :=
  max (confirm.serverTime.saturatingAdd age.asSecs.asI64) self.trustedFloor

def tokenExpDecision (confirm : Confirm) (age : Duration) (tokenExp : I64) (cfg : LeaseConfig) : Decision :=
  let skew := cfg.tokenSkew.asSecs.asI64
  if (tokenExp.saturatingAdd skew).1 < (self.trustedNow confirm age).1 then .failClosed .tokenExpired
  else .serve

protected def decide (now : Instant) (tokenExp : I64) (cfg : LeaseConfig) : Decision :=
  let cfg := self.effective cfg
  match self.lastConfirm with
  | none => .reconfirmRequired
  | some confirm =>
    let age := now.saturatingDurationSince confirm.receivedAt
    if age.nanos ≥ cfg.lease.nanos then .reconfirmRequired
    else self.tokenExpDecision confirm age tokenExp cfg

def adoptSla (sla : Option ServerSla) (cfg : LeaseConfig) : Option GrantLease :=
  match sla with
  | none => some self
  | some sla => do
    let adopted ← cfg.withServerValues sla.leaseSeconds sla.outageGraceSeconds
    return { self with serverSla := some adopted }

/-- The lease after a live answer: anchored at the server's time, never below the floor. -/
def refresh (serverTime : I64) (now : Instant) : GrantLease :=
  let anchored := max serverTime self.trustedFloor
  { self with trustedFloor := anchored, lastConfirm := some ⟨anchored, now⟩ }

/-- `none` is a panic, before which nothing of the lease was written. -/
def onGrantStatus (outcome : GrantStatusOutcome) (now : Instant) (tokenExp : I64) (cfg : LeaseConfig) :
    Option (Decision × GrantLease) :=
  match outcome with
  | .live serverTime sla => do
    let self ← self.adoptSla sla cfg
    let cfg := self.effective cfg
    let anchored := max serverTime self.trustedFloor
    let self := self.refresh serverTime now
    return (self.tokenExpDecision ⟨anchored, now⟩ Duration.ZERO tokenExp cfg, self)
  | .revoked => some (.failClosed .revoked, self)
  | .unreachable =>
    let cfg := self.effective cfg
    match self.lastConfirm with
    | some confirm => do
      let age := now.saturatingDurationSince confirm.receivedAt
      let window ← cfg.lease.add cfg.outageGrace
      if age.nanos < window.nanos then
        return (self.tokenExpDecision confirm age tokenExp cfg, self)
      return (.failClosed .unreachable, self)
    | none => some (.failClosed .unreachable, self)

end GrantLease

/-- One request on one lease, as the broker drives it: the time of `decide`, and the answer
and its time should a query be needed. -/
structure LeaseRequest where
  decideAt : Instant
  tokenExp : I64
  outcome : GrantStatusOutcome
  answerAt : Instant

namespace GrantLease

def queries (self : GrantLease) (cfg : LeaseConfig) (r : LeaseRequest) : Prop :=
  self.decide r.decideAt r.tokenExp cfg = .reconfirmRequired

instance (self : GrantLease) (cfg : LeaseConfig) (r : LeaseRequest) :
    Decidable (self.queries cfg r) := by
  unfold queries
  infer_instance

/-- The lease part of `handle_request`, under the lock of the lease. No decision comes out
of a panic. -/
def handle (cfg : LeaseConfig) (self : GrantLease) (r : LeaseRequest) :
    GrantLease × Option Decision :=
  match self.decide r.decideAt r.tokenExp cfg with
  | .reconfirmRequired =>
    match self.onGrantStatus r.outcome r.answerAt r.tokenExp cfg with
    | some (decision, self) => (self, some decision)
    | none => (self, none)
  | other => (self, some other)

end GrantLease

inductive LeaseCall where
  | decide (now : Instant) (tokenExp : I64)
  | onGrantStatus (outcome : GrantStatusOutcome) (now : Instant) (tokenExp : I64)
  deriving DecidableEq

namespace LeaseCall

def now : LeaseCall → Instant
  | .decide now _ => now
  | .onGrantStatus _ now _ => now

def tokenExp : LeaseCall → I64
  | .decide _ tokenExp => tokenExp
  | .onGrantStatus _ _ tokenExp => tokenExp

def isLive : LeaseCall → Prop
  | .onGrantStatus (.live _ _) _ _ => True
  | _ => False

instance : DecidablePred isLive := by
  intro c
  unfold isLive
  split <;> infer_instance

end LeaseCall

def GrantLease.call (cfg : LeaseConfig) (self : GrantLease) : LeaseCall → GrantLease × Option Decision
  | .decide now tokenExp => (self, some (self.decide now tokenExp cfg))
  | .onGrantStatus outcome now tokenExp =>
    match self.onGrantStatus outcome now tokenExp cfg with
    | some (decision, self) => (self, some decision)
    | none => (self, none)

end SignetDrive
