import SignetDrive.Model.GarnetRenewal

/-!
# Processes that share a credential file

`BrokerKeystore::open` and `ensure_broker_token` of `cli/src/keystore/broker.rs` with
`renew_cert_flow` of `cli/src/garnet.rs`. A load, a request to the server and a save are one step
each. The server accepts a request only under the pair it issued last.
-/

namespace SignetDrive.Garnet

/-- Where a process is. The renewal keeps the credential that `open` loaded, to fall back to. -/
inductive ProcessPhase where
  | idle
  /-- `open` has loaded the credential. -/
  | opened (cred : PoPCredential)
  /-- The renewal has loaded its own copy. -/
  | renewing (given cred : PoPCredential)
  /-- A renewal was answered, and the rotated credential is to be saved. -/
  | rotated (given cred : PoPCredential) (hadBroker : Bool)
  /-- The rotated credential is saved, and the server token is to be asked for. -/
  | mintingServer (given cred : PoPCredential) (hadBroker : Bool)
  | mintingBroker (given cred : PoPCredential)
  /-- The tokens are minted, and the credential is to be saved once more. -/
  | minted (cred : PoPCredential)
  | reloading
  | ready (cred : PoPCredential)
  /-- `ensure_broker_token` has its answer, and the credential is to be saved. -/
  | tokened (cred : PoPCredential)
  deriving DecidableEq

structure Processes where
  file : PoPCredential
  issued : Bytes × Bytes
  renewedOnce : Bool
  phase : ℕ → ProcessPhase

inductive Event where
  | load
  | notDue (now : ℕ)
  /-- It is due, and the renewal loads the file. -/
  | startRenewal (now : ℕ)
  /-- The server answers the renewal for a fresh scalar with this certificate. -/
  | renew (scalar newCertDer : Bytes)
  | token (token : String)
  /-- A request is refused, or does not get through. -/
  | refused
  | save
  | exit
  deriving DecidableEq

namespace Processes

variable (x : CertPrimitives)

def setPhase (s : Processes) (i : ℕ) (phase : ProcessPhase) : Processes :=
  { s with phase := Function.update s.phase i phase }

def step (s : Processes) (e : ℕ × Event) : Option Processes :=
  let i := e.1
  match s.phase i, e.2 with
  | .idle, .load => some (s.setPhase i (.opened s.file))
  | .opened cred, .notDue now => if renewalDue x now cred then none else some (s.setPhase i (.ready cred))
  | .opened cred, .startRenewal now =>
    if renewalDue x now cred then some (s.setPhase i (.renewing cred s.file)) else none
  | .renewing given cred, .renew scalar newCertDer =>
    -- the server cuts the old pair with its answer; the process may still find fault with it.
    -- A scalar that has no PKCS#8 form is not drawn
    if cred.identity = s.issued then
      match x.p256ScalarToPkcs8Der scalar with
      | .error _ => none
      | .ok newKey =>
        let s := { s with issued := (newKey, newCertDer) }
        match checkRenewed x cred scalar newCertDer with
        | .error _ => some (s.setPhase i (.ready given))
        | .ok rotated => some (s.setPhase i (.rotated given rotated cred.brokerToken.isSome))
    else none
  | .renewing given _, .refused => some (s.setPhase i (.ready given))
  | .rotated given cred hadBroker, .save =>
    some ({ s with file := cred, renewedOnce := true }.setPhase i (.mintingServer given cred hadBroker))
  | .mintingServer given cred hadBroker, .token token =>
    if cred.identity = s.issued then
      let cred := cred.setServerToken token
      some (s.setPhase i (if hadBroker then .mintingBroker given cred else .minted cred))
    else none
  | .mintingServer given _ _, .refused => some (s.setPhase i (.ready given))
  | .mintingBroker _ cred, .token token =>
    if cred.identity = s.issued then some (s.setPhase i (.minted (cred.setBrokerToken token))) else none
  | .mintingBroker given _, .refused => some (s.setPhase i (.ready given))
  | .minted cred, .save => some ({ s with file := cred }.setPhase i .reloading)
  | .reloading, .load => some (s.setPhase i (.ready s.file))
  | .ready cred, .token token =>
    if cred.identity = s.issued then some (s.setPhase i (.tokened (cred.setBrokerToken token))) else none
  | .ready cred, .refused => some (s.setPhase i (.ready cred))
  | .tokened cred, .save => some ({ s with file := cred }.setPhase i (.ready cred))
  | .ready _, .exit => some (s.setPhase i .idle)
  | _, _ => none

end Processes

end SignetDrive.Garnet
