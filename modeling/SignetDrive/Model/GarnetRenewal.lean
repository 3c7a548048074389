import SignetDrive.Lib.Client
import SignetDrive.Lib.Procedure
import SignetDrive.Model.CliError
import SignetDrive.Model.RustStd

/-!
# Renewing the agent's certificate

`cli/src/garnet_credential.rs` and `renew_cert_flow`, `auto_renew_cert_if_due` of
`cli/src/garnet.rs`: one process, whose steps may fail and which may stop at each of them. Between
its truncation and its write a file is torn, and does not parse.
-/

namespace SignetDrive

open Client

structure PoPCredential where
  handle : String
  k4KeyPkcs8 : Bytes
  clientCertDer : Bytes
  caAnchorDer : Bytes
  brokerSpkiPin : String
  grantStatusUrl : String
  serverToken : String
  brokerToken : Option String
  deriving DecidableEq

namespace PoPCredential

def identity (self : PoPCredential) : Bytes × Bytes := (self.k4KeyPkcs8, self.clientCertDer)

def setBrokerToken (self : PoPCredential) (token : String) : PoPCredential :=
  { self with brokerToken := some token }

def setServerToken (self : PoPCredential) (token : String) : PoPCredential :=
  { self with serverToken := token }

def rotateCert (self : PoPCredential) (newKeyPkcs8 newCertDer : Bytes) : PoPCredential :=
  { self with k4KeyPkcs8 := newKeyPkcs8, clientCertDer := newCertDer, brokerToken := none }

end PoPCredential

inductive CredentialFile where
  | absent
  | torn
  | holds (cred : PoPCredential)
  deriving DecidableEq

namespace Garnet

/-- Why a procedure has no result: a step failed, or the process is gone. -/
inductive Halt where
  | failed (e : CliError)
  | stopped
  deriving DecidableEq

/-- A step of the process: it goes on, fails, or is the last thing the process does. -/
inductive Outcome (α : Type) where
  | done (a : α)
  | fails (e : CliError)
  | stops

namespace Outcome

def toExcept {α : Type} : Outcome α → Except Halt α
  | done a => .ok a
  | fails e => .error (.failed e)
  | stops => .error .stopped

end Outcome

/-- How a save ends: where it fails or stops, by what has happened to the file. -/
inductive SaveOutcome where
  | done
  | creatingFails (parent reason : String)
  | openingFails (reason : String)
  | stopsBefore
  | writingFails (reason : String)
  | stopsTorn
  | securingFails (reason : String)
  | stopsWritten

structure CertPrimitives where
  certValidityWindow : Bytes → Option (ℕ × ℕ)
  /-- `cert_san_handle(..).ok().flatten()`. -/
  certSanHandle : Bytes → Option String
  p256ScalarToPkcs8Der : Bytes → Except String Bytes

structure Inputs where
  path : String
  now : ℕ
  /-- The parser's words for a torn file. -/
  parseError : String
  load : Outcome Unit
  scalar : Bytes
  buildCsr : Except String Bytes
  renewal : Outcome Bytes
  saveRotated : SaveOutcome
  serverToken : Outcome String
  brokerToken : Outcome String
  saveTokens : SaveOutcome
  reload : Outcome Unit

abbrev Step (α : Type) := Procedure CredentialFile Halt α

variable (x : CertPrimitives) (env : Inputs)

/-- Reading the file may fail or be the process's last step; what it finds may not parse. -/
def load (read : Outcome Unit) : Step PoPCredential := fun file =>
  (do
    read.toExcept
    match file with
    | .absent => .error (.failed (.keyNotFound s!"no Signet Drive credential at {env.path}"))
    | .torn => .error (.failed (.filesystem s!"parsing {env.path}: {env.parseError}"))
    | .holds cred => .ok cred, file)

def save (outcome : SaveOutcome) (cred : PoPCredential) : Step Unit := fun file =>
  match outcome with
  | .done => (.ok (), .holds cred)
  | .creatingFails parent e => (.error (.failed (.filesystem s!"creating {parent}: {e}")), file)
  | .openingFails e => (.error (.failed (.outputWrite s!"writing {env.path}: {e}")), file)
  | .stopsBefore => (.error .stopped, file)
  | .writingFails e => (.error (.failed (.outputWrite s!"writing {env.path}: {e}")), .torn)
  | .stopsTorn => (.error .stopped, .torn)
  | .securingFails e => (.error (.failed (.outputWrite s!"securing {env.path}: {e}")), .holds cred)
  | .stopsWritten => (.error .stopped, .holds cred)

/-- The renewed certificate must be for the same handle; then the new key is encoded. -/
def checkRenewed (cred : PoPCredential) (scalar newCertDer : Bytes) : Except CliError PoPCredential := do
  let newHandle ← okOr (x.certSanHandle newCertDer)
    (.invalidData "renewal returned a cert without a PRSN-handle SAN")
  if newHandle ≠ cred.handle then
    throw (.invalidData
      s!"renewal returned a cert for '{newHandle}', not '{cred.handle}'. Refusing to rotate")
  let newKey ← (x.p256ScalarToPkcs8Der scalar).mapError fun e => .generic s!"encoding the renewed K4 key: {e}"
  return cred.rotateCert newKey newCertDer

/-- The tokens for the new certificate, the broker's only if one was held. -/
def remint (hadBroker : Bool) (cred : PoPCredential) : Step PoPCredential := do
  let serverToken ← Procedure.check env.serverToken.toExcept
  let cred := cred.setServerToken serverToken
  if hadBroker then
    let brokerToken ← Procedure.check env.brokerToken.toExcept
    return cred.setBrokerToken brokerToken
  else
    return cred

def renewCertFlow : Step Unit := do
  let cred ← load env env.load
  let _ ← Procedure.check ((env.buildCsr.mapError fun e =>
    Halt.failed (.generic s!"building the renewal CSR: {e}")))
  let newCertDer ← Procedure.check env.renewal.toExcept
  let rotated ← Procedure.check ((checkRenewed x cred env.scalar newCertDer).mapError .failed)
  save env env.saveRotated rotated
  let reminted ← remint env cred.brokerToken.isSome rotated
  save env env.saveTokens reminted

def pastHalfValidity (notBefore notAfter now : ℕ) : Bool :=
  now ≥ notBefore + (notAfter - notBefore) / 2

/-- Whether the certificate is due; one whose window cannot be read is not. -/
def renewalDue (now : ℕ) (cred : PoPCredential) : Bool :=
  match x.certValidityWindow cred.clientCertDer with
  | none => false
  | some (notBefore, notAfter) => pastHalfValidity notBefore notAfter now

/-- A failure falls back to the credential given; only the end of the process does not return. -/
def autoRenewCertIfDue (cred : PoPCredential) : Step PoPCredential := fun file =>
  if renewalDue x env.now cred then
    match renewCertFlow x env file with
    | (.error .stopped, file) => (.error .stopped, file)
    | (.error (.failed _), file) => (.ok cred, file)
    | (.ok (), file) =>
      match load env env.reload file with
      | (.error .stopped, file) => (.error .stopped, file)
      | (.error (.failed _), file) => (.ok cred, file)
      | (.ok fresh, file) => (.ok fresh, file)
  else (.ok cred, file)

end Garnet

end SignetDrive
