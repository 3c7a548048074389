import SignetDrive.Lib.Procedure
import SignetDrive.Model.Receipt
import SignetDrive.Model.Keystore
import Mathlib.Data.List.DropRight

/-!
# Enrollment

`cli/src/enroll.rs`. The answers of the server, the rounds of each poll and the outcomes of the file
system are inputs; a poll whose rounds are used up is still waiting. The custody backend is any one.
-/

namespace SignetDrive

open Client

inductive Tier where
  | secureEnclave
  | software
  deriving DecidableEq

def Tier.wireStr : Tier → String
  | secureEnclave => "secure_enclave"
  | software => "software"

def Purpose.defaultAlg : Purpose → String
  | signing => "ES256"
  | kem => "ECDH-ES+A256KW"
  | signingPq => "ML-DSA-87"
  | kemPq => "ML-KEM-1024"

def ENROLL_POP_PREFIX : Bytes := utf8 "signet-enroll-pop-v1\n"

def ENROLL_POP_MLDSA_CTX : Bytes := utf8 "signet:attest:v1"

def enrollPopSigningBase (challenge : Bytes) : Bytes := ENROLL_POP_PREFIX ++ challenge

namespace Enroll

def jsonStr (value : Json) (key : String) : Except CliError String :=
  okOr (value.getStr key) (.invalidData s!"server response missing string field '{key}'")

/-- Why a run has no result: a step failed, or a poll goes on. -/
inductive Stop where
  | failed (e : CliError)
  | waiting
  deriving DecidableEq

structure PollState where
  handle : Option String
  attestationId : Option String
  deriving DecidableEq

/-- One round of a poll: the answer, and whether the ceiling has passed by then. -/
structure PollRound where
  answer : Except CliError Json
  timedOut : Bool

def MAX_POLL_SECS : ℕ := 3600

def terminalError (status waitingFor : String) : Option CliError :=
  if status = "expired" then
    some (.generic (s!"the enrollment expired while waiting for {waitingFor}. Ask your " ++
      "guardian for a fresh code (they start over from \"+ Add PRSN\"), " ++
      "then run `signet enroll <NEW-CODE>`"))
  else if status = "cancelled" then
    some (.generic (s!"the enrollment was cancelled while waiting for {waitingFor}. If " ++
      "this is unexpected, ask your guardian; they can start over from " ++
      "\"+ Add PRSN\" with a fresh code"))
  else if status = "failed" then
    some (.generic s!"the enrollment failed while waiting for {waitingFor}")
  else none

def pollOnce (target waitingFor : String) (answer : Except CliError Json) :
    Except CliError (Option PollState) := do
  let resp ← answer
  let status ← jsonStr resp "status"
  if status = target then
    return some ⟨resp.getStr "handle", resp.getStr "attestation_id"⟩
  match terminalError status waitingFor with
  | some e => throw e
  | none => return none

def pollUntil (target waitingFor : String) : List PollRound → Except Stop PollState
  | [] => .error .waiting
  | round :: rounds =>
    match pollOnce target waitingFor round.answer with
    | .error e => .error (.failed e)
    | .ok (some state) => .ok state
    | .ok none =>
      if round.timedOut then
        .error (.failed (.generic s!"timed out after {MAX_POLL_SECS}s waiting for {waitingFor}"))
      else pollUntil target waitingFor rounds

structure PopPrimitives (Envelope : Type) where
  base64UrlDecode : String → Option Bytes
  base64UrlEncode : Bytes → String
  envelopeFromValue : Json → Option Envelope
  ephemeralPubkeyX963 : Envelope → Option Bytes
  ek : Envelope → String
  unwrapWithSharedSecrets : List.Vector UInt8 32 → List.Vector UInt8 32 → Envelope → Bytes → Bytes →
    Bytes → Except CliError (List.Vector UInt8 32)

/-- What became of the proof of possession: the server may accept it and its answer get lost. -/
inductive PopOutcome where
  | accepted
  | acceptedUnanswered (e : CliError)
  | refused (e : CliError)

namespace PopOutcome

def reachedServer : PopOutcome → Bool
  | accepted => true
  | acceptedUnanswered _ => true
  | refused _ => false

def answer : PopOutcome → Except CliError Unit
  | accepted => .ok ()
  | acceptedUnanswered e => .error e
  | refused e => .error e

end PopOutcome

/-- The environment, the answers of the server, what the keystore draws, and the failures of the
keystore's lookups and of the file system. -/
structure Inputs (Rand : Type) where
  baseUrl : String
  code : Option String
  openKeystore : Except CliError Unit
  tier : Tier
  assertedHandle : Option String
  /-- The lookups that fail, when the run starts and when it cleans up. -/
  lookupFails : KeyLabel → Bool
  cleanupLookupFails : KeyLabel → Bool
  join : Except CliError Json
  confirming : List PollRound
  keyRand : Purpose → Rand
  submitKeys : Except CliError Json
  signRand : Purpose → Rand
  submitPop : PopOutcome
  completing : List PollRound
  /-- The signing key that the config names, where one loads. -/
  existingDefault : Option String
  configParent : Option String
  configPath : String
  createDirAll : Except String Unit
  writeConfig : Except String Unit
  printJson : Except CliError Unit

structure SubmittedKey where
  pubkey : String
  fingerprint : String
  deriving DecidableEq

inductive Request where
  | join (code : String)
  | keys (code submitToken : String) (signing kem signingPq kemPq : SubmittedKey)
      (keyProtection : String)
  | pop (code submitToken signatureEs256 signatureMldsa87 nonce : String)
  deriving DecidableEq

/-- The keystore and the config file, the requests sent, and whether the server has accepted the
proof of possession. -/
structure State (Key : Type) where
  keystore : Keystore Key
  config : Option String
  sent : List Request
  popAccepted : Bool

structure EnrollResult where
  handle : String
  keyProtection : String
  attestationId : Option String
  configPath : Option String
  alreadyEnrolled : Bool
  deriving DecidableEq

structure EnrollLabels where
  signing : KeyLabel
  kem : KeyLabel
  signingPq : KeyLabel
  kemPq : KeyLabel

namespace EnrollLabels

def ofHandle (handle : String) : Except CliError EnrollLabels := do
  let signing ← KeyLabel.fromHandle handle .signing
  let kem ← KeyLabel.fromHandle handle .kem
  let signingPq ← KeyLabel.fromHandle handle .signingPq
  let kemPq ← KeyLabel.fromHandle handle .kemPq
  return ⟨signing, kem, signingPq, kemPq⟩

def toList (self : EnrollLabels) : List KeyLabel :=
  [self.signing, self.kem, self.signingPq, self.kemPq]

end EnrollLabels

section

variable {Key Rand Envelope α : Type}

def attempt (x : Except CliError α) : Procedure (State Key) Stop α :=
  Procedure.check (x.mapError .failed)

def send (r : Request) : Procedure (State Key) Stop Unit :=
  Procedure.update fun s => { s with sent := s.sent ++ [r] }

def withKey (l : KeyLabel) (op : KeyLabel → Option Key → Except CliError α) :
    Procedure (State Key) Stop α :=
  fun s => ((op l (s.keystore.get l)).mapError .failed, s)

def existsOrFalse (fails : KeyLabel → Bool) (ks : Keystore Key) (l : KeyLabel) : Bool :=
  !fails l && ks.contains l

variable (b : Backend Key Rand) (p : PopPrimitives Envelope) (env : Inputs Rand)

def base : String := String.ofList (env.baseUrl.toList.rdropWhile (· == '/'))

def generate (l : KeyLabel) : Procedure (State Key) Stop KeyMeta := fun s =>
  let result := s.keystore.generate b l l.purpose.defaultAlg (env.keyRand l.purpose)
  (result.1.mapError .failed, { s with keystore := result.2 })

def join (code : String) : Procedure (State Key) Stop String := do
  send (.join code)
  let resp ← attempt env.join
  attempt (jsonStr resp "submit_token")

def submittedKey (m : KeyMeta) : SubmittedKey := ⟨p.base64UrlEncode m.publicKey, m.fingerprint⟩

def popChallenge (resp : Json) : Except CliError (Bytes × Envelope) := do
  let challengeB64 ← jsonStr resp "pop_challenge"
  let challenge ← okOr (p.base64UrlDecode challengeB64) (.invalidData "pop_challenge is not base64url")
  let value ← okOr (resp.get "pop_nonce_envelope")
    (.invalidData "server response missing pop_nonce_envelope")
  let envelope ← okOr (p.envelopeFromValue value)
    (.invalidData "pop_nonce_envelope is not a hybrid recipient block")
  return (challenge, envelope)

def submitKeys (code submitToken : String) (signing kem signingPq kemPq : KeyMeta) :
    Procedure (State Key) Stop (Bytes × Envelope) := do
  send (.keys code submitToken (submittedKey p signing) (submittedKey p kem)
    (submittedKey p signingPq) (submittedKey p kemPq) env.tier.wireStr)
  let resp ← attempt env.submitKeys
  attempt (popChallenge p resp)

def unwrapKeyHybrid (kem kemPq : KeyLabel) (envelope : Envelope) (partyV : Bytes) :
    Procedure (State Key) Stop (List.Vector UInt8 32) := do
  let epk ← attempt (okOr (p.ephemeralPubkeyX963 envelope) (.invalidData "hybrid wrap epk"))
  let ek ← attempt (okOr (p.base64UrlDecode (p.ek envelope))
    (.invalidData "hybrid wrap ek is not base64url"))
  let zEcdh ← withKey kem fun l entry => b.ecdh l entry epk
  let zMlkem ← withKey kemPq fun l entry => b.mlKemDecapsulate l entry ek
  let rkEc ← withKey kem b.keyMeta
  let rkPq ← withKey kemPq b.keyMeta
  attempt (p.unwrapWithSharedSecrets zEcdh zMlkem envelope rkEc.publicKey rkPq.publicKey partyV)

def submitPop (code submitToken : String) (sigEs256 sigMldsa87 nonce : Bytes) :
    Procedure (State Key) Stop Unit := do
  send (.pop code submitToken (p.base64UrlEncode sigEs256) (p.base64UrlEncode sigMldsa87)
    (p.base64UrlEncode nonce))
  Procedure.update fun s => { s with popAccepted := env.submitPop.reachedServer }
  attempt env.submitPop.answer

def provePossession (code submitToken : String) (labels : EnrollLabels) (challenge : Bytes)
    (envelope : Envelope) : Procedure (State Key) Stop Unit := do
  let msg := enrollPopSigningBase challenge
  let sigEs256 ← withKey labels.signing fun l entry => b.sign l entry msg (env.signRand .signing)
  let sigMldsa87 ← withKey labels.signingPq fun l entry =>
    b.mlDsaSign l entry msg ENROLL_POP_MLDSA_CTX (env.signRand .signingPq)
  let nonce ← unwrapKeyHybrid b p labels.kem labels.kemPq envelope []
  submitPop p env code submitToken sigEs256.toList sigMldsa87 nonce.toList

def shouldWriteDefault (existingDefaultSigning : Option String) (newSigningLabel : String) : Bool :=
  match existingDefaultSigning with
  | none => true
  | some cur => cur == newSigningLabel

def defaultConfigToml (base : String) (signing kem : KeyMeta) : String :=
  "# Signet Drive per-PRSN config (written by `signet enroll`). Optional + hidden,\n" ++
  "# preferences only: identity is discovered (SIGNET_HANDLE / the channel pin), not\n" ++
  "# carried here. Private keys live in this Mac's Secure Enclave, never in this file.\n" ++
  s!"server_base_url = \"{base}\"\n" ++
  s!"default_signing_key = \"{signing.label}\"\n" ++
  s!"default_kem_key = \"{kem.label}\"\n"

def createConfigDir : Except CliError Unit :=
  match env.configParent with
  | none => .ok ()
  | some parent => env.createDirAll.mapError fun e => .filesystem s!"creating {parent}: {e}"

def writeFile : Except CliError Unit :=
  env.writeConfig.mapError fun e => .filesystem s!"writing {env.configPath}: {e}"

def writeDefaultConfig (signing kem : KeyMeta) : Procedure (State Key) Stop (Option String) :=
  if shouldWriteDefault env.existingDefault signing.label then do
    attempt (createConfigDir env)
    attempt (writeFile env)
    Procedure.update fun s => { s with config := some (defaultConfigToml (base env) signing kem) }
    return some env.configPath
  else
    return none

def complete (code submitToken handle : String) (labels : EnrollLabels) :
    Procedure (State Key) Stop EnrollResult := do
  let signing ← generate b env labels.signing
  let kem ← generate b env labels.kem
  let signingPq ← generate b env labels.signingPq
  let kemPq ← generate b env labels.kemPq
  let pop ← submitKeys p env code submitToken signing kem signingPq kemPq
  provePossession b p env code submitToken labels pop.1 pop.2
  let completed ← Procedure.check (pollUntil "completed" "the attestation" env.completing)
  let configPath ← writeDefaultConfig env signing kem
  return ⟨handle, env.tier.wireStr, completed.attestationId, configPath, false⟩

/-- One label of the cleanup; the outcome of the deletion is dropped. -/
def cleanupKey (s : State Key) (l : KeyLabel) : State Key :=
  if existsOrFalse env.cleanupLookupFails s.keystore l then
    { s with keystore := (s.keystore.delete b l).2 }
  else s

def cleanupKeys (labels : EnrollLabels) (s : State Key) : State Key :=
  labels.toList.foldl (cleanupKey b env) s

def enrolledHandle (ks : Keystore Key) : Except CliError (Option String) :=
  match env.assertedHandle with
  | none => .ok none
  | some handle => do
    let signing ← KeyLabel.fromHandle handle .signing
    let kem ← KeyLabel.fromHandle handle .kem
    if existsOrFalse env.lookupFails ks signing && existsOrFalse env.lookupFails ks kem then
      return some handle
    else
      return none

structure ConfirmedHandle where
  code : String
  submitToken : String
  handle : String
  labels : EnrollLabels

def awaitConfirmation : Procedure (State Key) Stop ConfirmedHandle := do
  let code ← attempt (okOr env.code (.invalidArgs
    ("not enrolled yet, and no enrollment CODE was given. Ask your guardian to open " ++
      "\"+ Add PRSN\" in Signet and hand you the one-time code, then run " ++
      "`signet enroll <CODE>`. (If you ARE enrolled, set SIGNET_HANDLE so I can tell.)")))
  let submitToken ← join env code
  let confirmed ← Procedure.check (pollUntil "confirmed" "confirmation" env.confirming)
  let handle ← attempt (okOr confirmed.handle
    (.invalidData "server reported 'confirmed' without a handle"))
  let labels ← attempt (EnrollLabels.ofHandle handle)
  return ⟨code, submitToken, handle, labels⟩

/-- `complete`, with the cleanup of the caller on its error. -/
def completeOrCleanup (confirmed : ConfirmedHandle) : Procedure (State Key) Stop EnrollResult := fun s =>
  match complete b p env confirmed.code confirmed.submitToken confirmed.handle confirmed.labels s with
  | (.error (.failed e), s') => (.error (.failed e), cleanupKeys b env confirmed.labels s')
  | outcome => outcome

def checkEnrolled : Procedure (State Key) Stop (Option String) := fun s =>
  ((enrolledHandle env s.keystore).mapError .failed, s)

def enrollUnless : Option String → Procedure (State Key) Stop EnrollResult
  | some handle => pure ⟨handle, env.tier.wireStr, none, none, true⟩
  | none => do
    let confirmed ← awaitConfirmation env
    completeOrCleanup b p env confirmed

def enroll : Procedure (State Key) Stop EnrollResult := do
  attempt env.openKeystore
  let enrolled ← checkEnrolled env
  let result ← enrollUnless b p env enrolled
  attempt env.printJson
  return result

end

end Enroll

end SignetDrive
