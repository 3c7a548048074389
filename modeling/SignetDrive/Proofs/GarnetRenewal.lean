import SignetDrive.Model.GarnetRenewal

/-!
# A renewal that does not get to its end
-/

namespace SignetDrive.Proofs
open Client Garnet Procedure

namespace Renewal

def tears : SaveOutcome → Bool
  | .writingFails _ => true
  | .stopsTorn => true
  | _ => false

def writes : SaveOutcome → Bool
  | .done => true
  | .securingFails _ => true
  | .stopsWritten => true
  | _ => false

def saveFails : SaveOutcome → Bool
  | .creatingFails _ _ => true
  | .openingFails _ => true
  | .writingFails _ => true
  | .securingFails _ => true
  | _ => false

def stepFails {α : Type} : Outcome α → Bool
  | .fails _ => true
  | _ => false

def stepDone {α : Type} : Outcome α → Bool
  | .done _ => true
  | _ => false

def saveDone : SaveOutcome → Bool
  | .done => true
  | _ => false

variable {x : CertPrimitives} {env : Garnet.Inputs} {cred rotated : PoPCredential} {outcome : SaveOutcome}
  {file : CredentialFile}

/-- The renewal comes as far as its first save, with this credential. -/
structure Rotates (x : CertPrimitives) (env : Garnet.Inputs) (cred rotated : PoPCredential) : Prop where
  due : renewalDue x env.now cred = true
  loaded : stepDone env.load = true
  csr : ∃ csr, env.buildCsr = .ok csr
  renewed : ∃ newCertDer, env.renewal = .done newCertDer ∧
    checkRenewed x cred env.scalar newCertDer = .ok rotated

def minted (env : Garnet.Inputs) (hadBroker : Bool) : Bool :=
  stepDone env.serverToken && (!hadBroker || stepDone env.brokerToken)

/-- A step after the renewal returns an error: a save, a token that is asked for or the reload. -/
def failsLate (env : Garnet.Inputs) (hadBroker : Bool) : Bool :=
  saveFails env.saveRotated ||
  saveDone env.saveRotated && (
    stepFails env.serverToken ||
    stepDone env.serverToken && hadBroker && stepFails env.brokerToken ||
    minted env hadBroker && (saveFails env.saveTokens || saveDone env.saveTokens && stepFails env.reload))

/-- The first save, or the second one after it, stops in its write. -/
def tearsFile (env : Garnet.Inputs) (hadBroker : Bool) : Bool :=
  tears env.saveRotated || saveDone env.saveRotated && minted env hadBroker && tears env.saveTokens

def reminted (env : Garnet.Inputs) (hadBroker : Bool) (c : PoPCredential) : PoPCredential :=
  match env.serverToken, env.brokerToken with
  | .done serverToken, .done brokerToken =>
    if hadBroker then (c.setServerToken serverToken).setBrokerToken brokerToken
    else c.setServerToken serverToken
  | .done serverToken, _ => c.setServerToken serverToken
  | _, _ => c

lemma identity_reminted (env : Garnet.Inputs) (hadBroker : Bool) (c : PoPCredential) :
    (reminted env hadBroker c).identity = c.identity := by
  unfold reminted
  split
  · split <;> rfl
  · rfl
  · rfl

lemma remint_apply (env : Garnet.Inputs) (hadBroker : Bool) (c : PoPCredential) (file : CredentialFile) :
    (remint env hadBroker c file).2 = file ∧
    (minted env hadBroker = true → (remint env hadBroker c file).1 = .ok (reminted env hadBroker c)) ∧
    (minted env hadBroker = false →
      (stepFails env.serverToken || stepDone env.serverToken && hadBroker && stepFails env.brokerToken) = true →
        ∃ e, (remint env hadBroker c file).1 = .error (.failed e)) ∧
    (minted env hadBroker = false →
      (stepFails env.serverToken || stepDone env.serverToken && hadBroker && stepFails
        env.brokerToken) = false →
        (remint env hadBroker c file).1 = .error .stopped) := by
  cases hserver : env.serverToken <;> cases hbroker : env.brokerToken <;> cases hadBroker <;>
    simp [remint, bind, pure, check, minted, reminted, stepDone, stepFails, Outcome.toExcept, hserver, hbroker]

lemma no_token_fails {hadBroker : Bool} (h : minted env hadBroker = true) :
    (stepFails env.serverToken || stepDone env.serverToken && hadBroker && stepFails
      env.brokerToken) = false := by
  revert h
  unfold minted
  cases env.serverToken <;> cases env.brokerToken <;> cases hadBroker <;> simp [stepDone, stepFails]

def fromRotated (env : Garnet.Inputs) (hadBroker : Bool) (rotated : PoPCredential) : Garnet.Step Unit := do
  save env env.saveRotated rotated
  let minted ← remint env hadBroker rotated
  save env env.saveTokens minted

lemma renewCertFlow_of_rotates (h : Rotates x env cred rotated) :
    renewCertFlow x env (.holds cred) = fromRotated env cred.brokerToken.isSome rotated (.holds cred) := by
  obtain ⟨csr, hcsr⟩ := h.csr
  obtain ⟨newCertDer, hrenewal, hchecked⟩ := h.renewed
  have hload : load env env.load (.holds cred) = (.ok cred, .holds cred) := by
    have hdone := h.loaded
    cases hread : env.load <;> simp [stepDone, hread] at hdone
    rfl
  unfold renewCertFlow
  rw [bind_of_ok hload, bind_of_ok (show check _ _ = (.ok csr, CredentialFile.holds cred) by rw [hcsr]; rfl),
    bind_of_ok (show check _ _ = (.ok newCertDer, CredentialFile.holds cred) by rw [hrenewal]; rfl),
    bind_of_ok (show check _ _ = (.ok rotated, CredentialFile.holds cred) by rw [hchecked]; rfl)]
  rfl

lemma renewCertFlow_of_not_rotates (hdue : renewalDue x env.now cred = true)
    (h : ∀ rotated, ¬ Rotates x env cred rotated) :
    ∃ halt, renewCertFlow x env (.holds cred) = (.error halt, .holds cred) := by
  have hload : (∃ halt, load env env.load (.holds cred) = (.error halt, .holds cred)) ∨
      stepDone env.load = true ∧ load env env.load (.holds cred) = (.ok cred, .holds cred) := by
    cases env.load with
    | done u => exact .inr ⟨rfl, rfl⟩
    | fails | stops => exact .inl ⟨_, rfl⟩
  unfold renewCertFlow
  obtain ⟨halt, hhalt⟩ | ⟨hdone, hheld⟩ := hload
  · exact ⟨halt, bind_of_error hhalt⟩
  rw [bind_of_ok hheld]
  obtain ⟨halt, hhalt⟩ | ⟨csr, hcsr, hnext⟩ := check_bind _ _ (CredentialFile.holds cred)
  · exact ⟨halt, hhalt⟩
  rw [hnext]
  obtain ⟨halt, hhalt⟩ | ⟨newCertDer, hrenewal, hnext⟩ := check_bind _ _ (CredentialFile.holds cred)
  · exact ⟨halt, hhalt⟩
  rw [hnext]
  obtain ⟨halt, hhalt⟩ | ⟨rotated, hchecked, -⟩ := check_bind _ _ (CredentialFile.holds cred)
  · exact ⟨halt, hhalt⟩
  · refine absurd ⟨hdue, hdone, ⟨csr, except_mapError_ok.mp hcsr⟩, newCertDer, ?_,
      except_mapError_ok.mp hchecked⟩ (h rotated)
    cases houtcome : env.renewal <;> rw [houtcome] at hrenewal <;> cases hrenewal
    rfl

inductive Ends (env : Garnet.Inputs) (cred rotated : PoPCredential) :
    Except Halt PoPCredential × CredentialFile → Prop
  | torn (result) (htears : tearsFile env cred.brokerToken.isSome = true) :
      Ends env cred rotated (result, .torn)
  | stopped (hsave : env.saveRotated = .stopsBefore) : Ends env cred rotated (.error .stopped, .holds cred)
  | unsaved (htears : tearsFile env cred.brokerToken.isSome = false)
      (hlate : failsLate env cred.brokerToken.isSome = true) : Ends env cred rotated (.ok cred, .holds cred)
  | late (held) (htears : tearsFile env cred.brokerToken.isSome = false)
      (hlate : failsLate env cred.brokerToken.isSome = true) (hheld : held.identity = rotated.identity) :
      Ends env cred rotated (.ok cred, .holds held)
  | renewed (result held) (htears : tearsFile env cred.brokerToken.isSome = false)
      (hlate : failsLate env cred.brokerToken.isSome = false) (hheld : held.identity = rotated.identity)
      (hresult : result = .ok held ∨ result = .error .stopped) : Ends env cred rotated (result, .holds held)

lemma save_ends (env : Garnet.Inputs) (outcome : SaveOutcome) (c : PoPCredential) (file : CredentialFile) :
    (tears outcome = true ∧ ∃ halt, save env outcome c file = (.error halt, .torn)) ∨
    (tears outcome = false ∧ saveDone outcome = false ∧ ∃ halt,
      save env outcome c file = (.error halt, if writes outcome then .holds c else file) ∧
      (saveFails outcome = true ∧ (∃ e, halt = .failed e) ∨ saveFails outcome = false ∧ halt = .stopped)) ∨
    (outcome = .done ∧ save env outcome c file = (.ok (), .holds c)) := by
  cases outcome with
  | writingFails | stopsTorn => exact .inl ⟨rfl, _, rfl⟩
  | creatingFails | openingFails | securingFails => exact .inr (.inl ⟨rfl, rfl, _, rfl, .inl ⟨rfl, _, rfl⟩⟩)
  | stopsBefore | stopsWritten => exact .inr (.inl ⟨rfl, rfl, _, rfl, .inr ⟨rfl, rfl⟩⟩)
  | done => exact .inr (.inr ⟨rfl, rfl⟩)

lemma eq_stopsBefore (htears : tears outcome = false) (hwrites : writes outcome = false)
    (hfails : saveFails outcome = false) : outcome = .stopsBefore := by
  cases outcome <;> simp_all [tears, writes, saveFails]

lemma Rotates.unique {other : PoPCredential} (h : Rotates x env cred rotated) (h' : Rotates x env cred other) :
    other = rotated := by
  obtain ⟨cert, hcert, hchecked⟩ := h.renewed
  obtain ⟨cert', hcert', hchecked'⟩ := h'.renewed
  cases hcert.symm.trans hcert'
  exact (Except.ok.inj (hchecked.symm.trans hchecked')).symm

lemma autoRenew_of_not_rotates (h : ∀ rotated, ¬ Rotates x env cred rotated) :
    (autoRenewCertIfDue x env cred (.holds cred)).2 = .holds cred ∧
      ∀ returned, (autoRenewCertIfDue x env cred (.holds cred)).1 = .ok returned → returned = cred := by
  unfold autoRenewCertIfDue
  split
  case isTrue hdue =>
    obtain ⟨halt, hflow⟩ := renewCertFlow_of_not_rotates hdue h
    rw [hflow]
    cases halt with
    | failed e => exact ⟨rfl, fun returned h => (Except.ok.inj h).symm⟩
    | stopped => exact ⟨rfl, fun returned h => (by cases h)⟩
  case isFalse => exact ⟨rfl, fun returned h => (Except.ok.inj h).symm⟩

lemma autoRenew_ends (h : Rotates x env cred rotated) :
    Ends env cred rotated (autoRenewCertIfDue x env cred (.holds cred)) := by
  unfold autoRenewCertIfDue
  rw [if_pos h.due, renewCertFlow_of_rotates h, fromRotated]
  obtain ⟨htears, halt, hsave⟩ | ⟨htears, hdone, halt, hsave, hhalt⟩ | ⟨hfirst, hsave⟩ :=
    save_ends env env.saveRotated rotated (.holds cred)
  · rw [bind_of_error hsave]
    have htorn : tearsFile env cred.brokerToken.isSome = true := by simp [tearsFile, htears]
    cases halt <;> exact .torn _ htorn
  · rw [bind_of_error hsave]
    have hkept : tearsFile env cred.brokerToken.isSome = false := by simp [tearsFile, htears, hdone]
    cases hwrites : writes env.saveRotated with
    | false =>
      obtain ⟨hfails, e, rfl⟩ | ⟨hfails, rfl⟩ := hhalt
      · exact .unsaved hkept (by simp [failsLate, hfails])
      · exact .stopped (eq_stopsBefore htears hwrites hfails)
    | true =>
      obtain ⟨hfails, e, rfl⟩ | ⟨hfails, rfl⟩ := hhalt
      · exact .late rotated hkept (by simp [failsLate, hfails]) rfl
      · exact .renewed _ rotated hkept (by simp [failsLate, hfails, hdone]) rfl (.inr rfl)
  rw [bind_of_ok hsave]
  obtain ⟨hfile, hok, hfailed, hstopped⟩ := remint_apply env cred.brokerToken.isSome rotated (.holds rotated)
  cases hminted : minted env cred.brokerToken.isSome with
  | false =>
    have htears : tearsFile env cred.brokerToken.isSome = false := by
      simp [tearsFile, hfirst, tears, hminted]
    cases hfails : stepFails env.serverToken ||
        stepDone env.serverToken && cred.brokerToken.isSome && stepFails env.brokerToken with
    | true =>
      obtain ⟨e, he⟩ := hfailed hminted hfails
      rw [bind_of_error (Prod.ext he hfile)]
      exact .late rotated htears (by simp [failsLate, hfirst, saveFails, saveDone, hfails]) rfl
    | false =>
      rw [bind_of_error (Prod.ext (hstopped hminted hfails) hfile)]
      exact .renewed _ rotated htears
        (by simp [failsLate, hfirst, saveFails, saveDone, hfails, hminted]) rfl (.inr rfl)
  | true =>
    have hidentity := identity_reminted env cred.brokerToken.isSome rotated
    -- with every token minted only the second save and the reload are left to fail
    have hlate : failsLate env cred.brokerToken.isSome =
        (saveFails env.saveTokens || saveDone env.saveTokens && stepFails env.reload) := by
      simp [failsLate, hfirst, saveFails, saveDone, no_token_fails hminted, hminted]
    have htears : tearsFile env cred.brokerToken.isSome = tears env.saveTokens := by
      simp [tearsFile, hfirst, tears, saveDone, hminted]
    rw [bind_of_ok (Prod.ext (hok hminted) hfile)]
    obtain ⟨htorn, halt, hsave⟩ | ⟨hkept, hdone, halt, hsave, hhalt⟩ | ⟨hsecond, hsave⟩ :=
      save_ends env env.saveTokens (reminted env cred.brokerToken.isSome rotated) (.holds rotated)
    · rw [hsave]
      cases halt <;> exact .torn _ (htears.trans htorn)
    · rw [hsave]
      have hheld : ∃ held, (if writes env.saveTokens then CredentialFile.holds
        (reminted env cred.brokerToken.isSome rotated)
          else .holds rotated) = .holds held ∧ held.identity = rotated.identity := by
        cases writes env.saveTokens with
        | true => exact ⟨_, rfl, hidentity⟩
        | false => exact ⟨_, rfl, rfl⟩
      obtain ⟨held, hheld, hsame⟩ := hheld
      rw [hheld]
      obtain ⟨hfails, e, rfl⟩ | ⟨hfails, rfl⟩ := hhalt
      · exact .late held (htears.trans hkept) (by simp [hlate, hfails]) hsame
      · exact .renewed _ held (htears.trans hkept) (by simp [hlate, hfails, hdone]) hsame (.inr rfl)
    · rw [hsave]
      rw [hsecond] at htears hlate
      cases hreload : env.reload with
      | done u =>
        exact .renewed _ _ htears (by simp [hlate, saveFails, hreload, stepFails]) hidentity (.inl rfl)
      | fails e => exact .late _ htears (by simp [hlate, saveDone, hreload, stepFails]) hidentity
      | stops => exact .renewed _ _ htears (by simp [hlate, saveFails, hreload, stepFails]) hidentity (.inr rfl)

/-- The file loads to the new pair, or to the old one if there is no new one or the process stopped
before its first save. -/
def FileSound (x : CertPrimitives) (env : Garnet.Inputs) (cred : PoPCredential)
    (file : CredentialFile) : Prop :=
  ∃ held, file = .holds held ∧
    ((∃ rotated, Rotates x env cred rotated ∧ held.identity = rotated.identity) ∨
      held.identity = cred.identity ∧ ∀ rotated, Rotates x env cred rotated → env.saveRotated = .stopsBefore)

/-- A credential is returned only with the identity that the file holds. -/
def ReturnsHeld (run : Except Halt PoPCredential × CredentialFile) : Prop :=
  ∀ returned, run.1 = .ok returned → ∃ held, run.2 = .holds held ∧ returned.identity = held.identity

end Renewal

open Renewal in
/-- A renewal leaves a sound file and returns what is in it exactly if no save tears the file, and
no step fails once there is a new pair, unless that pair is the old one. -/
theorem renewal_never_strands_iff (x : CertPrimitives) (env : Garnet.Inputs) (cred : PoPCredential) :
    (FileSound x env cred (autoRenewCertIfDue x env cred (.holds cred)).2 ∧
      ReturnsHeld (autoRenewCertIfDue x env cred (.holds cred))) ↔
    ∀ rotated, Rotates x env cred rotated → tearsFile env cred.brokerToken.isSome = false ∧
      (failsLate env cred.brokerToken.isSome = true → rotated.identity = cred.identity) := by
  by_cases hrotates : ∃ rotated, Rotates x env cred rotated
  · obtain ⟨rotated, h⟩ := hrotates
    have hends := autoRenew_ends h
    generalize autoRenewCertIfDue x env cred (.holds cred) = run at hends ⊢
    constructor
    · rintro ⟨⟨held, hfile, hpair⟩, hreturns⟩ other hother
      obtain rfl := h.unique hother
      cases hends with
      | torn result htears => cases hfile
      | stopped hsave => simp [tearsFile, failsLate, hsave, tears, saveDone, saveFails]
      | unsaved htears hlate =>
        refine ⟨htears, fun _ => ?_⟩
        cases hfile
        obtain ⟨another, hanother, hpair⟩ | ⟨-, hstopped⟩ := hpair
        · exact (h.unique hanother ▸ hpair).symm
        · simp [failsLate, hstopped other h, saveFails, saveDone] at hlate
      | late held' htears hlate hheld =>
        refine ⟨htears, fun _ => ?_⟩
        obtain ⟨held'', hfile', hreturned⟩ := hreturns cred rfl
        cases hfile'
        exact (hreturned.trans hheld).symm
      | renewed result held' htears hlate hheld hresult => exact ⟨htears, fun h => absurd h (by simp [hlate])⟩
    · intro hsafe
      obtain ⟨hnotears, hsame⟩ := hsafe rotated h
      cases hends with
      | torn result htears => simp [hnotears] at htears
      | stopped hsave => exact ⟨⟨cred, rfl, .inr ⟨rfl, fun _ _ => hsave⟩⟩, nofun⟩
      | unsaved htears hlate =>
        refine ⟨⟨cred, rfl, .inl ⟨rotated, h, (hsame hlate).symm⟩⟩, fun returned hreturned => ⟨cred, rfl, ?_⟩⟩
        cases hreturned
        rfl
      | late held htears hlate hheld =>
        refine ⟨⟨held, rfl, .inl ⟨rotated, h, hheld⟩⟩, fun returned hreturned => ⟨held, rfl, ?_⟩⟩
        cases hreturned
        exact (hheld.trans (hsame hlate)).symm
      | renewed result held htears hlate hheld hresult =>
        refine ⟨⟨held, rfl, .inl ⟨rotated, h, hheld⟩⟩, fun returned hreturned => ⟨held, rfl, ?_⟩⟩
        obtain rfl | rfl := hresult
        · cases hreturned
          rfl
        · cases hreturned
  · have hnone : ∀ rotated, ¬ Rotates x env cred rotated := fun rotated h => hrotates ⟨rotated, h⟩
    refine iff_of_true ?_ fun rotated h => absurd h (hnone rotated)
    have hkept := autoRenew_of_not_rotates hnone
    refine ⟨⟨cred, hkept.1, .inr ⟨rfl, fun rotated h => absurd h (hnone rotated)⟩⟩,
      fun returned hreturned => ?_⟩
    exact ⟨cred, hkept.1, by rw [hkept.2 returned hreturned]⟩

namespace Renewal

def weekCerts : CertPrimitives where
  certValidityWindow _ := some (0, 604800)
  certSanHandle _ := some "hlin-ai"
  p256ScalarToPkcs8Der scalar := .ok scalar

def heldCredential : PoPCredential :=
  ⟨"hlin-ai", [1], [2], [3], "pin", "https://drive.mysignet.ca:8443", "server.token.jws", none⟩

def fourthDay (saveRotated : SaveOutcome) (serverToken : Outcome String) : Garnet.Inputs where
  path := "credential.json"
  now := 345600
  parseError := "EOF while parsing a value at line 1 column 0"
  load := .done ()
  scalar := [4]
  buildCsr := .ok [5]
  renewal := .done [6]
  saveRotated := saveRotated
  serverToken := serverToken
  brokerToken := .stops
  saveTokens := .done
  reload := .done ()

end Renewal

open Renewal in
/-- A process that stops between the truncation and the write leaves a torn file; one whose token
request fails returns the old pair, with the new one in the file. -/
theorem renewal_strands :
    ¬ FileSound weekCerts (fourthDay .stopsTorn (.done "new.token.jws")) heldCredential
      (autoRenewCertIfDue weekCerts (fourthDay .stopsTorn (.done "new.token.jws")) heldCredential
        (.holds heldCredential)).2 ∧
    ¬ ReturnsHeld (autoRenewCertIfDue weekCerts (fourthDay .done (.fails (.generic "timeout"))) heldCredential
        (.holds heldCredential)) := by
  constructor
  · rintro ⟨held, hfile, -⟩
    have htorn : (autoRenewCertIfDue weekCerts (fourthDay .stopsTorn (.done "new.token.jws")) heldCredential
        (.holds heldCredential)).2 = .torn := by
      decide
    rw [htorn] at hfile
    cases hfile
  · intro hreturns
    have hrun : autoRenewCertIfDue weekCerts (fourthDay .done (.fails (.generic "timeout"))) heldCredential
        (.holds heldCredential) = (.ok heldCredential, .holds (heldCredential.rotateCert [4] [6])) := by
      decide
    obtain ⟨held, hfile, hsame⟩ := hreturns heldCredential (by rw [hrun])
    rw [hrun] at hfile
    cases hfile
    revert hsame
    decide

end SignetDrive.Proofs
