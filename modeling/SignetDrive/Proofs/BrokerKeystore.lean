import SignetDrive.Model.BrokerKeystore

namespace SignetDrive.Proofs
open BrokerKeystore Procedure

namespace Recovering

variable {W α β : Type} {w : World W} {s t : State W} {readOnly : Bool} {op : Op} {e : CliError}

/-- The errors that a re-pickup is tried for. -/
def Recoverable (e : CliError) : Prop :=
  e.code = "broker_pin_mismatch" ∨ e.code = "access_paused" ∨ e.code = "token_denied"

def SameFlag (s t : State W) : Prop := t.reauthAttempted = s.reauthAttempted

lemma sameFlag_bind {p : Step W α} {f : α → Step W β} (hp : Keeps SameFlag p) (hf : ∀ a, Keeps SameFlag (f a)) :
    Keeps SameFlag (p >>= f) :=
  keeps_bind (fun _ _ _ h h' => Eq.trans h' h) hp hf

lemma SameFlag.refl (s : State W) : SameFlag s s := rfl

lemma sameFlag_check (x : Except CliError α) : Keeps SameFlag (check x : Step W α) :=
  keeps_check SameFlag.refl x

lemma sameFlag_pure (a : α) : Keeps SameFlag (pure a : Step W α) := keeps_pure SameFlag.refl a

lemma sameFlag_call (f : W → Except CliError α × W) : Keeps SameFlag (call f) := SameFlag.refl

lemma sameFlag_renewBrokerToken : Keeps SameFlag (renewBrokerToken w) := by
  refine sameFlag_bind SameFlag.refl fun cred => sameFlag_bind (sameFlag_call _) fun token => ?_
  exact sameFlag_bind (keeps_update SameFlag.refl) fun _ => sameFlag_bind (sameFlag_call _) fun _ =>
    sameFlag_pure token

lemma sameFlag_ensureBrokerToken (force : Bool) : Keeps SameFlag (ensureBrokerToken w force) := by
  intro s
  unfold ensureBrokerToken
  split
  · exact sameFlag_renewBrokerToken s
  · rfl

lemma sameFlag_performWire (token : String) : Keeps SameFlag (performWire w token op) := fun _ => rfl

lemma sameFlag_performOpInner (w : World W) (op : Op) : Keeps SameFlag (performOpInner w op) := by
  refine sameFlag_bind (sameFlag_ensureBrokerToken _) fun token => sameFlag_bind
    (sameFlag_performWire _) fun response => ?_
  cases response with
  | ok ok => exact sameFlag_pure ok
  | err err =>
    dsimp only
    split
    · refine sameFlag_bind (sameFlag_ensureBrokerToken _) fun token => sameFlag_bind
        (sameFlag_performWire _) fun response => ?_
      cases response with
      | ok ok => exact sameFlag_pure ok
      | err err => exact sameFlag_check _
    · exact sameFlag_check _

/-- The first attempt of the operation ends with such an error. -/
def FailsRecoverably (w : World W) (op : Op) (s : State W) : Prop :=
  ∃ e, (performOpInner w op s).1 = .error e ∧ Recoverable e

lemma performOp_sameFlag (h : ¬ FailsRecoverably w op s) : SameFlag s (performOp w readOnly op s).2 := by
  have hinner := sameFlag_performOpInner w op s
  unfold performOp
  cases hresult : performOpInner w op s with
  | mk result u =>
    rw [hresult] at hinner
    cases result with
    | ok ok => exact hinner
    | error e =>
      have hnot : ¬ Recoverable e := fun hrec => h ⟨e, by rw [hresult], hrec⟩
      simp only [Recoverable, not_or] at hnot
      simp only [recover, recoveryFor, hnot.1, hnot.2.1, hnot.2.2, if_false, or_self]
      exact hinner

/-- No operation of the run does. -/
def NoneRecoverable (w : World W) : State W → List (Bool × Op) → Prop
  | _, [] => True
  | s, (readOnly, op) :: rest =>
    ¬ FailsRecoverably w op s ∧ NoneRecoverable w (performOp w readOnly op s).2 rest

lemma performAll_sameFlag {ops : List (Bool × Op)} (h : NoneRecoverable w s ops) :
    SameFlag s (performAll w s ops) := by
  induction ops generalizing s with
  | nil => rfl
  | cons head rest ih => exact (ih h.2).trans (performOp_sameFlag h.1)

structure Prepared (w : World W) (s : State W) (world : W) : Prop where
  steps : ∃ w₁ w₂, w.loadConfig s.world = (.ok (), w₁) ∧ w.openEnrollmentChannel w₁ = (.ok (), w₂) ∧
    w.preparePickup s.cred.handle w₂ = (.ok (), world)

/-- The server answers the re-pickup with a credential under which the operation then gets its
answer from the broker. -/
def Restores (w : World W) (s : State W) (op : Op) (answer : OpOk) : Prop :=
  ∃ t u, repickup w false s = (.ok (), t) ∧ performOpInner w op t = (.ok answer, u)

/-- The server refuses the re-pickup. -/
def Refuses (w : World W) (s : State W) : Prop :=
  ∃ world e world', Prepared w s world ∧ w.postPickup s.cred.handle world = (.error e, world')

lemma call_eq {f : W → Except CliError α × W} {x : Except CliError α} {world : W} (h : f s.world = (x, world)) :
    call f s = (x, { s with world := world }) := by
  simp only [call, h]

lemma of_call_ok {f : W → Except CliError α × W} {a : α} (h : call f s = (.ok a, t)) :
    f s.world = (.ok a, t.world) ∧ t = { s with world := t.world } := by
  simp only [call, Prod.mk.injEq] at h
  obtain ⟨hresult, rfl⟩ := h
  exact ⟨Prod.ext hresult rfl, rfl⟩

lemma repickup_of_refused (readOnly : Bool) {world : W} (hprepared : Prepared w s world)
    (hrefused : readOnly = true ∨ ∃ e world', w.postPickup s.cred.handle world = (.error e, world')) :
    ∃ e t, repickup w readOnly s = (.error (pickupFailed e), t) := by
  obtain ⟨w₁, w₂, hconfig, hchannel, hprepare⟩ := hprepared.steps
  have hpickup : ∃ e t, pickup w readOnly s.cred.handle { s with world := w₂ } = (.error e, t) := by
    unfold pickup
    rw [bind_of_ok (call_eq (s := { s with world := w₂ }) hprepare)]
    cases readOnly with
    | true => exact ⟨_, _, bind_of_error rfl⟩
    | false =>
      obtain h | ⟨e, world', hpost⟩ := hrefused
      · cases h
      · rw [bind_of_ok (show check (refuseWriteIfReadOnly false "POST") _ = (.ok (), _) from rfl)]
        exact ⟨e, _, call_eq (s := { s with world := world }) hpost⟩
  obtain ⟨e, t, ht⟩ := hpickup
  refine ⟨e, t, ?_⟩
  unfold repickup
  rw [bind_of_ok (show getCred s = (.ok s.cred, s) from rfl)]
  unfold repickupAndReload
  rw [bind_of_ok (call_eq hconfig)]
  apply bind_of_error
  unfold pickupAndSave
  rw [bind_of_ok (call_eq (s := { s with world := w₁ }) hchannel)]
  apply bind_of_error
  simp only [mapError, ht]
  rfl

lemma prepared_of_restores {answer : OpOk} (h : Restores w s op answer) : ∃ world, Prepared w s world := by
  obtain ⟨t, u, hrepickup, -⟩ := h
  unfold repickup at hrepickup
  rw [bind_of_ok (show getCred s = (.ok s.cred, s) from rfl)] at hrepickup
  unfold repickupAndReload at hrepickup
  obtain ⟨_, s₁, hconfig, hrest⟩ := bind_ok hrepickup
  obtain ⟨hconfig, hs₁⟩ := of_call_ok hconfig
  obtain ⟨_, s₂, hsave, -⟩ := bind_ok hrest
  unfold pickupAndSave at hsave
  obtain ⟨_, s₃, hchannel, hpicked⟩ := bind_ok hsave
  obtain ⟨hchannel, hs₃⟩ := of_call_ok hchannel
  obtain ⟨cred, s₄, hpickup, -⟩ := bind_ok hpicked
  simp only [mapError, Prod.mk.injEq, Client.except_mapError_ok] at hpickup
  obtain ⟨_, s₅, hprepare, -⟩ :=
    bind_ok (show pickup w false s.cred.handle s₃ = (.ok cred, s₄) from Prod.ext hpickup.1 hpickup.2)
  obtain ⟨hprepare, -⟩ := of_call_ok hprepare
  exact ⟨s₅.world, ⟨s₁.world, s₃.world, hconfig, hchannel, hprepare⟩⟩

/-- The state once the recovery from an error is decided. -/
def decided (e : CliError) (s : State W) : State W :=
  { s with reauthAttempted := (recoveryFor e.code s.reauthAttempted).2 }

section

variable (hfails : performOpInner w op s = (.error e, t))

include hfails

lemma performOp_of_pinMismatch (hcode : e.code = "broker_pin_mismatch") :
    performOp w readOnly op s = (repickup w readOnly >>= fun _ => performOpInner w op) (decided e t) := by
  simp only [performOp, hfails, recover, decided, recoveryFor, hcode, if_true]

lemma performOp_of_refusal (hflag : t.reauthAttempted = false)
    (hcode : e.code = "access_paused" ∨ e.code = "token_denied") :
    performOp w readOnly op s = retryOr w op e (repickup w readOnly (decided e t)) := by
  have hpin : e.code ≠ "broker_pin_mismatch" := by
    obtain h | h := hcode <;> simp [h]
  simp only [performOp, hfails, recover, decided, recoveryFor, hpin, hcode, hflag, if_true, if_false,
    Bool.false_eq_true]

lemma performOp_of_repickup_error {e' : CliError} {u : State W}
    (hflag : t.reauthAttempted = false) (hrec : Recoverable e)
    (hrepickup : repickup w readOnly (decided e t) = (.error e', u)) :
    (performOp w readOnly op s).1 = .error (if e.code = "broker_pin_mismatch" then e' else e) := by
  obtain hcode | hcode := hrec
  · rw [performOp_of_pinMismatch hfails hcode, bind_of_error hrepickup, if_pos hcode]
  · have hpin : e.code ≠ "broker_pin_mismatch" := by
      obtain h | h := hcode <;> simp [h]
    rw [performOp_of_refusal hfails hflag hcode, hrepickup, retryOr, if_neg hpin]

lemma performOp_of_restores {answer : OpOk}
    (hflag : t.reauthAttempted = false) (hrec : Recoverable e)
    (hrestores : Restores w (decided e t) op answer) : (performOp w false op s).1 = .ok answer := by
  obtain ⟨u, v, hrepickup, hanswer⟩ := hrestores
  obtain hcode | hcode := hrec
  · rw [performOp_of_pinMismatch hfails hcode, bind_of_ok hrepickup, hanswer]
  · rw [performOp_of_refusal hfails hflag hcode, hrepickup, retryOr, hanswer]

end

end Recovering

namespace Recovering

def oldCredential : PoPCredential :=
  ⟨"hlin-ai", [1], [2], [3], "pin", "https://drive.mysignet.ca:8443", "server.token.jws",
    some "broker.token.jws"⟩

def freshCredential : PoPCredential :=
  ⟨"hlin-ai", [4], [5], [3], "new-pin", "https://drive.mysignet.ca:8443", "new.token.jws", none⟩

/-- The broker fails the old credential with the given answer and serves the new one, which the pickup
brings, if it is not refused. -/
def brokerWorld (failure : Except CliError Response) (picked : Except CliError PoPCredential) :
    World PoPCredential where
  tokenNearExpiry _ _ := false
  requestToken _ _ file := (.ok "fresh.broker.jws", file)
  perform cred _ _ file := (if cred.clientCertDer = [2] then failure else .ok (.ok (.sign [9])), file)
  loadConfig file := (.ok (), file)
  openEnrollmentChannel file := (.ok (), file)
  preparePickup _ file := (.ok (), file)
  postPickup _ file := (picked, file)
  save cred _ := (.ok (), cred)
  load file := (.ok file, file)
  newClient _ file := (.ok (), file)

def brokerState : State PoPCredential := ⟨oldCredential, oldCredential, oldCredential, false⟩

def pausedWorld : World PoPCredential :=
  brokerWorld (.ok (.err ⟨"access_paused", "paused"⟩)) (.ok freshCredential)

def pinWorld : World PoPCredential :=
  brokerWorld (.error (.new 69 "broker_pin_mismatch" "pin")) (.error (.generic "refused"))

end Recovering

end SignetDrive.Proofs
