import SignetDrive.Lib.Automaton
import SignetDrive.Model.GarnetProcesses

namespace SignetDrive.Proofs
open Garnet Automaton

namespace CertFile

variable {x : CertPrimitives} {s t : Processes} {i : ℕ} {event : Event}

def unsaved : ProcessPhase → Option PoPCredential
  | .rotated _ cred _ => some cred
  | .minted cred => some cred
  | .tokened cred => some cred
  | _ => none

/-- The process has a renewed pair that is not saved. -/
def awaitsSave : ProcessPhase → Bool
  | .rotated _ _ _ => true
  | _ => false

inductive Moves (x : CertPrimitives) (s : Processes) (i : ℕ) : Event → Processes → Prop
  | aside (event phase) (hbefore : awaitsSave (s.phase i) = false) (hafter : unsaved phase = none) :
      Moves x s i event (s.setPhase i phase)
  | accepted (event phase cred) (hbefore : awaitsSave (s.phase i) = false) (hafter : unsaved phase = some cred)
      (hlive : cred.identity = s.issued) : Moves x s i event (s.setPhase i phase)
  | renewed (scalar newCertDer newKey given cred) (hphase : s.phase i = .renewing given cred)
      (hkey : x.p256ScalarToPkcs8Der scalar = .ok newKey)
      (hsan : x.certSanHandle newCertDer = some cred.handle) :
      Moves x s i (.renew scalar newCertDer) ({ s with issued := (newKey, newCertDer) }.setPhase i
        (.rotated given (cred.rotateCert newKey newCertDer) cred.brokerToken.isSome))
  | faulted (scalar newCertDer newKey given cred) (hphase : s.phase i = .renewing given cred)
      (hsan : x.certSanHandle newCertDer ≠ some cred.handle) :
      Moves x s i (.renew scalar newCertDer)
      ({ s with issued := (newKey, newCertDer) }.setPhase i (.ready given))
  | saved (cred phase renewedOnce) (hbefore : unsaved (s.phase i) = some cred) (hafter : unsaved phase = none) :
      Moves x s i .save ({ s with file := cred, renewedOnce := renewedOnce }.setPhase i phase)

lemma checkRenewed_ok {cred rotated : PoPCredential} {scalar newCertDer newKey : Bytes}
    (hkey : x.p256ScalarToPkcs8Der scalar = .ok newKey) :
    checkRenewed x cred scalar newCertDer = .ok rotated ↔
      x.certSanHandle newCertDer = some cred.handle ∧ rotated = cred.rotateCert newKey newCertDer := by
  unfold checkRenewed
  cases hsan : x.certSanHandle newCertDer with
  | none => simp [Client.okOr, bind, Except.bind]
  | some handle =>
    by_cases hhandle : handle = cred.handle
    · simp [Client.okOr, bind, Except.bind, pure, Except.pure, Except.mapError, hkey, hhandle, eq_comm]
    · simp [Client.okOr, bind, Except.bind, hhandle, throw, throwThe, MonadExceptOf.throw]

lemma step_moves (h : s.step x (i, event) = some t) : Moves x s i event t := by
  unfold Processes.step at h
  simp only at h
  cases hphase : s.phase i <;> cases event <;> simp only [hphase, reduceCtorEq] at h
  case idle.load | renewing.refused | mintingServer.refused | mintingBroker.refused | reloading.load |
      ready.refused | ready.exit =>
    cases h
    exact .aside _ _ (by rw [hphase]; rfl) rfl
  case opened.notDue cred now =>
    split at h
    · cases h
    · cases h
      exact .aside _ _ (by rw [hphase]; rfl) rfl
  case opened.startRenewal cred now =>
    split at h
    · cases h
      exact .aside _ _ (by rw [hphase]; rfl) rfl
    · cases h
  case renewing.renew given cred scalar newCertDer =>
    split at h
    · cases hkey : x.p256ScalarToPkcs8Der scalar with
      | error e => simp [hkey] at h
      | ok newKey =>
        simp only [hkey] at h
        cases hchecked : checkRenewed x cred scalar newCertDer with
        | error e =>
          simp only [hchecked, Option.some.injEq] at h
          subst h
          refine .faulted scalar newCertDer newKey given cred hphase fun hsan => ?_
          rw [(checkRenewed_ok hkey).mpr ⟨hsan, rfl⟩] at hchecked
          cases hchecked
        | ok rotated =>
          obtain ⟨hsan, rfl⟩ := (checkRenewed_ok hkey).mp hchecked
          simp only [hchecked, Option.some.injEq] at h
          subst h
          exact .renewed scalar newCertDer newKey given cred hphase hkey hsan
    · cases h
  case rotated.save given cred hadBroker =>
    cases h
    exact .saved cred _ true (by rw [hphase]; rfl) rfl
  case mintingServer.token given cred hadBroker token =>
    split at h
    case isTrue hlive =>
      cases h
      cases hadBroker with
      | true => exact .aside _ _ (by rw [hphase]; rfl) rfl
      | false => exact .accepted _ _ (cred.setServerToken token) (by rw [hphase]; rfl) rfl hlive
    case isFalse => cases h
  case mintingBroker.token given cred token =>
    split at h
    case isTrue hlive =>
      cases h
      exact .accepted _ _ (cred.setBrokerToken token) (by rw [hphase]; rfl) rfl hlive
    case isFalse => cases h
  case minted.save cred =>
    cases h
    exact .saved cred _ s.renewedOnce (by rw [hphase]; rfl) rfl
  case ready.token cred token =>
    split at h
    case isTrue hlive =>
      cases h
      exact .accepted _ _ (cred.setBrokerToken token) (by rw [hphase]; rfl) rfl hlive
    case isFalse => cases h
  case tokened.save cred =>
    cases h
    exact .saved cred _ s.renewedOnce (by rw [hphase]; rfl) rfl

/-- When the server answers a renewal, no other process is about to save a credential, and the
certificate is for the handle of the process that asked. -/
def RenewsAlone (x : CertPrimitives) (s : Processes) (e : ℕ × Event) : Prop :=
  ∀ scalar newCertDer, e.2 = .renew scalar newCertDer →
    (∀ j, j ≠ e.1 → unsaved (s.phase j) = none) ∧
    ∀ given cred, s.phase e.1 = .renewing given cred → x.certSanHandle newCertDer = some cred.handle

/-- What is about to be saved is under the live pair; and once a renewed certificate was saved, the
live pair is in the file or about to be. -/
structure LivePair (s : Processes) : Prop where
  unsaved_live : ∀ j cred, unsaved (s.phase j) = some cred → cred.identity = s.issued
  held : s.renewedOnce = true → s.file.identity = s.issued ∨ ∃ j, awaitsSave (s.phase j) = true

lemma setPhase_self (s : Processes) (phase : ProcessPhase) : (s.setPhase i phase).phase i = phase :=
  Function.update_self ..

lemma setPhase_ne (s : Processes) (phase : ProcessPhase) {j : ℕ} (h : j ≠ i) :
    (s.setPhase i phase).phase j = s.phase j :=
  Function.update_of_ne h ..

lemma held_setPhase {phase : ProcessPhase} (h : LivePair s) (hbefore : awaitsSave (s.phase i) = false)
    (honce : s.renewedOnce = true) :
    s.file.identity = s.issued ∨ ∃ j, awaitsSave ((s.setPhase i phase).phase j) = true := by
  obtain hfile | ⟨j, hj⟩ := h.held honce
  · exact .inl hfile
  · refine .inr ⟨j, ?_⟩
    rwa [setPhase_ne]
    rintro rfl
    simp [hbefore] at hj

lemma LivePair.step (h : LivePair s) (halone : RenewsAlone x s (i, event))
    (hstep : s.step x (i, event) = some t) : LivePair t := by
  cases step_moves hstep with
  | aside _ phase hbefore hafter =>
    refine ⟨fun j cred hj => ?_, held_setPhase h hbefore⟩
    by_cases hji : j = i
    · subst hji
      rw [setPhase_self, hafter] at hj
      cases hj
    · rw [setPhase_ne _ _ hji] at hj
      exact h.unsaved_live j cred hj
  | accepted _ phase cred hbefore hafter hlive =>
    refine ⟨fun j cred' hj => ?_, held_setPhase h hbefore⟩
    by_cases hji : j = i
    · subst hji
      rw [setPhase_self, hafter] at hj
      cases hj
      exact hlive
    · rw [setPhase_ne _ _ hji] at hj
      exact h.unsaved_live j cred' hj
  | renewed scalar newCertDer newKey given cred hphase hkey hsan =>
    refine ⟨fun j cred' hj => ?_, fun _ => .inr ⟨i, by rw [setPhase_self]; rfl⟩⟩
    by_cases hji : j = i
    · subst hji
      rw [setPhase_self] at hj
      cases hj
      rfl
    · rw [setPhase_ne _ _ hji] at hj
      have hnone := (halone scalar newCertDer rfl).1 j hji
      rw [hnone] at hj
      cases hj
  | faulted scalar newCertDer newKey given cred hphase hsan =>
    exact absurd ((halone scalar newCertDer rfl).2 given cred hphase) hsan
  | saved cred phase renewedOnce hbefore hafter =>
    refine ⟨fun j cred' hj => ?_, fun _ => .inl (h.unsaved_live i cred hbefore)⟩
    by_cases hji : j = i
    · subst hji
      rw [setPhase_self, hafter] at hj
      cases hj
    · rw [setPhase_ne _ _ hji] at hj
      exact h.unsaved_live j cred' hj

lemma renewsAlone_of_not_renew {e : ℕ × Event} (h : ∀ scalar newCertDer, e.2 ≠ .renew scalar newCertDer)
    (u : Processes) : RenewsAlone x u e :=
  fun scalar newCertDer heq => absurd heq (h scalar newCertDer)

/-- The file, with no process at work. -/
def atStart (file : PoPCredential) (issued : Bytes × Bytes) : Processes := ⟨file, issued, false, fun _ => .idle⟩

lemma livePair_atStart (file : PoPCredential) (issued : Bytes × Bytes) : LivePair (atStart file issued) :=
  ⟨fun _ _ h => by simp [atStart, unsaved] at h, fun h => by simp [atStart] at h⟩

end CertFile

open CertFile in
/-- Where no renewal is answered between another process's accepted request and its save, the file
holds the live pair once a renewed certificate was saved, except while a renewed certificate is
about to be saved. -/
theorem live_cert_in_file (x : CertPrimitives) (file : PoPCredential) (issued : Bytes × Bytes)
    (events : List (ℕ × Event)) (t : Processes)
    (hall : Throughout (Processes.step x) (RenewsAlone x) (atStart file issued) events)
    (hrun : run (Processes.step x) (atStart file issued) events = some t) (honce : t.renewedOnce = true)
    (hsaved : ∀ j, awaitsSave (t.phase j) = false) : t.file.identity = t.issued := by
  have hlive : LivePair t := invariant_throughout LivePair (livePair_atStart file issued)
    (fun u e v hu hI hstep => hI.step hu hstep) hall hrun
  obtain hheld | ⟨j, hj⟩ := hlive.held honce
  · exact hheld
  · simp [hsaved j] at hj

namespace CertFile

def sevenDays : CertPrimitives where
  certValidityWindow _ := some (0, 604800)
  certSanHandle _ := some "hlin-ai"
  p256ScalarToPkcs8Der scalar := .ok scalar

def firstCredential : PoPCredential :=
  ⟨"hlin-ai", [1], [2], [3], "pin", "https://drive.mysignet.ca:8443", "server.token.jws",
    some "broker.token.jws"⟩

def inTurn : List (ℕ × Event) :=
  [(0, .load), (0, .startRenewal 345600), (0, .renew [4] [5]), (0, .save), (0, .token "s"), (0, .token "b"),
    (0, .save), (0, .load), (1, .load), (1, .notDue 0), (1, .token "c"), (1, .save)]

def overlapping : List (ℕ × Event) :=
  [(1, .load), (1, .notDue 0), (0, .load), (0, .startRenewal 345600), (1, .token "c"), (0, .renew [4] [5]),
    (0, .save), (1, .save)]

end CertFile

open CertFile in
theorem live_cert_in_file_in_turn :
    ∃ t, run (Processes.step sevenDays) (atStart firstCredential ([1], [2])) inTurn = some t ∧
      t.renewedOnce = true ∧ t.issued = ([4], [5]) ∧ t.file.identity = t.issued := by
  refine ⟨_, rfl, rfl, rfl, live_cert_in_file sevenDays firstCredential ([1], [2]) inTurn _ ?_ rfl rfl ?_⟩
  · rw [show inTurn = inTurn.take 2 ++ (0, .renew [4] [5]) :: inTurn.drop 3 from rfl]
    have hquiet : ∀ e ∈ inTurn.take 2 ++ inTurn.drop 3, ∀ u, RenewsAlone sevenDays u e := by
      simp only [inTurn, List.take, List.drop, List.cons_append, List.nil_append, List.forall_mem_cons]
      refine ⟨?_, ?_, ?_, ?_, ?_, ?_, ?_, ?_, ?_, ?_, ?_, nofun⟩ <;>
        exact renewsAlone_of_not_renew (by simp)
    refine throughout_append
      (throughout_of_forall fun e he => hquiet e (List.mem_append_left _ he)) fun u hu => ?_
    cases hu
    refine ⟨fun scalar newCertDer _ => ⟨fun j hj => ?_, fun given cred hphase => ?_⟩,
      fun _ _ => throughout_of_forall fun e he => hquiet e (List.mem_append_right _ he)⟩
    · rw [setPhase_ne _ _ hj, setPhase_ne _ _ hj]
      rfl
    · cases hphase
      rfl
  · intro j
    match j with
    | 0 => rfl
    | 1 => rfl
    | _ + 2 => rfl

open CertFile in
/-- The old pair is back in the file, and the server has cut it. -/
theorem token_save_overwrites_live_cert :
    ∃ t, run (Processes.step sevenDays) (atStart firstCredential ([1], [2])) overlapping = some t ∧
      t.renewedOnce = true ∧ (∀ j, awaitsSave (t.phase j) = false) ∧ t.issued = ([4], [5]) ∧
      t.file.identity = ([1], [2]) := by
  refine ⟨_, rfl, rfl, fun j => ?_, rfl, rfl⟩
  match j with
  | 0 => rfl
  | 1 => rfl
  | _ + 2 => rfl

end SignetDrive.Proofs
