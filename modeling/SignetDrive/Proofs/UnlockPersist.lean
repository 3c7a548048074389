import SignetDrive.Model.UnlockPersist

/-!
# When a lock is final

A persist of an earlier gesture that has not stored yet breaks a lock, and so does a restore that has
read its record before.
-/

namespace SignetDrive.Proofs

open Unlock

variable {Key : Type} (p : UnlockCrypto Key)

/-- The call may still put a record. -/
def mayStore : Call Key → Bool
  | .fetchingConfig _ | .sealing _ _ | .putting _ => true
  | _ => false

def passesGates (record : UnlockRecord Key) : Bool :=
  (unsealSeed p record).any fun seed => keypairGate p record && ekGate p record seed

/-- The call may still return a session. -/
def mayReturn : Call Key → Bool
  | .askingMe record =>
    truthyText (some record.kemPubkeyX963) && truthyText (some record.kemPqPubkeyEk) && passesGates p record
  | .unsealing record => passesGates p record
  | .matching record seed => keypairGate p record && ekGate p record seed
  | .derivingEk record seed => ekGate p record seed
  | _ => false

def Harmless (call : Call Key) : Prop := mayStore call = false ∧ mayReturn p call = false

variable {e : Event Key} {call next : Call Key} {record : UnlockRecord Key}

lemma mayReturn_afterMe {answer : Except (Option ℕ) MeResponse}
    (h : mayReturn p (afterMe record answer) = true) : mayReturn p (.askingMe record) = true := by
  unfold afterMe at h
  cases answer with
  | error status =>
    simp only at h
    split_ifs at h <;> cases h
  | ok me =>
    simp only at h
    split_ifs at h with hme
    · simp only [continuity, Bool.and_eq_true, decide_eq_true_eq] at hme
      obtain ⟨⟨_, hkem, hkemEq⟩, hpq, hpqEq⟩ := hme
      rw [hkemEq] at hkem
      rw [hpqEq] at hpq
      simp only [mayReturn, hkem, hpq, Bool.true_and]
      exact h
    · cases h

lemma afterMe_harmless (record : UnlockRecord Key) (answer : Except (Option ℕ) MeResponse) :
    mayStore (afterMe record answer) = false ∧ ∀ session, afterMe record answer ≠ .restored (some session) := by
  unfold afterMe
  cases answer with
  | error | ok =>
    simp only
    split_ifs <;> exact ⟨rfl, nofun⟩

lemma harmless_of_resume (h : call.resume p e = some next) :
    (mayStore call = false → mayStore next = false) ∧
      (mayReturn p call = false → mayReturn p next = false ∧ ∀ session, next ≠ .restored (some session)) := by
  unfold Call.resume at h
  split at h
  · cases h
    exact ⟨nofun, fun _ => ⟨rfl, nofun⟩⟩
  · rename_i drawn now
    cases h
    cases drawn with
    | none | some => exact ⟨nofun, fun _ => ⟨rfl, nofun⟩⟩
  · rename_i record _ answer
    cases h
    refine ⟨fun _ => (afterMe_harmless record answer).1, fun hcall => ⟨?_, (afterMe_harmless record answer).2⟩⟩
    rw [Bool.eq_false_iff] at hcall ⊢
    exact fun hnext => hcall (mayReturn_afterMe p hnext)
  · rename_i record _
    cases hseed : unsealSeed p record with
    | none =>
      rw [hseed] at h
      cases h
      exact ⟨fun _ => rfl, fun _ => ⟨rfl, nofun⟩⟩
    | some seed =>
      rw [hseed] at h
      cases h
      refine ⟨fun _ => rfl, fun hcall => ⟨?_, nofun⟩⟩
      simpa [mayReturn, passesGates, hseed] using hcall
  · rename_i record seed _
    cases h
    refine ⟨fun _ => ?_, fun hcall => ?_⟩
    · split_ifs <;> rfl
    · split_ifs with hgate
      · exact ⟨by simpa [mayReturn, hgate] using hcall, nofun⟩
      · exact ⟨rfl, nofun⟩
  · rename_i record seed _
    cases h
    refine ⟨fun _ => ?_, fun hcall => ?_⟩
    · split_ifs <;> rfl
    · have hgate : ¬ ekGate p record seed = true := Bool.eq_false_iff.mp hcall
      rw [if_neg hgate]
      exact ⟨rfl, nofun⟩
  · cases h

def StoresFrom (n : ℕ) : Event Key → Prop
  | .putDone i true => n ≤ i
  | _ => False

def ReturnsSession (s : State Key) (e : Event Key) : Prop :=
  ∃ i session s', e = .derived i ∧ step p s e = some s' ∧ s'.calls[i]? = some (.restored (some session))

/-- Until a call started after this state stores a record, the store is empty and no restore
returns a session. -/
def LockIsFinal (s : State Key) : Prop :=
  ∀ events t, Automaton.run (step p) s events = some t → (∀ e ∈ events, ¬ StoresFrom s.calls.length e) →
    t.store = none ∧ Automaton.Throughout (step p) (fun u e => ¬ ReturnsSession p u e) s events

/-- The store is empty, no call may return a session, and none of the first `n` may store a
record. -/
structure Locked (n : ℕ) (s : State Key) : Prop where
  store : s.store = none
  calls : n ≤ s.calls.length
  noReturn : ∀ call ∈ s.calls, mayReturn p call = false
  noStore : ∀ i < n, ∀ call, s.calls[i]? = some call → mayStore call = false

variable {p} {n i : ℕ} {s s' : State Key}

lemma Locked.start (h : Locked p n s) {call : Call Key} (hcall : mayReturn p call = false) :
    Locked p n (s.start call) where
  store := h.store
  calls := by
    have hn := h.calls
    simp [State.start]
    omega
  noReturn := by
    intro c hc
    rw [State.start, List.mem_append, List.mem_singleton] at hc
    rcases hc with hc | rfl
    · exact h.noReturn c hc
    · exact hcall
  noStore := by
    intro i hi c hc
    have hlt : i < s.calls.length := lt_of_lt_of_le hi h.calls
    rw [State.start, List.getElem?_append_left hlt] at hc
    exact h.noStore i hi c hc

lemma Locked.move (h : Locked p n s) (hi : s.calls[i]? = some call)
    (hstore : mayStore call = false → mayStore next = false) (hreturn : mayReturn p next = false)
    {t : State Key} (hcalls : t.calls = s.calls.set i next) (hempty : t.store = none) : Locked p n t where
  store := hempty
  calls := by
    rw [hcalls, List.length_set]
    exact h.calls
  noReturn := by
    intro c hc
    rw [hcalls] at hc
    rcases List.mem_or_eq_of_mem_set hc with hc | rfl
    · exact h.noReturn c hc
    · exact hreturn
  noStore := by
    intro j hj c hc
    rw [hcalls] at hc
    by_cases hij : i = j
    · subst hij
      have hlt : i < s.calls.length := (List.getElem?_eq_some_iff.mp hi).1
      rw [List.getElem?_set_self hlt, Option.some_inj] at hc
      subst hc
      exact hstore (h.noStore i hj call hi)
    · rw [List.getElem?_set_ne hij] at hc
      exact h.noStore j hj c hc

lemma resume_eq_some : s.resume p i e = some s' ↔
    ∃ call next, s.calls[i]? = some call ∧ call.resume p e = some next ∧ s' = s.move i next := by
  simp only [State.resume, Option.bind_eq_bind, Option.bind_eq_some_iff, Option.pure_def, Option.some_inj]
  constructor
  · rintro ⟨call, hcall, next, hnext, rfl⟩
    exact ⟨call, next, hcall, hnext, rfl⟩
  · rintro ⟨call, next, hcall, hnext, rfl⟩
    exact ⟨call, hcall, next, hnext, rfl⟩

lemma Locked.resume (h : Locked p n s) (hstep : s.resume p i e = some s') : Locked p n s' := by
  obtain ⟨call, next, hi, hnext, rfl⟩ := resume_eq_some.mp hstep
  obtain ⟨hstore, hreturn⟩ := harmless_of_resume p hnext
  exact h.move hi hstore (hreturn (h.noReturn call (List.mem_of_getElem? hi))).1 rfl h.store

lemma Locked.step (h : Locked p n s) (he : ¬ StoresFrom n e) (hstep : step p s e = some s') :
    Locked p n s' := by
  cases e with
  | persist | restore | purge =>
    cases hstep
    exact h.start rfl
  | configAnswered | seedSealed | meAnswered | unsealed | matched | derived => exact h.resume hstep
  | putDone i ok =>
    simp only [Unlock.step] at hstep
    split at hstep
    · rename_i value hi
      cases hstep
      -- A put of one of the first calls is excluded, and so is a successful one of the others.
      have hlate : n ≤ i := by
        by_contra hlt
        cases h.noStore i (not_le.mp hlt) _ hi
      cases ok with
      | true => exact absurd hlate he
      | false => exact h.move hi (fun _ => rfl) rfl rfl h.store
    · cases hstep
  | got i ok now =>
    simp only [Unlock.step] at hstep
    split at hstep
    · rename_i hi
      cases hstep
      rw [h.store]
      cases ok with
      | true | false => exact h.move hi (fun _ => rfl) rfl rfl h.store
    · cases hstep
  | deleted i ok =>
    simp only [Unlock.step] at hstep
    split at hstep
    · rename_i final hi
      cases hstep
      exact h.move hi (fun _ => rfl) rfl rfl (by simp [h.store])
    · rename_i hi
      cases hstep
      exact h.move hi (fun _ => rfl) rfl rfl (by simp [h.store])
    · cases hstep

lemma Locked.not_returns (h : Locked p n s) (e : Event Key) : ¬ ReturnsSession p s e := by
  rintro ⟨i, session, s', rfl, hstep, hs'⟩
  obtain ⟨call, next, hi, hnext, rfl⟩ := resume_eq_some.mp hstep
  have hcall := h.noReturn call (List.mem_of_getElem? hi)
  have hlt : i < s.calls.length := (List.getElem?_eq_some_iff.mp hi).1
  rw [State.move, List.getElem?_set_self hlt, Option.some_inj] at hs'
  exact ((harmless_of_resume p hnext).2 hcall).2 session hs'

lemma Locked.isFinal (h : Locked p s.calls.length s) : LockIsFinal p s := by
  intro events t hrun hevents
  generalize s.calls.length = n at h hevents
  induction events generalizing s with
  | nil =>
    rw [← Automaton.run_nil.mp hrun]
    exact ⟨h.store, trivial⟩
  | cons e events ih =>
    rw [List.forall_mem_cons] at hevents
    obtain ⟨s', hstep, hrest⟩ := Automaton.run_cons.mp hrun
    obtain ⟨hstore, hall⟩ := ih hrest (h.step hevents.1 hstep) hevents.2
    refine ⟨hstore, h.not_returns e, fun u hu => ?_⟩
    rw [hstep, Option.some_inj] at hu
    exact hu ▸ hall

/-- Some continuation without a put of the later calls leaves a record in the store or returns a
session. -/
def Breaks (p : UnlockCrypto Key) (n : ℕ) (s : State Key) : Prop :=
  ∃ events t, Automaton.run (Unlock.step p) s events = some t ∧ (∀ e ∈ events, ¬ StoresFrom n e) ∧
    (t.store ≠ none ∨ ¬ Automaton.Throughout (Unlock.step p) (fun u e => ¬ ReturnsSession p u e) s events)

lemma Breaks.not_final (h : Breaks p s.calls.length s) : ¬ LockIsFinal p s := by
  obtain ⟨events, t, hrun, hevents, hbreak⟩ := h
  intro hfinal
  obtain ⟨hstore, hall⟩ := hfinal events t hrun hevents
  exact hbreak.elim (fun hne => hne hstore) (fun hne => hne hall)

lemma Breaks.cons (hstep : Unlock.step p s e = some s') (he : ¬ StoresFrom n e)
    (h : Breaks p n s') : Breaks p n s := by
  obtain ⟨events, t, hrun, hevents, hbreak⟩ := h
  refine ⟨e :: events, t, Automaton.run_cons.mpr ⟨s', hstep, hrun⟩, ?_, hbreak.imp_right ?_⟩
  · exact List.forall_mem_cons.mpr ⟨he, hevents⟩
  · exact fun hne hall => hne (hall.2 s' hstep)

lemma breaks_of_store {value : StoredValue Key} (h : s.store = some value) : Breaks p n s :=
  ⟨[], s, rfl, nofun, .inl (by simp [h])⟩

lemma breaks_of_putting {value : StoredValue Key} (hi : s.calls[i]? = some (.putting value)) (hn : i < n) :
    Breaks p n s := by
  have hstep : Unlock.step p s (.putDone i true) = some { s.move i .persisted with store := some value } := by
    simp [Unlock.step, hi]
  exact Breaks.cons hstep (not_le.mpr hn) (breaks_of_store rfl)

lemma getElem?_move (hi : s.calls[i]? = some call) :
    (s.move i next).calls[i]? = some next :=
  List.getElem?_set_self (List.getElem?_eq_some_iff.mp hi).1

lemma Breaks.of_resume (hstep : Unlock.step p s e = s.resume p i e)
    (he : ¬ StoresFrom n e) (hi : s.calls[i]? = some call) (hnext : call.resume p e = some next)
    (h : Breaks p n (s.move i next)) : Breaks p n s :=
  Breaks.cons (hstep.trans (resume_eq_some.mpr ⟨call, next, hi, hnext, rfl⟩)) he h

lemma breaks_of_sealing {session : Session Key} {hours : ℚ} (hi : s.calls[i]? = some (.sealing session hours))
    (hn : i < n) : Breaks p n s :=
  -- Any key will do for the seal; the session has one.
  Breaks.of_resume (e := .seedSealed i (some (session.kemPrivateKey, [])) 0) rfl not_false hi rfl
    (breaks_of_putting (getElem?_move hi) hn)

lemma breaks_of_mayStore {call : Call Key} (hi : s.calls[i]? = some call) (hcall : mayStore call = true)
    (hn : i < n) : Breaks p n s := by
  cases call with
  | fetchingConfig session =>
    exact Breaks.of_resume (e := .configAnswered i none) rfl not_false hi rfl
      (breaks_of_sealing (getElem?_move hi) hn)
  | sealing session hours => exact breaks_of_sealing hi hn
  | putting value => exact breaks_of_putting hi hn
  | _ => cases hcall

lemma breaks_of_deriving {seed : Bytes}
    (hi : s.calls[i]? = some (.derivingEk record seed)) (hgate : ekGate p record seed = true) :
    Breaks p n s := by
  have hnext : Call.resume p (.derivingEk record seed) (.derived i) =
      some (.restored (some (restoredSession record seed))) := by
    simp [Call.resume, hgate]
  have hstep : Unlock.step p s (.derived i) =
      some (s.move i (.restored (some (restoredSession record seed)))) :=
    resume_eq_some.mpr ⟨_, _, hi, hnext, rfl⟩
  refine ⟨[.derived i], _, Automaton.run_cons.mpr ⟨_, hstep, rfl⟩, ?_, .inr fun hall => hall.1 ?_⟩
  · simp [StoresFrom]
  · exact ⟨i, _, _, rfl, hstep, getElem?_move hi⟩

lemma breaks_of_matching {seed : Bytes}
    (hi : s.calls[i]? = some (.matching record seed)) (hcall : mayReturn p (.matching record seed) = true) :
    Breaks p n s := by
  simp only [mayReturn, Bool.and_eq_true] at hcall
  have hnext : Call.resume p (.matching record seed) (.matched i) = some (.derivingEk record seed) := by
    simp [Call.resume, hcall.1]
  exact Breaks.of_resume (e := .matched i) rfl not_false hi hnext
    (breaks_of_deriving (getElem?_move hi) hcall.2)

lemma breaks_of_unsealing (hi : s.calls[i]? = some (.unsealing record))
    (hcall : passesGates p record = true) : Breaks p n s := by
  cases hseed : unsealSeed p record with
  | none => simp [passesGates, hseed] at hcall
  | some seed =>
    have hnext : Call.resume p (.unsealing record) (.unsealed i) = some (.matching record seed) := by
      simp [Call.resume, hseed]
    rw [passesGates, hseed, Option.any_some] at hcall
    exact Breaks.of_resume (e := .unsealed i) rfl not_false hi hnext
      (breaks_of_matching (getElem?_move hi) hcall)

def registered (record : UnlockRecord Key) : MeResponse :=
  ⟨record.accountId, some record.kemPubkeyX963, some record.kemPqPubkeyEk⟩

lemma breaks_of_mayReturn {call : Call Key} (hi : s.calls[i]? = some call) (hcall : mayReturn p call = true) :
    Breaks p n s := by
  cases call with
  | askingMe record =>
    simp only [mayReturn, Bool.and_eq_true] at hcall
    have hnext : Call.resume p (.askingMe record) (.meAnswered i (.ok (registered record))) =
        some (.unsealing record) := by
      simp [Call.resume, afterMe, continuity, registered, hcall.1.1, hcall.1.2]
    exact Breaks.of_resume (e := .meAnswered i (.ok (registered record))) rfl not_false hi hnext
      (breaks_of_unsealing (getElem?_move hi) hcall.2)
  | unsealing record => exact breaks_of_unsealing hi hcall
  | matching record seed => exact breaks_of_matching hi hcall
  | derivingEk record seed => exact breaks_of_deriving hi hcall
  | _ => cases hcall

lemma lockIsFinal_iff : LockIsFinal p s ↔ s.store = none ∧ ∀ call ∈ s.calls, Harmless p call := by
  constructor
  · intro hfinal
    constructor
    · by_contra hstore
      obtain ⟨value, hvalue⟩ := Option.ne_none_iff_exists'.mp hstore
      exact Breaks.not_final (breaks_of_store hvalue) hfinal
    · intro call hcall
      obtain ⟨i, hi⟩ := List.mem_iff_getElem?.mp hcall
      have hlt : i < s.calls.length := (List.getElem?_eq_some_iff.mp hi).1
      constructor
      · rw [Bool.eq_false_iff]
        exact fun hmay => Breaks.not_final (breaks_of_mayStore hi hmay hlt) hfinal
      · rw [Bool.eq_false_iff]
        exact fun hmay => Breaks.not_final (breaks_of_mayReturn hi hmay) hfinal
  · rintro ⟨hstore, hcalls⟩
    exact Locked.isFinal ⟨hstore, le_rfl, fun call hcall => (hcalls call hcall).2,
      fun i _ call hi => (hcalls call (List.mem_of_getElem? hi)).1⟩

lemma forall_mem_set {P : Call Key → Prop} (hi : s.calls[i]? = some call) (hcall : P call)
    (hnext : P next) : (∀ c ∈ s.calls.set i next, P c) ↔ ∀ c ∈ s.calls, P c := by
  constructor
  · intro h c hc
    obtain ⟨j, hj⟩ := List.mem_iff_getElem?.mp hc
    by_cases hij : i = j
    · subst hij
      rw [hi, Option.some_inj] at hj
      exact hj ▸ hcall
    · apply h
      rw [← List.getElem?_set_ne hij] at hj
      exact List.mem_of_getElem? hj
  · intro h c hc
    rcases List.mem_or_eq_of_mem_set hc with hc | rfl
    · exact h c hc
    · exact hnext

/-- A completed purge of a lock or a sign-out is final, whatever happens then, exactly when it
emptied the store, no persist of an earlier gesture is before its put, and no restore holds a
record of which it may return a session. -/
theorem lock_is_final_iff (p : UnlockCrypto Key) (s s' : State Key) (i : ℕ) (ok : Bool)
    (hi : s.calls[i]? = some (.deleting true)) (hstep : step p s (.deleted i ok) = some s') :
    LockIsFinal p s' ↔ (ok = true ∨ s.store = none) ∧
      ∀ call ∈ s.calls, mayStore call = false ∧ mayReturn p call = false := by
  have hs' : s' = { s.move i (.purged true) with store := if ok then none else s.store } := by
    simpa [Unlock.step, hi] using hstep.symm
  subst hs'
  rw [lockIsFinal_iff]
  apply and_congr
  · cases ok <;> simp
  · exact forall_mem_set hi ⟨rfl, rfl⟩ ⟨rfl, rfl⟩

section Sample

def recordingCrypto : UnlockCrypto ℕ where
  encrypt _ _ _ plaintext := plaintext
  decrypt _ _ _ ciphertext := ciphertext
  b64uDecode s := some (utf8 s)
  kemKeypairMatches _ _ := some true
  mlkemEkFromSeed seed := some seed

def sampleSession : Session ℕ where
  accountId := "account"
  kemPrivateKey := 1
  kemPubkeyX963 := "kem"
  mlkemSeed := utf8 "pq"
  kemPqPubkeyEk := "pq"
  wrappedKemPrivkeyBlob := none

def emptyStore : State ℕ := ⟨none, []⟩

def persistSteps (i : ℕ) : List (Event ℕ) :=
  [.configAnswered i none, .seedSealed i (some (2, [])) 0, .putDone i true]

def sampleValue : StoredValue ℕ := unlockValue recordingCrypto sampleSession DEFAULT_PERSIST_HOURS 2 [] 0

def lockInTurn : List (Event ℕ) := .persist sampleSession :: persistSteps 0 ++ [.purge true]

theorem lock_is_final_in_turn :
    Automaton.run (step recordingCrypto) emptyStore lockInTurn =
        some ⟨some sampleValue, [.persisted, .deleting true]⟩ ∧
      LockIsFinal recordingCrypto ⟨none, [.persisted, .purged true]⟩ := by
  refine ⟨rfl, ?_⟩
  apply (lock_is_final_iff recordingCrypto ⟨some sampleValue, [.persisted, .deleting true]⟩ _ 1
    true rfl rfl).mpr
  refine ⟨.inl rfl, ?_⟩
  simp [mayStore, mayReturn]

def lockedEarly : State ℕ := ⟨none, [.fetchingConfig sampleSession, .purged true]⟩

theorem persist_undoes_lock :
    Automaton.run (step recordingCrypto) emptyStore [.persist sampleSession, .purge true, .deleted 1 true] =
        some lockedEarly ∧
      Automaton.run (step recordingCrypto) lockedEarly (persistSteps 0) =
        some ⟨some sampleValue, [.persisted, .purged true]⟩ ∧
      ¬ LockIsFinal recordingCrypto lockedEarly := by
  have hcall : lockedEarly.calls[0]? = some (.fetchingConfig sampleSession) := rfl
  exact ⟨rfl, rfl, Breaks.not_final (breaks_of_mayStore hcall rfl (by decide))⟩

end Sample

end SignetDrive.Proofs
