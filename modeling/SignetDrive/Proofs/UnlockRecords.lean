import SignetDrive.Proofs.UnlockPersist

namespace SignetDrive.Proofs

open Unlock

variable {Key : Type} {p : UnlockCrypto Key} {s s' : Unlock.State Key} {e : Unlock.Event Key}
  {Stored : StoredValue Key → Prop} {InCall : Unlock.Call Key → Prop}

structure Records (Stored : StoredValue Key → Prop) (InCall : Unlock.Call Key → Prop)
    (s : Unlock.State Key) : Prop where
  store : ∀ value, s.store = some value → Stored value
  calls : ∀ call ∈ s.calls, InCall call

/-- The property says nothing about calls that hold no session and no record. -/
structure IgnoresIdle (InCall : Unlock.Call Key → Prop) : Prop where
  persisted : InCall .persisted
  getting : InCall .getting
  givingUp : InCall .givingUp
  restored : InCall (.restored none)
  deleting : ∀ final, InCall (.deleting final)
  purged : ∀ final, InCall (.purged final)

lemma Records.start (h : Records Stored InCall s) {call : Unlock.Call Key} (hcall : InCall call) :
    Records Stored InCall (s.start call) := by
  refine ⟨h.store, fun next hnext => ?_⟩
  rcases List.mem_append.mp hnext with hold | hnew
  · exact h.calls next hold
  · rw [List.mem_singleton.mp hnew]
    exact hcall

lemma Records.move (h : Records Stored InCall s) {i : ℕ} {call : Unlock.Call Key} (hcall : InCall call) :
    Records Stored InCall (s.move i call) := by
  refine ⟨h.store, fun next hnext => ?_⟩
  rcases List.mem_or_eq_of_mem_set hnext with hold | rfl
  · exact h.calls next hold
  · exact hcall

lemma Records.step (h : Records Stored InCall s) (hidle : IgnoresIdle InCall)
    (hpersist : ∀ session, e = .persist session → InCall (.fetchingConfig session))
    (hput : ∀ value, InCall (.putting value) → Stored value)
    (hget : ∀ value now, Stored value → InCall (afterGet (some value) now))
    (hresume : ∀ call next, InCall call → call.resume p e = some next → InCall next)
    (hstep : Unlock.step p s e = some s') : Records Stored InCall s' := by
  have hgoesOn : ∀ {i}, s.resume p i e = some s' → Records Stored InCall s' := by
    intro i hi
    obtain ⟨call, next, hcall, hnext, rfl⟩ := resume_eq_some.mp hi
    exact h.move (hresume call next (h.calls call (List.mem_of_getElem? hcall)) hnext)
  cases e with
  | persist session =>
    cases hstep
    exact h.start (hpersist session rfl)
  | restore =>
    cases hstep
    exact h.start hidle.getting
  | purge final =>
    cases hstep
    exact h.start (hidle.deleting final)
  | configAnswered | seedSealed | meAnswered | unsealed | matched | derived => exact hgoesOn hstep
  | putDone i ok =>
    simp only [Unlock.step] at hstep
    split at hstep
    · rename_i value hi
      cases hstep
      refine ⟨fun stored hstored => ?_, (h.move hidle.persisted).calls⟩
      cases ok with
      | true =>
        cases hstored
        exact hput _ (h.calls _ (List.mem_of_getElem? hi))
      | false => exact h.store stored hstored
    · cases hstep
  | got i ok now =>
    simp only [Unlock.step] at hstep
    split at hstep
    · cases hstep
      apply h.move
      split_ifs
      · cases hstore : s.store with
        | none => exact hidle.restored
        | some value => exact hget value now (h.store value hstore)
      · exact hidle.restored
    · cases hstep
  | deleted i ok =>
    have hstore : ∀ value, (if ok then none else s.store) = some value → Stored value := by
      intro value hvalue
      cases ok with
      | true => cases hvalue
      | false => exact h.store value hvalue
    simp only [Unlock.step] at hstep
    split at hstep
    · cases hstep
      exact ⟨hstore, (h.move (hidle.purged _)).calls⟩
    · cases hstep
      exact ⟨hstore, (h.move hidle.restored).calls⟩
    · cases hstep

end SignetDrive.Proofs
