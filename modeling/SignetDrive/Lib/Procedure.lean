import Mathlib.Tactic

/-!
# Procedures that change a state and may fail

A procedure that fails leaves the state as it is then: nothing is rolled back.
-/

def Procedure (σ ε α : Type) : Type := σ → Except ε α × σ

namespace Procedure

variable {σ ε α β : Type}

instance : Monad (Procedure σ ε) where
  pure a := fun s => (.ok a, s)
  bind p f := fun s =>
    match p s with
    | (.ok a, s') => f a s'
    | (.error e, s') => (.error e, s')

def check (x : Except ε α) : Procedure σ ε α := fun s => (x, s)

def update (f : σ → σ) : Procedure σ ε Unit := fun s => (.ok (), f s)

variable {p : Procedure σ ε α} {f : α → Procedure σ ε β} {s t : σ}

lemma bind_of_ok {a : α} (h : p s = (.ok a, t)) : (p >>= f) s = f a t := by
  simp [bind, h]

lemma bind_of_error {e : ε} (h : p s = (.error e, t)) : (p >>= f) s = (.error e, t) := by
  simp [bind, h]

lemma bind_ok {r : β} (h : (p >>= f) s = (.ok r, t)) : ∃ a u, p s = (.ok a, u) ∧ f a u = (.ok r, t) := by
  cases hp : p s with
  | mk result u =>
    cases result with
    | ok a => exact ⟨a, u, rfl, (bind_of_ok hp).symm.trans h⟩
    | error e =>
      rw [bind_of_error hp] at h
      cases h

lemma check_bind (x : Except ε α) (f : α → Procedure σ ε β) (s : σ) :
    (∃ e, (check x >>= f) s = (.error e, s)) ∨ ∃ a, x = .ok a ∧ (check x >>= f) s = f a s := by
  cases x with
  | error e => exact .inl ⟨e, bind_of_error rfl⟩
  | ok a => exact .inr ⟨a, rfl, bind_of_ok rfl⟩

@[simp] lemma check_apply (x : Except ε α) : (check x : Procedure σ ε α) s = (x, s) := rfl

@[simp] lemma update_apply (g : σ → σ) : (update g : Procedure σ ε Unit) s = (.ok (), g s) := rfl

/-- However the procedure ends, the states before and after it are related. -/
def Keeps (R : σ → σ → Prop) (p : Procedure σ ε α) : Prop := ∀ s, R s (p s).2

variable {R : σ → σ → Prop}

lemma keeps_bind (trans : ∀ s t u, R s t → R t u → R s u) (hp : Keeps R p) (hf : ∀ a, Keeps R (f a)) :
    Keeps R (p >>= f) := by
  intro s
  have hs := hp s
  simp only [bind]
  split
  case h_1 a s' heq =>
    rw [heq] at hs
    exact trans _ _ _ hs (hf a s')
  case h_2 e s' heq =>
    rw [heq] at hs
    exact hs

lemma keeps_pure (refl : ∀ s, R s s) (a : α) : Keeps R (pure a : Procedure σ ε α) := fun s => refl s

lemma keeps_check (refl : ∀ s, R s s) (x : Except ε α) : Keeps R (check x : Procedure σ ε α) := fun s => refl s

lemma keeps_update {g : σ → σ} (h : ∀ s, R s (g s)) : Keeps R (update g : Procedure σ ε Unit) := h

end Procedure
