import Mathlib.Tactic

/-!
# Machines that take one event at a time

A machine is a partial step function: an event that is not enabled has no step. A run is a list
of events, each enabled where it happens.
-/

namespace Automaton

variable {σ ι : Type} {step : σ → ι → Option σ} {s t : σ} {events : List ι}

/-- The state after the events, if each is enabled in turn. -/
def run (step : σ → ι → Option σ) : σ → List ι → Option σ
  | s, [] => some s
  | s, e :: events => (step s e).bind fun s' => run step s' events

lemma run_nil : run step s [] = some t ↔ s = t := Option.some_inj

lemma run_cons {e : ι} : run step s (e :: events) = some t ↔ ∃ s', step s e = some s' ∧
    run step s' events = some t :=
  Option.bind_eq_some_iff

lemma run_append {more : List ι} :
    run step s (events ++ more) = some t ↔ ∃ u, run step s events = some u ∧ run step u more = some t := by
  induction events generalizing s with
  | nil => simp [run]
  | cons e events ih =>
    simp only [List.cons_append, run_cons, ih]
    constructor
    · rintro ⟨s', hstep, u, hrun, hmore⟩
      exact ⟨u, ⟨s', hstep, hrun⟩, hmore⟩
    · rintro ⟨u, ⟨s', hstep, hrun⟩, hmore⟩
      exact ⟨s', hstep, u, hrun, hmore⟩

lemma run_of_mem {e : ι} (he : e ∈ events) (hrun : run step s events = some t) :
    ∃ before after u v, events = before ++ e :: after ∧ run step s before = some u ∧ step u e = some v ∧
      run step v after = some t := by
  obtain ⟨before, after, rfl⟩ := List.append_of_mem he
  obtain ⟨u, hbefore, hrest⟩ := run_append.mp hrun
  obtain ⟨v, hstep, hafter⟩ := run_cons.mp hrest
  exact ⟨before, after, u, v, rfl, hbefore, hstep, hafter⟩

/-- Induction over a run: what holds at the start and is kept by every step of the run holds at
the end. -/
theorem invariant (I : σ → Prop) (start : I s) (keep : ∀ e ∈ events, ∀ u v, I u → step u e = some v → I v)
    (hrun : run step s events = some t) : I t := by
  induction events generalizing s with
  | nil =>
    rw [← run_nil.mp hrun]
    exact start
  | cons e events ih =>
    obtain ⟨s', hstep, hrun⟩ := run_cons.mp hrun
    exact ih (keep e List.mem_cons_self s s' start hstep)
      (fun f hf => keep f (List.mem_cons_of_mem e hf)) hrun

/-- Each step of the run meets the condition in the state before it. -/
def Throughout (step : σ → ι → Option σ) (C : σ → ι → Prop) : σ → List ι → Prop
  | _, [] => True
  | s, e :: events => C s e ∧ ∀ s', step s e = some s' → Throughout step C s' events

variable {C : σ → ι → Prop}

lemma throughout_of_forall (h : ∀ e ∈ events, ∀ u, C u e) : Throughout step C s events := by
  induction events generalizing s with
  | nil => trivial
  | cons e events ih =>
    exact ⟨h e List.mem_cons_self s, fun _ _ => ih fun f hf => h f (List.mem_cons_of_mem e hf)⟩

lemma throughout_append {more : List ι} (hfirst : Throughout step C s events)
    (hmore : ∀ u, run step s events = some u → Throughout step C u more) :
    Throughout step C s (events ++ more) := by
  induction events generalizing s with
  | nil => exact hmore s rfl
  | cons e events ih =>
    refine ⟨hfirst.1, fun s' hstep => ih (hfirst.2 s' hstep) fun u hu => hmore u ?_⟩
    exact run_cons.mpr ⟨s', hstep, hu⟩

lemma Throughout.cons {e : ι} (hC : C s e) (hstep : step s e = some t)
    (hrest : Throughout step C t events) : Throughout step C s (e :: events) :=
  ⟨hC, fun _ hother => Option.some_inj.mp (hstep.symm.trans hother) ▸ hrest⟩

lemma Throughout.and {C D : σ → ι → Prop} (hC : Throughout step C s events) (hD : Throughout step D s events) :
    Throughout step (fun u e => C u e ∧ D u e) s events := by
  induction events generalizing s with
  | nil => trivial
  | cons e events ih => exact ⟨⟨hC.1, hD.1⟩, fun s' hstep => ih (hC.2 s' hstep) (hD.2 s' hstep)⟩

/-- What the steps that meet a condition keep holds after a run of such steps. -/
theorem invariant_throughout (I : σ → Prop) (start : I s)
    (keep : ∀ u e v, C u e → I u → step u e = some v → I v) (hall : Throughout step C s events)
    (hrun : run step s events = some t) : I t := by
  induction events generalizing s with
  | nil =>
    rw [← run_nil.mp hrun]
    exact start
  | cons e events ih =>
    obtain ⟨s', hstep, hrest⟩ := run_cons.mp hrun
    exact ih (keep s e s' hall.1 start hstep) (hall.2 s' hstep) hrest

lemma countP_cons {α : Type} (p : α → Bool) (x : α) (xs : List α) :
    (x :: xs).countP p = (p x).toNat + xs.countP p := by
  cases h : p x <;> simp [h, Nat.add_comm]

lemma countP_concat {α : Type} (p : α → Bool) (xs : List α) (x : α) :
    (xs ++ [x]).countP p = xs.countP p + (p x).toNat := by
  cases h : p x <;> simp [h]

lemma countP_set {α : Type} {threads : List α} {k : ℕ} {w : α} (p : α → Bool) (hw : threads[k]? = some w)
    (w' : α) : (threads.set k w').countP p + (p w).toNat = threads.countP p + (p w').toNat := by
  obtain ⟨hk, rfl⟩ := List.getElem?_eq_some_iff.mp hw
  have hle : (p threads[k]).toNat ≤ threads.countP p := by
    cases hp : p threads[k] with
    | false => exact Nat.zero_le _
    | true => exact List.countP_pos_iff.mpr ⟨_, List.getElem_mem hk, hp⟩
  rw [List.countP_set hk]
  cases hp : p threads[k] <;> cases hp' : p w' <;> simp_all

end Automaton
