import Mathlib.Tactic

/-!
# Runs of a step function

A run is recorded step by step, with the state before and after each. A property of a run is
a property of each of its steps together with the steps before it, and so is an invariant.
-/

namespace Run

section Always

variable {α : Type} {P Q : List α → α → Prop} {xs : List α}

def Always (P : List α → α → Prop) (xs : List α) : Prop :=
  ∀ past x rest, xs = past ++ x :: rest → P past x

lemma always_nil : Always P [] := by
  intro past x rest h
  simp at h

lemma always_cons {x : α} :
    Always P (x :: xs) ↔ P [] x ∧ Always (fun past y => P (x :: past) y) xs := by
  constructor
  · intro h
    refine ⟨h [] x xs rfl, ?_⟩
    intro past y rest hxs
    exact h (x :: past) y rest (by rw [hxs, List.cons_append])
  · rintro ⟨hx, htail⟩ past y rest h
    cases past with
    | nil =>
      rw [List.nil_append, List.cons.injEq] at h
      rw [← h.1]
      exact hx
    | cons z past =>
      rw [List.cons_append, List.cons.injEq] at h
      rw [← h.1]
      exact htail past y rest h.2

lemma Always.mono (h : Always P xs) (hPQ : Always (fun past x => P past x → Q past x) xs) :
    Always Q xs :=
  fun past x rest hxs => hPQ past x rest hxs (h past x rest hxs)

lemma Always.congr (h : Always (fun past x => P past x ↔ Q past x) xs) :
    Always P xs ↔ Always Q xs :=
  ⟨fun hP => hP.mono fun past x rest hxs => (h past x rest hxs).mp,
    fun hQ => hQ.mono fun past x rest hxs => (h past x rest hxs).mpr⟩

lemma Always.of_mem {C : α → Prop} (h : Always (fun _ x => C x) xs) {x : α} (hx : x ∈ xs) : C x := by
  obtain ⟨past, rest, hxs⟩ := List.append_of_mem hx
  exact h past x rest hxs

lemma always_of_pairwise {R : α → α → Prop} (h : xs.Pairwise R) :
    Always (fun past y => ∀ x ∈ past, R x y) xs := by
  intro past y rest hxs x hx
  rw [hxs, List.pairwise_append] at h
  exact h.2.2 x hx y List.mem_cons_self

lemma always_map {β : Type} {f : α → β} {Q : List β → β → Prop} :
    Always Q (xs.map f) ↔ Always (fun past x => Q (past.map f) (f x)) xs := by
  induction xs generalizing Q with
  | nil => exact ⟨fun _ => always_nil, fun _ => always_nil⟩
  | cons x xs ih =>
    rw [List.map_cons, always_cons, always_cons, ih]
    rfl

lemma always_of_filterMap {β : Type} {f : α → Option β} {Q : List β → β → Prop}
    (h : Always Q (xs.filterMap f)) :
    Always (fun past x => ∀ y, f x = some y → Q (past.filterMap f) y) xs := by
  intro past x rest hxs y hy
  apply h (past.filterMap f) y (rest.filterMap f)
  rw [hxs, List.filterMap_append, List.filterMap_cons_some hy]

instance Always.decide : (xs : List α) → (P : List α → α → Prop) →
    [∀ past x, Decidable (P past x)] → Decidable (Always P xs)
  | [], _, _ => .isTrue always_nil
  | x :: xs, P, _ =>
    haveI := Always.decide xs (fun past y => P (x :: past) y)
    decidable_of_iff _ always_cons.symm

end Always

section Steps

variable {σ ι ο : Type}

structure Step (σ ι ο : Type) where
  before : σ
  input : ι
  output : ο
  after : σ

def steps (step : σ → ι → σ × ο) (s : σ) : List ι → List (Step σ ι ο)
  | [] => []
  | i :: inputs => ⟨s, i, (step s i).2, (step s i).1⟩ :: steps step (step s i).1 inputs

variable {step : σ → ι → σ × ο} {s : σ} {inputs : List ι}

lemma steps_input : (steps step s inputs).map Step.input = inputs := by
  induction inputs generalizing s with
  | nil => rfl
  | cons i inputs ih => rw [steps, List.map_cons, ih]

variable {e : Step σ ι ο} {past rest : List (Step σ ι ο)}

lemma input_mem (he : e ∈ steps step s inputs) : e.input ∈ inputs := by
  have hmap : (steps step s inputs).map Step.input = inputs := steps_input
  rw [← hmap]
  exact List.mem_map_of_mem he

lemma step_of_mem (he : e ∈ steps step s inputs) :
    step e.before e.input = (e.after, e.output) := by
  induction inputs generalizing s with
  | nil => simp [steps] at he
  | cons i inputs ih =>
    rw [steps, List.mem_cons] at he
    rcases he with rfl | he
    · rfl
    · exact ih he

lemma output_of_mem (he : e ∈ steps step s inputs) :
    (step e.before e.input).2 = e.output := by
  rw [step_of_mem he]

lemma step_of_eq_append
    (h : steps step s inputs = past ++ e :: rest) : step e.before e.input = (e.after, e.output) := by
  apply step_of_mem
  rw [h]
  simp

lemma steps_through
    (h : steps step s inputs = past ++ e :: rest) :
    ∃ served, served <+: inputs ∧
      ∀ more, steps step s (served ++ more) = past ++ e :: steps step e.after more := by
  induction past generalizing s inputs with
  | nil =>
    cases inputs with
    | nil => simp [steps] at h
    | cons i inputs =>
      rw [steps, List.nil_append, List.cons.injEq] at h
      refine ⟨[i], ⟨inputs, rfl⟩, ?_⟩
      intro more
      rw [← h.1]
      rfl
  | cons x past ih =>
    cases inputs with
    | nil => simp [steps] at h
    | cons i inputs =>
      rw [steps, List.cons_append, List.cons.injEq] at h
      obtain ⟨served, hserved, hmore⟩ := ih h.2
      refine ⟨i :: served, List.cons_prefix_cons.mpr ⟨rfl, hserved⟩, ?_⟩
      intro more
      rw [List.cons_append, steps, hmore, h.1, List.cons_append]

lemma steps_isPrefix {served : List ι} (h : served <+: inputs) :
    steps step s served <+: steps step s inputs := by
  induction served generalizing s inputs with
  | nil => exact List.nil_prefix
  | cons i served ih =>
    cases inputs with
    | nil => simp at h
    | cons j inputs =>
      rw [List.cons_prefix_cons] at h
      rw [steps, steps, h.1]
      exact List.cons_prefix_cons.mpr ⟨rfl, ih h.2⟩

lemma past_isPrefix_steps {i : ι}
    (h : steps step s (inputs ++ [i]) = past ++ e :: rest) : past <+: steps step s inputs := by
  have hlong : past <+: steps step s (inputs ++ [i]) := by
    rw [h]
    exact List.prefix_append _ _
  have hlength : past.length ≤ inputs.length := by
    have := congrArg List.length (congrArg (List.map Step.input) h)
    rw [steps_input] at this
    simp at this
    omega
  apply List.prefix_of_prefix_length_le hlong (steps_isPrefix (List.prefix_append _ _))
  rw [← List.length_map Step.input, ← List.length_map Step.input, steps_input, List.length_map]
  exact hlength

lemma always_pairwise_input {R : ι → ι → Prop} (h : inputs.Pairwise R) :
    Always (fun past e => ∀ x ∈ past, R x.input e.input) (steps step s inputs) := by
  apply always_of_pairwise
  rw [← List.pairwise_map, steps_input]
  exact h

lemma always_forall_input {C : ι → Prop} (h : ∀ i ∈ inputs, C i) :
    Always (fun _ e => C e.input) (steps step s inputs) := by
  intro past e rest hsteps
  exact h _ (input_mem (by rw [hsteps]; simp))

lemma always_input (step : σ → ι → σ × ο) (s : σ) {Q : List ι → ι → Prop} :
    Always Q inputs ↔ Always (fun past e => Q (past.map Step.input) e.input) (steps step s inputs) := by
  rw [← always_map, steps_input]

/-- Induction over a run: what holds of the start and is kept by every step of the run holds
before every step of it. -/
theorem invariant (I : List (Step σ ι ο) → σ → Prop) (start : I [] s)
    (keep : Always (fun past e => I past e.before → I (past ++ [e]) e.after) (steps step s inputs)) :
    Always (fun past e => I past e.before) (steps step s inputs) := by
  induction inputs generalizing s I with
  | nil => exact always_nil
  | cons i inputs ih =>
    rw [steps, always_cons] at keep ⊢
    refine ⟨start, ?_⟩
    exact ih (fun past t => I (⟨s, i, (step s i).2, (step s i).1⟩ :: past) t) (keep.1 start) keep.2

section Component

variable {τ κ ο' : Type} {part : τ → κ → τ × ο'}

def callOf (call : σ → ι → Option κ) (e : Step σ ι ο) : Option κ := call e.before e.input

def project (view : σ → τ) (part : τ → κ → τ × ο') (call : σ → ι → Option κ) (e : Step σ ι ο) :
    Option (Step τ κ ο') :=
  (callOf call e).map fun k => ⟨view e.before, k, (part (view e.before) k).2, view e.after⟩

/-- If every step either leaves a component alone or makes one step of it, then what the run
does to the component is a run of the component. -/
theorem steps_project {view : σ → τ} {call : σ → ι → Option κ}
    (hcall : ∀ s i k, call s i = some k → view (step s i).1 = (part (view s) k).1)
    (hframe : ∀ s i, call s i = none → view (step s i).1 = view s) :
    (steps step s inputs).filterMap (project view part call) =
      steps part (view s) ((steps step s inputs).filterMap (callOf call)) := by
  induction inputs generalizing s with
  | nil => rfl
  | cons i inputs ih =>
    rw [steps]
    cases hk : call s i with
    | none =>
      have hnone : callOf call (⟨s, i, (step s i).2, (step s i).1⟩ : Step σ ι ο) = none := hk
      have hproject : project view part call ⟨s, i, (step s i).2, (step s i).1⟩ = none := by
        rw [project, hnone, Option.map_none]
      rw [List.filterMap_cons_none hproject, List.filterMap_cons_none hnone, ih, hframe s i hk]
    | some k =>
      have hsome : callOf call (⟨s, i, (step s i).2, (step s i).1⟩ : Step σ ι ο) = some k := hk
      have hproject : project view part call ⟨s, i, (step s i).2, (step s i).1⟩ =
          some ⟨view s, k, (part (view s) k).2, view (step s i).1⟩ := by
        rw [project, hsome, Option.map_some]
      rw [List.filterMap_cons_some hproject, List.filterMap_cons_some hsome, ih, steps,
        hcall s i k hk]

end Component

end Steps

end Run
