import SignetDrive.Lib.Run

/-!
# Latches

A latch is a cell that the first recording step fills and that a clearing step empties. What it
holds in a run is what was recorded first since it was last cleared.
-/

namespace Run

section Since

variable {α β : Type} {P Q : α → Prop} {x y : α} {xs : List α}

/-- `y` is one of the elements, and `P` holds of every element after it. -/
def Since (P : α → Prop) (y : α) (xs : List α) : Prop :=
  ∃ past rest, xs = past ++ y :: rest ∧ ∀ z ∈ rest, P z

lemma Since.mem (h : Since P y xs) : y ∈ xs := by
  obtain ⟨past, rest, rfl, -⟩ := h
  simp

lemma Since.mono (h : Since P y xs) (hPQ : ∀ z ∈ xs, P z → Q z) : Since Q y xs := by
  obtain ⟨past, rest, rfl, hrest⟩ := h
  refine ⟨past, rest, rfl, ?_⟩
  intro z hz
  exact hPQ z (by simp [hz]) (hrest z hz)

lemma since_of_forall (hy : y ∈ xs) (h : ∀ z ∈ xs, P z) : Since P y xs := by
  obtain ⟨past, rest, rfl⟩ := List.append_of_mem hy
  refine ⟨past, rest, rfl, ?_⟩
  intro z hz
  exact h z (by simp [hz])

lemma since_concat : Since P y (xs ++ [x]) ↔ y = x ∨ Since P y xs ∧ P x := by
  constructor
  · rintro ⟨past, rest, hxs, hrest⟩
    rcases List.eq_nil_or_concat rest with rfl | ⟨rest, z, rfl⟩
    · obtain ⟨-, hx⟩ := List.append_inj' hxs rfl
      exact Or.inl (List.cons.inj hx).1.symm
    · have hxs' : xs ++ [x] = (past ++ y :: rest) ++ [z] := by simpa using hxs
      obtain ⟨rfl, hx⟩ := List.append_inj' hxs' rfl
      obtain ⟨rfl, -⟩ := List.cons.inj hx
      exact Or.inr ⟨⟨past, rest, rfl, fun z hz => hrest z (by simp [hz])⟩, hrest _ (by simp)⟩
  · rintro (rfl | ⟨⟨past, rest, rfl, hrest⟩, hx⟩)
    · exact ⟨xs, [], rfl, by simp⟩
    · refine ⟨past, rest ++ [x], by simp, ?_⟩
      intro z hz
      rw [List.mem_append, List.mem_singleton] at hz
      rcases hz with hz | rfl
      · exact hrest z hz
      · exact hx

lemma since_map {f : α → β} {R : β → Prop} {w : β} :
    Since R w (xs.map f) ↔ ∃ y, f y = w ∧ Since (fun z => R (f z)) y xs := by
  constructor
  · rintro ⟨past, rest, hxs, hrest⟩
    obtain ⟨past', tail, rfl, rfl, htail⟩ := List.map_eq_append_iff.mp hxs
    obtain ⟨y, rest', rfl, rfl, rfl⟩ := List.map_eq_cons_iff.mp htail
    refine ⟨y, rfl, past', rest', rfl, ?_⟩
    intro z hz
    exact hrest _ (List.mem_map_of_mem hz)
  · rintro ⟨y, rfl, past, rest, rfl, hrest⟩
    refine ⟨past.map f, rest.map f, by simp, ?_⟩
    intro w hw
    obtain ⟨z, hz, rfl⟩ := List.mem_map.mp hw
    exact hrest z hz

end Since

inductive Latch (τ : Type) where
  | keep
  | clear
  | record (t : τ)

def Latch.apply {τ : Type} : Latch τ → Option τ → Option τ
  | keep, cell => cell
  | clear, _ => none
  | record t, cell => some (cell.getD t)

section

variable {σ ι ο τ : Type} {step : σ → ι → σ × ο} {s : σ} {inputs : List ι}
  (cell : σ → Option τ) (effect : Step σ ι ο → Latch τ)

theorem latch_stays
    (h : ∀ e ∈ steps step s inputs, cell e.after = (effect e).apply (cell e.before)) :
    Always (fun past e => ∀ y t, Since (fun z => effect z ≠ .clear) y past →
      cell y.after = some t → cell e.before = some t) (steps step s inputs) := by
  apply invariant (fun past s => ∀ y t, Since (fun z => effect z ≠ .clear) y past →
    cell y.after = some t → cell s = some t)
  · rintro y t hy -
    simpa using hy.mem
  · intro past e rest hsteps ih y t hy ht
    rw [since_concat] at hy
    rcases hy with rfl | ⟨hy, hkeep⟩
    · exact ht
    · have hstep := h e (by rw [hsteps]; simp)
      rw [ih y t hy ht] at hstep
      cases heffect : effect e with
      | keep | record => simpa [heffect, Latch.apply] using hstep
      | clear => exact absurd heffect hkeep

theorem latch_origin
    (h : ∀ e ∈ steps step s inputs, cell e.after = (effect e).apply (cell e.before)) :
    Always (fun past e => ∀ t, cell e.before = some t →
      (∃ y, Since (fun z => effect z ≠ .clear) y past ∧ effect y = .record t) ∨
        cell s = some t ∧ ∀ z ∈ past, effect z ≠ .clear) (steps step s inputs) := by
  apply invariant (fun past s' => ∀ t, cell s' = some t →
    (∃ y, Since (fun z => effect z ≠ .clear) y past ∧ effect y = .record t) ∨
      cell s = some t ∧ ∀ z ∈ past, effect z ≠ .clear)
  · intro t ht
    exact Or.inr ⟨ht, by simp⟩
  · intro past e rest hsteps ih t ht
    have hstep := h e (by rw [hsteps]; simp)
    -- an uncleared value keeps its origin; only a recording of an empty cell gives a new one
    have hold : cell e.before = some t → effect e ≠ .clear →
        (∃ y, Since (fun z => effect z ≠ .clear) y (past ++ [e]) ∧ effect y = .record t) ∨
          cell s = some t ∧ ∀ z ∈ past ++ [e], effect z ≠ .clear := by
      intro hbefore hkeep
      rcases ih t hbefore with ⟨y, hy, hrecord⟩ | ⟨hstart, hpast⟩
      · exact Or.inl ⟨y, since_concat.mpr (Or.inr ⟨hy, hkeep⟩), hrecord⟩
      · refine Or.inr ⟨hstart, ?_⟩
        intro z hz
        rw [List.mem_append, List.mem_singleton] at hz
        rcases hz with hz | rfl
        · exact hpast z hz
        · exact hkeep
    cases heffect : effect e with
    | keep =>
      rw [ht, heffect, Latch.apply] at hstep
      exact hold hstep.symm (by simp [heffect])
    | clear =>
      rw [ht, heffect, Latch.apply] at hstep
      cases hstep
    | record t' =>
      rw [ht, heffect, Latch.apply] at hstep
      cases hbefore : cell e.before with
      | none =>
        rw [hbefore, Option.getD_none, Option.some.injEq] at hstep
        rw [← hstep] at heffect
        exact Or.inl ⟨e, since_concat.mpr (Or.inl rfl), heffect⟩
      | some t'' =>
        rw [hbefore, Option.getD_some, Option.some.injEq] at hstep
        rw [← hstep] at hbefore
        exact hold hbefore (by simp [heffect])

end

end Run
