import Mathlib.Tactic

/-!
# Texts that are read back

A writer puts a value into a text. The value is read back from the front of a longer text when no
other value of the writer's domain can start that text.
-/

namespace Delimited

variable {α β : Type}

def join (sep : α) : List (List α) → List α
  | [] => []
  | part :: parts => part ++ parts.flatMap (sep :: ·)

/-- No other value of the domain is written at the front of a text that starts with `b`, when what
follows the two is in `ends`. -/
def ReadsBack (write : β → List α) (domain : β → Prop) (ends : List α → Prop) (b : β) : Prop :=
  ∀ c, domain c → ∀ r s, ends r → ends s → write b ++ r = write c ++ s → b = c ∧ r = s

/-- The text of every value of the domain starts with something other than the symbol. -/
def Avoids (write : β → List α) (domain : β → Prop) (symbol : α) : Prop :=
  ∀ b, domain b → ∀ r s, write b ++ r ≠ symbol :: s

variable {write : β → List α} {domain : β → Prop} {ends : List α → Prop} {sep close : α}

lemma readsBack_of_read (read : List α → Option (β × List α))
    (h : ∀ b r, read (write b ++ r) = some (b, r)) (b : β) : ReadsBack write domain ends b := by
  intro c _ r s _ _ heq
  have hread : some (b, r) = some (c, s) := by rw [← h b r, ← h c s, heq]
  simpa using hread

lemma readsBack_cons {b : β} (h : ReadsBack write domain ends b) :
    ReadsBack (fun x => sep :: write x) domain ends b := by
  intro c hc r s hr hs heq
  exact h c hc r s hr hs (List.cons.inj heq).2

lemma readsBack_flatMap (ends : List α → Prop) (hclose : ∀ r, ends (close :: r))
    (hpart : ∀ b r, ends (write b ++ r)) (havoid : Avoids write domain close)
    {xs ys : List β} (hxs : ∀ x ∈ xs, domain x ∧ ReadsBack write domain ends x)
    (hys : ∀ y ∈ ys, domain y) {r s : List α}
    (h : xs.flatMap write ++ close :: r = ys.flatMap write ++ close :: s) : xs = ys ∧ r = s := by
  have hends : ∀ (zs : List β) (t : List α), ends (zs.flatMap write ++ close :: t) := by
    intro zs t
    cases zs with
    | nil => exact hclose t
    | cons z zs =>
      rw [List.flatMap_cons, List.append_assoc]
      exact hpart z _
  induction xs generalizing ys with
  | nil =>
    cases ys with
    | nil => exact ⟨rfl, (List.cons.inj h).2⟩
    | cons y ys =>
      rw [List.flatMap_cons, List.append_assoc] at h
      exact absurd h.symm (havoid y (hys y List.mem_cons_self) _ _)
  | cons x xs ih =>
    have hx := hxs x List.mem_cons_self
    cases ys with
    | nil =>
      rw [List.flatMap_cons, List.append_assoc] at h
      exact absurd h (havoid x hx.1 _ _)
    | cons y ys =>
      rw [List.flatMap_cons, List.flatMap_cons, List.append_assoc, List.append_assoc] at h
      obtain ⟨rfl, hrest⟩ := hx.2 y (hys y List.mem_cons_self) _ _ (hends xs r) (hends ys s) h
      have htail := ih (fun z hz => hxs z (List.mem_cons_of_mem x hz))
        (fun z hz => hys z (List.mem_cons_of_mem x hz)) hrest
      exact ⟨congrArg (List.cons x) htail.1, htail.2⟩

lemma readsBack_join (hne : sep ≠ close) (hsep : ∀ r, ends (sep :: r)) (hclose : ∀ r, ends (close :: r))
    (havoid : Avoids write domain close)
    {xs ys : List β} (hxs : ∀ x ∈ xs, domain x ∧ ReadsBack write domain ends x)
    (hys : ∀ y ∈ ys, domain y) {r s : List α}
    (h : join sep (xs.map write) ++ close :: r = join sep (ys.map write) ++ close :: s) :
    xs = ys ∧ r = s := by
  -- With one more separator in front, each value is written behind its own.
  have hjoin (z : β) (zs : List β) (t : List α) :
      (z :: zs).flatMap (fun z => sep :: write z) ++ t = sep :: (join sep ((z :: zs).map write) ++ t) := by
    simp [join, List.flatMap_map]
  cases xs with
  | nil =>
    cases ys with
    | nil => exact ⟨rfl, (List.cons.inj h).2⟩
    | cons y ys =>
      rw [List.map_cons, join, List.append_assoc] at h
      exact absurd h.symm (havoid y (hys y List.mem_cons_self) _ _)
  | cons x xs =>
    cases ys with
    | nil =>
      rw [List.map_cons, join, List.append_assoc] at h
      exact absurd h (havoid x (hxs x List.mem_cons_self).1 _ _)
    | cons y ys =>
      apply readsBack_flatMap ends hclose (fun z t => hsep (write z ++ t))
        (fun z _ t u heq => hne (List.cons.inj heq).1)
        (fun z hz => ⟨(hxs z hz).1, readsBack_cons (hxs z hz).2⟩) hys
      rw [hjoin, hjoin, h]

lemma append_inj_of_class {p : α → Bool} {xs ys r s : List α} (hxs : ∀ x ∈ xs, p x) (hys : ∀ y ∈ ys, p y)
    (hr : r.takeWhile p = []) (hs : s.takeWhile p = []) (h : xs ++ r = ys ++ s) : xs = ys ∧ r = s := by
  have htake : (xs ++ r).takeWhile p = (ys ++ s).takeWhile p := by rw [h]
  rw [List.takeWhile_append_of_pos hxs, List.takeWhile_append_of_pos hys, hr, hs, List.append_nil,
    List.append_nil] at htake
  subst htake
  exact ⟨rfl, List.append_cancel_left h⟩

end Delimited
