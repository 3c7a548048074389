import Mathlib.Tactic

/-!
# One list under two orders

When sorting by two orders gives the same list, and how the lexicographic order of two words
changes when both are ended by a symbol.
-/

namespace SortedKeys

variable {α : Type}

section TwoOrders

lemma agree_of_pairwise (r s : α → α → Prop) [Std.Total s] {l : List α}
    (hr : ∀ a ∈ l, ∀ b ∈ l, r a b → r b a → a = b)
    (h : l.Pairwise fun a b => r a b ∧ s a b) {a b : α} (ha : a ∈ l) (hb : b ∈ l) (hab : r a b) :
    s a b := by
  by_cases heq : a = b
  · subst heq
    exact (Std.Total.total a a).elim id id
  · have hsym : l.Pairwise fun a b => (r a b ∧ s a b) ∨ (r b a ∧ s b a) := h.imp Or.inl
    have : Std.Symm fun a b => (r a b ∧ s a b) ∨ (r b a ∧ s b a) := ⟨fun _ _ hor => hor.symm⟩
    cases hsym.forall ha hb heq with
    | inl both => exact both.2
    | inr both => exact absurd (hr a ha b hb hab both.1) heq

variable (r s : α → α → Prop) [DecidableRel r] [DecidableRel s] [Std.Total r] [IsTrans α r]
  [Std.Total s] [IsTrans α s] {l m : List α}

lemma insertionSort_eq_of_perm (hr : ∀ a ∈ l, ∀ b ∈ l, r a b → r b a → a = b) (h : l.Perm m) :
    l.insertionSort r = m.insertionSort r := by
  have hperm : (l.insertionSort r).Perm (m.insertionSort r) :=
    (l.perm_insertionSort r).trans (h.trans (m.perm_insertionSort r).symm)
  apply List.Perm.eq_of_pairwise _ (l.pairwise_insertionSort r) (m.pairwise_insertionSort r) hperm
  intro a b ha hb
  exact hr a ((List.mem_insertionSort r).mp ha) b
    (h.mem_iff.mpr ((List.mem_insertionSort r).mp hb))

theorem insertionSort_eq_iff (hr : ∀ a ∈ l, ∀ b ∈ l, r a b → r b a → a = b)
    (hs : ∀ a ∈ l, ∀ b ∈ l, s a b → s b a → a = b) :
    l.insertionSort r = l.insertionSort s ↔ ∀ a ∈ l, ∀ b ∈ l, r a b ↔ s a b := by
  constructor
  · intro h a ha b hb
    have hpair : (l.insertionSort r).Pairwise fun a b => r a b ∧ s a b := by
      apply List.Pairwise.and (l.pairwise_insertionSort r)
      rw [h]
      exact l.pairwise_insertionSort s
    have hmem : ∀ {c}, c ∈ l.insertionSort r ↔ c ∈ l := List.mem_insertionSort r
    constructor
    · intro hab
      exact agree_of_pairwise r s (fun a ha b hb => hr a (hmem.mp ha) b (hmem.mp hb)) hpair
        (hmem.mpr ha) (hmem.mpr hb) hab
    · intro hab
      exact agree_of_pairwise s r (fun a ha b hb => hs a (hmem.mp ha) b (hmem.mp hb))
        (hpair.imp And.symm) (hmem.mpr ha) (hmem.mpr hb) hab
  · intro h
    have hperm : (l.insertionSort r).Perm (l.insertionSort s) :=
      (l.perm_insertionSort r).trans (l.perm_insertionSort s).symm
    apply List.Perm.eq_of_pairwise _ _ (l.pairwise_insertionSort s) hperm
    · intro a b ha hb
      exact hs a ((List.mem_insertionSort r).mp ha) b ((List.mem_insertionSort s).mp hb)
    · apply (l.pairwise_insertionSort r).imp_of_mem
      intro a b ha hb hab
      exact (h a ((List.mem_insertionSort r).mp ha) b ((List.mem_insertionSort r).mp hb)).mp hab

end TwoOrders

section Words

variable [LinearOrder α]

/-- One word is the other followed by a symbol below `q`. -/
def Undercuts (q : α) (a b : List α) : Prop := ∃ c t, c < q ∧ b = a ++ c :: t

lemma nil_le (a : List α) : [] ≤ a := not_lt.mp (List.not_lt_nil a)

lemma not_cons_le_nil (x : α) (a : List α) : ¬ x :: a ≤ [] := not_le.mpr (List.nil_lt_cons x a)

lemma cons_le_cons_iff {x y : α} {a b : List α} : x :: a ≤ y :: b ↔ x < y ∨ x = y ∧ a ≤ b := by
  rw [le_iff_lt_or_eq, List.cons_lt_cons_iff, List.cons.injEq, or_assoc, ← and_or_left,
    ← le_iff_lt_or_eq]

lemma undercuts_nil {q : α} {b : List α} : Undercuts q [] b ↔ ∃ c t, c < q ∧ b = c :: t := Iff.rfl

lemma undercuts_cons {q x y : α} {a b : List α} :
    Undercuts q (x :: a) (y :: b) ↔ x = y ∧ Undercuts q a b := by
  constructor
  · rintro ⟨c, t, hc, heq⟩
    obtain ⟨rfl, rfl⟩ := List.cons.inj heq
    exact ⟨rfl, c, t, hc, rfl⟩
  · rintro ⟨rfl, c, t, hc, rfl⟩
    exact ⟨c, t, hc, rfl⟩

lemma not_undercuts_nil {q x : α} {a : List α} : ¬ Undercuts q (x :: a) [] := by
  rintro ⟨c, t, _, heq⟩
  cases heq

/-- Ending two words by `q` keeps their order, unless one is the other followed by a symbol that
sorts below `q`. -/
theorem ended_le_iff (q : α) (a b : List α) :
    (a ++ [q] ≤ b ++ [q] ↔ a ≤ b) ↔ ¬ Undercuts q a b ∧ ¬ Undercuts q b a := by
  induction a generalizing b with
  | nil =>
    cases b with
    | nil => simp [Undercuts]
    | cons y b =>
      have hend : [q] ≤ y :: (b ++ [q]) ↔ q ≤ y := by
        rw [cons_le_cons_iff, and_iff_left (nil_le _), ← le_iff_lt_or_eq]
      have hcut : Undercuts q [] (y :: b) ↔ y < q := by
        rw [undercuts_nil]
        constructor
        · rintro ⟨c, t, hc, heq⟩
          exact (List.cons.inj heq).1 ▸ hc
        · intro hy
          exact ⟨y, b, hy, rfl⟩
      rw [List.nil_append, List.cons_append, hend, hcut]
      simp [not_undercuts_nil, nil_le]
  | cons x a ih =>
    cases b with
    | nil =>
      have hend : x :: (a ++ [q]) ≤ [q] ↔ x < q := by
        have hnil : ¬ a ++ [q] ≤ [] := by
          cases a with
          | nil => exact not_cons_le_nil q []
          | cons z a => exact not_cons_le_nil z (a ++ [q])
        rw [cons_le_cons_iff, or_iff_left (fun h => hnil h.2)]
      have hcut : Undercuts q [] (x :: a) ↔ x < q := by
        rw [undercuts_nil]
        constructor
        · rintro ⟨c, t, hc, heq⟩
          exact (List.cons.inj heq).1 ▸ hc
        · intro hx
          exact ⟨x, a, hx, rfl⟩
      rw [List.nil_append, List.cons_append, hend, hcut]
      simp [not_undercuts_nil, not_cons_le_nil]
    | cons y b =>
      rw [List.cons_append, List.cons_append, cons_le_cons_iff, cons_le_cons_iff,
        undercuts_cons, undercuts_cons]
      by_cases hxy : x = y
      · subst hxy
        simpa using ih b
      · simp [hxy, Ne.symm hxy]

end Words

end SortedKeys
