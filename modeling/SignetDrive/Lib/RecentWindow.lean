import Mathlib.Tactic

/-!
# A window over the most recent items

A log to which an item is added only if it is not among the last `k`. Then two equal items of the
log have at least `k` others between them.
-/

namespace RecentWindow

variable {α β : Type} {k : ℕ} {log : List α} {x : α}

def recent (k : ℕ) (log : List α) : List α := log.drop (log.length - k)

lemma length_recent (k : ℕ) (log : List α) : (recent k log).length = min k log.length := by
  rw [recent, List.length_drop]
  omega

lemma recent_concat (hk : 0 < k) : recent k (log ++ [x]) =
    (if k ≤ (recent k log).length then (recent k log).tail else recent k log) ++ [x] := by
  rw [length_recent, recent, recent, List.length_append, List.length_singleton]
  by_cases hfull : k ≤ min k log.length
  · have hle : k ≤ log.length := le_trans hfull (min_le_right k _)
    rw [if_pos hfull, List.tail_drop, List.drop_append_of_le_length (by omega)]
    congr 2
    omega
  · have hlt : log.length < k := by omega
    rw [if_neg hfull, Nat.sub_eq_zero_of_le (by omega), Nat.sub_eq_zero_of_le (by omega), List.drop_zero,
      List.drop_zero]

/-- Equal items are more than `k` places apart. -/
def Apart (k : ℕ) (log : List α) : Prop :=
  ∀ i j x, i < j → log[i]? = some x → log[j]? = some x → i + k < j

lemma apart_nil : Apart k ([] : List α) := by
  intro i j x _ hi
  simp at hi

lemma apart_concat (h : Apart k log) (hx : x ∉ recent k log) : Apart k (log ++ [x]) := by
  intro i j y hij hi hj
  have hj' := (List.getElem?_eq_some_iff.mp hj).1
  rw [List.length_append, List.length_singleton] at hj'
  by_cases hlast : j < log.length
  · rw [List.getElem?_append_left hlast] at hj
    rw [List.getElem?_append_left (hij.trans hlast)] at hi
    exact h i j y hij hi hj
  · -- The new item is at the end, and the other one is outside the window.
    have hj : j = log.length := by omega
    subst hj
    rw [List.getElem?_append_right le_rfl, Nat.sub_self, List.getElem?_cons_zero, Option.some_inj] at hj
    rw [List.getElem?_append_left hij] at hi
    by_contra hclose
    apply hx
    rw [hj, recent, List.mem_iff_getElem?]
    refine ⟨i - (log.length - k), ?_⟩
    rw [List.getElem?_drop, Nat.add_sub_of_le (by omega)]
    exact hi

lemma recent_nodup (h : Apart k log) : (recent k log).Nodup := by
  rw [List.nodup_iff_getElem?_ne_getElem?]
  intro i j hij hj heq
  rw [length_recent] at hj
  obtain ⟨x, hx⟩ : ∃ x, (recent k log)[j]? = some x :=
    ⟨_, List.getElem?_eq_getElem (by rw [length_recent]; exact hj)⟩
  rw [hx] at heq
  rw [recent, List.getElem?_drop] at heq hx
  have hfar := h _ _ x (by omega) heq hx
  omega

theorem count_between [DecidableEq β] {f : α → β} (h : Apart k (log.map f)) {i j : ℕ} {x y : α} (hij : i < j)
    (hi : log[i]? = some x) (hj : log[j]? = some y) (heq : f x = f y) :
    k ≤ ((log.take j).drop (i + 1)).countP fun z => f z ≠ f x := by
  have hfar : i + k < j := by
    apply h i j (f x) hij
    · rw [List.getElem?_map, hi, Option.map_some]
    · rw [List.getElem?_map, hj, Option.map_some, heq]
  have hlen := (List.getElem?_eq_some_iff.mp hj).1
  -- The first `k` items behind the first of the two all differ from it.
  have hsub : (((log.take j).drop (i + 1)).take k).Sublist ((log.take j).drop (i + 1)) := List.take_sublist _ _
  have hlength : (((log.take j).drop (i + 1)).take k).length = k := by
    simp only [List.length_take, List.length_drop]
    omega
  have hall : ∀ z ∈ ((log.take j).drop (i + 1)).take k, decide (f z ≠ f x) = true := by
    intro z hz
    obtain ⟨m, hm⟩ := List.mem_iff_getElem?.mp hz
    have hmk : m < k := hlength ▸ (List.getElem?_eq_some_iff.mp hm).1
    rw [List.getElem?_take_of_lt hmk, List.getElem?_drop, List.getElem?_take_of_lt (by omega)] at hm
    rw [decide_eq_true_eq]
    intro hzx
    have hnear := h i (i + 1 + m) (f x) (by omega)
      (by rw [List.getElem?_map, hi, Option.map_some]) (by rw [List.getElem?_map, hm, Option.map_some, hzx])
    omega
  calc k = (((log.take j).drop (i + 1)).take k).countP fun z => f z ≠ f x := by
        rw [List.countP_eq_length.mpr hall, hlength]
    _ ≤ _ := hsub.countP_le

end RecentWindow
