import Mathlib.Tactic

/-!
# Hash trees split at the largest power of two

A hash tree over a list of leaves is read here level by level: node `j` of level `l` stands over
the `2 ^ l` leaves from `j * 2 ^ l` on, or over what the list still has there. `SplitsAt` is the
only thing asked of the hash itself. A node with no right sibling is carried up unchanged.
-/

namespace HashTree

variable {α β : Type}

lemma half_even (j : ℕ) : 2 * j / 2 = j := Nat.mul_div_cancel_left j two_pos

lemma half_odd (j : ℕ) : (2 * j + 1) / 2 = j := by omega

lemma odd_mod_two (j : ℕ) : (2 * j + 1) % 2 = 1 := by omega

variable (xs : List α)

def block (l j : ℕ) : List α :=
  (xs.drop (j * 2 ^ l)).take (2 ^ l)

def lastNode (l : ℕ) : ℕ := (xs.length - 1) / 2 ^ l

/-- A list longer than `2 ^ j` and at most twice as long is hashed as the pair of its
first `2 ^ j` leaves and the others. -/
def SplitsAt (node : β → β → β) (h : List α → β) : Prop :=
  ∀ (j : ℕ) (xs : List α), 2 ^ j < xs.length → xs.length ≤ 2 ^ (j + 1) →
    h xs = node (h (xs.take (2 ^ j))) (h (xs.drop (2 ^ j)))

lemma block_zero (j : ℕ) (hj : j < xs.length) : block xs 0 j = [xs[j]] := by
  simp [block, List.take_one_drop_eq_of_lt_length hj]

lemma block_top (l : ℕ) (hl : xs.length ≤ 2 ^ l) : block xs l 0 = xs := by
  simp [block, List.take_of_length_le hl]

lemma length_block (l j : ℕ) : (block xs l j).length = min (2 ^ l) (xs.length - j * 2 ^ l) := by
  simp [block]

lemma block_take (l j k : ℕ) (hk : (j + 1) * 2 ^ l ≤ k) : block (xs.take k) l j = block xs l j := by
  have hle : 2 ^ l ≤ k - j * 2 ^ l := by
    rw [add_mul, one_mul] at hk
    omega
  rw [block, block, List.drop_take, List.take_take, min_eq_left hle]

lemma block_drop (l j k : ℕ) : block (xs.drop (k * 2 ^ l)) l j = block xs l (k + j) := by
  rw [block, block, List.drop_drop, add_mul]

variable {xs : List α} {node : β → β → β} {h : List α → β}

lemma lt_length_of_le_lastNode {l j : ℕ} (hxs : xs ≠ []) (hj : j ≤ lastNode xs l) :
    j * 2 ^ l < xs.length := by
  have hpos : 0 < xs.length := List.length_pos_iff.mpr hxs
  have hle : j * 2 ^ l ≤ xs.length - 1 :=
    (Nat.mul_le_mul_right _ hj).trans (Nat.div_mul_le_self _ _)
  omega

lemma length_le_of_lastNode_lt (xs : List α) (l j : ℕ) (hj : lastNode xs l < j) :
    xs.length ≤ j * 2 ^ l := by
  have h := (Nat.div_lt_iff_lt_mul (Nat.two_pow_pos l)).mp hj
  omega

lemma lastNode_succ (xs : List α) (l : ℕ) : lastNode xs (l + 1) = lastNode xs l / 2 := by
  rw [lastNode, lastNode, pow_succ, Nat.div_div_eq_div_mul]

lemma block_succ_drop (xs : List α) (l j : ℕ) :
    (block xs (l + 1) j).drop (2 ^ l) = block xs l (2 * j + 1) := by
  have hd : j * 2 ^ (l + 1) + 2 ^ l = (2 * j + 1) * 2 ^ l := by ring
  have ht : 2 ^ (l + 1) - 2 ^ l = 2 ^ l := by
    rw [pow_succ]
    omega
  rw [block, block, List.drop_take, List.drop_drop, hd, ht]

lemma block_succ_take (xs : List α) (l j : ℕ) :
    (block xs (l + 1) j).take (2 ^ l) = block xs l (2 * j) := by
  have hd : j * 2 ^ (l + 1) = 2 * j * 2 ^ l := by ring
  rw [block, block, List.take_take, hd, min_eq_left (Nat.pow_le_pow_right (by omega) (by omega))]

lemma hash_block_succ (hs : SplitsAt node h)
    (hxs : xs ≠ []) {l j : ℕ} (hj : 2 * j + 1 ≤ lastNode xs l) :
    h (block xs (l + 1) j) = node (h (block xs l (2 * j))) (h (block xs l (2 * j + 1))) := by
  have hlt := lt_length_of_le_lastNode hxs hj
  have hlen := length_block xs (l + 1) j
  have hpow : 2 ^ (l + 1) = 2 * 2 ^ l := by ring
  have hmul : j * 2 ^ (l + 1) = 2 * (j * 2 ^ l) := by ring
  have hmul' : (2 * j + 1) * 2 ^ l = 2 * (j * 2 ^ l) + 2 ^ l := by ring
  have hpos := Nat.two_pow_pos l
  rw [hs l (block xs (l + 1) j) (by omega) (by omega), block_succ_take, block_succ_drop]

lemma block_succ_lonely {l j : ℕ} (hj : 2 * j = lastNode xs l) :
    block xs (l + 1) j = block xs l (2 * j) := by
  have hle := length_le_of_lastNode_lt xs l (2 * j + 1) (by omega)
  have hd : j * 2 ^ (l + 1) = 2 * j * 2 ^ l := by ring
  have hlen : (xs.drop (2 * j * 2 ^ l)).length ≤ 2 ^ l := by
    have hpos := Nat.two_pow_pos l
    rw [add_mul, one_mul] at hle
    rw [List.length_drop]
    omega
  rw [block, block, hd, List.take_of_length_le hlen, List.take_of_length_le]
  exact hlen.trans (Nat.pow_le_pow_right (by omega) (by omega))

/-- Induction along the climb from a node to the root: it is the root already, it has a left sibling,
it is carried up, or it has a right sibling. -/
theorem climbInduction {P : (l f : ℕ) → f ≤ lastNode xs l → Prop}
    (root : ∀ l (_ : lastNode xs l = 0), P l 0 (Nat.zero_le _))
    (left : ∀ l j (hj : 2 * j + 1 ≤ lastNode xs l) (hup : j ≤ lastNode xs (l + 1)),
      P (l + 1) j hup → P l (2 * j + 1) hj)
    (lonely : ∀ l j (hj : 2 * j = lastNode xs l) (_ : j ≠ 0) (hup : j ≤ lastNode xs (l + 1)),
      P (l + 1) j hup → P l (2 * j) hj.le)
    (right : ∀ l j (hj : 2 * j < lastNode xs l) (hup : j ≤ lastNode xs (l + 1)),
      P (l + 1) j hup → P l (2 * j) hj.le)
    (l f : ℕ) (hf : f ≤ lastNode xs l) : P l f hf := by
  induction hs : lastNode xs l using Nat.strong_induction_on generalizing l f with
  | _ s ih =>
    subst hs
    have hup := lastNode_succ xs l
    by_cases hzero : lastNode xs l = 0
    · obtain rfl : f = 0 := by omega
      exact root l hzero
    obtain ⟨j, rfl | rfl⟩ : ∃ j, f = 2 * j ∨ f = 2 * j + 1 := ⟨f / 2, by omega⟩
    · have hnext := ih _ (by omega) (l + 1) j (by omega) rfl
      by_cases hlast : 2 * j = lastNode xs l
      · exact lonely l j hlast (by omega) (by omega) hnext
      · exact right l j (by omega) (by omega) hnext
    · exact left l j hf (by omega) (ih _ (by omega) (l + 1) j (by omega) rfl)

/-- What the climb from node `f` of level `l` needs, lowest level first, when `s` is the
last node of that level. -/
def siblings (h : List α → β) (xs : List α) (l f s : ℕ) : List β :=
  if s = 0 then []
  else if f % 2 = 1 then h (block xs l (f - 1)) :: siblings h xs (l + 1) (f / 2) (s / 2)
  else if f = s then siblings h xs (l + 1) (f / 2) (s / 2)
  else h (block xs l (f + 1)) :: siblings h xs (l + 1) (f / 2) (s / 2)
termination_by s
decreasing_by all_goals omega

section Siblings

variable (h : List α → β) (xs : List α) (l j : ℕ)

@[simp] lemma siblings_root (f : ℕ) : siblings h xs l f 0 = [] := by
  rw [siblings, if_pos rfl]

lemma siblings_left (s : ℕ) (hs : 2 * j + 1 ≤ s) : siblings h xs l (2 * j + 1) s =
    h (block xs l (2 * j)) :: siblings h xs (l + 1) j (s / 2) := by
  rw [siblings, if_neg (by omega), if_pos (by omega), Nat.add_sub_cancel,
    half_odd]

lemma siblings_lonely (hj : j ≠ 0) :
    siblings h xs l (2 * j) (2 * j) = siblings h xs (l + 1) j j := by
  rw [siblings, if_neg (by omega), if_neg (by omega), if_pos rfl, half_even]

lemma siblings_right (s : ℕ) (hs : 2 * j < s) : siblings h xs l (2 * j) s =
    h (block xs l (2 * j + 1)) :: siblings h xs (l + 1) j (s / 2) := by
  rw [siblings, if_neg (by omega), if_neg (by omega), if_neg (by omega),
    half_even]

end Siblings

/-- The sides of these siblings: `true` for one on the left. -/
def sides (f s : ℕ) : List Bool :=
  if s = 0 then []
  else if f % 2 = 1 then true :: sides (f / 2) (s / 2)
  else if f = s then sides (f / 2) (s / 2)
  else false :: sides (f / 2) (s / 2)
termination_by s
decreasing_by all_goals omega

section Sides

variable {j s : ℕ}

@[simp] lemma sides_root (f : ℕ) : sides f 0 = [] := by
  rw [sides, if_pos rfl]

lemma sides_left (hs : 2 * j + 1 ≤ s) : sides (2 * j + 1) s = true :: sides j (s / 2) := by
  rw [sides, if_neg (by omega), if_pos (by omega), half_odd]

lemma sides_lonely (hj : j ≠ 0) : sides (2 * j) (2 * j) = sides j j := by
  rw [sides, if_neg (by omega), if_neg (by omega), if_pos rfl, half_even]

lemma sides_right (hs : 2 * j < s) : sides (2 * j) s = false :: sides j (s / 2) := by
  rw [sides, if_neg (by omega), if_neg (by omega), if_neg (by omega), half_even]

lemma sides_ne_nil (f : ℕ) (hf : f ≤ s) (hs : s ≠ 0) : sides f s ≠ [] := by
  induction s using Nat.strong_induction_on generalizing f with
  | _ s ih =>
    rw [sides, if_neg hs]
    split_ifs with hodd hlonely
    · simp
    · exact ih (s / 2) (by omega) (f / 2) (by omega) (by omega)
    · simp

end Sides

/-- A walk to the root that takes a sibling of the path for each side: `none` when the path has another
length. -/
def walk {σ : Type} (up : Bool → β → σ → σ) : List Bool → σ → List β → Option σ
  | [], x, [] => some x
  | side :: sides, x, p :: path => walk up sides (up side p x) path
  | _, _, _ => none

lemma walk_map {σ τ : Type} {up : Bool → β → σ → σ} {up' : Bool → β → τ → τ} (g : σ → τ)
    (h : ∀ side p x, g (up side p x) = up' side p (g x)) (sides : List Bool) (x : σ) (path : List β) :
    (walk up sides x path).map g = walk up' sides (g x) path := by
  induction sides generalizing x path with
  | nil => cases path <;> rfl
  | cons side sides ih =>
    cases path with
    | nil => rfl
    | cons p path => rw [walk, walk, ih, h]

/-- The climb from a node with its hash. -/
def climb (node : β → β → β) : List Bool → β → List β → Option β :=
  walk fun left p r => if left then node p r else node r p

theorem climb_siblings (hsplit : SplitsAt node h)
    (hxs : xs ≠ []) {l f : ℕ} (hf : f ≤ lastNode xs l) :
    climb node (sides f (lastNode xs l)) (h (block xs l f)) (siblings h xs l f (lastNode xs l)) =
      some (h xs) := by
  induction l, f, hf using climbInduction with
  | root l hroot =>
    have hlen := length_le_of_lastNode_lt xs l 1 (by omega)
    rw [hroot, siblings_root, sides_root, block_top xs l (by omega)]
    rfl
  | left l j hj _ ih =>
    rw [lastNode_succ, hash_block_succ hsplit hxs hj] at ih
    rw [siblings_left h xs l j _ hj, sides_left hj]
    exact ih
  | lonely l j hj hj0 _ ih =>
    rw [lastNode_succ, ← hj, half_even] at ih
    rw [← hj, siblings_lonely h xs l j hj0, sides_lonely hj0, ← block_succ_lonely hj]
    exact ih
  | right l j hj _ ih =>
    rw [lastNode_succ, hash_block_succ hsplit hxs hj] at ih
    rw [siblings_right h xs l j _ hj, sides_right hj]
    exact ih

/-- The pairs that a climb hashes. -/
def climbPairs (node : β → β → β) : List Bool → β → List β → List (β × β)
  | true :: sides, r, p :: path => (p, r) :: climbPairs node sides (node p r) path
  | false :: sides, r, p :: path => (r, p) :: climbPairs node sides (node r p) path
  | _, _, _ => []

def treePairs (h : List α → β) (xs : List α) : Set (β × β) :=
  {q | ∃ l j, 2 * j + 1 ≤ lastNode xs l ∧
    q = (h (block xs l (2 * j)), h (block xs l (2 * j + 1)))}

/-- A climb that reaches the root started at the node it claims and used the siblings of the tree,
unless a pair it hashed collides with one of the tree. -/
theorem climb_sound (hsplit : SplitsAt node h)
    (hxs : xs ≠ []) {l f : ℕ} (hf : f ≤ lastNode xs l) (r : β) (path : List β)
    (hinj : ∀ p ∈ climbPairs node (sides f (lastNode xs l)) r path, ∀ q ∈ treePairs h xs,
      node p.1 p.2 = node q.1 q.2 → p = q)
    (hclimb : climb node (sides f (lastNode xs l)) r path = some (h xs)) :
    r = h (block xs l f) ∧ path = siblings h xs l f (lastNode xs l) := by
  induction l, f, hf using climbInduction generalizing r path with
  | root l hroot =>
    have hlen := length_le_of_lastNode_lt xs l 1 (by omega)
    rw [hroot, sides_root] at hclimb
    rw [hroot, block_top xs l (by omega), siblings_root]
    cases path with
    | nil => exact ⟨Option.some_inj.mp hclimb, rfl⟩
    | cons p path => cases hclimb
  | left l j hj _ ih =>
    rw [sides_left hj, ← lastNode_succ] at hinj hclimb
    cases path with
    | nil => cases hclimb
    | cons p path =>
      obtain ⟨hr, hpath⟩ := ih (node p r) path (fun q hq => hinj q (List.mem_cons_of_mem _ hq)) hclimb
      rw [hash_block_succ hsplit hxs hj] at hr
      have hpair := hinj (p, r) (List.mem_cons_self) _ ⟨l, j, hj, rfl⟩ hr
      rw [Prod.mk.injEq] at hpair
      rw [siblings_left h xs l j _ hj, ← lastNode_succ, hpair.1, hpath]
      exact ⟨hpair.2, rfl⟩
  | lonely l j hj hj0 _ ih =>
    have hup : lastNode xs (l + 1) = j := by
      rw [lastNode_succ]
      omega
    rw [hup] at ih
    rw [← hj, sides_lonely hj0] at hclimb hinj
    rw [← hj, siblings_lonely h xs l j hj0, ← block_succ_lonely hj]
    exact ih r path hinj hclimb
  | right l j hj _ ih =>
    rw [sides_right hj, ← lastNode_succ] at hinj hclimb
    cases path with
    | nil => cases hclimb
    | cons p path =>
      obtain ⟨hr, hpath⟩ := ih (node r p) path (fun q hq => hinj q (List.mem_cons_of_mem _ hq)) hclimb
      rw [hash_block_succ hsplit hxs hj] at hr
      have hpair := hinj (r, p) (List.mem_cons_self) _ ⟨l, j, hj, rfl⟩ hr
      rw [Prod.mk.injEq] at hpair
      rw [siblings_right h xs l j _ hj, ← lastNode_succ, hpair.2, hpath]
      exact ⟨hpair.1, rfl⟩

/-- The climb of two trees at once, of which the first ends at the climbing node: siblings on the right
belong to the second one only. -/
def climbBoth (node : β → β → β) : List Bool → β × β → List β → Option (β × β) :=
  walk fun left p x => if left then (node p x.1, node p x.2) else (x.1, node x.2 p)

lemma climbBoth_snd (node : β → β → β) (sides : List Bool) (x : β × β) (path : List β) :
    (climbBoth node sides x path).map Prod.snd = climb node sides x.2 path :=
  walk_map Prod.snd (fun side p x => by cases side <;> rfl) sides x path

/-- Climbing from the last node of a prefix through the siblings of the whole list reaches
the roots of both. -/
theorem climbBoth_siblings (hsplit : SplitsAt node h)
    {m : ℕ} (hm : 0 < m) (hmx : m ≤ xs.length) {l f : ℕ} (hf : f ≤ lastNode xs l)
    (hlast : f = lastNode (xs.take m) l) :
    climbBoth node (sides f (lastNode xs l)) (h (block (xs.take m) l f), h (block xs l f))
      (siblings h xs l f (lastNode xs l)) = some (h (xs.take m), h xs) := by
  have hxs : xs ≠ [] := List.length_pos_iff.mp (by omega)
  have hlen : (xs.take m).length = m := by simp [hmx]
  have hpre : xs.take m ≠ [] := List.length_pos_iff.mp (by omega)
  induction l, f, hf using climbInduction with
  | root l hroot =>
    have hx := length_le_of_lastNode_lt xs l 1 (by omega)
    rw [hroot, siblings_root, sides_root, block_top xs l (by omega), block_top (xs.take m) l (by omega)]
    rfl
  | left l j hj _ ih =>
    have hlt := lt_length_of_le_lastNode hpre hlast.le
    rw [hlen] at hlt
    have hnext := ih (by rw [lastNode_succ]; omega)
    rw [lastNode_succ, hash_block_succ hsplit hxs hj, hash_block_succ hsplit hpre hlast.le,
      block_take xs l (2 * j) m hlt.le] at hnext
    rw [siblings_left h xs l j _ hj, sides_left hj]
    exact hnext
  | lonely l j hj hj0 _ ih =>
    have hup : lastNode xs (l + 1) = j := by
      rw [lastNode_succ]
      omega
    rw [hup] at ih
    rw [← hj, siblings_lonely h xs l j hj0, sides_lonely hj0, ← block_succ_lonely hj,
      ← block_succ_lonely hlast]
    exact ih (by rw [lastNode_succ]; omega)
  | right l j hj _ ih =>
    have hnext := ih (by rw [lastNode_succ]; omega)
    rw [lastNode_succ, hash_block_succ hsplit hxs hj, block_succ_lonely hlast] at hnext
    rw [siblings_right h xs l j _ hj, sides_right hj]
    exact hnext

section Split

variable {xs : List α} {l k : ℕ}

lemma lastNode_bounds (hlo : 2 ^ (l + k) < xs.length) (hhi : xs.length ≤ 2 ^ (l + k + 1)) :
    2 ^ k ≤ lastNode xs l ∧ lastNode xs l < 2 ^ (k + 1) := by
  constructor
  · rw [lastNode, Nat.le_div_iff_mul_le (Nat.two_pow_pos l), ← pow_add, add_comm k l]
    omega
  · rw [lastNode, Nat.div_lt_iff_lt_mul (Nat.two_pow_pos l), ← pow_add,
      show k + 1 + l = l + k + 1 from by omega]
    omega

lemma lastNode_take (hlo : 2 ^ (l + k) ≤ xs.length) :
    lastNode (xs.take (2 ^ (l + k))) l = 2 ^ k - 1 := by
  have hpos := Nat.two_pow_pos l
  rw [lastNode, List.length_take, min_eq_left hlo, pow_add, mul_comm, Nat.div_eq_iff (by omega)]
  have hk := Nat.two_pow_pos k
  obtain ⟨c, hc⟩ : ∃ c, 2 ^ k = c + 1 := ⟨2 ^ k - 1, by omega⟩
  rw [hc, Nat.add_sub_cancel, add_mul, one_mul]
  omega

lemma lastNode_drop (xs : List α) (l k : ℕ) :
    lastNode (xs.drop (2 ^ (l + k))) l = lastNode xs l - 2 ^ k := by
  rw [lastNode, lastNode, List.length_drop, Nat.sub_right_comm, pow_add,
    mul_comm (2 ^ l) (2 ^ k), mul_comm (2 ^ k) (2 ^ l), Nat.sub_mul_div]

theorem siblings_take (h : List α → β) (hlo : 2 ^ (l + k) < xs.length)
    (hhi : xs.length ≤ 2 ^ (l + k + 1)) {f : ℕ} (hf : f < 2 ^ k) :
    siblings h xs l f (lastNode xs l) =
      siblings h (xs.take (2 ^ (l + k))) l f (lastNode (xs.take (2 ^ (l + k))) l) ++
        [h (xs.drop (2 ^ (l + k)))] := by
  induction k generalizing l f with
  | zero =>
    have hb := lastNode_bounds (k := 0) hlo hhi
    have hone : lastNode xs l = 1 := by omega
    have hdrop : block xs l 1 = xs.drop (2 ^ l) := by
      rw [block, one_mul, List.take_of_length_le]
      rw [List.length_drop]
      rw [add_zero, pow_succ] at hhi
      omega
    obtain rfl : f = 0 := by omega
    rw [lastNode_take (k := 0) hlo.le, hone, pow_zero, Nat.sub_self, siblings_root,
      siblings_right h xs l 0 1 (by omega), mul_zero, zero_add, hdrop]
    simp
  | succ k ih =>
    have hexp : l + (k + 1) = l + 1 + k := by omega
    have hb := lastNode_bounds hlo hhi
    have ht := lastNode_take (l := l) (k := k + 1) hlo.le
    have hpow : 2 ^ (k + 1) = 2 * 2 ^ k := by ring
    have hblock (i : ℕ) (hi : i + 1 ≤ 2 ^ (k + 1)) : block (xs.take (2 ^ (l + 1 + k))) l i = block xs l i := by
      apply block_take
      rw [← hexp, pow_add, mul_comm (2 ^ l)]
      exact Nat.mul_le_mul_right _ hi
    rw [hexp] at hlo hhi ht ⊢
    obtain ⟨j, rfl | rfl⟩ : ∃ j, f = 2 * j ∨ f = 2 * j + 1 := ⟨f / 2, by omega⟩
    · rw [siblings_right h xs l j _ (by omega), siblings_right h _ l j _ (by omega), hblock _ (by omega),
        ← lastNode_succ, ← lastNode_succ, ih hlo hhi (by omega), List.cons_append]
    · rw [siblings_left h xs l j _ (by omega), siblings_left h _ l j _ (by omega), hblock _ (by omega),
        ← lastNode_succ, ← lastNode_succ, ih hlo hhi (by omega), List.cons_append]

theorem siblings_drop (h : List α → β) (hlo : 2 ^ (l + k) < xs.length)
    (hhi : xs.length ≤ 2 ^ (l + k + 1)) {f : ℕ} (hf : f + 2 ^ k ≤ lastNode xs l) :
    siblings h xs l (f + 2 ^ k) (lastNode xs l) =
      siblings h (xs.drop (2 ^ (l + k))) l f (lastNode (xs.drop (2 ^ (l + k))) l) ++
        [h (xs.take (2 ^ (l + k)))] := by
  induction k generalizing l f with
  | zero =>
    have hb := lastNode_bounds (k := 0) hlo hhi
    have hone : lastNode xs l = 1 := by omega
    obtain rfl : f = 0 := by omega
    have hstep := siblings_left h xs l 0 1 (by omega)
    rw [mul_zero, zero_add] at hstep
    rw [lastNode_drop, hone, pow_zero, Nat.sub_self, siblings_root, zero_add, hstep]
    simp [block]
  | succ k ih =>
    have hexp : l + (k + 1) = l + 1 + k := by omega
    have hb := lastNode_bounds hlo hhi
    have hd := lastNode_drop xs l (k + 1)
    have hpow : 2 ^ (k + 1) = 2 * 2 ^ k := by ring
    have hkpos := Nat.two_pow_pos k
    have hsucc := lastNode_succ xs l
    have hblock (i : ℕ) : block (xs.drop (2 ^ (l + 1 + k))) l i = block xs l (2 * 2 ^ k + i) := by
      rw [← block_drop, ← hexp, pow_add, hpow, mul_comm (2 ^ l)]
    rw [hexp] at hlo hhi hd ⊢
    obtain ⟨j, rfl | rfl⟩ : ∃ j, f = 2 * j ∨ f = 2 * j + 1 := ⟨f / 2, by omega⟩
    · have hih := ih hlo hhi (f := j) (by omega)
      rw [show 2 * j + 2 ^ (k + 1) = 2 * (j + 2 ^ k) from by omega] at hf ⊢
      by_cases hlast : 2 * (j + 2 ^ k) = lastNode xs l
      · have hup : lastNode xs (l + 1) = j + 2 ^ k := by omega
        have hdl : lastNode (xs.drop (2 ^ (l + 1 + k))) l = 2 * j := by omega
        rw [hup, lastNode_succ, hdl, half_even] at hih
        rw [hdl, ← hlast, siblings_lonely h xs l _ (by omega), hih]
        by_cases hj : j = 0
        · subst hj
          simp
        · rw [siblings_lonely h _ l j hj]
      · rw [siblings_right h xs l _ _ (by omega), siblings_right h _ l j _ (by omega), hblock,
          show 2 * 2 ^ k + (2 * j + 1) = 2 * (j + 2 ^ k) + 1 by omega, ← lastNode_succ, ← lastNode_succ, hih,
          List.cons_append]
    · have hih := ih hlo hhi (f := j) (by omega)
      rw [show 2 * j + 1 + 2 ^ (k + 1) = 2 * (j + 2 ^ k) + 1 from by omega] at hf ⊢
      rw [siblings_left h xs l _ _ (by omega), siblings_left h _ l j _ (by omega), hblock,
        show 2 * 2 ^ k + 2 * j = 2 * (j + 2 ^ k)
          by omega, ← lastNode_succ, ← lastNode_succ, hih, List.cons_append]

end Split

end HashTree
