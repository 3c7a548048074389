import SignetDrive.Proofs.MerkleInclusion

/-!
# Consistency proofs

A prefix of `m` entries ends at a node of the larger tree: with `m = (f + 1) * 2 ^ t` and
`f` even, node `f` of level `t` stands over its last `2 ^ t` entries. A consistency proof
is that node followed by its siblings, the node itself left out when it is the whole
prefix, and its verifier climbs both trees from there at once.
-/

namespace SignetDrive.Proofs

open HashTree

variable (sha256 : Bytes → Hash)

lemma exists_prefix_node (m : ℕ) (hm : 0 < m) : ∃ t f, m = (2 * f + 1) * 2 ^ t := by
  obtain ⟨t, k, ⟨f, rfl⟩, hk⟩ := Nat.exists_eq_two_pow_mul_odd hm.ne'
  exact ⟨t, f, by rw [hk, mul_comm]⟩

theorem alignLoop_node (t f n : ℕ) :
    alignLoop ((2 * f + 1) * 2 ^ t - 1) n = (2 * f, n / 2 ^ t) := by
  induction t generalizing n with
  | zero => rw [alignLoop, Nat.and_one_is_mod, if_neg (by omega)]; simp
  | succ t ih =>
    have hpos : 0 < (2 * f + 1) * 2 ^ t := Nat.mul_pos (by omega) (Nat.two_pow_pos t)
    have hdouble : (2 * f + 1) * 2 ^ (t + 1) = 2 * ((2 * f + 1) * 2 ^ t) := by ring
    rw [alignLoop, Nat.and_one_is_mod, hdouble, if_pos (by omega), Nat.shiftRight_one,
      Nat.shiftRight_one, show (2 * ((2 * f + 1) * 2 ^ t) - 1) / 2 = (2 * f + 1) * 2 ^ t - 1 from by omega,
      ih, Nat.div_div_eq_div_mul, ← pow_succ']

lemma isPowerOfTwo_iff (m : ℕ) : isPowerOfTwo m = true ↔ ∃ t, m = 2 ^ t := by
  rw [isPowerOfTwo, beq_iff_eq]
  constructor
  · exact fun h => ⟨_, h⟩
  · rintro ⟨t, rfl⟩
    rw [Nat.log2_two_pow]

lemma isPowerOfTwo_node (t f : ℕ) : isPowerOfTwo ((2 * f + 1) * 2 ^ t) = true ↔ f = 0 := by
  rw [isPowerOfTwo_iff]
  constructor
  · rintro ⟨u, hu⟩
    have hdvd : 2 * f + 1 ∣ 2 ^ u := ⟨2 ^ t, hu.symm⟩
    obtain ⟨v, _, hv⟩ := (Nat.dvd_prime_pow Nat.prime_two).mp hdvd
    cases v with
    | zero => omega
    | succ v =>
      rw [pow_succ] at hv
      omega
  · rintro rfl
    exact ⟨t, by ring⟩

theorem consistencyLoop_eq_climbBoth (fnode snode : ℕ) (fr sr : Hash) (path : List Hash)
    (hf : fnode ≤ snode) :
    ((consistencyLoop sha256 fnode snode fr sr path).bind fun q =>
      if q.2.2 = 0 then some (q.1, q.2.1) else none) =
      climbBoth (internalHash sha256) (sides fnode snode) (fr, sr) path := by
  induction path generalizing fnode snode fr sr with
  | nil =>
    by_cases hs : snode = 0
    · subst hs
      simp [consistencyLoop, climbBoth, walk]
    · obtain ⟨side, above, hsides⟩ := List.exists_cons_of_ne_nil (sides_ne_nil fnode hf hs)
      simp [consistencyLoop, hs, hsides, climbBoth, walk]
  | cons c path ih =>
    by_cases hs : snode = 0
    · subst hs
      simp [consistencyLoop, climbBoth, walk]
    rw [consistencyLoop, if_neg hs]
    rcases walk_cases fnode snode hf hs with ⟨g, s, hleft, hskip, hg, hsides⟩ | ⟨j, rfl, hright, hj, hsides⟩
    · rw [if_pos hleft, hskip, hsides]
      simp only [Nat.shiftRight_one, half_odd]
      exact ih _ _ _ _ hg
    · rw [if_neg hright, hsides, Nat.shiftRight_one, Nat.shiftRight_one, half_even]
      exact ih _ _ _ _ hj

lemma prefix_node_le {t f m n : ℕ} (hm : m = (2 * f + 1) * 2 ^ t) (hmn : m ≤ n) :
    2 * f ≤ (n - 1) / 2 ^ t := by
  have hpos := Nat.two_pow_pos t
  rw [add_mul, one_mul] at hm
  rw [Nat.le_div_iff_mul_le hpos]
  omega

/-- `verifyConsistency` accepts exactly when the sizes are in range and the climb of both
trees, from the node at which the prefix ends, reaches both roots. -/
theorem verifyConsistency_iff {m t f : ℕ} (hm : m = (2 * f + 1) * 2 ^ t) (n : ℕ)
    (firstHash secondHash : Hash) (proof : List Hash) :
    verifyConsistency sha256 m n firstHash secondHash proof = true ↔
      m < n ∧ proof ≠ [] ∧ ∃ c₀ path, consistencyPath m firstHash proof = c₀ :: path ∧
        climbBoth (internalHash sha256) (sides (2 * f) ((n - 1) / 2 ^ t)) (c₀, c₀) path =
          some (firstHash, secondHash) := by
  have hpos : 0 < m := by
    rw [hm]
    exact Nat.mul_pos (by omega) (Nat.two_pow_pos t)
  have halign : alignLoop (m - 1) (n - 1) = (2 * f, (n - 1) / 2 ^ t) := by rw [hm, alignLoop_node]
  by_cases hmn : m < n
  · cases proof with
    | nil => simp [verifyConsistency]
    | cons p proof =>
      have hle := prefix_node_le hm hmn.le
      rw [verifyConsistency, if_neg (by simp; omega), halign]
      cases hpath : consistencyPath m firstHash (p :: proof) with
      | nil => simp
      | cons c₀ path =>
        have hloop := consistencyLoop_eq_climbBoth sha256 _ _ c₀ c₀ path hle
        simp only [List.cons.injEq, existsAndEq, true_and, and_true]
        rw [← hloop]
        cases consistencyLoop sha256 (2 * f) ((n - 1) / 2 ^ t) c₀ c₀ path with
        | none => simp
        | some q =>
          obtain ⟨fr, sr, snode⟩ := q
          by_cases hs : snode = 0 <;> simp [hmn, hs]
  · rw [verifyConsistency, if_pos (by omega)]
    simp [hmn]

/-- The recursive proof is the node at which the prefix ends and its siblings, without the node if it
is the whole prefix, which the verifier holds. -/
theorem subproof_eq_siblings (b : Bool) (entries : List Hash) {m t f : ℕ}
    (hm : m = (2 * f + 1) * 2 ^ t)
    (hmn : m < entries.length ∨ (m = entries.length ∧ isPowerOfTwo m)) :
    subproof sha256 m entries b =
      (if b && isPowerOfTwo m then [] else [mth sha256 (block entries t (2 * f))]) ++
        siblings (mth sha256) entries t (2 * f) (lastNode entries t) := by
  induction hlen : entries.length using Nat.strong_induction_on generalizing entries m f b with
  | _ len ih =>
    subst hlen
    have htpos := Nat.two_pow_pos t
    have hpos : 0 < m := by
      rw [hm]
      exact Nat.mul_pos (by omega) htpos
    rw [subproof]
    by_cases heq : m = entries.length
    · have hpow : isPowerOfTwo m = true := by
        rcases hmn with h | h
        · omega
        · exact h.2
      obtain rfl : f = 0 := (isPowerOfTwo_node t f).mp (hm ▸ hpow)
      have hlen : entries.length = 2 ^ t := by rw [← heq, hm]; ring
      have hlast : lastNode entries t = 0 := by
        rw [lastNode, Nat.div_eq_of_lt (by omega)]
      rw [if_pos heq, hpow, hlast, siblings_root, mul_zero, block_top entries t hlen.le]
      cases b <;> simp
    · have hlt : m < entries.length := by
        rcases hmn with h | h
        · exact h
        · exact absurd h.1 heq
      obtain ⟨j, hj, hlo, hhi⟩ := splitPoint_spec entries.length (by omega)
      rw [if_neg heq, dif_neg (by omega)]
      simp only [hj]
      have htj : t ≤ j := by
        have hle : 2 ^ t ≤ m := by
          rw [hm]
          exact Nat.le_mul_of_pos_left _ (by omega)
        exact Nat.lt_succ_iff.mp ((Nat.pow_lt_pow_iff_right one_lt_two).mp (by omega : 2 ^ t < 2 ^ (j + 1)))
      obtain ⟨k, rfl⟩ : ∃ k, j = t + k := ⟨j - t, by omega⟩
      have hpow : 2 ^ (t + k) = 2 ^ k * 2 ^ t := by rw [pow_add, mul_comm]
      by_cases hmk : m ≤ 2 ^ (t + k)
      · have hf : 2 * f + 1 ≤ 2 ^ k := by
          rw [hm, hpow] at hmk
          exact Nat.le_of_mul_le_mul_right hmk htpos
        have htake : (entries.take (2 ^ (t + k))).length = 2 ^ (t + k) := by
          rw [List.length_take]
          omega
        have hbound : m < (entries.take (2 ^ (t + k))).length ∨
            (m = (entries.take (2 ^ (t + k))).length ∧ isPowerOfTwo m) := by
          rw [htake, isPowerOfTwo_iff]
          rcases hmk.lt_or_eq with h | h
          · exact Or.inl h
          · exact Or.inr ⟨h, _, h⟩
        rw [if_pos hmk, ih _ (by omega) b _ hm hbound htake,
          siblings_take (mth sha256) hlo hhi (by omega : 2 * f < 2 ^ k),
          block_take entries t (2 * f) _ (by omega), List.append_assoc]
      · have hflo : 2 ^ k < 2 * f + 1 := by
          rw [hm, hpow] at hmk
          exact Nat.lt_of_mul_lt_mul_right (Nat.lt_of_not_le hmk)
        have hfhi : 2 * f + 1 < 2 * 2 ^ k := by
          have h : (2 * f + 1) * 2 ^ t < 2 * 2 ^ k * 2 ^ t := by
            rw [pow_succ, hpow] at hhi
            rw [hm] at hlt
            calc (2 * f + 1) * 2 ^ t < entries.length := hlt
              _ ≤ 2 ^ k * 2 ^ t * 2 := hhi
              _ = 2 * 2 ^ k * 2 ^ t := by ring
          exact Nat.lt_of_mul_lt_mul_right h
        obtain ⟨i, rfl⟩ : ∃ i, k = i + 1 := by
          cases k with
          | zero => omega
          | succ i => exact ⟨i, rfl⟩
        have hi : 2 ^ (i + 1) = 2 * 2 ^ i := pow_succ' 2 i
        obtain ⟨g, rfl⟩ : ∃ g, f = g + 2 ^ i := ⟨f - 2 ^ i, by omega⟩
        have hsub : m - 2 ^ (t + (i + 1)) = (2 * g + 1) * 2 ^ t := by
          rw [hm, hpow, hi, ← Nat.sub_mul]
          congr 1
          omega
        have hnot : isPowerOfTwo m = false := by
          rw [← Bool.not_eq_true, hm, isPowerOfTwo_node]
          omega
        have hlast := prefix_node_le hm hlt.le
        have hsib := siblings_drop (mth sha256) hlo hhi
          (by rw [lastNode]; omega : 2 * g + 2 ^ (i + 1) ≤ lastNode entries t)
        rw [if_neg hmk, ih _ (by rw [List.length_drop]; omega) false _ hsub
          (Or.inl (by rw [List.length_drop]; omega)) rfl, hnot,
          show 2 * (g + 2 ^ i) = 2 * g + 2 ^ (i + 1) from by omega, hsib, ← List.append_assoc,
          add_comm (2 * g), ← block_drop entries t (2 * g), ← hpow]
        simp

lemma prefix_lastNode {entries : List Hash} {m t f : ℕ} (hnode : m = (2 * f + 1) * 2 ^ t)
    (hmn : m ≤ entries.length) : lastNode (entries.take m) t = 2 * f := by
  have hpos := Nat.two_pow_pos t
  rw [add_mul, one_mul] at hnode
  rw [lastNode, List.length_take, min_eq_left hmn, Nat.div_eq_iff hpos]
  omega

lemma prefix_eq_block (entries : List Hash) {m t f : ℕ} (hnode : m = (2 * f + 1) * 2 ^ t)
    (hpow : isPowerOfTwo m = true) : block entries t (2 * f) = entries.take m := by
  obtain rfl : f = 0 := (isPowerOfTwo_node t f).mp (hnode ▸ hpow)
  simp [block, hnode]

/-- Every honest consistency proof verifies, whatever the hash function. -/
theorem verifyConsistency_consistencyProof (entries : List Hash) (m : ℕ) (hm : 0 < m)
    (hmn : m < entries.length) : ∃ proof, consistencyProof sha256 entries m = some proof ∧
      verifyConsistency sha256 m entries.length (merkleRoot sha256 (entries.take m))
        (merkleRoot sha256 entries) proof = true := by
  obtain ⟨t, f, hnode⟩ := exists_prefix_node m hm
  have hne : entries ≠ [] := List.length_pos_iff.mp (by omega)
  have hpre : entries.take m ≠ [] := List.length_pos_iff.mp (by rw [List.length_take]; omega)
  have hle : 2 * f ≤ lastNode entries t := prefix_node_le hnode hmn.le
  have hboth := climbBoth_siblings (mth_splitsAt sha256) hm hmn.le hle
    (prefix_lastNode hnode hmn.le).symm
  rw [block_take entries t (2 * f) m hnode.ge] at hboth
  refine ⟨subproof sha256 m entries true, by rw [consistencyProof, if_pos ⟨hm, hmn⟩], ?_⟩
  rw [verifyConsistency_iff sha256 hnode, merkleRoot_of_ne_nil sha256 hne,
    merkleRoot_of_ne_nil sha256 hpre, subproof_eq_siblings sha256 true entries hnode (Or.inl hmn)]
  refine ⟨hmn, ?_, mth sha256 (block entries t (2 * f)),
    siblings (mth sha256) entries t (2 * f) (lastNode entries t), ?_, hboth⟩
  · by_cases hpow : isPowerOfTwo m = true
    · have hpos := Nat.two_pow_pos t
      obtain rfl : f = 0 := (isPowerOfTwo_node t f).mp (hnode ▸ hpow)
      have hone : 1 ≤ lastNode entries t := by
        rw [lastNode, Nat.le_div_iff_mul_le hpos]
        omega
      rw [siblings_right (mth sha256) entries t 0 _ (by omega)]
      simp
    · simp [hpow]
  · by_cases hpow : isPowerOfTwo m = true
    · rw [consistencyPath, if_pos hpow, hpow, prefix_eq_block entries hnode hpow]
      simp
    · rw [consistencyPath, if_neg hpow]
      simp [hpow]

def consistencyLoopInputs (fnode snode : ℕ) (fr sr : Hash) : List Hash → List Bytes
  | [] => []
  | c :: path =>
    if snode = 0 then []
    else if fnode &&& 1 = 1 ∨ fnode = snode then
      let (fnode, snode) := if fnode &&& 1 = 0 then skipLevels fnode snode else (fnode, snode)
      internalInput c fr :: internalInput c sr :: consistencyLoopInputs (fnode >>> 1) (snode >>> 1)
        (internalHash sha256 c fr) (internalHash sha256 c sr) path
    else internalInput sr c ::
      consistencyLoopInputs (fnode >>> 1) (snode >>> 1) fr (internalHash sha256 sr c) path

/-- What the check hashes. -/
def verifyConsistencyInputs (m n : ℕ) (firstHash : Hash) (proof : List Hash) : List Bytes :=
  if m = 0 ∨ m ≥ n ∨ proof.isEmpty then []
  else
    let (fnode, snode) := alignLoop (m - 1) (n - 1)
    match consistencyPath m firstHash proof with
    | [] => []
    | c₀ :: path => consistencyLoopInputs sha256 fnode snode c₀ c₀ path

lemma climbPairs_mem_consistencyLoopInputs (fnode snode : ℕ) (fr sr : Hash) (path : List Hash)
    (hf : fnode ≤ snode) {q : Hash × Hash}
    (hq : q ∈ climbPairs (internalHash sha256) (sides fnode snode) sr path) :
    internalInput q.1 q.2 ∈ consistencyLoopInputs sha256 fnode snode fr sr path := by
  induction path generalizing fnode snode fr sr with
  | nil => simp [climbPairs] at hq
  | cons c path ih =>
    by_cases hs : snode = 0
    · subst hs
      simp [climbPairs] at hq
    rw [consistencyLoopInputs, if_neg hs]
    rcases walk_cases fnode snode hf hs with ⟨g, s, hleft, hskip, hg, hsides⟩ | ⟨j, rfl, hright, hj, hsides⟩
    · rw [hsides, climbPairs] at hq
      rw [if_pos hleft, hskip]
      simp only [Nat.shiftRight_one, half_odd]
      rcases List.mem_cons.mp hq with rfl | hq
      · simp
      · exact List.mem_cons_of_mem _ (List.mem_cons_of_mem _ (ih _ _ _ _ hg hq))
    · rw [hsides, climbPairs] at hq
      rw [if_neg hright, Nat.shiftRight_one, Nat.shiftRight_one, half_even]
      rcases List.mem_cons.mp hq with rfl | hq
      · exact List.mem_cons_self
      · exact List.mem_cons_of_mem _ (ih _ _ _ _ hj hq)

lemma consistencyLoopInputs_isTreeInput (fnode snode : ℕ) (fr sr : Hash) (path : List Hash) :
    ∀ x ∈ consistencyLoopInputs sha256 fnode snode fr sr path, IsTreeInput x := by
  induction path generalizing fnode snode fr sr with
  | nil => simp [consistencyLoopInputs]
  | cons c path ih =>
    intro x hx
    rw [consistencyLoopInputs] at hx
    split at hx
    · simp at hx
    · split at hx
      · rcases List.mem_cons.mp hx with rfl | hx
        · exact Or.inr ⟨_, _, rfl⟩
        · rcases List.mem_cons.mp hx with rfl | hx
          · exact Or.inr ⟨_, _, rfl⟩
          · exact ih _ _ _ _ x hx
      · rcases List.mem_cons.mp hx with rfl | hx
        · exact Or.inr ⟨_, _, rfl⟩
        · exact ih _ _ _ _ x hx

/-- The tree and the consistency check hash leaf inputs and node inputs only. -/
theorem consistencyInputs_isTreeInput {entries : List Hash} (hne : entries ≠ []) (m : ℕ)
    (firstHash : Hash) (proof : List Hash) : ∀ x ∈ mthInputs sha256 entries ++
      verifyConsistencyInputs sha256 m entries.length firstHash proof, IsTreeInput x := by
  intro x hx
  rcases List.mem_append.mp hx with hx | hx
  · exact mthInputs_isTreeInput sha256 hne x hx
  · unfold verifyConsistencyInputs at hx
    split at hx
    · simp at hx
    · simp only at hx
      split at hx
      · simp at hx
      · exact consistencyLoopInputs_isTreeInput sha256 _ _ _ _ _ x hx

/-- An accepted consistency proof shows the root of the true prefix of that size, provided
no two of the leaf and node inputs hashed in the tree and in the check collide. -/
theorem verifyConsistency_sound (entries : List Hash) (m : ℕ) (firstHash : Hash)
    (proof : List Hash)
    (hsha : CollisionFree sha256 (mthInputs sha256 entries ++
      verifyConsistencyInputs sha256 m entries.length firstHash proof))
    (hv : verifyConsistency sha256 m entries.length firstHash (merkleRoot sha256 entries)
      proof = true) :
    0 < m ∧ m < entries.length ∧ firstHash = merkleRoot sha256 (entries.take m) := by
  have hm : 0 < m := by
    rcases Nat.eq_zero_or_pos m with rfl | h
    · simp [verifyConsistency] at hv
    · exact h
  obtain ⟨t, f, hnode⟩ := exists_prefix_node m hm
  rw [verifyConsistency_iff sha256 hnode] at hv
  obtain ⟨hmn, hproof, c₀, path, hpath, hboth⟩ := hv
  have hne : entries ≠ [] := List.length_pos_iff.mp (by omega)
  have hpre : entries.take m ≠ [] := List.length_pos_iff.mp (by rw [List.length_take]; omega)
  have hle : 2 * f ≤ lastNode entries t := prefix_node_le hnode hmn.le
  have halign : alignLoop (m - 1) (entries.length - 1) = (2 * f, lastNode entries t) := by
    rw [hnode, alignLoop_node, lastNode]
  rw [merkleRoot_of_ne_nil sha256 hne] at hboth
  have hsecond := climbBoth_snd (internalHash sha256) (sides (2 * f) (lastNode entries t)) (c₀, c₀) path
  rw [lastNode, hboth] at hsecond
  have hpairs : ∀ p ∈ climbPairs (internalHash sha256) (sides (2 * f) (lastNode entries t)) c₀ path,
      ∀ q ∈ treePairs (mth sha256) entries,
      internalHash sha256 p.1 p.2 = internalHash sha256 q.1 q.2 → p = q := by
    intro p hp q hq hpq
    refine internalInput_injective (hsha _ ?_ _ ?_ hpq)
    · rw [verifyConsistencyInputs, if_neg (by simp [hproof]; omega), halign, hpath]
      exact List.mem_append_right _
        (climbPairs_mem_consistencyLoopInputs sha256 _ _ _ _ _ hle hp)
    · exact List.mem_append_left _ (treePairs_mem_mthInputs sha256 hne hq)
  obtain ⟨hc₀, hsib⟩ := climb_sound (mth_splitsAt sha256) hne hle c₀ path hpairs hsecond.symm
  have hhonest := climbBoth_siblings (mth_splitsAt sha256) hm hmn.le hle
    (prefix_lastNode hnode hmn.le).symm
  rw [block_take entries t (2 * f) m hnode.ge, ← hc₀, ← hsib, lastNode, hboth] at hhonest
  rw [merkleRoot_of_ne_nil sha256 hpre]
  exact ⟨hm, hmn, (Prod.mk.inj (Option.some.inj hhonest)).1⟩

theorem verifyConsistency_consistencyProof_kat : ∃ proof, consistencyProof katSha256 katEntries 2 = some proof ∧
    verifyConsistency katSha256 2 3 (merkleRoot katSha256 (katEntries.take 2))
      (merkleRoot katSha256 katEntries) proof = true :=
  verifyConsistency_consistencyProof katSha256 katEntries 2 (by decide) (by decide)

theorem verifyConsistency_sound_kat : katNode01 = merkleRoot katSha256 (katEntries.take 2) :=
  (verifyConsistency_sound katSha256 katEntries 2 katNode01 [katLeaf2] (by decide +kernel)
    (by decide +kernel)).2.2

end SignetDrive.Proofs
