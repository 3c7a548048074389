import SignetDrive.Lib.HashTree
import SignetDrive.Model.Merkle

/-!
# Inclusion proofs

The bit walk of `verifyInclusion` is the level-by-level climb of `HashTree`, and the
recursive `auditPath` lists the siblings of that climb.
-/

namespace SignetDrive.Proofs

open HashTree

variable (sha256 : Bytes → Hash)

lemma mth_of_two_le (entries : List Hash) (hn : 2 ≤ entries.length) :
    mth sha256 entries = internalHash sha256
      (mth sha256 (entries.take (splitPoint entries.length)))
      (mth sha256 (entries.drop (splitPoint entries.length))) := by
  match entries, hn with
  | e₀ :: e₁ :: rest, _ => rw [mth]

lemma splitPoint_eq {n j : ℕ} (hlo : 2 ^ j < n) (hhi : n ≤ 2 ^ (j + 1)) : splitPoint n = 2 ^ j := by
  have hpos := Nat.two_pow_pos j
  obtain ⟨i, hi, hilo, hihi⟩ := splitPoint_spec n (by omega)
  have hij : i < j + 1 := (Nat.pow_lt_pow_iff_right one_lt_two).mp (hilo.trans_le hhi)
  have hji : j < i + 1 := (Nat.pow_lt_pow_iff_right one_lt_two).mp (hlo.trans_le hihi)
  rw [hi, show i = j from by omega]

theorem mth_splitsAt : SplitsAt (internalHash sha256) (mth sha256) := by
  intro j xs hlo hhi
  have hpos := Nat.two_pow_pos j
  rw [mth_of_two_le sha256 xs (by omega), splitPoint_eq hlo hhi]

lemma mth_singleton (e : Hash) : mth sha256 [e] = leafHash sha256 e := by
  rw [mth]

lemma mth_leaf (entries : List Hash) (index : ℕ) (h : index < entries.length) :
    mth sha256 (block entries 0 index) = leafHash sha256 entries[index] := by
  rw [block_zero entries index h, mth_singleton]

variable {entries : List Hash}

lemma merkleRoot_of_ne_nil (h : entries ≠ []) :
    merkleRoot sha256 entries = mth sha256 entries := by
  rw [merkleRoot, if_neg (by simpa using h)]

/-- The inner loop stops at the first odd ancestor, and every level it passes is one without a
sibling. -/
lemma skipLevels_double (j : ℕ) (hj : j ≠ 0) : ∃ g, skipLevels (2 * j) (2 * j) = (2 * g + 1, 2 * g + 1) ∧
    sides (2 * j) (2 * j) = sides (2 * g + 1) (2 * g + 1) := by
  induction j using Nat.strong_induction_on with
  | _ j ih =>
    have hshift : (2 * j) >>> 1 = j := by rw [Nat.shiftRight_one]; omega
    rw [skipLevels, hshift, Nat.and_one_is_mod, sides_lonely hj]
    obtain ⟨i, rfl | rfl⟩ : ∃ i, j = 2 * i ∨ j = 2 * i + 1 := ⟨j / 2, by omega⟩
    · rw [if_neg (by omega)]
      exact ih i (by omega) (by omega)
    · exact ⟨i, by rw [if_pos (by omega)], rfl⟩

/-- One turn of either walk takes a sibling on the left, once a lonely node has been carried to
its first odd ancestor, or a sibling on the right. -/
lemma walk_cases (fnode snode : ℕ) (hf : fnode ≤ snode) (hs : snode ≠ 0) :
    (∃ g s, (fnode &&& 1 = 1 ∨ fnode = snode) ∧
      (if fnode &&& 1 = 0 then skipLevels fnode snode else (fnode, snode)) = (2 * g + 1, s) ∧
      g ≤ s / 2 ∧ sides fnode snode = true :: sides g (s / 2)) ∨
    ∃ j, fnode = 2 * j ∧ ¬ (fnode &&& 1 = 1 ∨ fnode = snode) ∧
      j ≤ snode / 2 ∧ sides fnode snode = false :: sides j (snode / 2) := by
  simp only [Nat.and_one_is_mod]
  obtain ⟨j, rfl | rfl⟩ : ∃ j, fnode = 2 * j ∨ fnode = 2 * j + 1 := ⟨fnode / 2, by omega⟩
  · by_cases hlonely : 2 * j = snode
    · subst hlonely
      obtain ⟨g, hskip, hsides⟩ := skipLevels_double j (by omega)
      rw [sides_left le_rfl] at hsides
      refine Or.inl ⟨g, 2 * g + 1, Or.inr rfl, ?_, by omega, hsides⟩
      rw [if_pos (Nat.mul_mod_right 2 j), hskip]
    · exact Or.inr ⟨j, rfl, by omega, by omega, sides_right (by omega)⟩
  · refine Or.inl ⟨j, snode, Or.inl (odd_mod_two j), ?_, by omega, sides_left hf⟩
    rw [if_neg (by omega)]

theorem inclusionLoop_eq_climb (fnode snode : ℕ) (r : Hash) (path : List Hash) (hf : fnode ≤ snode) :
    ((inclusionLoop sha256 fnode snode r path).bind fun q => if q.1 = 0 then some q.2 else none) =
      climb (internalHash sha256) (sides fnode snode) r path := by
  induction path generalizing fnode snode r with
  | nil =>
    by_cases hs : snode = 0
    · subst hs
      simp [inclusionLoop, climb, walk]
    · obtain ⟨side, above, hsides⟩ := List.exists_cons_of_ne_nil (sides_ne_nil fnode hf hs)
      simp [inclusionLoop, hs, hsides, climb, walk]
  | cons p path ih =>
    by_cases hs : snode = 0
    · subst hs
      simp [inclusionLoop, climb, walk]
    rw [inclusionLoop, if_neg hs]
    rcases walk_cases fnode snode hf hs with ⟨g, s, hleft, hskip, hg, hsides⟩ | ⟨j, rfl, hright, hj, hsides⟩
    · rw [if_pos hleft, hskip, hsides]
      simp only [Nat.shiftRight_one, half_odd]
      exact ih _ _ _ hg
    · rw [if_neg hright, hsides, Nat.shiftRight_one, Nat.shiftRight_one, half_even]
      exact ih _ _ _ hj

theorem verifyInclusion_iff (entryHash : Hash) (index treeSize : ℕ) (proof : List Hash) (root : Hash) :
    verifyInclusion sha256 entryHash index treeSize proof root = true ↔ index < treeSize ∧
      climb (internalHash sha256) (sides index (treeSize - 1)) (leafHash sha256 entryHash) proof =
        some root := by
  by_cases hi : index < treeSize
  · rw [← inclusionLoop_eq_climb sha256 _ _ _ _ (by omega : index ≤ treeSize - 1), verifyInclusion,
      if_neg (by omega)]
    cases inclusionLoop sha256 index (treeSize - 1) (leafHash sha256 entryHash) proof with
    | none => simp
    | some q =>
      obtain ⟨snode, r⟩ := q
      by_cases hs : snode = 0 <;> simp [hi, hs]
  · simp [verifyInclusion, hi, Nat.not_lt.mp hi]

theorem auditPath_eq_siblings (entries : List Hash) (index : ℕ) (hi : index < entries.length) :
    auditPath sha256 entries index =
      siblings (mth sha256) entries 0 index (lastNode entries 0) := by
  induction entries, index using auditPath.induct with
  | case1 entries index hlen =>
    have hlast : lastNode entries 0 = 0 := by
      rw [lastNode, pow_zero, Nat.div_one]
      omega
    rw [auditPath, dif_pos hlen, hlast, siblings_root]
  | case2 entries index hlen k hlt ih =>
    obtain ⟨j, hj, hlo, hhi⟩ := splitPoint_spec entries.length (by omega)
    simp only [k, hj] at hlt ih
    rw [auditPath, dif_neg hlen]
    simp only [hj]
    rw [if_pos hlt, ih (by rw [List.length_take]; omega)]
    have hs := siblings_take (l := 0) (k := j) (mth sha256) (by simpa using hlo)
      (by simpa using hhi) hlt
    simpa using hs.symm
  | case3 entries index hlen k hge ih =>
    obtain ⟨j, hj, hlo, hhi⟩ := splitPoint_spec entries.length (by omega)
    simp only [k, hj] at hge ih
    rw [auditPath, dif_neg hlen]
    simp only [hj]
    rw [if_neg hge, ih (by rw [List.length_drop]; omega)]
    have hs := siblings_drop (l := 0) (k := j) (f := index - 2 ^ j) (mth sha256) (by simpa using hlo)
      (by simpa using hhi) (by rw [lastNode, pow_zero, Nat.div_one]; omega)
    rw [Nat.sub_add_cancel (by omega)] at hs
    simpa using hs.symm

/-- Every honest inclusion proof verifies, whatever the hash function. -/
theorem verifyInclusion_inclusionProof (entries : List Hash) (index : ℕ)
    (hi : index < entries.length) : ∃ proof, inclusionProof sha256 entries index = some proof ∧
      verifyInclusion sha256 entries[index] index entries.length proof
        (merkleRoot sha256 entries) = true := by
  have hne : entries ≠ [] := List.length_pos_iff.mp (by omega)
  have hlast : lastNode entries 0 = entries.length - 1 := by rw [lastNode, pow_zero, Nat.div_one]
  refine ⟨auditPath sha256 entries index, by rw [inclusionProof, if_pos hi], ?_⟩
  rw [verifyInclusion_iff, merkleRoot_of_ne_nil sha256 hne, ← mth_leaf sha256 entries index hi,
    auditPath_eq_siblings sha256 entries index hi, ← hlast]
  exact ⟨hi, climb_siblings (mth_splitsAt sha256) hne (by omega)⟩

/-- No two of the inputs have one hash. -/
def CollisionFree (inputs : List Bytes) : Prop :=
  ∀ x ∈ inputs, ∀ y ∈ inputs, sha256 x = sha256 y → x = y

instance (inputs : List Bytes) : Decidable (CollisionFree sha256 inputs) := by
  unfold CollisionFree
  infer_instance

/-- What a tree head is hashed from. -/
def mthInputs (entries : List Hash) : List Bytes :=
  match entries with
  | [] => [[]]
  | [single] => [leafInput single]
  | e₀ :: e₁ :: rest =>
    let k := splitPoint (e₀ :: e₁ :: rest).length
    internalInput (mth sha256 ((e₀ :: e₁ :: rest).take k)) (mth sha256 ((e₀ :: e₁ :: rest).drop k)) ::
      (mthInputs ((e₀ :: e₁ :: rest).take k) ++ mthInputs ((e₀ :: e₁ :: rest).drop k))
termination_by entries.length
decreasing_by
  all_goals
    have hk := splitPoint_bounds (e₀ :: e₁ :: rest).length (by simp)
    simp only [List.length_take, List.length_drop]
    omega

def inclusionLoopInputs (fnode snode : ℕ) (r : Hash) : List Hash → List Bytes
  | [] => []
  | p :: proof =>
    if snode = 0 then []
    else if fnode &&& 1 = 1 ∨ fnode = snode then
      let (fnode, snode) := if fnode &&& 1 = 0 then skipLevels fnode snode else (fnode, snode)
      internalInput p r :: inclusionLoopInputs (fnode >>> 1) (snode >>> 1) (internalHash sha256 p r) proof
    else
      internalInput r p :: inclusionLoopInputs (fnode >>> 1) (snode >>> 1) (internalHash sha256 r p) proof

/-- What the check hashes. -/
def verifyInclusionInputs (entryHash : Hash) (index treeSize : ℕ) (proof : List Hash) : List Bytes :=
  if index ≥ treeSize then []
  else leafInput entryHash ::
    inclusionLoopInputs sha256 index (treeSize - 1) (leafHash sha256 entryHash) proof

lemma leafInput_injective : Function.Injective leafInput := by
  intro a b h
  exact List.Vector.toList_injective (List.cons.inj h).2

lemma internalInput_injective {a b c d : Hash} (h : internalInput a b = internalInput c d) :
    (a, b) = (c, d) := by
  obtain ⟨hac, hbd⟩ := List.append_inj (List.cons.inj h).2 (by simp)
  rw [List.Vector.toList_injective hac, List.Vector.toList_injective hbd]

lemma inclusionLoopInputs_eq (fnode snode : ℕ) (r : Hash) (path : List Hash) (hf : fnode ≤ snode) :
    inclusionLoopInputs sha256 fnode snode r path =
      (climbPairs (internalHash sha256) (sides fnode snode) r path).map fun q => internalInput q.1 q.2 := by
  induction path generalizing fnode snode r with
  | nil => simp [inclusionLoopInputs, climbPairs]
  | cons p path ih =>
    by_cases hs : snode = 0
    · subst hs
      simp [inclusionLoopInputs, climbPairs]
    rw [inclusionLoopInputs, if_neg hs]
    rcases walk_cases fnode snode hf hs with ⟨g, s, hleft, hskip, hg, hsides⟩ | ⟨j, rfl, hright, hj, hsides⟩
    · rw [if_pos hleft, hskip, hsides, climbPairs, List.map_cons]
      simp only [Nat.shiftRight_one, half_odd]
      rw [ih _ _ _ hg]
    · rw [if_neg hright, hsides, climbPairs, List.map_cons, Nat.shiftRight_one, Nat.shiftRight_one,
        half_even, ih _ _ _ hj]

lemma mthInputs_of_two_le (entries : List Hash) (hn : 2 ≤ entries.length) :
    mthInputs sha256 entries = internalInput
      (mth sha256 (entries.take (splitPoint entries.length)))
      (mth sha256 (entries.drop (splitPoint entries.length))) ::
        (mthInputs sha256 (entries.take (splitPoint entries.length)) ++
          mthInputs sha256 (entries.drop (splitPoint entries.length))) := by
  match entries, hn with
  | e₀ :: e₁ :: rest, _ => rw [mthInputs]

theorem mthInputs_splitsAt : SplitsAt
    (fun a b => (internalHash sha256 a.1 b.1, internalInput a.1 b.1 :: (a.2 ++ b.2)))
    (fun xs => (mth sha256 xs, mthInputs sha256 xs)) := by
  intro j xs hlo hhi
  have hpos := Nat.two_pow_pos j
  dsimp only
  rw [mth_of_two_le sha256 xs (by omega), mthInputs_of_two_le sha256 xs (by omega),
    splitPoint_eq hlo hhi]

lemma mthInputs_block_succ (hne : entries ≠ []) {l j : ℕ}
    (hj : 2 * j + 1 ≤ lastNode entries l) : mthInputs sha256 (block entries (l + 1) j) =
      internalInput (mth sha256 (block entries l (2 * j))) (mth sha256 (block entries l (2 * j + 1))) ::
        (mthInputs sha256 (block entries l (2 * j)) ++
          mthInputs sha256 (block entries l (2 * j + 1))) :=
  congrArg Prod.snd (hash_block_succ (mthInputs_splitsAt sha256) hne hj)

theorem mthInputs_block_subset (hne : entries ≠ []) {l f : ℕ}
    (hf : f ≤ lastNode entries l) :
    mthInputs sha256 (block entries l f) ⊆ mthInputs sha256 entries := by
  induction l, f, hf using climbInduction with
  | root l hroot =>
    have hlen := length_le_of_lastNode_lt entries l 1 (by omega)
    rw [block_top entries l (by omega)]
    exact List.Subset.refl _
  | left l j hj _ ih =>
    rw [mthInputs_block_succ sha256 hne hj] at ih
    exact fun x hx => ih (List.mem_cons_of_mem _ (List.mem_append_right _ hx))
  | lonely l j hj _ _ ih =>
    rw [← block_succ_lonely hj]
    exact ih
  | right l j hj _ ih =>
    rw [mthInputs_block_succ sha256 hne hj] at ih
    exact fun x hx => ih (List.mem_cons_of_mem _ (List.mem_append_left _ hx))

lemma treePairs_mem_mthInputs (hne : entries ≠ []) {q : Hash × Hash}
    (hq : q ∈ treePairs (mth sha256) entries) : internalInput q.1 q.2 ∈ mthInputs sha256 entries := by
  obtain ⟨l, j, hj, rfl⟩ := hq
  have hup : j ≤ lastNode entries (l + 1) := by
    rw [lastNode_succ]
    omega
  apply mthInputs_block_subset sha256 hne hup
  rw [mthInputs_block_succ sha256 hne hj]
  exact List.mem_cons_self

lemma leafInput_mem_mthInputs {index : ℕ} (hi : index < entries.length) :
    leafInput entries[index] ∈ mthInputs sha256 entries := by
  have hne : entries ≠ [] := List.length_pos_iff.mp (by omega)
  have hlast : index ≤ lastNode entries 0 := by
    rw [lastNode, pow_zero, Nat.div_one]
    omega
  apply mthInputs_block_subset sha256 hne hlast
  rw [block_zero entries index hi, mthInputs]
  exact List.mem_singleton_self _

def IsTreeInput (input : Bytes) : Prop :=
  (∃ e, input = leafInput e) ∨ ∃ a b, input = internalInput a b

lemma mthInputs_isTreeInput (hne : entries ≠ []) :
    ∀ x ∈ mthInputs sha256 entries, IsTreeInput x := by
  fun_induction mthInputs sha256 entries with
  | case1 => exact absurd rfl hne
  | case2 single =>
    intro x hx
    exact Or.inl ⟨single, List.mem_singleton.mp hx⟩
  | case3 e₀ e₁ rest k ihl ihr =>
    have hk := splitPoint_bounds (e₀ :: e₁ :: rest).length (by simp)
    have hl : (e₀ :: e₁ :: rest).take k ≠ [] :=
      List.length_pos_iff.mp (by rw [List.length_take]; omega)
    have hr : (e₀ :: e₁ :: rest).drop k ≠ [] :=
      List.length_pos_iff.mp (by rw [List.length_drop]; omega)
    intro x hx
    rcases List.mem_cons.mp hx with rfl | hx
    · exact Or.inr ⟨_, _, rfl⟩
    · rcases List.mem_append.mp hx with hx | hx
      · exact ihl hl x hx
      · exact ihr hr x hx

/-- The tree and the inclusion check hash leaf inputs and node inputs only. -/
theorem inclusionInputs_isTreeInput (hne : entries ≠ []) (entryHash : Hash)
    (index : ℕ) (proof : List Hash) : ∀ x ∈ mthInputs sha256 entries ++
      verifyInclusionInputs sha256 entryHash index entries.length proof, IsTreeInput x := by
  intro x hx
  rcases List.mem_append.mp hx with hx | hx
  · exact mthInputs_isTreeInput sha256 hne x hx
  · unfold verifyInclusionInputs at hx
    split at hx
    · simp at hx
    · rw [inclusionLoopInputs_eq sha256 _ _ _ _ (by omega)] at hx
      rcases List.mem_cons.mp hx with rfl | hx
      · exact Or.inl ⟨_, rfl⟩
      · obtain ⟨q, _, rfl⟩ := List.mem_map.mp hx
        exact Or.inr ⟨_, _, rfl⟩

/-- An accepted inclusion proof is the honest proof of the entry at that index, provided no
two of the leaf and node inputs hashed in the tree and in the check collide. -/
theorem verifyInclusion_sound (entries : List Hash) (hne : entries ≠ []) (entryHash : Hash)
    (index : ℕ) (proof : List Hash)
    (hsha : CollisionFree sha256 (mthInputs sha256 entries ++
      verifyInclusionInputs sha256 entryHash index entries.length proof))
    (hv : verifyInclusion sha256 entryHash index entries.length proof
      (merkleRoot sha256 entries) = true) :
    ∃ hi : index < entries.length, entryHash = entries[index] ∧
      inclusionProof sha256 entries index = some proof := by
  rw [verifyInclusion_iff, merkleRoot_of_ne_nil sha256 hne] at hv
  obtain ⟨hi, hclimb⟩ := hv
  have hlast : lastNode entries 0 = entries.length - 1 := by rw [lastNode, pow_zero, Nat.div_one]
  have hle : index ≤ lastNode entries 0 := by omega
  rw [verifyInclusionInputs, if_neg (by omega), ← hlast,
    inclusionLoopInputs_eq sha256 _ _ _ _ hle] at hsha
  rw [← hlast] at hclimb
  have hpairs : ∀ p ∈ climbPairs (internalHash sha256) (sides index (lastNode entries 0))
      (leafHash sha256 entryHash) proof, ∀ q ∈ treePairs (mth sha256) entries,
      internalHash sha256 p.1 p.2 = internalHash sha256 q.1 q.2 → p = q := by
    intro p hp q hq hpq
    refine internalInput_injective (hsha _ ?_ _ ?_ hpq)
    · exact List.mem_append_right _ (List.mem_cons_of_mem _ (List.mem_map_of_mem hp))
    · exact List.mem_append_left _ (treePairs_mem_mthInputs sha256 hne hq)
  obtain ⟨hleaf, hpath⟩ := climb_sound (mth_splitsAt sha256) hne hle _ _ hpairs hclimb
  rw [mth_leaf sha256 entries index hi] at hleaf
  have hinput := hsha _ (List.mem_append_right _ List.mem_cons_self) _
    (List.mem_append_left _ (leafInput_mem_mthInputs sha256 hi)) hleaf
  refine ⟨hi, leafInput_injective hinput, ?_⟩
  rw [inclusionProof, if_pos hi, auditPath_eq_siblings sha256 entries index hi, hpath]

def fill (b : UInt8) : Hash := List.Vector.replicate 32 b

def katEntries : List Hash := [fill 0, fill 1, fill 2]

def katLeaf0 : Hash := hashOfNat 0x7f9c9e31ac8256ca2f258583df262dbc7d6f68f2a03043d5c99a4ae5a7396ce9

def katLeaf1 : Hash := hashOfNat 0xdcffe786ded16d283c663846ad0c4ff26558fccde36ca9d30b2ea19eade9fc0e

def katLeaf2 : Hash := hashOfNat 0xcba8c596120bdb69debbd923d92cba948bde7c7d06a465a1bb7d98d3116038fa

def katNode01 : Hash := hashOfNat 0x28fb81e496897e0ce886f08602392e9239b65c659041e5202163e58ad898f444

/-- SHA-256 on the five inputs behind the tree of `katEntries`, as the tests pin it. -/
def katSha256 (input : Bytes) : Hash :=
  if input = leafInput (fill 0) then katLeaf0
  else if input = leafInput (fill 1) then katLeaf1
  else if input = leafInput (fill 2) then katLeaf2
  else if input = internalInput katLeaf0 katLeaf1 then katNode01
  else if input = internalInput katNode01 katLeaf2 then
    hashOfNat 0xba8d94b7fbcecae7b81c4c80574fe24734a6917bf9c1ecd66ff3e0c34ead4620
  else fill 0

theorem verifyInclusion_inclusionProof_kat : ∃ proof, inclusionProof katSha256 katEntries 1 = some proof ∧
    verifyInclusion katSha256 (fill 1) 1 3 proof (merkleRoot katSha256 katEntries) = true :=
  verifyInclusion_inclusionProof katSha256 katEntries 1 (by decide)

theorem verifyInclusion_sound_kat : inclusionProof katSha256 katEntries 1 = some [katLeaf0, katLeaf2] :=
  (verifyInclusion_sound katSha256 katEntries (by decide) (fill 1) 1 [katLeaf0, katLeaf2]
    (by decide +kernel) (by decide +kernel)).2.2

end SignetDrive.Proofs
