import SignetDrive.Model.RustStd

/-!
# The transparency-log Merkle tree

`crypto/src/merkle.rs`: the root, the recursive proof generators and the iterative verifiers. SHA-256
is a parameter.
-/

namespace SignetDrive

def LEAF_PREFIX : UInt8 := 0x00

def INTERNAL_PREFIX : UInt8 := 0x01

def leafInput (entryHash : Hash) : Bytes := LEAF_PREFIX :: entryHash.toList

def internalInput (left right : Hash) : Bytes := INTERNAL_PREFIX :: (left.toList ++ right.toList)

section

variable (sha256 : Bytes → Hash)

def leafHash (entryHash : Hash) : Hash := sha256 (leafInput entryHash)

def internalHash (left right : Hash) : Hash := sha256 (internalInput left right)

/-- The loop of `split_point`, from a positive `k`. -/
def splitLoop (n k : ℕ) (hk : 0 < k) : ℕ :=
  if k <<< 1 < n then splitLoop n (k <<< 1) (by rw [Nat.shiftLeft_eq]; omega) else k
termination_by n - k
decreasing_by rw [Nat.shiftLeft_eq] at *; omega

def splitPoint (n : ℕ) : ℕ := splitLoop n 1 one_pos

theorem splitLoop_spec (n k : ℕ) (hk : 0 < k) (hpow : ∃ j, k = 2 ^ j) (hkn : k < n) :
    ∃ j, splitLoop n k hk = 2 ^ j ∧ 2 ^ j < n ∧ n ≤ 2 ^ (j + 1) := by
  induction k, hk using splitLoop.induct n with
  | case1 k hk hlt ih =>
    rw [splitLoop, if_pos hlt]
    obtain ⟨j, rfl⟩ := hpow
    exact ih ⟨j + 1, by rw [Nat.shiftLeft_eq, pow_one, ← pow_succ]⟩ hlt
  | case2 k hk hge =>
    rw [splitLoop, if_neg hge]
    obtain ⟨j, rfl⟩ := hpow
    rw [Nat.shiftLeft_eq] at hge
    exact ⟨j, rfl, hkn, by rw [pow_succ]; omega⟩

theorem splitPoint_spec (n : ℕ) (hn : 2 ≤ n) :
    ∃ j, splitPoint n = 2 ^ j ∧ 2 ^ j < n ∧ n ≤ 2 ^ (j + 1) :=
  splitLoop_spec n 1 one_pos ⟨0, rfl⟩ hn

theorem splitPoint_bounds (n : ℕ) (hn : 2 ≤ n) : 0 < splitPoint n ∧ splitPoint n < n := by
  obtain ⟨j, hj, hlt, _⟩ := splitPoint_spec n hn
  rw [hj]
  exact ⟨Nat.two_pow_pos j, hlt⟩

/-- The Merkle tree hash of a non-empty slice. The empty slice is outside its domain:
`merkleRoot` answers for the empty log itself. -/
def mth (entries : List Hash) : Hash :=
  match entries with
  | [] => sha256 []
  | [single] => leafHash sha256 single
  | e₀ :: e₁ :: rest =>
    let k := splitPoint (e₀ :: e₁ :: rest).length
    internalHash sha256 (mth ((e₀ :: e₁ :: rest).take k)) (mth ((e₀ :: e₁ :: rest).drop k))
termination_by entries.length
decreasing_by
  all_goals
    have hk := splitPoint_bounds (e₀ :: e₁ :: rest).length (by simp)
    simp only [List.length_take, List.length_drop]
    omega

/-- The root of the log; the empty log hashes to `SHA-256("")`. -/
def merkleRoot (entries : List Hash) : Hash :=
  if entries.isEmpty then sha256 [] else mth sha256 entries

/-- The audit path, deepest sibling first: what the source appends on its way back up. -/
def auditPath (entries : List Hash) (index : ℕ) : List Hash :=
  if _h : entries.length < 2 then []
  else
    let k := splitPoint entries.length
    if index < k then
      auditPath (entries.take k) index ++ [mth sha256 (entries.drop k)]
    else
      auditPath (entries.drop k) (index - k) ++ [mth sha256 (entries.take k)]
termination_by entries.length
decreasing_by
  all_goals
    have hk := splitPoint_bounds entries.length (by omega)
    simp only [List.length_take, List.length_drop]
    omega

/-- `none` is the panic of the index assertion. -/
def inclusionProof (entries : List Hash) (index : ℕ) : Option (List Hash) :=
  if index < entries.length then some (auditPath sha256 entries index) else none

/-- The inner loop of both verifiers: shift both counters, at least once, until the first
is odd or zero. -/
def skipLevels (fnode snode : ℕ) : ℕ × ℕ :=
  if fnode >>> 1 &&& 1 = 1 ∨ fnode >>> 1 = 0 then (fnode >>> 1, snode >>> 1)
  else skipLevels (fnode >>> 1) (snode >>> 1)
termination_by fnode
decreasing_by rw [Nat.shiftRight_one] at *; omega

/-- The loop of `verify_inclusion`: the last `snode` and `r`, or `none` for the early
`return false`. -/
def inclusionLoop (fnode snode : ℕ) (r : Hash) : List Hash → Option (ℕ × Hash)
  | [] => some (snode, r)
  | p :: proof =>
    if snode = 0 then none
    else if fnode &&& 1 = 1 ∨ fnode = snode then
      let (fnode, snode) := if fnode &&& 1 = 0 then skipLevels fnode snode else (fnode, snode)
      inclusionLoop (fnode >>> 1) (snode >>> 1) (internalHash sha256 p r) proof
    else inclusionLoop (fnode >>> 1) (snode >>> 1) (internalHash sha256 r p) proof

def verifyInclusion (entryHash : Hash) (index treeSize : ℕ) (proof : List Hash) (root : Hash) :
    Bool :=
  if index ≥ treeSize then false
  else match inclusionLoop sha256 index (treeSize - 1) (leafHash sha256 entryHash) proof with
    | none => false
    | some (snode, r) => snode == 0 && r == root

/-- What `SUBPROOF` appends, in order. `b` says that the verifier holds the root of the size-`m`
subtree. A slice of one entry with `m ≠ 1` is outside its domain. -/
def subproof (m : ℕ) (entries : List Hash) (b : Bool) : List Hash :=
  if m = entries.length then
    (if !b then [mth sha256 entries] else [])
  else if _h : entries.length < 2 then []
  else
    let k := splitPoint entries.length
    if m ≤ k then subproof m (entries.take k) b ++ [mth sha256 (entries.drop k)]
    else subproof (m - k) (entries.drop k) false ++ [mth sha256 (entries.take k)]
termination_by entries.length
decreasing_by
  all_goals
    have hk := splitPoint_bounds entries.length (by omega)
    simp only [List.length_take, List.length_drop]
    omega

/-- `none` is the panic of the range assertion. -/
def consistencyProof (entries : List Hash) (m : ℕ) : Option (List Hash) :=
  if 0 < m ∧ m < entries.length then some (subproof sha256 m entries true) else none

def isPowerOfTwo (m : ℕ) : Bool := m == 2 ^ Nat.log2 m

/-- Step 4 of the consistency check: shift both counters while the first is odd. -/
def alignLoop (fnode snode : ℕ) : ℕ × ℕ :=
  if fnode &&& 1 = 1 then alignLoop (fnode >>> 1) (snode >>> 1) else (fnode, snode)
termination_by fnode
decreasing_by rw [Nat.shiftRight_one, Nat.and_one_is_mod] at *; omega

/-- Step 6: the last `fr`, `sr` and `snode`, or `none` for the early `return false`. -/
def consistencyLoop (fnode snode : ℕ) (fr sr : Hash) : List Hash → Option (Hash × Hash × ℕ)
  | [] => some (fr, sr, snode)
  | c :: path =>
    if snode = 0 then none
    else if fnode &&& 1 = 1 ∨ fnode = snode then
      let (fnode, snode) := if fnode &&& 1 = 0 then skipLevels fnode snode else (fnode, snode)
      consistencyLoop (fnode >>> 1) (snode >>> 1) (internalHash sha256 c fr)
        (internalHash sha256 c sr) path
    else consistencyLoop (fnode >>> 1) (snode >>> 1) fr (internalHash sha256 sr c) path

/-- The path the verifier walks: its own `first_hash` leads it when `m` is a power of two. -/
def consistencyPath (m : ℕ) (firstHash : Hash) (proof : List Hash) : List Hash :=
  if isPowerOfTwo m then firstHash :: proof else proof

def verifyConsistency (m n : ℕ) (firstHash secondHash : Hash) (proof : List Hash) : Bool :=
  if m = 0 ∨ m ≥ n ∨ proof.isEmpty then false
  else
    let (fnode, snode) := alignLoop (m - 1) (n - 1)
    match consistencyPath m firstHash proof with
    | [] => false
    | c₀ :: path =>
      match consistencyLoop sha256 fnode snode c₀ c₀ path with
      | none => false
      | some (fr, sr, snode) => fr == firstHash && sr == secondHash && snode == 0

end

end SignetDrive
