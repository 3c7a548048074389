import SignetDrive.Model.OwnerWatch
import SignetDrive.Proofs.AnchorCache
import SignetDrive.Proofs.MerkleInclusion

/-!
# The owner's watch sees the whole log

The root over the leaves that a watch recomputes fixes the leaves, and a leaf fixes every field of
its entry.
-/

namespace SignetDrive.Proofs
open Client

/-! ### A root fixes its leaves -/

section

variable {sha256 : Bytes → Hash}

lemma CollisionFree.mono {xs ys : List Bytes} (h : CollisionFree sha256 ys) (hsub : xs ⊆ ys) :
    CollisionFree sha256 xs := by
  intro x hx y hy
  exact h x (hsub hx) y (hsub hy)

/-- The first byte of the outermost input tells the empty list, a single entry and longer lists apart. -/
lemma size_of_mth_eq {xs ys : List Hash}
    (hsha : CollisionFree sha256 (mthInputs sha256 xs ++ mthInputs sha256 ys))
    (h : mth sha256 xs = mth sha256 ys) : min xs.length 2 = min ys.length 2 := by
  have htop (zs : List Hash) : ∃ input ∈ mthInputs sha256 zs, mth sha256 zs = sha256 input ∧
      input.head?.elim 0 (·.toNat + 1) = min zs.length 2 := by
    match zs with
    | [] => exact ⟨[], by simp [mthInputs], by rw [mth], rfl⟩
    | [z] => exact ⟨leafInput z, by simp [mthInputs], mth_singleton sha256 z, rfl⟩
    | z₀ :: z₁ :: zs =>
      refine ⟨_, ?_, mth_of_two_le sha256 _ (by simp), by simp [internalInput, INTERNAL_PREFIX]⟩
      rw [mthInputs_of_two_le sha256 _ (by simp)]
      exact List.mem_cons_self
  obtain ⟨x, hx, hmx, hsize⟩ := htop xs
  obtain ⟨y, hy, hmy, hsize'⟩ := htop ys
  have hinput := hsha x (List.mem_append_left _ hx) y (List.mem_append_right _ hy) (by rw [← hmx, ← hmy, h])
  rw [← hsize, ← hsize', hinput]

lemma mth_injective {xs ys : List Hash}
    (hsha : CollisionFree sha256 (mthInputs sha256 xs ++ mthInputs sha256 ys))
    (h : mth sha256 xs = mth sha256 ys) : xs = ys := by
  induction hn : xs.length using Nat.strong_induction_on generalizing xs ys with
  | _ n ih =>
    subst hn
    have hsize := size_of_mth_eq hsha h
    by_cases htwo : 2 ≤ xs.length
    · have hk := splitPoint_bounds xs.length htwo
      have htwo' : 2 ≤ ys.length := by omega
      rw [mth_of_two_le sha256 xs htwo, mth_of_two_le sha256 ys htwo'] at h
      rw [mthInputs_of_two_le sha256 xs htwo, mthInputs_of_two_le sha256 ys htwo'] at hsha
      obtain ⟨hleft, hright⟩ := Prod.mk.inj (internalInput_injective (hsha _ (by simp) _ (by simp) h))
      -- both halves are shorter, and their inputs are among those of the whole
      have htake : xs.take (splitPoint xs.length) = ys.take (splitPoint ys.length) := by
        refine ih _ ?_ (hsha.mono ?_) hleft rfl
        · rw [List.length_take]; omega
        · intro x hx
          simp only [List.mem_append, List.mem_cons] at hx ⊢
          tauto
      have hdrop : xs.drop (splitPoint xs.length) = ys.drop (splitPoint ys.length) := by
        refine ih _ ?_ (hsha.mono ?_) hright rfl
        · rw [List.length_drop]; omega
        · intro x hx
          simp only [List.mem_append, List.mem_cons] at hx ⊢
          tauto
      rw [← List.take_append_drop (splitPoint xs.length) xs, htake, hdrop, List.take_append_drop]
    · by_cases hone : xs.length = 1
      · obtain ⟨x, rfl⟩ := List.length_eq_one_iff.mp hone
        obtain ⟨y, rfl⟩ := List.length_eq_one_iff.mp (show ys.length = 1 by omega)
        rw [mth_singleton, mth_singleton] at h
        rw [mthInputs, mthInputs] at hsha
        rw [leafInput_injective (hsha _ (by simp) _ (by simp) h)]
      · rw [List.length_eq_zero_iff.mp (show xs.length = 0 by omega),
          List.length_eq_zero_iff.mp (show ys.length = 0 by omega)]

/-- The root of a log tells it apart from every other log, of the same size or not. -/
theorem merkleRoot_eq_iff (sha256 : Bytes → Hash) (xs ys : List Hash)
    (hsha : CollisionFree sha256 (mthInputs sha256 xs ++ mthInputs sha256 ys)) :
    merkleRoot sha256 xs = merkleRoot sha256 ys ↔ xs = ys := by
  have hroot (zs : List Hash) : merkleRoot sha256 zs = mth sha256 zs := by
    cases zs <;> simp [merkleRoot, mth]
  rw [hroot, hroot]
  exact ⟨mth_injective hsha, fun h => by rw [h]⟩

theorem merkleRoot_ne_of_shorter_log :
    merkleRoot katSha256 katEntries ≠ merkleRoot katSha256 (katEntries.take 2) :=
  (merkleRoot_eq_iff katSha256 katEntries (katEntries.take 2) (by decide +kernel)).not.mpr (by decide)

end

/-! ### A leaf fixes its entry -/

lemma asByte_injective : Function.Injective KeyPurpose.asByte := by
  intro a b h
  cases a <;> cases b <;> first | rfl | exact absurd h (by decide)

lemma eq_of_toBeBytes_eq {a b : U64} (h : toBeBytes 8 a.val = toBeBytes 8 b.val) : a = b := by
  have hmod := toBeBytes_inj h
  rw [Nat.mod_eq_of_lt (a := a.val) (by omega), Nat.mod_eq_of_lt (a := b.val) (by omega)] at hmod
  exact Fin.ext hmod

variable {purpose : KeyPurpose} {entry : Json} {fields : LeafFields} {leaves : List Hash}
  {scanned : List Json}

/-- The bytes of an entry fix its fields, also against texts that are too long for their length
prefixes: those would make the whole longer. -/
lemma entryBytes_inj {version version' : UInt8} {id id' : U64} {account account' : Bytes}
    {purpose' : KeyPurpose} {algorithm algorithm' : String} {key key' : Bytes} {created created' : U64}
    {prev prev' : Hash} (haccount : account.length = account'.length)
    (halg : (utf8 algorithm).length < 2 ^ 32) (hkey : key.length < 2 ^ 32)
    (h : entryBytes version id account purpose algorithm key created prev =
      entryBytes version' id' account' purpose' algorithm' key' created' prev') :
    id = id' ∧ account = account' ∧ purpose = purpose' ∧ algorithm = algorithm' ∧ key = key' ∧
      created = created' ∧ prev = prev' := by
  have hlength := congrArg List.length h
  simp only [entryBytes, List.append_assoc] at h hlength
  simp only [List.length_append, List.length_cons, List.length_nil, length_toBeBytes,
    List.Vector.toList_length] at hlength
  obtain ⟨-, h⟩ := List.append_inj h rfl
  obtain ⟨hid, h⟩ := List.append_inj h (by rw [length_toBeBytes, length_toBeBytes])
  obtain ⟨hindex, h⟩ := List.append_inj h haccount
  obtain ⟨hpurpose, h⟩ := List.append_inj h rfl
  obtain ⟨hlen, h⟩ := List.append_inj h (by rw [length_toBeBytes, length_toBeBytes])
  have hlen := toBeBytes_inj hlen
  norm_num at hlen
  obtain ⟨htext, h⟩ := List.append_inj h (by omega)
  obtain ⟨-, h⟩ := List.append_inj h (by rw [length_toBeBytes, length_toBeBytes])
  obtain ⟨hpublic, h⟩ := List.append_inj h (by omega)
  obtain ⟨hcreated, hprev⟩ := List.append_inj h (by rw [length_toBeBytes, length_toBeBytes])
  exact ⟨eq_of_toBeBytes_eq hid, hindex, asByte_injective (List.cons.inj hpurpose).1, utf8_inj htext,
    hpublic, eq_of_toBeBytes_eq hcreated, List.Vector.toList_injective hprev⟩

/-- An entry of the log: its version 3 fields, the texts short enough for their length prefixes. -/
structure LogEntry where
  entryId : U64
  accountIndex : Option (List.Vector UInt8 64)
  keyPurpose : KeyPurpose
  algorithm : String
  publicKey : Bytes
  createdAt : U64
  prevEntryHash : Hash
  algorithm_lt : (utf8 algorithm).length < 2 ^ 32
  publicKey_lt : publicKey.length < 2 ^ 32

def LogEntry.bytes (e : LogEntry) : Bytes :=
  entryBytesV3 e.entryId e.accountIndex e.keyPurpose e.algorithm e.publicKey e.createdAt e.prevEntryHash

def LogEntry.hash (p : Primitives) (e : LogEntry) : Hash :=
  entryHashV3 p.sha256 e.entryId e.accountIndex e.keyPurpose e.algorithm e.publicKey e.createdAt
    e.prevEntryHash

lemma LogEntry.bytes_inj (e : LogEntry) {id : U64} {index : Option (List.Vector UInt8 64)}
    {algorithm : String} {key : Bytes} {created : U64} {prev : Hash}
    (h : e.bytes = entryBytesV3 id index purpose algorithm key created prev) :
    e.entryId = id ∧ e.accountIndex.getD (.replicate 64 0) = index.getD (.replicate 64 0) ∧
      e.keyPurpose = purpose ∧ e.publicKey = key ∧ e.createdAt = created := by
  obtain ⟨hid, hindex, hpurpose, -, hkey, hcreated, -⟩ := entryBytes_inj
    (by rw [List.Vector.toList_length, List.Vector.toList_length]) e.algorithm_lt e.publicKey_lt h
  exact ⟨hid, List.Vector.toList_injective hindex, hpurpose, hkey, hcreated⟩

/-! ### A served entry that hashes to an entry of the log -/

def purposeName : KeyPurpose → String
  | .epoch => "epoch"
  | .signing => "signing"
  | .kem => "kem"
  | .signingPq => "signing_pq"
  | .kemPq => "kem_pq"

lemma purposeOf_ok {name : String} (h : purposeOf name = .ok purpose) : name = purposeName purpose := by
  unfold purposeOf at h
  split at h <;> cases h <;> rfl

section

variable (p : Primitives)

def servedBytes (entry : Json) : Option Bytes :=
  ((leafFields p entry).bind fun fields => leafBytes p entry fields).toOption

variable {p}

lemma bindLeaf_ok {fp purpose : Option String} {leaf : Hash} (h : bindLeaf p entry fp purpose = .ok leaf) :
    ∃ fields bytes ownFp,
      leafFields p entry = .ok fields ∧ leafBytes p entry fields = .ok bytes ∧ p.sha256 bytes = leaf ∧
      fingerprintFor p fields.purpose fields.publicKey = .ok ownFp ∧
      entry.getStr "public_key_fingerprint" = some ownFp ∧
      (∀ asked, fp = some asked → eqIgnoreAsciiCase asked ownFp) ∧
      ∀ asked, purpose = some asked → asked = fields.purpose := by
  simp only [bindLeaf, except_bind_ok, ensure_ok, except_pure_ok] at h
  obtain ⟨fields, hfields, bytes, hbytes, -, -, ownFp, hown, -, hserved, -, hfp, -, hpurpose, rfl⟩ := h
  refine ⟨fields, bytes, ownFp, hfields, hbytes, rfl, hown, by simpa using hserved, ?_, ?_⟩
  · rintro asked rfl
    simpa using hfp
  · rintro asked rfl
    simpa using hpurpose

lemma leafFields_ok (h : leafFields p entry = .ok fields) :
    entry.getU64 "entry_version" = some fields.version ∧ entry.getU64 "entry_id" = some fields.entryId ∧
      entry.getStr "key_purpose" = some fields.purpose ∧ fields.purpose = purposeName fields.keyPurpose ∧
      entry.getU64 "created_at" = some fields.createdAt := by
  simp only [leafFields, except_bind_ok, okOr_ok, except_pure_ok] at h
  obtain ⟨version, hversion, id, hid, purpose, hpurpose, -, -, -, -, -, -, created, hcreated, -, -, -, -,
    keyPurpose, hkey, rfl⟩ := h
  exact ⟨hversion, hid, hpurpose, purposeOf_ok hkey, hcreated⟩

def LogEntry.fingerprint (p : Primitives) (e : LogEntry) : Option String :=
  (fingerprintFor p (purposeName e.keyPurpose) e.publicKey).toOption

/-- What a watch reads from a served entry is the entry of the log. -/
structure Serves (p : Primitives) (entry : Json) (e : LogEntry) : Prop where
  entryId : entry.getU64 "entry_id" = some e.entryId
  keyPurpose : entry.getStr "key_purpose" = some (purposeName e.keyPurpose)
  createdAt : entry.getU64 "created_at" = some e.createdAt
  fingerprint : ∃ fp, e.fingerprint p = some fp ∧ entry.getStr "public_key_fingerprint" = some fp
  index : ∃ i, leafIndex p entry = .ok i ∧ i.getD (.replicate 64 0) = e.accountIndex.getD (.replicate 64 0)

lemma servedBytes_of_ok {bytes : Bytes} (hfields : leafFields p entry = .ok fields)
    (hbytes : leafBytes p entry fields = .ok bytes) : servedBytes p entry = some bytes := by
  rw [servedBytes, hfields]
  exact congrArg Except.toOption hbytes

lemma serves_of_bindLeaf {e : LogEntry} (hversion : (entry.getU64 "entry_version").map Fin.val = some 3)
    (hbind : bindLeaf p entry none none = .ok (e.hash p))
    (hsha : ∀ bytes, servedBytes p entry = some bytes →
      p.sha256 bytes = p.sha256 e.bytes → bytes = e.bytes) : Serves p entry e := by
  obtain ⟨fields, bytes, fp, hfields, hbytes, hhash, hfp, hserved, -, -⟩ := bindLeaf_ok hbind
  have hsame := hsha bytes (servedBytes_of_ok hfields hbytes) hhash
  obtain ⟨hv, hid, hpurpose, hname, hcreated⟩ := leafFields_ok hfields
  rw [hv, Option.map_some, Option.some_inj] at hversion
  rw [leafBytes, if_neg (by omega), if_pos hversion] at hbytes
  simp only [except_bind_ok, except_pure_ok] at hbytes
  obtain ⟨index, hindex, rfl⟩ := hbytes
  obtain ⟨hid', hindex', hpurpose', hkey', hcreated'⟩ := e.bytes_inj hsame.symm
  refine ⟨hid'.symm ▸ hid, ?_, hcreated'.symm ▸ hcreated, ⟨fp, ?_, hserved⟩, index, hindex, hindex'.symm⟩
  · rw [hpurpose, hname, hpurpose']
  · rw [LogEntry.fingerprint, hpurpose', hkey', ← hname, hfp]
    rfl

end

/-! ### The scan -/

section

variable {p : Primitives} {index : List.Vector UInt8 64}

lemma toVector_eq_some {len : ℕ} {bytes : Bytes} {v : List.Vector UInt8 len}
    (h : toVector len bytes = some v) : bytes = v.toList := by
  unfold toVector at h
  split at h <;> cases h
  rfl

lemma leafIndex_ok {i : Option (List.Vector UInt8 64)} (h : leafIndex p entry = .ok i) :
    (i = none ∧ entry.getStr "account_index" = none) ∨
      ∃ v, i = some v ∧ (entry.getStr "account_index").bind p.hexDecode = some v.toList := by
  unfold leafIndex optionalField at h
  split at h
  next hget =>
    cases h
    exact .inl ⟨rfl, by rw [Json.getStr, hget]; rfl⟩
  next hget =>
    cases h
    exact .inl ⟨rfl, by rw [Json.getStr, hget]; rfl⟩
  next v hnull hget =>
    simp only [except_bind_ok, okOr_ok, except_pure_ok, Option.bind_eq_some_iff] at h
    obtain ⟨v, ⟨bytes, hbytes, hv⟩, rfl⟩ := h
    refine .inr ⟨v, rfl, ?_⟩
    rw [Json.getStr, hget, Option.bind_some, Option.bind_eq_some_iff.mpr hbytes, toVector_eq_some hv]

lemma Serves.isUnderIndex_iff {e : LogEntry} (h : Serves p entry e) (hne : index ≠ .replicate 64 0) :
    isUnderIndex p entry index ↔ e.accountIndex = some index := by
  obtain ⟨i, hi, hsame⟩ := h.index
  have hget : ∀ v : Option (List.Vector UInt8 64), v.getD (.replicate 64 0) = index ↔ v = some index := by
    intro v
    cases v with
    | none => simpa using hne.symm
    | some v => simp
  rw [← hget, ← hsame, hget, isUnderIndex, decide_eq_true_iff]
  obtain ⟨rfl, hnone⟩ | ⟨v, rfl, hv⟩ := leafIndex_ok hi
  · rw [hnone]
    simp
  · rw [hv, Option.some_inj, Option.some_inj, List.Vector.toList_injective.eq_iff]

lemma scanEntries_ok {epoch : U16} {position : ℕ} {entries : List Json} {mine : List Json}
    (h : scanEntries p epoch index position entries = .ok (leaves, mine)) :
    List.Forall₂ (fun entry leaf => (entry.getU64 "entry_version").map Fin.val = some 3 ∧
      bindLeaf p entry none none = .ok leaf) entries leaves ∧
      mine = entries.filter fun entry => isUnderIndex p entry index := by
  induction entries generalizing position leaves mine with
  | nil =>
    cases h
    exact ⟨.nil, rfl⟩
  | cons entry rest ih =>
    simp only [scanEntries, except_bind_ok, ensure_ok, except_pure_ok] at h
    obtain ⟨-, ⟨-, hversion⟩, leaf, hleaf, ⟨leaves', mine'⟩, hrest, heq⟩ := h
    cases heq
    obtain ⟨hleaves, rfl⟩ := ih hrest
    refine ⟨.cons ⟨hversion, hleaf⟩ hleaves, ?_⟩
    rw [List.filter_cons]

end

section

variable (p : Primitives)

/-- What is hashed in a watch: the entries of the log and those served, and the nodes over each. -/
def watchInputs (log : List LogEntry) (scanned : List Json) : List Bytes :=
  log.map LogEntry.bytes ++ mthInputs p.sha256 (log.map (LogEntry.hash p)) ++
    (scanned.filterMap (servedBytes p) ++
      mthInputs p.sha256 ((scanned.filterMap (servedBytes p)).map p.sha256))

variable {p}

lemma leaves_eq (h : List.Forall₂ (fun entry leaf =>
      (entry.getU64 "entry_version").map Fin.val = some 3 ∧ bindLeaf p entry none none = .ok leaf)
      scanned leaves) : leaves = (scanned.filterMap (servedBytes p)).map p.sha256 := by
  induction h with
  | nil => rfl
  | cons hhead _ ih =>
    obtain ⟨fields, bytes, -, hfields, hbytes, rfl, -⟩ := bindLeaf_ok hhead.2
    rw [List.filterMap_cons_some (servedBytes_of_ok hfields hbytes), List.map_cons, ← ih]

lemma serves_of_root {log : List LogEntry} (hsha : CollisionFree p.sha256 (watchInputs p log scanned))
    (hlen : scanned.length = log.length)
    (hroot : merkleRoot p.sha256 leaves = merkleRoot p.sha256 (log.map (LogEntry.hash p)))
    (h : List.Forall₂ (fun entry leaf => (entry.getU64 "entry_version").map Fin.val = some 3 ∧
      bindLeaf p entry none none = .ok leaf) scanned leaves) : List.Forall₂ (Serves p) scanned log := by
  have hleaves : leaves = log.map (LogEntry.hash p) := by
    have hlen' : leaves.length = (log.map (LogEntry.hash p)).length := by
      rw [← h.length_eq, List.length_map, hlen]
    by_cases hne : leaves = []
    · subst hne
      exact (List.length_eq_zero_iff.mp hlen'.symm).symm
    · have hne' : log.map (LogEntry.hash p) ≠ [] := by
        rw [← List.length_pos_iff, ← hlen', List.length_pos_iff]
        exact hne
      rw [merkleRoot, merkleRoot, if_neg (by simpa using hne), if_neg (by simpa using hne')] at hroot
      refine mth_injective (hsha.mono ?_) hroot
      rw [leaves_eq h]
      intro x hx
      simp only [watchInputs, List.mem_append] at hx ⊢
      tauto
  subst hleaves
  have hsub : ∀ entry ∈ scanned, ∀ e ∈ log, ∀ bytes, servedBytes p entry = some bytes →
      p.sha256 bytes = p.sha256 e.bytes → bytes = e.bytes := by
    intro entry hentry e he bytes hbytes
    apply hsha
    · simp only [watchInputs, List.mem_append, List.mem_filterMap]
      exact .inr (.inl ⟨entry, hentry, hbytes⟩)
    · simp only [watchInputs, List.mem_append, List.mem_map]
      exact .inl (.inl ⟨e, he, rfl⟩)
  rw [List.forall₂_map_right_iff] at h
  clear hroot hsha hlen
  induction h with
  | nil => exact .nil
  | cons hhead _ ih =>
    refine .cons (serves_of_bindLeaf hhead.1 hhead.2 (hsub _ (by simp) _ (by simp))) (ih ?_)
    intro entry hentry e he
    exact hsub entry (List.mem_cons_of_mem _ hentry) e (List.mem_cons_of_mem _ he)

end

/-! ### What the watch reports -/

section

variable (p : Primitives)

/-- The entry is of the purpose and the fingerprint. -/
def LogEntry.isKey (e : LogEntry) (q : String × String) : Bool :=
  purposeName e.keyPurpose = q.1 && (e.fingerprint p).any fun fp => eqIgnoreAsciiCase fp q.2

/-- What is reported of an entry. -/
def LogEntry.report (held : List (String × String)) (e : LogEntry) : Json := .object
  [("entry_id", .number (.posInt e.entryId)), ("key_purpose", .string (purposeName e.keyPurpose)),
    ("public_key_fingerprint", ((e.fingerprint p).map Json.string).getD .null),
    ("created_at", .number (.posInt e.createdAt)), ("held", .bool (held.any (e.isKey p)))]

/-- The entries of one account. -/
def underIndex (log : List LogEntry) (index : List.Vector UInt8 64) : List LogEntry :=
  log.filter fun e => e.accountIndex = some index

variable {p}

lemma get_of_getU64 {key : String} {n : U64} (h : entry.getU64 key = some n) :
    entry.get key = some (.number (.posInt n)) := by
  obtain ⟨v, hv, hn⟩ := Option.bind_eq_some_iff.mp h
  rw [hv]
  unfold Json.asU64 at hn
  split at hn <;> cases hn
  rfl

lemma get_of_getStr {key s : String} (h : entry.getStr key = some s) :
    entry.get key = some (.string s) := by
  obtain ⟨v, hv, hs⟩ := Option.bind_eq_some_iff.mp h
  rw [hv]
  unfold Json.asStr at hs
  split at hs <;> cases hs
  rfl

section

variable {entry : Json} {e : LogEntry}

lemma Serves.sameKey_eq (h : Serves p entry e) (q : String × String) :
    sameKey entry q.1 q.2 = e.isKey p q := by
  obtain ⟨fp, hown, hserved⟩ := h.fingerprint
  rw [sameKey, LogEntry.isKey, h.keyPurpose, hserved, hown]
  simp

lemma Serves.isHeld_eq (h : Serves p entry e) (held : List (String × String)) :
    isHeld held entry = held.any (e.isKey p) := by
  rw [isHeld]
  congr 1
  funext q
  exact h.sameKey_eq q

lemma Serves.reportEntry_eq (h : Serves p entry e) (held : List (String × String)) :
    reportEntry held entry = e.report p held := by
  obtain ⟨fp, hown, hserved⟩ := h.fingerprint
  rw [reportEntry, LogEntry.report, h.isHeld_eq, get_of_getU64 h.entryId, get_of_getStr h.keyPurpose,
    get_of_getU64 h.createdAt, hserved, hown]
  rfl

end

lemma map_eq_of_forall₂ {α β γ : Type} {R : α → β → Prop} {xs : List α} {ys : List β} {f : α → γ}
    {g : β → γ} (h : List.Forall₂ R xs ys) (hfg : ∀ x y, R x y → f x = g y) : xs.map f = ys.map g := by
  induction h with
  | nil => rfl
  | cons hhead _ ih => rw [List.map_cons, List.map_cons, hfg _ _ hhead, ih]

lemma any_eq_of_forall₂ {α β : Type} {R : α → β → Prop} {xs : List α} {ys : List β} {f : α → Bool}
    {g : β → Bool} (h : List.Forall₂ R xs ys) (hfg : ∀ x y, R x y → f x = g y) : xs.any f = ys.any g := by
  have hmap := congrArg (List.any · id) (map_eq_of_forall₂ h hfg)
  simpa [List.any_map] using hmap

lemma forall_iff_of_forall₂ {α β : Type} {R : α → β → Prop} {xs : List α} {ys : List β} {P : α → Prop}
    {Q : β → Prop} (h : List.Forall₂ R xs ys) (hPQ : ∀ x y, R x y → (P x ↔ Q y)) :
    (∀ x ∈ xs, P x) ↔ ∀ y ∈ ys, Q y := by
  induction h with
  | nil => simp
  | cons hhead _ ih => rw [List.forall_mem_cons, List.forall_mem_cons, hPQ _ _ hhead, ih]

lemma verdict_clean_iff (foreign unlogged : List String) :
    (if !foreign.isEmpty then WatchVerdict.foreignKey
      else if !unlogged.isEmpty then .notYetPublished else .clean) = .clean ↔
      foreign = [] ∧ unlogged = [] := by
  cases foreign <;> cases unlogged <;> simp

/-! ### A log of two entries, one of them under the index -/

def watchIndex : List.Vector UInt8 64 := .replicate 64 9

def logEntry (id : U64) (index : List.Vector UInt8 64) (key : UInt8) (prev : Hash) : LogEntry :=
  ⟨id, some index, .kemPq, "ML-KEM-1024", [key], 5, prev, by decide, by simp⟩

def watchHash : Hash := hashOfNat 1

def watchRoot : Hash := hashOfNat 3

def watchKeyHash : Hash := hashOfNat 6

def watchLog : LogEntry := logEntry 1 watchIndex 7 (.replicate 32 0)

def otherLog : LogEntry := logEntry 2 (.replicate 64 8) 8 watchHash

def watchTable : List Bytes :=
  [watchLog.bytes, otherLog.bytes, leafInput watchHash, leafInput (hashOfNat 2),
    internalInput watchRoot (hashOfNat 4), [7], [8]]

/-- A text is hashed to its place in the table. -/
def watchSha256 (bytes : Bytes) : Hash := hashOfNat (watchTable.idxOf bytes + 1)

def watchPrimitives : Primitives :=
  { cutPrimitives with
    base64UrlDecode := fun s => if s = "Bw" then some [7] else if s = "CA" then some [8] else none
    sha256 := watchSha256 }

lemma watchSha256_eq {n : ℕ} {bytes : Bytes} (h : watchTable[n]? = some bytes) :
    watchSha256 bytes = hashOfNat (n + 1) := by
  have hnodup : watchTable.Nodup := by decide
  obtain ⟨hn, rfl⟩ := List.getElem?_eq_some_iff.mp h
  rw [watchSha256, hnodup.idxOf_getElem]

lemma watchSha256_log : watchSha256 watchLog.bytes = watchHash := watchSha256_eq (n := 0) rfl

lemma watchSha256_other : watchSha256 otherLog.bytes = hashOfNat 2 := watchSha256_eq (n := 1) rfl

lemma watchSha256_leaf : watchSha256 (leafInput watchHash) = watchRoot := watchSha256_eq (n := 2) rfl

lemma watchSha256_otherLeaf : watchSha256 (leafInput (hashOfNat 2)) = hashOfNat 4 := watchSha256_eq (n := 3) rfl

lemma watchSha256_node : watchSha256 (internalInput watchRoot (hashOfNat 4)) = hashOfNat 5 :=
  watchSha256_eq (n := 4) rfl

lemma watchSha256_key : watchSha256 [7] = watchKeyHash := watchSha256_eq (n := 5) rfl

lemma watchTable_collisionFree : CollisionFree watchSha256 watchTable := by
  have hplaces : ∀ m < 7, ∀ n < 7, hashOfNat (m + 1) = hashOfNat (n + 1) → m = n := by decide
  intro x hx y hy h
  obtain ⟨m, hm, rfl⟩ := List.mem_iff_getElem.mp hx
  obtain ⟨n, hn, rfl⟩ := List.mem_iff_getElem.mp hy
  rw [watchSha256_eq (List.getElem?_eq_getElem hm), watchSha256_eq (List.getElem?_eq_getElem hn)] at h
  obtain rfl := hplaces m hm n hn h
  rfl

def servedEntry (id : U64) (key fp prev hash index : String) (rest : List (String × Json)) : Json := .object (
  [("entry_version", .number (.posInt 3)), ("entry_id", .number (.posInt id)),
    ("key_purpose", .string "kem_pq"),
    ("algorithm", .string "ML-KEM-1024"), ("public_key", .string key), ("public_key_fingerprint", .string fp),
    ("created_at", .number (.posInt 5)), ("prev_entry_hash", .string prev), ("entry_hash", .string hash),
    ("account_index", .string index)] ++ rest)

lemma anchorHex32_of_hexDecode {s : String} {h : Hash} (hs : p.hexDecode s = some h.toList) (what : String) :
    anchorHex32 p (some (.string s)) what = .ok h := by
  simp [anchorHex32, Json.asStr, okOr, hs, toVector]

section

variable {id : U64} {text fp prev hash index : String} {rest : List (String × Json)} {key : UInt8} {v w : Hash}
  {i : List.Vector UInt8 64}

lemma servedEntry_leafFields (hkey : p.base64UrlDecode text = some [key])
    (hprev : p.hexDecode prev = some v.toList) (hhash : p.hexDecode hash = some w.toList) :
    leafFields p (servedEntry id text fp prev hash index rest) =
      .ok ⟨3, id, "kem_pq", "ML-KEM-1024", [key], 5, v, w, .kemPq⟩ := by
  have hprev' : anchorHex32 p ((servedEntry id text fp prev hash index rest).get "prev_entry_hash")
      "prev_entry_hash" = .ok v := anchorHex32_of_hexDecode hprev _
  have hhash' : anchorHex32 p ((servedEntry id text fp prev hash index rest).get "entry_hash")
      "entry_hash" = .ok w :=
    anchorHex32_of_hexDecode hhash _
  simp only [leafFields, except_bind_ok, okOr_ok, except_pure_ok, hprev', hhash']
  exact ⟨3, rfl, id, rfl, "kem_pq", rfl, "ML-KEM-1024", rfl, text, rfl, [key], hkey, 5, rfl, v, rfl, w, rfl,
    .kemPq, rfl, rfl⟩

lemma servedEntry_leafBytes (hindex : p.hexDecode index = some i.toList) :
    leafBytes p (servedEntry id text fp prev hash index rest)
      ⟨3, id, "kem_pq", "ML-KEM-1024", [key], 5, v, w, .kemPq⟩ = .ok (logEntry id i key v).bytes := by
  have hget : (servedEntry id text fp prev hash index rest).get "account_index" = some (.string index) := rfl
  have hread : ((Json.string index).asStr.bind p.hexDecode).bind (toVector 64) = some i := by
    simp [Json.asStr, hindex, toVector]
  simp only [leafBytes, leafIndex, hget, optionalField, hread]
  rfl

lemma servedEntry_bindLeaf (hkey : p.base64UrlDecode text = some [key])
    (hprev : p.hexDecode prev = some v.toList) (hhash : p.hexDecode hash = some w.toList)
    (hindex : p.hexDecode index = some i.toList) (hfp : p.fingerprintRaw [key] = fp)
    (hw : p.sha256 (logEntry id i key v).bytes = w) {asked purpose : Option String}
    (hasked : asked.all fun asked => eqIgnoreAsciiCase asked fp)
    (hpurpose : purpose.all fun asked => asked = "kem_pq") :
    bindLeaf p (servedEntry id text fp prev hash index rest) asked purpose = .ok w := by
  have hserved : (servedEntry id text fp prev hash index rest).getStr "public_key_fingerprint" = some fp := rfl
  have hown : fingerprintFor p "kem_pq" [key] = .ok fp := congrArg Except.ok hfp
  simp only [bindLeaf, servedEntry_leafFields hkey hprev hhash, except_bind_ok, ensure_ok,
    except_pure_ok, Except.ok.injEq, exists_eq_left', servedEntry_leafBytes hindex, hw, hown, hserved]
  exact ⟨(), trivial, (), trivial, (), hasked, (), hpurpose, trivial⟩

end

def watchEntry (rest : List (String × Json)) : Json :=
  servedEntry 1 "Bw" (hexEncode watchKeyHash.toList) (hexEncode (List.Vector.replicate 32 (0 : UInt8)).toList)
    (hexEncode watchHash.toList) (hexEncode watchIndex.toList) rest

def otherEntry : Json :=
  servedEntry 2 "CA" (hexEncode (hashOfNat 7).toList) (hexEncode watchHash.toList)
    (hexEncode (hashOfNat 2).toList) (hexEncode (List.Vector.replicate 64 (8 : UInt8)).toList) []

def watchPublished : RootLine := ⟨2, 2, hashOfNat 5, false⟩

def watchHeld : List (String × String) := [("kem_pq", hexEncode watchKeyHash.toList)]

lemma watch_hexDecode (bytes : Bytes) : watchPrimitives.hexDecode (hexEncode bytes) = some bytes :=
  decodeHex_hexEncode bytes

lemma watch_fingerprintRaw {n : ℕ} {key : Bytes} (h : watchTable[n]? = some key) :
    watchPrimitives.fingerprintRaw key = hexEncode (hashOfNat (n + 1)).toList := by
  rw [Primitives.fingerprintRaw, ← watchSha256_eq h]
  rfl

lemma watchEntry_bindLeaf (rest : List (String × Json)) {asked purpose : Option String}
    (hasked : asked.all fun asked => eqIgnoreAsciiCase asked (hexEncode watchKeyHash.toList))
    (hpurpose : purpose.all fun asked => asked = "kem_pq") :
    bindLeaf watchPrimitives (watchEntry rest) asked purpose = .ok watchHash :=
  servedEntry_bindLeaf (v := .replicate 32 0) (w := watchHash) (i := watchIndex)
    (show watchPrimitives.base64UrlDecode "Bw" = some [7] from rfl) (watch_hexDecode _) (watch_hexDecode _)
    (watch_hexDecode _) (watch_fingerprintRaw (n := 5) rfl) watchSha256_log hasked hpurpose

lemma otherEntry_bindLeaf : bindLeaf watchPrimitives otherEntry none none = .ok (hashOfNat 2) :=
  servedEntry_bindLeaf (v := watchHash) (i := .replicate 64 8)
    (show watchPrimitives.base64UrlDecode "CA" = some [8] from rfl) (watch_hexDecode _) (watch_hexDecode _)
    (watch_hexDecode _) (watch_fingerprintRaw (n := 6) rfl) watchSha256_other rfl rfl

lemma watchEntry_servedBytes (rest : List (String × Json)) :
    servedBytes watchPrimitives (watchEntry rest) = some watchLog.bytes :=
  servedBytes_of_ok (servedEntry_leafFields rfl (watch_hexDecode _) (watch_hexDecode watchHash.toList))
    (servedEntry_leafBytes (watch_hexDecode _))

lemma otherEntry_servedBytes : servedBytes watchPrimitives otherEntry = some otherLog.bytes :=
  servedBytes_of_ok (servedEntry_leafFields rfl (watch_hexDecode _) (watch_hexDecode (hashOfNat 2).toList))
    (servedEntry_leafBytes (watch_hexDecode _))

lemma watchLog_hashes : [watchLog, otherLog].map (LogEntry.hash watchPrimitives) = [watchHash, hashOfNat 2] :=
  congrArg₂ (fun x y => [x, y]) watchSha256_log watchSha256_other

lemma watch_tree : (mth watchPrimitives.sha256 [watchHash, hashOfNat 2],
    mthInputs watchPrimitives.sha256 [watchHash, hashOfNat 2]) =
      (hashOfNat 5, [internalInput watchRoot (hashOfNat 4), leafInput watchHash, leafInput (hashOfNat 2)]) := by
  have hleft : mth watchSha256 [watchHash] = watchRoot := (mth_singleton _ _).trans watchSha256_leaf
  have hright : mth watchSha256 [hashOfNat 2] = hashOfNat 4 := (mth_singleton _ _).trans watchSha256_otherLeaf
  refine (mthInputs_splitsAt watchSha256 0 _ (by decide) (by decide)).trans ?_
  change (internalHash watchSha256 (mth _ [watchHash]) (mth _ [hashOfNat 2]), internalInput (mth _ [watchHash])
    (mth _ [hashOfNat 2]) :: (mthInputs _ [watchHash] ++ mthInputs _ [hashOfNat 2])) = _
  rw [hleft, hright, internalHash, watchSha256_node, mthInputs, mthInputs]
  rfl

lemma watchInputs_collisionFree : CollisionFree watchPrimitives.sha256
    (watchInputs watchPrimitives [watchLog, otherLog] [watchEntry [], otherEntry]) := by
  have hserved : [watchEntry [], otherEntry].filterMap (servedBytes watchPrimitives) =
      [watchLog.bytes, otherLog.bytes] := by
    rw [List.filterMap_cons_some (watchEntry_servedBytes []), List.filterMap_cons_some otherEntry_servedBytes,
      List.filterMap_nil]
  have hhashed : [watchLog.bytes, otherLog.bytes].map watchPrimitives.sha256 = [watchHash, hashOfNat 2] :=
    watchLog_hashes
  refine watchTable_collisionFree.mono ?_
  rw [watchInputs, hserved, watchLog_hashes, hhashed, (Prod.mk.inj watch_tree).2]
  simp [watchTable]

lemma watch_root : merkleRoot watchPrimitives.sha256 [watchHash, hashOfNat 2] = hashOfNat 5 := by
  rw [merkleRoot, if_neg (by simp)]
  exact (Prod.mk.inj watch_tree).1

lemma watch_ok :
    ∃ w, ownerWatch watchPrimitives [watchEntry [], otherEntry] 2 watchPublished watchIndex
      watchHeld = .ok w := by
  have hscan : scanEntries watchPrimitives 2 watchIndex 1 [watchEntry [], otherEntry] =
      .ok ([watchHash, hashOfNat 2], [watchEntry []]) := by
    have hunder : isUnderIndex watchPrimitives (watchEntry []) watchIndex :=
      decide_eq_true (watch_hexDecode watchIndex.toList)
    have hother : ¬ isUnderIndex watchPrimitives otherEntry watchIndex := by
      intro h
      have hsame := (watch_hexDecode _).symm.trans (of_decide_eq_true h)
      exact absurd (Option.some_inj.mp hsame) (by decide)
    simp only [scanEntries, except_bind_ok, ensure_ok, except_pure_ok]
    exact ⟨(), ⟨rfl, rfl⟩, watchHash, watchEntry_bindLeaf [] rfl rfl, _,
      ⟨(), ⟨rfl, rfl⟩, _, otherEntry_bindLeaf, ([], []), rfl, rfl⟩, by rw [if_pos hunder, if_neg hother]⟩
  simp only [ownerWatch, except_bind_ok, ensure_ok, except_pure_ok]
  exact ⟨_, (), rfl, _, hscan, (), watch_root, rfl⟩

lemma watchLog_held : watchLog.isKey watchPrimitives ("kem_pq", hexEncode watchKeyHash.toList) := by
  have hfp : watchLog.fingerprint watchPrimitives = some (hexEncode watchKeyHash.toList) :=
    congrArg (fun h : Hash => some (hexEncode h.toList)) watchSha256_key
  rw [LogEntry.isKey, hfp, Option.any_some, eqIgnoreAsciiCase, decide_eq_true rfl, Bool.and_true]
  rfl

lemma watchLog_under : underIndex [watchLog, otherLog] watchIndex = [watchLog] := by
  rw [underIndex, List.filter_cons_of_pos (by decide), List.filter_cons_of_neg (by decide), List.filter_nil]

/-! ### What a watch sees -/

/-- A watch over the published prefix of an epoch considers exactly the entries of the log under the
index, and its verdict is about them, whatever the server serves. -/
theorem ownerWatch_sees_log (log : List LogEntry) (published : RootLine)
    (hsize : published.logSize.val = log.length)
    (hroot : published.merkleRoot = merkleRoot p.sha256 (log.map (LogEntry.hash p)))
    (scanned : List Json) (hsha : CollisionFree p.sha256 (watchInputs p log scanned)) (epoch : U16)
    (index : List.Vector UInt8 64) (hindex : index ≠ .replicate 64 0) (held : List (String × String))
    (w : OwnerWatch) (h : ownerWatch p scanned epoch published index held = .ok w) :
    w.entries = (underIndex log index).map (LogEntry.report p held) ∧
      (w.foreign = [] ↔ ∀ e ∈ underIndex log index, ∃ q ∈ held, e.isKey p q) ∧
      w.unlogged = (held.filter fun q => !(underIndex log index).any fun e => e.isKey p q).map Prod.snd ∧
      (w.verdict = .clean ↔ w.foreign = [] ∧ w.unlogged = []) := by
  simp only [ownerWatch, except_bind_ok, ensure_ok, except_pure_ok] at h
  obtain ⟨-, hlen, ⟨leaves, mine⟩, hscan, -, hmerkle, rfl⟩ := h
  obtain ⟨hleaves, rfl⟩ := scanEntries_ok hscan
  have hserves := serves_of_root hsha (hlen.trans hsize) (hmerkle.trans hroot) hleaves
  have hunder : List.Forall₂ (Serves p) (scanned.filter fun entry => isUnderIndex p entry index)
      (underIndex log index) := by
    refine List.rel_filter ?_ hserves
    intro entry e he
    simpa using he.isUnderIndex_iff hindex
  refine ⟨map_eq_of_forall₂ hunder fun _ _ he => he.reportEntry_eq held, ?_, ?_, ?_⟩
  · simp only [List.map_eq_nil_iff, List.filter_eq_nil_iff]
    apply forall_iff_of_forall₂ hunder
    intro entry e he
    rw [he.isHeld_eq]
    simp
  · have hsame := fun q => any_eq_of_forall₂ hunder fun _ _ he => he.sameKey_eq q
    simp only [hsame]
  · exact verdict_clean_iff _ _

theorem ownerWatch_sees_log_clean : ∃ w,
    ownerWatch watchPrimitives [watchEntry [], otherEntry] 2 watchPublished watchIndex watchHeld = .ok w ∧
      w.entries = [watchLog.report watchPrimitives watchHeld] ∧ w.verdict = .clean := by
  obtain ⟨w, hw⟩ := watch_ok
  have hroot : watchPublished.merkleRoot =
      merkleRoot watchPrimitives.sha256 ([watchLog, otherLog].map (LogEntry.hash watchPrimitives)) := by
    rw [watchLog_hashes, watch_root]
    rfl
  have hsees := ownerWatch_sees_log [watchLog, otherLog] watchPublished rfl hroot [watchEntry [], otherEntry]
    watchInputs_collisionFree 2 watchIndex (by decide) watchHeld w hw
  rw [watchLog_under] at hsees
  obtain ⟨hentries, hforeign, hunlogged, hverdict⟩ := hsees
  refine ⟨w, hw, hentries, hverdict.mpr ⟨hforeign.mpr ?_, ?_⟩⟩
  · rw [List.forall_mem_singleton]
    exact ⟨_, List.mem_singleton_self _, watchLog_held⟩
  · rw [hunlogged, watchHeld]
    simp [watchLog_held]

end

end SignetDrive.Proofs
