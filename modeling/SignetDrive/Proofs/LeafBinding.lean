import SignetDrive.Proofs.OwnerWatch

/-!
# A leaf stands for one entry

`bind_leaf` hashes a served entry under the format that the entry itself names. The first byte of
format 1 is zero as long as the entries are fewer than `2 ^ 56`.
-/

namespace SignetDrive.Proofs
open Client

@[ext] structure LeafEntry where
  version : U64
  entryId : U64
  account : Bytes
  keyPurpose : String
  algorithm : String
  publicKey : Bytes
  createdAt : U64
  prevEntryHash : Hash

section

variable (p : Primitives)

/-- The bytes of a field that may be absent or null, which then stands for zeros. -/
def readAccount {len : ℕ} (v : Option Json) (read : Json → Option (List.Vector UInt8 len)) : Option Bytes :=
  match v with
  | none => some (List.replicate len 0)
  | some .null => some (List.replicate len 0)
  | some v => (read v).map List.Vector.toList

def servedAccount (version : U64) (entry : Json) : Option Bytes :=
  if version.val = 2 then readAccount (entry.get "account_id") fun v => v.asStr.bind p.uuidParse
  else readAccount (entry.get "account_index") fun v => (v.asStr.bind p.hexDecode).bind (toVector 64)

/-- The fields that a served entry is hashed from. -/
def readEntry (entry : Json) : Option LeafEntry := do
  let version ← entry.getU64 "entry_version"
  let entryId ← entry.getU64 "entry_id"
  let account ← servedAccount p version entry
  let keyPurpose ← entry.getStr "key_purpose"
  let algorithm ← entry.getStr "algorithm"
  let publicKey ← (entry.getStr "public_key").bind p.base64UrlDecode
  let createdAt ← entry.getU64 "created_at"
  let prev ← ((entry.getStr "prev_entry_hash").bind p.hexDecode).bind (toVector 32)
  return ⟨version, entryId, account, keyPurpose, algorithm, publicKey, createdAt, prev⟩

end

/-- The bytes that are hashed. -/
def LeafEntry.bytes (e : LeafEntry) (purpose : KeyPurpose) : Bytes :=
  entryBytes (UInt8.ofNat e.version.val) e.entryId e.account purpose e.algorithm e.publicKey e.createdAt
    e.prevEntryHash

def LeafEntry.Known (e : LeafEntry) : Prop :=
  e.version.val = 2 ∧ e.account.length = 16 ∨ e.version.val = 3 ∧ e.account.length = 64

section

variable {p : Primitives}

lemma readAccount_of_optionalField {len : ℕ} {v : Option Json} {read : Json → Option (List.Vector UInt8 len)}
    {err : CliError} {account : Option (List.Vector UInt8 len)} (h : optionalField v read err = .ok account) :
    readAccount v read = some (account.getD (.replicate len 0)).toList := by
  unfold optionalField at h
  split at h
  · cases h
    rfl
  · cases h
    rfl
  next v hnull =>
    simp only [except_bind_ok, okOr_ok, except_pure_ok] at h
    obtain ⟨value, hvalue, rfl⟩ := h
    rw [readAccount, hvalue, Option.map_some, Option.getD_some]
    exact hnull

lemma anchorHex32_ok {v : Option Json} {what : String} {hash : Hash} (h : anchorHex32 p v what = .ok hash) :
    ((v.bind Json.asStr).bind p.hexDecode).bind (toVector 32) = some hash := by
  simp only [anchorHex32, except_bind_ok, okOr_ok] at h
  obtain ⟨s, hs, hhash⟩ := h
  rw [hs, Option.bind_some, hhash]

lemma readEntry_of_leafBytes {entry : Json} {fields : LeafFields} {bytes : Bytes}
    (hfields : leafFields p entry = .ok fields) (hbytes : leafBytes p entry fields = .ok bytes) :
    ∃ e, readEntry p entry = some e ∧ e.Known ∧ e.keyPurpose = purposeName fields.keyPurpose ∧
      e.keyPurpose = fields.purpose ∧ e.publicKey = fields.publicKey ∧ bytes = e.bytes fields.keyPurpose := by
  simp only [leafFields, except_bind_ok, okOr_ok, except_pure_ok, except_mapError_ok] at hfields
  obtain ⟨version, hversion, id, hid, purpose, hpurpose, algorithm, halg, keyB64, hkeyB64, key, hkey, created,
    hcreated, prev, hprev, served, -, keyPurpose, hkeyPurpose, rfl⟩ := hfields
  have hprev := anchorHex32_ok hprev
  have hread : ∀ account, servedAccount p version entry = some account →
      readEntry p entry = some ⟨version, id, account, purpose, algorithm, key, created, prev⟩ := by
    intro account haccount
    simp only [readEntry, hversion, hid, hpurpose, halg, hkeyB64, hkey, hcreated, Option.bind_eq_bind,
      Option.bind_some, haccount]
    rw [Json.getStr, hprev]
    rfl
  unfold leafBytes at hbytes
  split at hbytes
  next htwo =>
    simp only [except_bind_ok, except_pure_ok] at hbytes
    obtain ⟨account, haccount, rfl⟩ := hbytes
    refine ⟨_, hread _ ((if_pos htwo).trans (readAccount_of_optionalField haccount)),
      .inl ⟨htwo, List.Vector.toList_length _⟩, purposeOf_ok hkeyPurpose, rfl, rfl, ?_⟩
    rw [LeafEntry.bytes, htwo]
    rfl
  next htwo =>
    split at hbytes
    next hthree =>
      simp only [except_bind_ok, except_pure_ok] at hbytes
      obtain ⟨index, hindex, rfl⟩ := hbytes
      refine ⟨_, hread _ ((if_neg htwo).trans (readAccount_of_optionalField hindex)),
        .inr ⟨hthree, List.Vector.toList_length _⟩, purposeOf_ok hkeyPurpose, rfl, rfl, ?_⟩
      rw [LeafEntry.bytes, hthree]
      rfl
    next => cases hbytes

lemma readEntry_texts {entry : Json} {e : LeafEntry} (h : readEntry p entry = some e) :
    entry.getStr "algorithm" = some e.algorithm ∧
      (entry.getStr "public_key").bind p.base64UrlDecode = some e.publicKey := by
  simp only [readEntry, Option.bind_eq_bind, Option.bind_eq_some_iff] at h
  obtain ⟨_, -, _, -, _, -, _, -, algorithm, halg, key, hkey, _, -, _, -, heq⟩ := h
  rw [← Option.some_inj.mp heq]
  exact ⟨halg, Option.bind_eq_some_iff.mpr hkey⟩

lemma LeafEntry.version_eq {e e' : LeafEntry} (he : e.Known) (he' : e'.Known) {purpose purpose' : KeyPurpose}
    (h : e.bytes purpose = e'.bytes purpose') :
    e.version = e'.version ∧ e.account.length = e'.account.length := by
  have hhead : UInt8.ofNat e.version.val = UInt8.ofNat e'.version.val := (List.cons.inj h).1
  obtain ⟨hv, hlen⟩ | ⟨hv, hlen⟩ := he
  · obtain ⟨hv', hlen'⟩ | ⟨hv', -⟩ := he'
    · exact ⟨Fin.ext (hv.trans hv'.symm), hlen.trans hlen'.symm⟩
    · rw [hv, hv'] at hhead
      exact absurd hhead (by decide)
  · obtain ⟨hv', -⟩ | ⟨hv', hlen'⟩ := he'
    · rw [hv, hv'] at hhead
      exact absurd hhead (by decide)
    · exact ⟨Fin.ext (hv.trans hv'.symm), hlen.trans hlen'.symm⟩

lemma LeafEntry.bytes_inj {e e' : LeafEntry} (he : e.Known) (he' : e'.Known) {purpose purpose' : KeyPurpose}
    (hpurpose : e.keyPurpose = purposeName purpose) (hpurpose' : e'.keyPurpose = purposeName purpose')
    (halg : (utf8 e.algorithm).length < 2 ^ 32) (hkey : e.publicKey.length < 2 ^ 32)
    (h : e.bytes purpose = e'.bytes purpose') : e = e' := by
  obtain ⟨hversion, hlen⟩ := LeafEntry.version_eq he he' h
  obtain ⟨hid, haccount, hsame, halgorithm, hpublic, hcreated, hprev⟩ := entryBytes_inj hlen halg hkey h
  have hname : e.keyPurpose = e'.keyPurpose := by rw [hpurpose, hpurpose', hsame]
  exact LeafEntry.ext hversion hid haccount hname halgorithm hpublic hcreated hprev

lemma LeafEntry.bytes_ne_v1 {e : LeafEntry} (he : e.Known) (purpose : KeyPurpose) {id : U64}
    (hid : id.val < 2 ^ 56) (account : List.Vector UInt8 16) (purpose' : KeyPurpose) (algorithm : String)
    (key : Bytes) (created : U64) (prev : Hash) :
    e.bytes purpose ≠ entryBytesV1 id account purpose' algorithm key created prev := by
  intro h
  have hzero : id.val / 256 ^ 7 = 0 := Nat.div_eq_of_lt (by omega)
  rw [entryBytesV1, toBeBytes_succ, hzero] at h
  have hhead : UInt8.ofNat e.version.val = 0 := (List.cons.inj h).1
  obtain ⟨hv, -⟩ | ⟨hv, -⟩ := he
  all_goals
    rw [hv] at hhead
    exact absurd hhead (by decide)

lemma eqIgnoreAsciiCase_trans {a b own : String} (ha : eqIgnoreAsciiCase a own) (hb : eqIgnoreAsciiCase b own) :
    eqIgnoreAsciiCase a b := by
  rw [eqIgnoreAsciiCase, decide_eq_true_iff] at ha hb ⊢
  rw [ha, hb]

/-- What is hashed when two served entries are bound, and an entry of format 1 beside them. -/
def leafInputs (p : Primitives) (entry₁ entry₂ : Json) (older : Bytes) : List Bytes :=
  (servedBytes p entry₁).toList ++ (servedBytes p entry₂).toList ++ [older]

/-- Two served entries bound to one leaf are one entry, the keys asked about are one key, and the
leaf is that of no entry of format 1. -/
theorem bindLeaf_stands_for_one_entry (p : Primitives) (entry₁ entry₂ : Json)
    (fp₁ fp₂ purpose₁ purpose₂ : Option String) (leaf : Hash)
    (h₁ : bindLeaf p entry₁ fp₁ purpose₁ = .ok leaf) (h₂ : bindLeaf p entry₂ fp₂ purpose₂ = .ok leaf)
    (hlength : ∀ e, readEntry p entry₁ = some e →
      (utf8 e.algorithm).length < 2 ^ 32 ∧ e.publicKey.length < 2 ^ 32)
    (id : U64) (hid : id.val < 2 ^ 56) (account : List.Vector UInt8 16) (keyPurpose : KeyPurpose)
    (algorithm : String) (publicKey : Bytes) (createdAt : U64) (prev : Hash)
    (hsha : CollisionFree p.sha256 (leafInputs p entry₁ entry₂
      (entryBytesV1 id account keyPurpose algorithm publicKey createdAt prev))) :
    (∃ e, readEntry p entry₁ = some e ∧ readEntry p entry₂ = some e) ∧
      (∀ a₁ a₂, fp₁ = some a₁ → fp₂ = some a₂ → eqIgnoreAsciiCase a₁ a₂) ∧
      (∀ a₁ a₂, purpose₁ = some a₁ → purpose₂ = some a₂ → a₁ = a₂) ∧
      leaf ≠ entryHash p.sha256 id account keyPurpose algorithm publicKey createdAt prev := by
  obtain ⟨fields₁, bytes₁, own₁, hfields₁, hbytes₁, hhash₁, hown₁, -, hfp₁, hpurpose₁⟩ := bindLeaf_ok h₁
  obtain ⟨fields₂, bytes₂, own₂, hfields₂, hbytes₂, hhash₂, hown₂, -, hfp₂, hpurpose₂⟩ := bindLeaf_ok h₂
  have hmem₁ := servedBytes_of_ok hfields₁ hbytes₁
  have hmem₂ := servedBytes_of_ok hfields₂ hbytes₂
  obtain ⟨e₁, hread₁, hknown₁, hname₁, hserved₁, hkey₁, rfl⟩ := readEntry_of_leafBytes hfields₁ hbytes₁
  obtain ⟨e₂, hread₂, hknown₂, hname₂, hserved₂, hkey₂, rfl⟩ := readEntry_of_leafBytes hfields₂ hbytes₂
  obtain ⟨halg, hkeylen⟩ := hlength e₁ hread₁
  have hbytes : e₁.bytes fields₁.keyPurpose = e₂.bytes fields₂.keyPurpose :=
    hsha _ (by simp [leafInputs, hmem₁]) _ (by simp [leafInputs, hmem₂]) (hhash₁.trans hhash₂.symm)
  have hsame := LeafEntry.bytes_inj hknown₁ hknown₂ hname₁ hname₂ halg hkeylen hbytes
  subst hsame
  -- the fingerprint is computed from the purpose and the key alone
  have hown : own₁ = own₂ := by
    rw [← hserved₁, ← hkey₁] at hown₁
    rw [← hserved₂, ← hkey₂, hown₁] at hown₂
    exact Except.ok.inj hown₂
  subst hown
  refine ⟨⟨e₁, hread₁, hread₂⟩, ?_, ?_, ?_⟩
  · intro a₁ a₂ ha₁ ha₂
    exact eqIgnoreAsciiCase_trans (hfp₁ a₁ ha₁) (hfp₂ a₂ ha₂)
  · intro a₁ a₂ ha₁ ha₂
    rw [hpurpose₁ a₁ ha₁, hpurpose₂ a₂ ha₂, ← hserved₁, hserved₂]
  · intro hold
    refine LeafEntry.bytes_ne_v1 hknown₁ fields₁.keyPurpose hid account keyPurpose algorithm publicKey createdAt
      prev (hsha _ (by simp [leafInputs, hmem₁]) _ (by simp [leafInputs]) ?_)
    rw [hhash₁, hold]
    rfl

end

def olderBytes : Bytes := entryBytesV1 1 (.replicate 16 0) .kem "P-256" [4] 3 (.replicate 32 0)

lemma leafInputs_collisionFree (rest : List (String × Json)) : CollisionFree watchPrimitives.sha256
    (leafInputs watchPrimitives (watchEntry []) (watchEntry rest) olderBytes) := by
  have hne : watchPrimitives.sha256 watchLog.bytes ≠ watchPrimitives.sha256 olderBytes := by decide
  rw [leafInputs, watchEntry_servedBytes, watchEntry_servedBytes]
  intro x hx y hy h
  simp only [Option.toList_some, List.cons_append, List.nil_append, List.mem_cons, List.not_mem_nil,
    or_false, or_self_left] at hx hy
  rcases hx with rfl | rfl <;> rcases hy with rfl | rfl
  · rfl
  · exact absurd h hne
  · exact absurd h.symm hne
  · rfl

/-- One entry, served bare and with a further member, and asked about in two ways. -/
theorem watchEntry_stands_for_one_entry :
    (∃ e, readEntry watchPrimitives (watchEntry []) = some e ∧
        readEntry watchPrimitives (watchEntry [("key_id", .null)]) = some e) ∧
      watchHash ≠
        entryHash watchPrimitives.sha256 1 (.replicate 16 0) .kem "P-256" [4] 3 (.replicate 32 0) := by
  have hasked : (some (hexEncode watchKeyHash.toList)).all fun asked =>
      eqIgnoreAsciiCase asked (hexEncode watchKeyHash.toList) := by
    rw [Option.all_some, eqIgnoreAsciiCase, decide_eq_true rfl]
  have hlength : ∀ e, readEntry watchPrimitives (watchEntry []) = some e →
      (utf8 e.algorithm).length < 2 ^ 32 ∧ e.publicKey.length < 2 ^ 32 := by
    intro e he
    obtain ⟨halg, hkey⟩ := readEntry_texts he
    have halg : e.algorithm = "ML-KEM-1024" := (Option.some_inj.mp halg).symm
    have hkey : e.publicKey = [7] := (Option.some_inj.mp hkey).symm
    rw [halg, hkey]
    decide
  obtain ⟨hentry, -, -, holder⟩ := bindLeaf_stands_for_one_entry watchPrimitives (watchEntry [])
    (watchEntry [("key_id", .null)]) none (some (hexEncode watchKeyHash.toList)) none (some "kem_pq") watchHash
    (watchEntry_bindLeaf [] rfl rfl) (watchEntry_bindLeaf _ hasked rfl) hlength 1 (by decide) (.replicate 16 0)
    .kem "P-256" [4] 3 (.replicate 32 0) (leafInputs_collisionFree _)
  exact ⟨hentry, holder⟩

end SignetDrive.Proofs
