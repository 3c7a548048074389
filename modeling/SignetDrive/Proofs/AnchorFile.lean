import SignetDrive.Model.AnchorState

namespace SignetDrive.Proofs

lemma get_insert (all : Json) (key k : String) (value : Json) (hall : all.isObject) :
    (all.insert key value).get k = if k = key then some value else all.get k := by
  cases all with
  | object members =>
    simp only [Json.insert, Json.get, Json.asObject, Option.getD_some, List.lookup_append,
      Json.lookup_filter_ne]
    by_cases hk : k = key
    · simp [hk]
    · have hne : (k == key) = false := by simp [hk]
      simp [hk, List.lookup_cons, hne]
  | _ => cases hall

lemma parseU16_toString (e : U16) : parseU16 (toString e.val) = some e := by
  have hchars : (toString e.val).toList = Nat.toDigits 10 e.val := Nat.toList_repr
  have hne : Nat.toDigits 10 e.val ≠ [] := Nat.toDigits_ne_nil
  have hdigits : ∀ c ∈ Nat.toDigits 10 e.val, c.isDigit := by
    intro c hc
    exact Nat.isDigit_of_mem_toDigits (by norm_num) (by norm_num) hc
  have hsigned : stripPlus (Nat.toDigits 10 e.val) = Nat.toDigits 10 e.val := by
    unfold stripPlus
    split
    next rest heq =>
      have hplus := hdigits '+' (by rw [heq]; exact List.mem_cons_self)
      exact absurd hplus (by decide)
    next => rfl
  simp only [parseU16, hchars, hsigned]
  rw [if_pos ⟨hne, List.all_eq_true.mpr hdigits⟩]
  simp only [Nat.ofDigitChars_ten_toDigits, e.isLt, ↓reduceDIte, Fin.eta]

lemma loadSightings_saveSightings (epochs : List U16) (sightings found : U16 → Option U64) (k : U16) :
    (saveSightings epochs sightings).foldl loadSighting found k =
      if k ∈ epochs ∧ (sightings k).isSome then sightings k else found k := by
  induction epochs generalizing found with
  | nil => simp [saveSightings]
  | cons e epochs ih =>
    cases ht : sightings e with
    | none =>
      have hskip : saveSightings (e :: epochs) sightings = saveSightings epochs sightings :=
        List.filterMap_cons_none (by simp [ht])
      rw [hskip, ih]
      by_cases hk : k = e
      · simp [hk, ht]
      · simp [hk]
    | some t =>
      have hsaved : saveSightings (e :: epochs) sightings =
          (toString e.val, .number (.posInt t)) :: saveSightings epochs sightings :=
        List.filterMap_cons_some (by simp [ht])
      rw [hsaved, List.foldl_cons, ih]
      simp only [loadSighting, parseU16_toString, Json.asU64]
      by_cases hk : k = e
      · simp [hk, ht]
      · simp [hk]

lemma asU16_posInt (e : U16) (h : e.val < 2 ^ 64) : asU16 (.number (.posInt ⟨e.val, h⟩)) = some e := by
  simp [asU16, Json.asU64]

lemma loadCache_object (repo roots keys : String) (fetchedAt : U64) (genesis : Json) :
    loadCache (.object [("repo", .string repo), ("fetched_at", .number (.posInt fetchedAt)),
      ("roots_jsonl", .string roots), ("vrf_keys_jsonl", .string keys), ("genesis_checked", genesis)]) =
      some ⟨repo, fetchedAt, roots, keys, asU16 genesis⟩ := rfl

lemma loadCache_saveCache (c : AnchorCache) : loadCache (saveCache c) = some c := by
  obtain ⟨repo, fetchedAt, rootsJsonl, vrfKeysJsonl, genesisChecked⟩ := c
  rw [saveCache, loadCache_object]
  cases genesisChecked with
  | none => rfl
  | some e => rw [Option.elim_some, asU16_posInt]

lemma loadOrigin_object (highest cache : Json) (sightings : List (String × Json)) :
    loadOrigin (.object [("highest_epoch", highest), ("first_unanchored", .object sightings),
      ("anchor_cache", cache)]) =
      ⟨(asU16 highest).getD 0, loadSightings sightings, loadCache cache⟩ := rfl

lemma loadOrigin_saveOrigin (st : OriginState) : loadOrigin (saveOrigin st) = st := by
  obtain ⟨highestEpoch, firstUnanchored, anchorCache⟩ := st
  have hsightings : loadSightings (saveSightings (List.finRange (2 ^ 16)) firstUnanchored) =
      firstUnanchored := by
    funext k
    rw [loadSightings, loadSightings_saveSightings]
    cases firstUnanchored k with
    | none => exact if_neg fun h => absurd h.2 (by decide)
    | some t => exact if_pos ⟨List.mem_finRange k, rfl⟩
  have hcache : loadCache (anchorCache.elim .null saveCache) = anchorCache := by
    cases anchorCache with
    | none => rfl
    | some c => exact loadCache_saveCache c
  rw [saveOrigin, loadOrigin_object, asU16_posInt, hsightings, hcache, Option.getD_some]

variable (file : Option Json) (origin : String) (st : OriginState)

lemma get_saveState (k : String) : (saveState file origin st).get k =
    if k = origin then some (saveOrigin st) else file.bind fun all => all.get k := by
  rw [saveState]
  cases file with
  | none => exact get_insert (.object []) origin k _ rfl
  | some all =>
    by_cases hall : all.isObject
    · rw [Option.filter_some, if_pos hall, Option.getD_some, get_insert all origin k _ hall,
        Option.bind_some]
    · have hget : all.get k = none := by
        cases all with
        | object members => exact absurd rfl hall
        | _ => rfl
      rw [Option.filter_some, if_neg hall, Option.getD_none, get_insert (.object []) origin k _ rfl,
        Option.bind_some, hget]
      rfl

theorem loadState_saveState_self : loadState (some (saveState file origin st)) origin = st := by
  rw [loadState, Option.bind_some, get_saveState, if_pos rfl]
  exact loadOrigin_saveOrigin st

theorem loadState_saveState_of_ne {k : String} (hk : k ≠ origin) :
    loadState (some (saveState file origin st)) k = loadState file k := by
  rw [loadState, Option.bind_some, get_saveState, if_neg hk, loadState]

/-- After any saves of any origins, each origin has the state that was saved for it last. -/
theorem loadState_after_saves (saves : List (String × OriginState)) :
    loadState (saves.foldl (fun file save => some (saveState file save.1 save.2)) file) origin =
      (saves.reverse.lookup origin).getD (loadState file origin) := by
  induction saves using List.reverseRecOn with
  | nil => rfl
  | append_singleton saves save ih =>
    rw [List.foldl_append, List.foldl_cons, List.foldl_nil, List.reverse_append, List.reverse_singleton,
      List.singleton_append, List.lookup_cons]
    by_cases hk : origin = save.1
    · rw [hk, loadState_saveState_self, beq_self_eq_true, Option.getD_some]
    · rw [loadState_saveState_of_ne _ _ _ hk, ih, beq_false_of_ne hk]

end SignetDrive.Proofs
