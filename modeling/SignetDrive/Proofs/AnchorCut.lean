import SignetDrive.Proofs.AnchorJudge

namespace SignetDrive.Proofs
open Client

/-- What a line of a joined text reads back as: it may lose one carriage return. -/
def Reread (line again : List Char) : Prop := again = line ∨ line = again ++ ['\r']

lemma reread_stripCarriageReturn (line : List Char) : Reread line (stripCarriageReturn line) := by
  unfold stripCarriageReturn
  split
  next h => exact Or.inr (List.dropLast_append_getLast? _ h).symm
  next => exact Or.inl rfl

variable {parts : List (List Char)} {r : RootLine}

lemma linesOfParts_reread (h : ∀ l ∈ parts, l ≠ []) : List.Forall₂ Reread parts (linesOfParts parts) := by
  induction parts with
  | nil => exact .nil
  | cons part parts ih =>
    have hparts := ih fun l hl => h l (List.mem_cons_of_mem _ hl)
    cases parts with
    | nil =>
      have hne : part.isEmpty = false := by simpa using h part List.mem_cons_self
      simp only [linesOfParts, hne]
      exact .cons (Or.inl rfl) .nil
    | cons next parts => exact .cons (reread_stripCarriageReturn part) hparts

lemma isBlank_of_reread {line again : List Char} (h : Reread line again) (hblank : isBlank again) :
    isBlank line := by
  rcases h with rfl | rfl
  · exact hblank
  · simp only [isBlank, List.all_append, Bool.and_eq_true] at hblank ⊢
    exact ⟨hblank, by decide⟩

lemma not_mem_of_mem_splitOn {c : Char} {text part : List Char} (h : part ∈ text.splitOn c) : c ∉ part := by
  rw [List.splitOn_eq_splitOnP] at h
  induction text generalizing part with
  | nil =>
    simp only [List.splitOnP_nil, List.mem_singleton] at h
    simp [h]
  | cons d text ih =>
    rw [List.splitOnP_cons_eq_if_modifyHead] at h
    split at h
    next =>
      rcases List.mem_cons.mp h with rfl | h
      · simp
      · exact ih h
    next hd =>
      obtain ⟨first, rest, hsplit⟩ := List.exists_cons_of_ne_nil (List.splitOnP_ne_nil (· == c) text)
      rw [hsplit] at h ih
      rcases List.mem_cons.mp h with rfl | h
      · have hne : d ≠ c := by simpa using hd
        have hfirst := ih List.mem_cons_self
        simp [hne.symm, hfirst]
      · exact ih (List.mem_cons_of_mem _ h)

lemma mem_stripCarriageReturn {c : Char} {line : List Char} (h : c ∈ stripCarriageReturn line) : c ∈ line := by
  rcases reread_stripCarriageReturn line with heq | heq
  · rwa [heq] at h
  · rw [heq]
    exact List.mem_append_left _ h

lemma newline_not_mem_linesOfParts (h : ∀ l ∈ parts, '\n' ∉ l) :
    ∀ l ∈ linesOfParts parts, '\n' ∉ l := by
  induction parts with
  | nil => simp [linesOfParts]
  | cons part parts ih =>
    have hpart := h part List.mem_cons_self
    have hparts := ih fun l hl => h l (List.mem_cons_of_mem _ hl)
    cases parts with
    | nil =>
      intro l hl
      simp only [linesOfParts] at hl
      split at hl
      · simp at hl
      · rwa [List.mem_singleton.mp hl]
    | cons next parts =>
      intro l hl
      rcases List.mem_cons.mp hl with rfl | hl
      · exact fun hmem => hpart (mem_stripCarriageReturn hmem)
      · exact hparts l hl

lemma nonBlankLines_spec {text line : String} (h : line ∈ nonBlankLines text) :
    '\n' ∉ line.toList ∧ ¬ isBlank line.toList := by
  simp only [nonBlankLines, List.mem_map, List.mem_filter, Bool.not_eq_true'] at h
  obtain ⟨l, ⟨hl, hblank⟩, rfl⟩ := h
  rw [String.toList_ofList]
  exact ⟨newline_not_mem_linesOfParts (fun part hpart => not_mem_of_mem_splitOn hpart) l hl, by simp [hblank]⟩

lemma forall_mem_of_forall₂ {α β : Type} {R : α → β → Prop} {P : α → Prop} {Q : β → Prop} {xs : List α}
    {ys : List β} (h : List.Forall₂ R xs ys) (hxs : ∀ x ∈ xs, P x)
    (hRPQ : ∀ x y, R x y → P x → Q y) : ∀ y ∈ ys, Q y := by
  induction h with
  | nil => simp
  | cons hxy _ ih =>
    simp only [List.forall_mem_cons] at hxs ⊢
    exact ⟨hRPQ _ _ hxy hxs.1, ih hxs.2⟩

lemma nonBlankLines_intercalate {keep : List String}
    (hkeep : ∀ l ∈ keep, '\n' ∉ l.toList ∧ ¬ isBlank l.toList) :
    List.Forall₂ (fun line again => Reread line.toList again.toList) keep
      (nonBlankLines ("\n".intercalate keep)) := by
  cases hnil : keep with
  | nil => exact .nil
  | cons first rest =>
    rw [← hnil]
    have hsplit : (("\n".intercalate keep).toList).splitOn '\n' = keep.map String.toList := by
      rw [String.toList_intercalate]
      apply List.splitOn_intercalate
      · simpa using fun l hl => (hkeep l hl).1
      · simp [hnil]
    have hreread : List.Forall₂ Reread (keep.map String.toList) (linesOfParts (keep.map String.toList)) := by
      apply linesOfParts_reread
      simp only [List.forall_mem_map]
      rintro l hl hempty
      exact (hkeep l hl).2 (by simp [isBlank, hempty])
    have hkeepBlank : ∀ l ∈ keep.map String.toList, ¬ isBlank l := by
      simpa using fun l hl => (hkeep l hl).2
    have hnonblank : ∀ again ∈ linesOfParts (keep.map String.toList), ¬ isBlank again :=
      forall_mem_of_forall₂ hreread hkeepBlank fun line again hagain hline hblank =>
        hline (isBlank_of_reread hagain hblank)
    rw [nonBlankLines, lines, hsplit, List.filter_eq_self.mpr (by simpa using hnonblank),
      List.forall₂_map_right_iff]
    simpa [List.forall₂_map_left_iff] using hreread

def keepRoots : List RootLine → List RootLine
  | [] => []
  | r :: rest =>
    if r.epochEnd || !(rest.any fun later => later.epoch = r.epoch && !later.epochEnd) then
      r :: keepRoots rest
    else keepRoots rest

lemma keepLines_sublist (pairs : List (String × RootLine)) :
    (keepLines pairs).Sublist (pairs.map Prod.fst) := by
  induction pairs with
  | nil => exact .slnil
  | cons pair pairs ih =>
    rw [keepLines]
    split
    · exact ih.cons_cons _
    · exact ih.cons _

variable {roots : List RootLine}

lemma keepLines_forall₂ {R : String → RootLine → Prop} {texts : List String}
    (h : List.Forall₂ R texts roots) :
    List.Forall₂ R (keepLines (texts.zip roots)) (keepRoots roots) := by
  induction h with
  | nil => exact .nil
  | @cons text r texts roots htext hrest ih =>
    have hlater : (texts.zip roots).any (fun later => later.2.epoch = r.epoch && !later.2.epochEnd) =
        roots.any fun later => later.epoch = r.epoch && !later.epochEnd := by
      conv_rhs => rw [← List.map_snd_zip hrest.length_eq.ge, List.any_map]
      rfl
    rw [List.zip_cons_cons, keepLines, keepRoots, hlater]
    split
    · exact .cons htext ih
    · exact ih

lemma keepRoots_subset (h : r ∈ keepRoots roots) : r ∈ roots := by
  induction roots with
  | nil => exact h
  | cons first roots ih =>
    rw [keepRoots] at h
    split at h
    · rcases List.mem_cons.mp h with rfl | h
      · exact List.mem_cons_self
      · exact List.mem_cons_of_mem _ (ih h)
    · exact List.mem_cons_of_mem _ (ih h)

lemma mem_keepRoots_of_epochEnd (h : r ∈ roots) (hend : r.epochEnd) : r ∈ keepRoots roots := by
  induction roots with
  | nil => exact h
  | cons first roots ih =>
    rw [keepRoots]
    rcases List.mem_cons.mp h with rfl | h
    · simp [hend]
    · split
      · exact List.mem_cons_of_mem _ (ih h)
      · exact ih h

lemma exists_keepRoots_epoch (h : r ∈ roots) :
    ∃ kept ∈ keepRoots roots, kept.epoch = r.epoch := by
  induction roots generalizing r with
  | nil => cases h
  | cons first roots ih =>
    rw [keepRoots]
    rcases List.mem_cons.mp h with rfl | h
    · split
      next => exact ⟨r, List.mem_cons_self, rfl⟩
      next hdrop =>
        simp only [Bool.or_eq_true, Bool.not_eq_true', not_or, Bool.not_eq_false, List.any_eq_true,
          Bool.and_eq_true, decide_eq_true_eq] at hdrop
        obtain ⟨later, hlater, hepoch, -⟩ := hdrop.2
        obtain ⟨kept, hkept, hkeptEpoch⟩ := ih hlater
        exact ⟨kept, hkept, hkeptEpoch.trans hepoch⟩
    · obtain ⟨kept, hkept, hepoch⟩ := ih h
      split
      · exact ⟨kept, List.mem_cons_of_mem _ hkept, hepoch⟩
      · exact ⟨kept, hkept, hepoch⟩

def cutAnchors (a : Anchors) : Anchors := { a with roots := keepRoots a.roots }

variable {a : Anchors}

lemma endLine_cutAnchors (e : U16) : (cutAnchors a).endLine e = a.endLine e := by
  obtain ⟨roots, keys⟩ := a
  simp only [cutAnchors, Anchors.endLine]
  induction roots with
  | nil => rfl
  | cons r roots ih =>
    rw [keepRoots]
    by_cases hr : r.epoch = e ∧ r.epochEnd
    · simp [hr]
    · rw [List.find?_cons_of_neg (by simpa using hr)]
      split
      · rw [List.find?_cons_of_neg (by simpa using hr), ih]
      · exact ih

lemma one_le_saturatingSucc (e : U16) : 1 ≤ e.saturatingSucc := by
  rw [Fin.le_def]
  simp only [U16.saturatingSucc]
  have hone : (1 : U16).val = 1 := rfl
  omega

lemma one_le_maxEpoch : 1 ≤ a.maxEpoch := by
  have hends : 1 ≤ ((a.roots.filter fun r => r.epochEnd).map fun r => r.epoch.saturatingSucc).max?.getD 1 := by
    cases hmax : ((a.roots.filter fun r => r.epochEnd).map fun r => r.epoch.saturatingSucc).max? with
    | none => exact le_refl _
    | some m =>
      obtain ⟨r, -, rfl⟩ := List.mem_map.mp (List.max?_mem hmax)
      exact one_le_saturatingSucc r.epoch
  exact le_max_of_le_left (le_max_of_le_right hends)

lemma maxEpoch_cutAnchors : (cutAnchors a).maxEpoch = a.maxEpoch := by
  have hle {e : U16} (he : 1 ≤ e) : (cutAnchors a).maxEpoch ≤ e ↔ a.maxEpoch ≤ e := by
    rw [maxEpoch_le_iff he, maxEpoch_le_iff he]
    constructor
    · rintro ⟨hkeys, hends, hroots⟩
      refine ⟨hkeys, fun r hr hend => hends r (mem_keepRoots_of_epochEnd hr hend) hend, ?_⟩
      intro r hr
      obtain ⟨kept, hkept, hepoch⟩ := exists_keepRoots_epoch hr
      exact hepoch ▸ hroots kept hkept
    · rintro ⟨hkeys, hends, hroots⟩
      exact ⟨hkeys, fun r hr => hends r (keepRoots_subset hr), fun r hr => hroots r (keepRoots_subset hr)⟩
  exact le_antisymm ((hle one_le_maxEpoch).mpr le_rfl) ((hle one_le_maxEpoch).mp le_rfl)

lemma carries_cutAnchors (e : U16) : (cutAnchors a).carries e = a.carries e := by
  simp only [Anchors.carries, endLine_cutAnchors]
  rfl

lemma judgeEpoch_cutAnchors (served : ServedEpoch) (highest : U16) (age : Option Duration) :
    judgeEpoch served (some (cutAnchors a)) highest age = judgeEpoch served (some a) highest age := by
  simp only [judgeEpoch, judgeCarried, maxEpoch_cutAnchors, carries_cutAnchors]
  rfl

lemma checkGenesis_cutAnchors (p : Primitives) (mode : LogMode) (genesis : Json) :
    checkGenesis p mode (cutAnchors a) genesis = checkGenesis p mode a genesis := by
  simp only [checkGenesis, endLine_cutAnchors]

section

variable {p : Primitives} {fromStr : String → Except String Json}

/-- A carriage return after a JSON text is blank space. -/
def SkipsCarriageReturn (fromStr : String → Except String Json) : Prop :=
  ∀ s v, fromStr (s ++ "\r") = .ok v → fromStr s = .ok v

lemma parseRootLine_reread (hfromStr : SkipsCarriageReturn fromStr) {line again : String}
    (h : Reread line.toList again.toList) (hok : parseRootLine p fromStr line = .ok r) :
    parseRootLine p fromStr again = .ok r := by
  rcases h with heq | heq
  · rwa [String.toList_inj.mp heq]
  · have hline : line = again ++ "\r" := by
      apply String.toList_inj.mp
      rw [heq, String.toList_append]
      rfl
    simp only [parseRootLine, except_bind_ok, except_mapError_ok] at hok ⊢
    obtain ⟨v, hv, hrest⟩ := hok
    exact ⟨v, hfromStr again v (hline ▸ hv), hrest⟩

lemma parse_ok {roots keys : String} : Anchors.parse p fromStr roots keys = .ok a ↔
    List.Forall₂ (fun line r => parseRootLine p fromStr line = .ok r) (nonBlankLines roots) a.roots ∧
      List.Forall₂ (fun line k => parseKeyLine p fromStr line = .ok k) (nonBlankLines keys) a.keys := by
  simp only [Anchors.parse, except_bind_ok, except_pure_ok, mapM_ok]
  constructor
  · rintro ⟨rs, hroots, ks, hkeys, rfl⟩
    exact ⟨hroots, hkeys⟩
  · rintro ⟨hroots, hkeys⟩
    exact ⟨a.roots, hroots, a.keys, hkeys, rfl⟩

lemma forall₂_of_reread (hfromStr : SkipsCarriageReturn fromStr) {keep again : List String}
    {roots : List RootLine}
    (hagain : List.Forall₂ (fun line again => Reread line.toList again.toList) keep again)
    (hok : List.Forall₂ (fun line r => parseRootLine p fromStr line = .ok r) keep roots) :
    List.Forall₂ (fun line r => parseRootLine p fromStr line = .ok r) again roots := by
  induction hagain generalizing roots with
  | nil => exact hok
  | cons hline _ ih =>
    cases hok with
    | cons hr hrest => exact .cons (parseRootLine_reread hfromStr hline hr) (ih hrest)

lemma exists_new_cache (hfromStr : SkipsCarriageReturn fromStr) {roots keys : String}
    (hparse : Anchors.parse p fromStr roots keys = .ok a) (repo : String) (fetchedAt : U64) :
    ∃ cache, AnchorCache.new p fromStr repo fetchedAt roots keys = some cache ∧
      cache.anchors p fromStr = some (cutAnchors a) := by
  obtain ⟨hroots, hkeys⟩ := parse_ok.mp hparse
  have hparsed : Anchors.parse p fromStr roots "" = .ok ⟨a.roots, []⟩ := parse_ok.mpr ⟨hroots, .nil⟩
  let keep := keepLines ((nonBlankLines roots).zip a.roots)
  have hkeep : ∀ l ∈ keep, '\n' ∉ l.toList ∧ ¬ isBlank l.toList := by
    intro l hl
    obtain ⟨pair, hpair, rfl⟩ := List.mem_map.mp ((keepLines_sublist _).subset hl)
    exact nonBlankLines_spec (List.of_mem_zip hpair).1
  have hcut : Anchors.parse p fromStr ("\n".intercalate keep) keys = .ok (cutAnchors a) :=
    parse_ok.mpr
      ⟨forall₂_of_reread hfromStr (nonBlankLines_intercalate hkeep) (keepLines_forall₂ hroots), hkeys⟩
  have hanchors : AnchorCache.anchors p fromStr ⟨repo, fetchedAt, "\n".intercalate keep, keys, none⟩ =
      some (cutAnchors a) := by
    rw [AnchorCache.anchors, hcut]
    rfl
  refine ⟨_, ?_, hanchors⟩
  rw [AnchorCache.new, hparsed]
  simp [Except.toOption, keep, hanchors]

end

end SignetDrive.Proofs
