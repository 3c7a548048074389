import SignetDrive.Model.Names
import SignetDrive.Proofs.JcsOrder

/-!
# Both clients choose the same free name

A dot is one unit in UTF-8 and in UTF-16, and part of no other character. So both clients split a
name at the same place and try the same candidates.
-/

namespace SignetDrive.Proofs

/-- Texts are written one after the other; the dot is one unit, which no other character has. -/
structure DotEncoding {υ : Type} (encode : String → List υ) (dot : υ) : Prop where
  append (s t : String) : encode (s ++ t) = encode s ++ encode t
  injective : Function.Injective encode
  ofDot : encode "." = [dot]
  others (s : String) : '.' ∉ s.toList → dot ∉ encode s

lemma dotEncoding_of_chars {υ : Type} {encode : String → List υ} {enc : Char → List υ} {dot : υ}
    (heq : ∀ s, encode s = s.toList.flatMap enc) (hinj : Function.Injective encode) (hdot : enc '.' = [dot])
    (hothers : ∀ c, dot ∈ enc c → c = '.') : DotEncoding encode dot where
  append s t := by rw [heq, heq, heq, String.toList_append, List.flatMap_append]
  injective := hinj
  ofDot := (heq ".").trans (by simp [hdot])
  others s hs hmem := by
    obtain ⟨c, hc, hmem⟩ := List.mem_flatMap.mp (heq s ▸ hmem)
    exact hs (hothers c hmem ▸ hc)

lemma utf8_dotEncoding : DotEncoding utf8 46 := by
  refine dotEncoding_of_chars toUTF8_eq (fun _ _ => utf8_inj) (utf8EncodeChar_ascii (by decide)) ?_
  intro c hmem
  by_cases hascii : c.toNat < 0x80
  · rw [utf8EncodeChar_ascii hascii, List.mem_singleton] at hmem
    have hcode : 46 = c.toNat % 256 := by simpa using congrArg UInt8.toNat hmem
    exact Char.toNat_inj.mp (by rw [← Nat.mod_eq_of_lt (hascii.trans (by norm_num : 0x80 < 256)), ← hcode]; rfl)
  · have hle : ¬ c.val.toNat ≤ 127 := fun hle => hascii (Nat.lt_succ_of_le hle)
    rw [String.utf8EncodeChar.eq_1, if_neg hle] at hmem
    split_ifs at hmem <;> simp [← UInt8.toNat_inj] at hmem <;> omega

def utf16Units (c : Char) : List ℕ :=
  if c.toNat < 0x10000 then [c.toNat]
  else [0xd800 + (c.toNat - 0x10000) / 0x400, 0xdc00 + (c.toNat - 0x10000) % 0x400]

lemma utf16Units_append_inj {c d : Char} {r s : List ℕ} (h : utf16Units c ++ r = utf16Units d ++ s) :
    c = d ∧ r = s := by
  have hc : c.toNat < 0xd800 ∨ 0xdfff < c.toNat ∧ c.toNat < 0x110000 := c.valid
  have hd : d.toNat < 0xd800 ∨ 0xdfff < d.toNat ∧ d.toNat < 0x110000 := d.valid
  unfold utf16Units at h
  rw [← Char.toNat_inj]
  split_ifs at h <;> simp only [List.cons_append, List.nil_append, List.cons.injEq] at h
  · exact h
  · omega
  · omega
  · refine ⟨?_, h.2.2⟩
    omega

lemma charCodes_injective : Function.Injective Jcs.charCodes := by
  have hne (c : Char) : utf16Units c ≠ [] := by
    unfold utf16Units
    split_ifs <;> simp
  have hlists (s t : List Char) (h : s.flatMap utf16Units = t.flatMap utf16Units) : s = t := by
    induction s generalizing t with
    | nil =>
      cases t with
      | nil => rfl
      | cons d t => exact absurd (List.append_eq_nil_iff.mp h.symm).1 (hne d)
    | cons c s ih =>
      cases t with
      | nil => exact absurd (List.append_eq_nil_iff.mp h).1 (hne c)
      | cons d t =>
        obtain ⟨rfl, hrest⟩ := utf16Units_append_inj h
        rw [ih t hrest]
  exact fun s t h => String.toList_inj.mp (hlists _ _ h)

lemma charCodes_dotEncoding : DotEncoding Jcs.charCodes 46 := by
  have heq (s : String) : Jcs.charCodes s = s.toList.flatMap utf16Units := rfl
  refine dotEncoding_of_chars heq charCodes_injective rfl ?_
  intro c hmem
  have hcode : c.toNat = 46 := by
    unfold utf16Units at hmem
    split_ifs at hmem <;> simp at hmem <;> omega
  exact Char.toNat_inj.mp hcode

lemma DotEncoding.eq_nil_iff {υ : Type} {encode : String → List υ} {dot : υ} (h : DotEncoding encode dot)
    (s : String) : encode s = [] ↔ s = "" := by
  have hnil : encode "" = [] := List.self_eq_append_right.mp (h.append "" "")
  rw [← hnil, h.injective.eq_iff]

lemma toList_dotEncoding : DotEncoding String.toList '.' where
  append _ _ := String.toList_append
  injective _ _ := String.toList_inj.mp
  ofDot := rfl
  others _ h := h

/-- The dot between the two parts is the last one of the name, and neither its first nor its last
character. -/
def SplitsAtDot (desired stem post : String) : Prop :=
  stem ++ ("." ++ post) = desired ∧ stem ≠ "" ∧ post ≠ "" ∧ '.' ∉ post.toList

/-- The extension starts at such a dot, or there is none and it is empty. -/
def SplitsName (desired stem ext : String) : Prop :=
  (∃ post, SplitsAtDot desired stem post ∧ ext = "." ++ post) ∨
    (∀ pre post, ¬ SplitsAtDot desired pre post) ∧ stem = desired ∧ ext = ""

variable {desired : String} {rounds : ℕ}

lemma SplitsName.append_eq {stem ext : String} (h : SplitsName desired stem ext) :
    stem ++ ext = desired := by
  rcases h with ⟨post, hdot, rfl⟩ | ⟨-, rfl, rfl⟩
  · exact hdot.1
  · exact String.append_empty

/-- The candidate of a number. -/
def numberedName (stem ext : String) (n : ℕ) : String := stem ++ s!" ({n})" ++ ext

section Units

variable {υ : Type} [DecidableEq υ] {encode : String → List υ} {dot : υ}

omit [DecidableEq υ] in
lemma exists_last {xs : List υ} (h : dot ∈ xs) : ∃ pre post, dot ∉ post ∧ pre ++ dot :: post = xs := by
  obtain ⟨after, before, hsplit, hafter⟩ := List.eq_append_cons_of_mem (List.mem_reverse.mpr h)
  refine ⟨before.reverse, after.reverse, by simpa, ?_⟩
  rw [← List.reverse_inj, hsplit]
  simp

lemma lastIndex_append {pre post : List υ} (h : dot ∉ post) :
    (pre ++ dot :: post).length - 1 - (pre ++ dot :: post).reverse.idxOf dot = pre.length := by
  rw [List.reverse_append, List.reverse_cons, List.append_assoc, List.idxOf_append_of_notMem (by simpa),
    List.singleton_append, List.idxOf_cons_self]
  simp

lemma splitUnits_append {pre post : List υ} (h : dot ∉ post) :
    splitUnits dot (pre ++ dot :: post) =
      if pre ≠ [] ∧ post ≠ [] then (pre, dot :: post) else (pre ++ dot :: post, []) := by
  have hbounds : 0 < pre.length ∧ pre.length < (pre ++ dot :: post).length - 1 ↔ pre ≠ [] ∧ post ≠ [] := by
    simp [List.length_pos_iff]
  rw [splitUnits, if_pos (by simp), lastIndex_append h]
  simp only [hbounds, List.take_left, List.drop_left]

lemma DotEncoding.splitUnits_of_splitsAtDot (h : DotEncoding encode dot) {stem post : String}
    (hsplit : SplitsAtDot desired stem post) :
    splitUnits dot (encode desired) = (encode stem, encode ("." ++ post)) := by
  obtain ⟨rfl, hstem, hpost, hdot⟩ := hsplit
  rw [h.append, h.append, h.ofDot, List.singleton_append, splitUnits_append (h.others post hdot), if_pos]
  exact ⟨mt (h.eq_nil_iff stem).mp hstem, mt (h.eq_nil_iff post).mp hpost⟩

lemma DotEncoding.splitUnits_of_not_splitsAtDot (h : DotEncoding encode dot)
    (hnone : ∀ pre post, ¬ SplitsAtDot desired pre post) :
    splitUnits dot (encode desired) = (encode desired, []) := by
  by_cases hdot : '.' ∈ desired.toList
  · obtain ⟨pre, post, hpost, rfl⟩ : ∃ pre post : String, '.' ∉ post.toList ∧
        pre ++ ("." ++ post) = desired := by
      obtain ⟨before, after, hafter, hsplit⟩ := exists_last hdot
      exact ⟨String.ofList before, String.ofList after, by simpa, String.toList_inj.mp (by simp [← hsplit])⟩
    have hinner : ¬ (pre ≠ "" ∧ post ≠ "") := fun hinner => hnone pre post ⟨rfl, hinner.1, hinner.2, hpost⟩
    rw [h.append, h.append, h.ofDot, List.singleton_append, splitUnits_append (h.others post hpost), if_neg]
    simpa only [ne_eq, h.eq_nil_iff] using hinner
  · rw [splitUnits, if_neg (h.others desired hdot)]

lemma exists_splitsName (desired : String) : ∃ stem ext, SplitsName desired stem ext ∧
    ∀ {υ : Type} [DecidableEq υ] {encode : String → List υ} {dot : υ}, DotEncoding encode dot →
      splitUnits dot (encode desired) = (encode stem, encode ext) := by
  by_cases hdot : ∃ stem post, SplitsAtDot desired stem post
  · obtain ⟨stem, post, hsplit⟩ := hdot
    exact ⟨stem, "." ++ post, .inl ⟨post, hsplit, rfl⟩, fun h => h.splitUnits_of_splitsAtDot hsplit⟩
  · push Not at hdot
    refine ⟨desired, "", .inr ⟨hdot, rfl, rfl⟩, fun h => ?_⟩
    rw [h.splitUnits_of_not_splitsAtDot hdot, (h.eq_nil_iff "").mpr rfl]

lemma searchFree_eq {forward : ℕ → Option ℕ} {taken : Finset (List υ)} {candidate : ℕ → List υ} {N n : ℕ}
    (hn : n ≤ N) (htaken : ∀ m, n ≤ m → m < N → candidate m ∈ taken) (hfree : candidate N ∉ taken)
    (hforward : ∀ m < N, forward m = some (m + 1)) (hlast : forward N ≠ none) (hrounds : N < n + rounds) :
    searchFree forward taken candidate rounds n = some (some (candidate N)) := by
  induction rounds generalizing n with
  | zero => omega
  | succ rounds ih =>
    rw [searchFree]
    obtain rfl | hlt := hn.eq_or_lt
    · obtain ⟨next, hnext⟩ := Option.ne_none_iff_exists'.mp hlast
      simp only [hnext, hfree, not_false_eq_true, if_true]
    · simp only [hforward n hlt, htaken n le_rfl hlt, not_true_eq_false, if_false]
      exact ih hlt (fun m hm => htaken m (by omega)) (by omega)

lemma searchFree_panics {forward : ℕ → Option ℕ} {taken : Finset (List υ)} {candidate : ℕ → List υ} {N n : ℕ}
    (hn : n ≤ N) (htaken : ∀ m, n ≤ m → m < N → candidate m ∈ taken)
    (hforward : ∀ m < N, forward m = some (m + 1)) (hlast : forward N = none) :
    ∃ rounds, searchFree forward taken candidate rounds n = some none := by
  induction hn using Nat.decreasingInduction with
  | self =>
    refine ⟨1, ?_⟩
    rw [searchFree, hlast]
  | of_succ n hn ih =>
    obtain ⟨rounds, hrounds⟩ := ih fun m hm => htaken m (by omega)
    refine ⟨rounds + 1, ?_⟩
    rw [searchFree]
    simp only [hforward n hn, htaken n le_rfl hn, not_true_eq_false, if_false, hrounds]

end Units

lemma numberedName_injective (stem ext : String) : Function.Injective (numberedName stem ext) := by
  intro m n h
  simp only [numberedName, String.append_left_inj, String.append_right_inj, Nat.toString_eq_repr] at h
  have hdigits : Nat.toDigits 10 m ++ [] = Nat.toDigits 10 n ++ [] :=
    by rw [← Nat.toList_repr, h, Nat.toList_repr]
  exact (toDigits_readsBack m n trivial [] [] rfl rfl hdigits).1

/-- Among the taken names is the desired one, which is no candidate. -/
lemma exists_free {stem ext : String} (hsplit : stem ++ ext = desired) {names : Finset String}
    (h : desired ∈ names) :
    ∃ N, 1 ≤ N ∧ N ≤ names.card ∧ numberedName stem ext N ∉ names ∧
      ∀ m, 1 ≤ m → m < N → numberedName stem ext m ∈ names := by
  have hother (n : ℕ) : numberedName stem ext n ≠ desired := by
    intro heq
    have hlength := congrArg String.length (heq.trans hsplit.symm)
    have hdigits := Nat.length_repr_pos (n := n)
    simp only [numberedName, String.length_append, Nat.toString_eq_repr] at hlength
    omega
  have hsome : ∃ n, 1 ≤ n ∧ n ≤ names.card ∧ numberedName stem ext n ∉ names := by
    by_contra hall
    push Not at hall
    have hmaps : ∀ n ∈ Finset.Icc 1 names.card, numberedName stem ext n ∈ names.erase desired := by
      intro n hn
      obtain ⟨hone, hle⟩ := Finset.mem_Icc.mp hn
      exact Finset.mem_erase.mpr ⟨hother n, hall n hone hle⟩
    have hcard := Finset.card_le_card_of_injOn _ hmaps (numberedName_injective stem ext).injOn
    rw [Nat.card_Icc, Finset.card_erase_of_mem h] at hcard
    have hpos := Finset.card_pos.mpr ⟨desired, h⟩
    omega
  classical
  obtain ⟨hone, hle, hfree⟩ := Nat.find_spec hsome
  refine ⟨Nat.find hsome, hone, hle, hfree, fun m hm hlt => ?_⟩
  have hmin := Nat.find_min hsome hlt
  push Not at hmin
  exact hmin hm (by omega)

section Chosen

variable {υ : Type} [DecidableEq υ] {encode : String → List υ} {dot : υ} {forward : ℕ → Option ℕ}
  {desired : String} {names : Finset String}

lemma DotEncoding.dedupe_of_free (h : DotEncoding encode dot) (hfree : desired ∉ names) (rounds : ℕ) :
    dedupe encode dot forward rounds (encode desired) (names.image encode) = some (some (encode desired)) := by
  rw [dedupe, if_pos (mt h.injective.mem_finset_image.mp hfree)]

lemma DotEncoding.dedupe_of_taken (h : DotEncoding encode dot) (hdesired : desired ∈ names) {stem ext : String}
    (hunits : splitUnits dot (encode desired) = (encode stem, encode ext)) (rounds : ℕ) :
    dedupe encode dot forward rounds (encode desired) (names.image encode) =
      searchFree forward (names.image encode) (fun n => encode (numberedName stem ext n)) rounds 1 := by
  rw [dedupe, if_neg (not_not.mpr (Finset.mem_image_of_mem encode hdesired)), hunits]
  simp only [numberedName, h.append]

lemma DotEncoding.dedupe_eq (h : DotEncoding encode dot) (hdesired : desired ∈ names) {stem ext : String}
    (hunits : splitUnits dot (encode desired) = (encode stem, encode ext)) {N : ℕ} (hone : 1 ≤ N)
    (hfree : numberedName stem ext N ∉ names)
    (hleast : ∀ m, 1 ≤ m → m < N → numberedName stem ext m ∈ names)
    (hforward : ∀ m < N, forward m = some (m + 1)) (hlast : forward N ≠ none) (hrounds : N ≤ rounds) :
    dedupe encode dot forward rounds (encode desired) (names.image encode) =
      some (some (encode (numberedName stem ext N))) := by
  rw [h.dedupe_of_taken hdesired hunits]
  exact searchFree_eq hone (fun m hm hlt => Finset.mem_image_of_mem encode (hleast m hm hlt))
    (mt h.injective.mem_finset_image.mp hfree) hforward hlast (by omega)

end Chosen

section Texts

variable (desired : String) (taken : List String)

/-- One name is chosen in every encoding. -/
lemma exists_dedupe : ∃ out, out ∉ taken ∧
    ∀ {υ : Type} [DecidableEq υ] {encode : String → List υ} {dot : υ}, DotEncoding encode dot →
      ∀ rounds ≥ taken.length, dedupe encode dot (fun n => some (n + 1)) rounds (encode desired)
        (taken.toFinset.image encode) = some (some (encode out)) := by
  by_cases hdesired : desired ∈ taken.toFinset
  · obtain ⟨stem, ext, hsplit, hunits⟩ := exists_splitsName desired
    obtain ⟨N, hone, hle, hfree, hleast⟩ := exists_free hsplit.append_eq hdesired
    refine ⟨numberedName stem ext N, mt List.mem_toFinset.mpr hfree, fun h rounds hrounds => ?_⟩
    have hcard : taken.toFinset.card ≤ taken.length := List.toFinset_card_le taken
    exact h.dedupe_eq hdesired (hunits h) hone hfree hleast (fun _ _ => rfl) (Option.some_ne_none _) (by omega)
  · exact ⟨desired, mt List.mem_toFinset.mpr hdesired, fun h rounds _ => h.dedupe_of_free hdesired rounds⟩

lemma dedupeName_not_mem : dedupeName desired taken ∉ taken := by
  obtain ⟨out, hfree, hout⟩ := exists_dedupe desired taken
  rw [dedupeName, hout toList_dotEncoding _ le_rfl]
  simpa using hfree

/-- The search over code units ends with the name that is chosen on texts. -/
lemma webDedupeName_eq (hrounds : taken.length ≤ rounds) :
    webDedupeName rounds (Jcs.charCodes desired) (taken.toFinset.image Jcs.charCodes) =
      some (some (Jcs.charCodes (dedupeName desired taken))) := by
  obtain ⟨out, -, hout⟩ := exists_dedupe desired taken
  rw [webDedupeName, hout charCodes_dotEncoding rounds hrounds, dedupeName, hout toList_dotEncoding _ le_rfl]
  simp

end Texts

lemma forwardU32_of_lt {profile : Profile} {n : ℕ} (h : n + 1 < 2 ^ 32) :
    forwardU32 profile n = some (n + 1) := if_pos h

/-- Fewer than `2 ^ 32 - 1` taken names, or than `2 ^ 32` in a release build: both clients return the
name itself if it is free, and otherwise the candidate with the least number that is. -/
theorem dedupe_names_agree (profile : Profile) (desired : String) (names : Finset String)
    (hcard : names.card < 2 ^ 32 - 1 ∨ profile = .release ∧ names.card < 2 ^ 32) :
    ∃ out, (∃ enough, ∀ rounds ≥ enough,
        cliDedupeName profile rounds (utf8 desired) (names.image utf8) = some (some (utf8 out)) ∧
        webDedupeName rounds (Jcs.charCodes desired) (names.image Jcs.charCodes) =
        some (some (Jcs.charCodes out))) ∧
      out ∉ names ∧ (desired ∉ names → out = desired) ∧
      (desired ∈ names → ∃ stem ext N, SplitsName desired stem ext ∧ 1 ≤ N ∧ out = numberedName stem ext N ∧
        ∀ m, 1 ≤ m → m < N → numberedName stem ext m ∈ names) := by
  by_cases hdesired : desired ∈ names
  · obtain ⟨stem, ext, hsplit, hunits⟩ := exists_splitsName desired
    obtain ⟨N, hone, hle, hfree, hleast⟩ := exists_free hsplit.append_eq hdesired
    have hforward (m : ℕ) (hm : m < N) : forwardU32 profile m = some (m + 1) := forwardU32_of_lt (by omega)
    have hlast : forwardU32 profile N ≠ none := by
      rcases hcard with hcard | ⟨rfl, -⟩
      · rw [forwardU32_of_lt (by omega)]
        exact Option.some_ne_none _
      · unfold forwardU32
        split_ifs <;> exact Option.some_ne_none _
    refine ⟨numberedName stem ext N, ⟨N, fun rounds hrounds => ⟨?_, ?_⟩⟩, hfree, fun h => absurd hdesired h,
      fun _ => ⟨stem, ext, N, hsplit, hone, rfl, hleast⟩⟩
    · exact utf8_dotEncoding.dedupe_eq hdesired (hunits utf8_dotEncoding) hone hfree hleast
        hforward hlast hrounds
    · exact charCodes_dotEncoding.dedupe_eq hdesired (hunits charCodes_dotEncoding) hone hfree hleast
        (fun _ _ => rfl) (Option.some_ne_none _) hrounds
  · exact ⟨desired, ⟨0, fun rounds _ => ⟨utf8_dotEncoding.dedupe_of_free hdesired rounds,
      charCodes_dotEncoding.dedupe_of_free hdesired rounds⟩⟩, hdesired, fun _ => rfl,
      fun h => absurd h hdesired⟩

theorem dedupe_names_agree_report :
    ({"report.pdf"} : Finset String).card < 2 ^ 32 - 1 ∧
    ∃ out ∉ ({"report.pdf"} : Finset String), ∃ enough, ∀ rounds ≥ enough,
      cliDedupeName .dev rounds (utf8 "report.pdf") (Finset.image utf8 {"report.pdf"}) = some (some (utf8 out))
      ∧ webDedupeName rounds (Jcs.charCodes "report.pdf") (Finset.image Jcs.charCodes {"report.pdf"}) =
        some (some (Jcs.charCodes out)) := by
  have hcard : ({"report.pdf"} : Finset String).card < 2 ^ 32 - 1 := by
    rw [Finset.card_singleton]
    norm_num
  obtain ⟨out, hsame, hfree, -⟩ := dedupe_names_agree .dev "report.pdf" {"report.pdf"} (.inl hcard)
  exact ⟨hcard, out, hfree, hsame⟩

/-- A name and its first `2 ^ 32 - 2` candidates are taken, and a development build panics. -/
theorem dedupe_panics_at_last_number : ∃ names : Finset String, names.card < 2 ^ 32 ∧
    ∃ rounds, cliDedupeName .dev rounds (utf8 "README") (names.image utf8) = some none := by
  obtain ⟨stem, ext, -, hunits⟩ := exists_splitsName "README"
  obtain ⟨names, hnames⟩ : ∃ names, names = insert "README"
      ((Finset.Ico 1 (2 ^ 32 - 1)).image (numberedName stem ext)) :=
    ⟨_, rfl⟩
  have hdesired : "README" ∈ names := hnames ▸ Finset.mem_insert_self _ _
  refine ⟨names, ?_, ?_⟩
  · have hinsert := Finset.card_insert_le "README" ((Finset.Ico 1 (2 ^ 32 - 1)).image (numberedName stem ext))
    have himage := Finset.card_image_le (s := Finset.Ico 1 (2 ^ 32 - 1)) (f := numberedName stem ext)
    rw [Nat.card_Ico] at himage
    rw [hnames]
    omega
  · simp only [cliDedupeName, utf8_dotEncoding.dedupe_of_taken hdesired (hunits utf8_dotEncoding)]
    refine searchFree_panics (N := 2 ^ 32 - 1)
      (by norm_num) (fun m hm hlt => ?_) (fun m hm => forwardU32_of_lt (by omega)) (by simp [forwardU32])
    rw [hnames]
    exact Finset.mem_image_of_mem _
      (Finset.mem_insert_of_mem (Finset.mem_image_of_mem _ (Finset.mem_Ico.mpr ⟨hm, hlt⟩)))

end SignetDrive.Proofs
