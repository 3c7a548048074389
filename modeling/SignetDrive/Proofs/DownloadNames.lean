import SignetDrive.Model.DownloadNames
import SignetDrive.Proofs.Names

/-!
# Which downloads of a session share a name

A suffixed name tells the name and the number it was made of.
-/

namespace SignetDrive.Proofs

open DownloadNames

/-! ### One suffixed name -/

lemma append_cons_inj_of_last {υ : Type} [DecidableEq υ] {d : υ} {pre pre' post post' : List υ} (h : d ∉ post)
    (h' : d ∉ post') (heq : pre ++ d :: post = pre' ++ d :: post') : pre = pre' ∧ post = post' := by
  have hlength : pre.length = pre'.length := by rw [← lastIndex_append h, heq, lastIndex_append h']
  obtain ⟨hpre, hrest⟩ := List.append_inj heq hlength
  exact ⟨hpre, (List.cons.inj hrest).2⟩

/-- What stands after the opening parenthesis. -/
def numberUnits (k : ℕ) : List ℕ := Jcs.charCodes (toString k ++ ")")

lemma charCodes_label (k : ℕ) : Jcs.charCodes s!" ({k})" = [32] ++ 40 :: numberUnits k := by
  have hsplit : s!" ({k})" = " (" ++ (toString k ++ ")") := String.append_assoc ..
  rw [hsplit, charCodes_dotEncoding.append]
  rfl

lemma numberUnits_range {k u : ℕ} (h : u ∈ numberUnits k) : u = 41 ∨ 48 ≤ u := by
  obtain ⟨c, hc, hu⟩ := List.mem_flatMap.mp h
  rw [Nat.toString_eq_repr, String.toList_append, Nat.toList_repr] at hc
  rcases List.mem_append.mp hc with hdigit | hlast
  · have hrange := Nat.isDigit_of_mem_toDigits (by norm_num) le_rfl hdigit
    simp only [Char.isDigit, Bool.and_eq_true, decide_eq_true_eq] at hrange
    have hlow : 48 ≤ c.toNat := hrange.1
    have hhigh : c.toNat ≤ 57 := hrange.2
    rw [if_pos (by omega), List.mem_singleton] at hu
    omega
  · obtain rfl : c = ')' := by simpa using hlast
    exact .inl (by simpa using hu)

lemma append_label_inj {stem stem' : List ℕ} {k n : ℕ}
    (h : stem ++ Jcs.charCodes s!" ({k})" = stem' ++ Jcs.charCodes s!" ({n})") : stem = stem' ∧ k = n := by
  have hopen (m : ℕ) : 40 ∉ numberUnits m := fun hmem => by simpa using numberUnits_range hmem
  have hstem : stem = stem' := by
    rw [charCodes_label, charCodes_label, ← List.append_assoc, ← List.append_assoc] at h
    exact List.append_cancel_right (append_cons_inj_of_last (hopen k) (hopen n) h).1
  subst hstem
  refine ⟨rfl, numberedName_injective "" "" ?_⟩
  exact congrArg ("" ++ · ++ "") (charCodes_injective (List.append_cancel_left h))

/-- The extension is empty and no dot stands after the first unit, or it starts at the last dot. -/
lemma exists_suffixed (name : List ℕ) : ∃ stem ext, stem ++ ext = name ∧
    (∀ k, suffixed name k = stem ++ Jcs.charCodes s!" ({k})" ++ ext) ∧
    (ext = [] ∧ 46 ∉ name.tail ∨ stem ≠ [] ∧ ∃ post, 46 ∉ post ∧ ext = 46 :: post) := by
  by_cases hdot : 46 ∈ name
  · obtain ⟨pre, post, hpost, rfl⟩ := exists_last hdot
    by_cases hpre : pre = []
    · subst hpre
      refine ⟨46 :: post, [], List.append_nil _, fun k => ?_, .inl ⟨rfl, hpost⟩⟩
      rw [suffixed, lastIndex_append hpost]
      simp
    · refine ⟨pre, 46 :: post, rfl, fun k => ?_, .inr ⟨hpre, post, hpost, rfl⟩⟩
      rw [suffixed, lastIndex_append hpost, if_pos ⟨hdot, List.length_pos_iff.mpr hpre⟩, List.take_left,
        List.drop_left]
  · refine ⟨name, [], List.append_nil _, fun k => ?_, .inl ⟨rfl, fun hmem => hdot (List.mem_of_mem_tail hmem)⟩⟩
    simp [suffixed, hdot]

lemma suffixed_inj {name name' : List ℕ} {k k' : ℕ} (h : suffixed name k = suffixed name' k') :
    name = name' ∧ k = k' := by
  have hlabel (n : ℕ) : 46 ∉ Jcs.charCodes s!" ({n})" := by
    rw [charCodes_label]
    intro hmem
    have hrange := numberUnits_range (by simpa using hmem)
    omega
  -- an extension shows in the suffixed name, as a dot after the first unit
  have hmixed {stem stem' post : List ℕ} {m n : ℕ} (hstem : 46 ∉ stem.tail) (hne : stem' ≠ []) :
      stem ++ Jcs.charCodes s!" ({m})" ≠ stem' ++ Jcs.charCodes s!" ({n})" ++ 46 :: post := by
    intro heq
    have hmem : 46 ∈ (stem ++ Jcs.charCodes s!" ({m})").tail := by
      obtain ⟨u, rest, rfl⟩ := List.exists_cons_of_ne_nil hne
      rw [heq]
      simp
    cases stem with
    | nil => exact hlabel m (List.mem_of_mem_tail hmem)
    | cons u stem => exact (List.mem_append.mp hmem).elim hstem (hlabel m)
  obtain ⟨stem, ext, rfl, hsuffixed, hext⟩ := exists_suffixed name
  obtain ⟨stem', ext', rfl, hsuffixed', hext'⟩ := exists_suffixed name'
  rw [hsuffixed, hsuffixed'] at h
  rcases hext with ⟨rfl, hnot⟩ | ⟨hne, post, hpost, rfl⟩ <;> rcases hext' with ⟨rfl, hnot'⟩
    | ⟨hne', post', hpost', rfl⟩
  · simp only [List.append_nil] at h ⊢
    exact append_label_inj h
  · simp only [List.append_nil] at h hnot
    exact absurd h (hmixed hnot hne')
  · simp only [List.append_nil] at h hnot'
    exact absurd h.symm (hmixed hnot' hne)
  · obtain ⟨hfront, rfl⟩ := append_cons_inj_of_last hpost hpost' h
    obtain ⟨rfl, hk⟩ := append_label_inj hfront
    exact ⟨rfl, hk⟩

/-! ### A session -/

section

variable {α : Type} [BEq α] [LawfulBEq α]

/-- Each item with the number of its earlier occurrences. -/
def occurrences (past : List α) : List α → List (α × ℕ)
  | [] => []
  | x :: xs => (x, past.count x) :: occurrences (x :: past) xs

lemma mem_occurrences {past xs : List α} {x : α} {k : ℕ} :
    (x, k) ∈ occurrences past xs ↔ past.count x ≤ k ∧ k < past.count x + xs.count x := by
  induction xs generalizing past with
  | nil =>
    simp only [occurrences, List.not_mem_nil, List.count_nil, false_iff]
    omega
  | cons y xs ih =>
    rw [occurrences, List.mem_cons, ih, Prod.mk.injEq, List.count_cons, List.count_cons]
    by_cases hy : y = x
    · subst hy
      simp only [BEq.rfl, if_true, true_and]
      omega
    · simp [hy, Ne.symm hy]

lemma nodup_occurrences (past xs : List α) : (occurrences past xs).Nodup := by
  induction xs generalizing past with
  | nil => exact List.nodup_nil
  | cons x xs ih => exact List.nodup_cons.mpr ⟨by simp [mem_occurrences], ih _⟩

end

def handedName (name : List ℕ) (seen : ℕ) : List ℕ := if seen = 0 then name else suffixed name seen

lemma downloadNames_eq {used : List ℕ → Option ℕ} {past names : List (List ℕ)}
    (hused : ∀ name, (used name).getD 0 = min (past.count name) (2 ^ 53)) :
    downloadNames used names = (occurrences past names).map fun x => handedName x.1 (min x.2 (2 ^ 53)) := by
  induction names generalizing used past with
  | nil => rfl
  | cons name names ih =>
    rw [downloadNames, occurrences, List.map_cons, uniqueDownloadName, hused]
    refine congrArg (_ :: ·) (ih fun other => ?_)
    by_cases hother : other = name
    · rw [hother, Function.update_self, List.count_cons_self, Option.getD_some, countUp]
      split_ifs <;> omega
    · rw [Function.update_of_ne hother, List.count_cons_of_ne (Ne.symm hother), hused]

/-- The downloads of a session get distinct names exactly if no suffixed name that is handed out is also
asked for, and no name is asked for more often than the counter can tell. -/
theorem downloadNames_nodup_iff (names : List (List ℕ)) :
    (downloadNames (fun _ => none) names).Nodup ↔
      (∀ name, names.count name ≤ 2 ^ 53 + 1) ∧
        ∀ name k, 1 ≤ k → k < names.count name → suffixed name k ∉ names := by
  rw [downloadNames_eq fun _ =>
    by rw [List.count_nil]; rfl, List.nodup_map_iff_inj_on (nodup_occurrences [] names)]
  simp only [Prod.forall, mem_occurrences, List.count_nil, zero_le, true_and, zero_add, Prod.mk.injEq]
  constructor
  · intro hinj
    have hcount (name : List ℕ) : names.count name ≤ 2 ^ 53 + 1 := by
      by_contra hmany
      have hsame := hinj name (2 ^ 53)
        (by omega) name (2 ^ 53 + 1) (by omega) (by rw [min_self, min_eq_right (by omega)])
      omega
    refine ⟨hcount, fun name k hk hlt hmem => ?_⟩
    have hle := hcount name
    have hsame := hinj _ 0 (List.count_pos_iff.mpr hmem) name k hlt (by
      rw [min_eq_left (by omega), min_eq_left (by omega), handedName, handedName, if_pos rfl,
        if_neg (by omega)])
    omega
  · rintro ⟨hcount, hfree⟩ name k hk name' k' hk' heq
    have hle := hcount name
    have hle' := hcount name'
    rw [min_eq_left (by omega), min_eq_left (by omega), handedName, handedName] at heq
    split_ifs at heq with hzero hzero' hzero'
    · exact ⟨heq, by omega⟩
    · exact absurd (heq ▸ List.count_pos_iff.mp (by omega)) (hfree name' k' (by omega) hk')
    · exact absurd (heq ▸ List.count_pos_iff.mp (by omega)) (hfree name k (by omega) hk)
    · exact suffixed_inj heq

/-- The second of two downloads of `a.txt` gets the name of the file `a (1).txt`. -/
theorem repeated_download_shares_name :
    let handed := downloadNames (fun _ => none) (["a.txt", "a.txt", "a (1).txt"].map Jcs.charCodes)
    handed = ["a.txt", "a (1).txt", "a (1).txt"].map Jcs.charCodes ∧ ¬ handed.Nodup := by
  decide

end SignetDrive.Proofs
