import Mathlib.Data.List.TakeWhile
import SignetDrive.Model.Pagination

/-!
# Listings that are followed to their end

The browser stops at a cursor that is named twice in a row and takes the empty one for the end, the
command line follows every one.
-/

namespace SignetDrive.Proofs

open Relation

section Chase

variable {γ : Type} {next : γ → Option γ} {c d : γ}

def chase (next : γ → Option γ) : γ → ℕ → Option γ
  | c, 0 => some c
  | c, n + 1 => (next c).bind fun d => chase next d n

lemma chase_succ (c : γ) (n : ℕ) : chase next c (n + 1) = (chase next c n).bind next := by
  induction n generalizing c with
  | zero => simp [chase]
  | succ n ih =>
    rw [chase, chase]
    cases next c with
    | none => rfl
    | some d => exact ih d

/-- The moves lead from the start to a place that comes round again. -/
def ComesRound (next : γ → Option γ) (c : γ) : Prop :=
  ∃ d, ReflTransGen (fun a b => next a = some b) c d ∧ TransGen (fun a b => next a = some b) d d

lemma comesRound_of_chase (hfinite : {d | ∃ c, next c = some d}.Finite) (h : ∀ n, (chase next c n).isSome) :
    ComesRound next c := by
  choose f hf using fun n => Option.isSome_iff_exists.mp (h n)
  have hmove (n : ℕ) : next (f n) = some (f (n + 1)) := by
    have hsucc := hf (n + 1)
    rwa [chase_succ, hf n] at hsucc
  have hlater (i k : ℕ) : TransGen (fun a b => next a = some b) (f i) (f (i + k + 1)) := by
    induction k with
    | zero => exact .single (hmove i)
    | succ k ih => exact ih.tail (hmove (i + k + 1))
  have hmem (n : ℕ) : f (n + 1) ∈ {d | ∃ c, next c = some d} := ⟨f n, hmove n⟩
  obtain ⟨i, j, hij, heq⟩ := Set.Finite.exists_lt_map_eq_of_forall_mem hmem hfinite
  have hstart : f 0 = c := (Option.some_inj.mp (hf 0)).symm
  obtain ⟨k, rfl⟩ := Nat.exists_eq_add_of_lt hij
  refine ⟨f (i + 1), ?_, ?_⟩
  · have hreach := (hlater 0 i).to_reflTransGen
    rwa [hstart, Nat.zero_add] at hreach
  · have hround := hlater (i + 1) k
    rwa [show i + 1 + k + 1 = i + k + 1 + 1 by omega, ← heq] at hround

lemma chase_of_comesRound (h : ComesRound next c) (n : ℕ) : (chase next c n).isSome := by
  obtain ⟨d, hreach, hround⟩ := h
  have hleads : TransGen (fun a b => next a = some b) c d := hround.trans_right hreach
  clear hreach
  induction n generalizing c with
  | zero => rfl
  | succ n ih =>
    obtain ⟨e, he, hrest⟩ := TransGen.head'_iff.mp hleads
    rw [chase, he, Option.bind_some]
    rcases reflTransGen_iff_eq_or_transGen.mp hrest with rfl | hrest
    · exact ih hround
    · exact ih hrest

lemma exists_chase_eq_none (hfinite : {d | ∃ c, next c = some d}.Finite) :
    (∃ n, ¬ (chase next c n).isSome) ↔ ¬ ComesRound next c := by
  rw [← not_forall]
  exact not_congr ⟨comesRound_of_chase hfinite, chase_of_comesRound⟩

end Chase

variable {ε ε' α : Type} {get : PagedListing ε α} {round : Option String → Round ε' α} {c : Option String}

/-! ### The two drains -/

/-- The items of all pages from a cursor on, with the cursors named on the way; each page carries its
array, and the last one names no cursor. -/
inductive WholeListing (get : PagedListing ε α) : Option String → List String → List α → Prop
  | last {c : Option String} {items : List α} (h : get c = .ok ⟨.array items, none⟩) :
      WholeListing get c [] items
  | more {c : Option String} {d : String} {cursors : List String} {items rest : List α}
      (h : get c = .ok ⟨.array items, some d⟩) (hrest : WholeListing get (some d) cursors rest) :
      WholeListing get c (d :: cursors) (items ++ rest)

/-- The cursor of the next request, if there is one. -/
def following (round : Option String → Round ε' α) (c : Option String) : Option (Option String) :=
  match round c with
  | .more _ d => some (some d)
  | _ => none

/-- The requests of a drain from a cursor on. -/
def Reaches (round : Option String → Round ε' α) : Option String → Option String → Prop :=
  ReflTransGen fun a b => following round a = some b

/-- The cursors that the pages name. -/
def cursorsOf (get : PagedListing ε α) : Set String := {d | ∃ c items, get c = .ok ⟨items, some d⟩}

lemma drain_eq_none (rounds : ℕ) (all : List α) (c : Option String) :
    drain round rounds all c = none ↔ (chase (following round) c rounds).isSome := by
  induction rounds generalizing all c with
  | zero => simp [drain, chase]
  | succ rounds ih =>
    rw [drain, chase, following]
    cases round c <;> simp [ih]

lemma drain_ends_iff (hfinite : (cursorsOf get).Finite)
    (hmore : ∀ c items d, round c = .more items d → ∃ its, get c = .ok ⟨its, some d⟩) :
    (∃ rounds, (drain round rounds [] none).isSome) ↔ ¬ ComesRound (following round) none := by
  have hnext : {d | ∃ c, following round c = some d}.Finite := by
    refine (hfinite.image some).subset ?_
    rintro d ⟨c, hd⟩
    rw [following] at hd
    split at hd
    · rename_i items e hround
      obtain ⟨its, hget⟩ := hmore c items e hround
      exact ⟨e, ⟨c, its, hget⟩, Option.some_inj.mp hd⟩
    · cases hd
  rw [← exists_chase_eq_none hnext]
  exact exists_congr fun n => Option.isSome_iff_ne_none.trans (not_congr (drain_eq_none n [] none))

/-- What was returned is what was read, up to a page that names no cursor, and every page read carries
its array: the drain is still going on after one round for each cursor. -/
def ReturnsWhole (get : PagedListing ε α) (ended : ℕ → Option (Except ε' (List α))) (out : List α) : Prop :=
  ∃ cursors, WholeListing get none cursors out ∧ ended cursors.length = none

/-- The rounds of a drain over the pages of `get`; a good page is read as it is. -/
structure ReadsPages (get : PagedListing ε α) (round : Option String → Round ε' α)
    (Good : Option String → Prop) : Prop where
  last : ∀ {c items}, round c = .last items → (Good c ↔ get c = .ok ⟨.array items, none⟩)
  more : ∀ {c items d}, round c = .more items d → ∃ its, get c = .ok ⟨its, some d⟩ ∧
    (Good c ↔ its = .array items) ∧ ∀ rows, its = .array rows → rows = items

variable {rounds : ℕ} {cursors : List String} {items : List α}

lemma drain_ok_append {all out : List α} (h : drain round rounds all c = some (.ok out)) :
    ∃ rest, out = all ++ rest := by
  induction rounds generalizing all c with
  | zero => cases h
  | succ rounds ih =>
    rw [drain] at h
    split at h
    · cases h
    · cases h
      exact ⟨_, rfl⟩
    · obtain ⟨rest, rfl⟩ := ih h
      exact ⟨_, List.append_assoc ..⟩

lemma ReadsPages.whole_iff {Good : Option String → Prop} (h : ReadsPages get round Good) {all out : List α}
    (hrun : drain round rounds all c = some (.ok (all ++ out))) :
    (∃ cursors, WholeListing get c cursors out ∧ drain round cursors.length all c = none) ↔
      ∀ d, Reaches round c d → Good d := by
  induction rounds generalizing all out c with
  | zero => cases hrun
  | succ rounds ih =>
    rw [drain] at hrun
    cases hround : round c with
    | fails e =>
      rw [hround] at hrun
      cases hrun
    | last items =>
      simp only [hround, Option.some_inj, Except.ok.injEq, List.append_cancel_left_eq] at hrun
      subst hrun
      have hstop : ∀ d, Reaches round c d → c = d := by
        intro d hd
        rcases ReflTransGen.cases_head hd with heq | ⟨e, he, -⟩
        · exact heq
        · simp [following, hround] at he
      constructor
      · rintro ⟨cursors, hwhole, hnone⟩ d hd
        cases hwhole with
        | last hget => exact hstop d hd ▸ (h.last hround).mpr hget
        | more => simp [drain, hround] at hnone
      · intro hgood
        exact ⟨[], .last ((h.last hround).mp (hgood c .refl)), rfl⟩
    | more items d =>
      simp only [hround] at hrun
      obtain ⟨its, hget, hgood, hrows⟩ := h.more hround
      have hnext : following round c = some (some d) := by simp [following, hround]
      obtain ⟨rest, hrest⟩ := drain_ok_append hrun
      rw [hrest] at hrun
      rw [List.append_assoc, List.append_cancel_left_eq] at hrest
      have hbelow : (∀ e, Reaches round c e → Good e) ↔ Good c ∧ ∀ e, Reaches round (some d) e → Good e := by
        refine ⟨fun hall => ⟨hall c .refl, fun e he => hall e (.head hnext he)⟩, fun ⟨hc, hall⟩ e he => ?_⟩
        rcases ReflTransGen.cases_head he with rfl | ⟨b, hb, hrest⟩
        · exact hc
        · rw [hnext] at hb
          cases hb
          exact hall e hrest
      have hsucc (n : ℕ) : drain round (n + 1) all c = drain round n (all ++ items) (some d) := by
        rw [drain, hround]
      rw [hbelow, hgood, ← ih hrun]
      constructor
      · rintro ⟨cursors, hwhole, hnone⟩
        cases hwhole with
        | last hlast => cases hget.symm.trans hlast
        | more hmore hwhole =>
          cases hget.symm.trans hmore
          obtain rfl := hrows _ rfl
          rw [List.append_cancel_left_eq] at hrest
          rw [hrest] at hwhole
          exact ⟨rfl, _, hwhole, (hsucc _).symm.trans hnone⟩
      · rintro ⟨rfl, cursors, hwhole, hnone⟩
        rw [hrest]
        exact ⟨d :: cursors, .more hget hwhole, (hsucc _).trans hnone⟩

/-- The page has an array in its place. -/
def HasArray (page : ListingPage α) : Prop := ∃ items, page.items = .array items

lemma allPagesRound_reads (get : PagedListing ε α) : ReadsPages get (allPagesRound get)
    (fun c => ∀ page, get c = .ok page → HasArray page ∧ page.nextCursor ≠ some "") := by
  constructor <;> intro c items
  all_goals
    simp only [allPagesRound]
    rcases get c with e | ⟨_ | _ | _, _ | next⟩ <;> simp [PageItems.spread, HasArray]
  · split_ifs <;> simp_all
  all_goals
    intro d h
    split_ifs at h
    simp_all

lemma paginatedRound_reads (get : String → Except ε (ListingPage α)) (base : String) :
    ReadsPages (get ∘ pagePath base) (paginatedRound get base)
      (fun c => ∀ page, get (pagePath base c) = .ok page → HasArray page) := by
  constructor <;> intro c
  all_goals
    simp only [paginatedRound, Function.comp_apply]
    rcases get (pagePath base c) with e | ⟨_ | _ | _, _ | next⟩ <;> simp [PageItems.asArray, HasArray]

def threePages : PagedListing Empty ℕ
  | none => .ok ⟨.array [7], some "a"⟩
  | some c => if c = "a" then .ok ⟨.array [8, 9], some "b"⟩ else .ok ⟨.array [7], none⟩

def onPath (path : String) : Except Empty (ListingPage ℕ) := threePages (readCursor String.ofList path)

lemma threePages_ok (c : Option String) : ∃ page, threePages c = .ok page ∧ HasArray page ∧
    (page.nextCursor = none ∨ page.nextCursor = some "a" ∨ page.nextCursor = some "b") := by
  rcases c with _ | c
  · exact ⟨_, rfl, ⟨_, rfl⟩, .inr (.inl rfl)⟩
  · by_cases hc : c = "a"
    · exact ⟨_, if_pos hc, ⟨_, rfl⟩, .inr (.inr rfl)⟩
    · exact ⟨_, if_neg hc, ⟨_, rfl⟩, .inl rfl⟩

def alternating : PagedListing Empty ℕ
  | none => .ok ⟨.array [], some "a"⟩
  | some c => if c = "a" then .ok ⟨.array [], some "b"⟩ else .ok ⟨.array [], some "a"⟩

def answering {κ : Type} (items : PageItems ℕ) (next : Option String) : κ → Except Empty (ListingPage ℕ) :=
  fun _ => .ok ⟨items, next⟩

section

variable {F D : Type} {s : ListingServer ε F D} {name value front query : List Char}

lemma not_mem_of_urlSafe (h : UrlSafe value) : '#' ∉ value ∧ '?' ∉ value ∧ '&' ∉ value ∧ '=' ∉ value := by
  refine ⟨?_, ?_, ?_, ?_⟩ <;> intro hmem <;> simpa using h _ hmem

lemma cursorPart_eq (hname : UrlSafe name) (hvalue : UrlSafe value) :
    cursorPart s.decode (name ++ '=' :: value) =
      if String.ofList name = "cursor" then some (String.ofList value) else none := by
  have hbefore : ∀ c ∈ name, decide (c ≠ '=') = true := fun c hc =>
    decide_eq_true (ne_of_mem_of_not_mem hc (not_mem_of_urlSafe hname).2.2.2)
  rw [cursorPart, List.takeWhile_append_of_pos hbefore, List.dropWhile_append_of_pos hbefore]
  simp [s.decode_urlSafe name hname, s.decode_urlSafe value hvalue]

lemma readCursor_query (decode : List Char → String) (hfront : '?' ∉ front)
    (hpath : '#' ∉ front ++ '?' :: query) :
    readCursor decode (String.ofList (front ++ '?' :: query)) =
      (query.splitOn '&').findSome? (cursorPart decode) := by
  have hkept : (front ++ '?' :: query).takeWhile (· ≠ '#') = front ++ '?' :: query :=
    List.takeWhile_eq_self_iff.mpr fun c hc => decide_eq_true (ne_of_mem_of_not_mem hc hpath)
  rw [readCursor, String.toList_ofList, hkept,
    List.dropWhile_append_of_pos fun c hc => decide_eq_true (ne_of_mem_of_not_mem hc hfront)]
  simp

lemma urlSafe_cursor : UrlSafe "cursor".toList := by
  simp [UrlSafe]

lemma readCursor_files (d : D) {c : Option String} (hc : ∀ t ∈ c, UrlSafe t.toList) :
    readCursor s.decode (pagePath ("/v1/folders/" ++ s.idText d ++ "/files") c) = c := by
  set base := "/v1/folders/" ++ s.idText d ++ "/files" with hbase
  obtain ⟨hhash, hmark⟩ : '#' ∉ base.toList ∧ '?' ∉ base.toList := by
    simp [hbase, not_mem_of_urlSafe (s.idText_urlSafe d)]
  cases c with
  | none =>
    have hempty : s.decode [] = "" := s.decode_urlSafe [] nofun
    rw [pagePath, readCursor,
      List.takeWhile_eq_self_iff.mpr fun x hx => decide_eq_true (ne_of_mem_of_not_mem hx hhash),
      List.dropWhile_eq_nil_iff.mpr fun x hx => decide_eq_true (ne_of_mem_of_not_mem hx hmark)]
    simp [cursorPart, hempty]
  | some c =>
    have hpath : pagePath base (some c) =
        String.ofList (base.toList ++ '?' :: ("cursor".toList ++ '=' :: c.toList)) := by
      rw [pagePath, if_neg hmark]
      apply String.toList_inj.mp
      simp
    have hsafe := not_mem_of_urlSafe (hc c rfl)
    rw [hpath, readCursor_query s.decode hmark (by simp [hhash, hsafe]),
      List.splitOn_eq_singleton (by simp [hsafe]), List.findSome?_singleton,
      cursorPart_eq urlSafe_cursor (hc c rfl)]
    simp

lemma readCursor_folders (d : D) {c : Option String} (hc : ∀ t ∈ c, UrlSafe t.toList) :
    readCursor s.decode (pagePath ("/v1/folders?parent_folder_id=" ++ s.idText d) c) = c := by
  have hname : UrlSafe "parent_folder_id".toList := by
    simp [UrlSafe]
  have hid := not_mem_of_urlSafe (s.idText_urlSafe d)
  set parent := "parent_folder_id".toList ++ '=' :: (s.idText d).toList with hparent
  have hbase : "/v1/folders?parent_folder_id=" ++ s.idText d = String.ofList
      ("/v1/folders".toList ++ '?' :: parent) := by
    apply String.toList_inj.mp
    simp [hparent]
  cases c with
  | none =>
    rw [pagePath, hbase, readCursor_query s.decode (by decide) (by simp [hparent, hid]),
      List.splitOn_eq_singleton (by simp [hparent, hid]), List.findSome?_singleton,
      cursorPart_eq hname (s.idText_urlSafe d)]
    simp
  | some c =>
    have hpath : pagePath ("/v1/folders?parent_folder_id=" ++ s.idText d) (some c) = String.ofList
        ("/v1/folders".toList ++ '?' :: (parent ++ '&' :: ("cursor".toList ++ '=' :: c.toList))) := by
      rw [hbase]
      apply String.toList_inj.mp
      simp [pagePath]
    have hsafe := not_mem_of_urlSafe (hc c rfl)
    rw [hpath, readCursor_query s.decode (by decide) (by simp [hparent, hid, hsafe]),
      List.splitOn_append_cons_self_of_not_mem (by simp [hparent, hid]),
      List.splitOn_eq_singleton (by simp [hsafe]), List.findSome?_cons, List.findSome?_singleton,
      cursorPart_eq hname (s.idText_urlSafe d), cursorPart_eq urlSafe_cursor (hc c rfl)]
    simp

end

/-! ### Listings that are honestly cut -/

/-- The listing is cut into pages whose cursors are non-empty and distinct. -/
def HonestlyPaged (get : PagedListing ε α) (cursors : List String) (items : List α) : Prop :=
  WholeListing get none cursors items ∧ cursors.Nodup ∧ "" ∉ cursors

/-- The listing is so cut with cursors of the alphabet of base64url. -/
def SafelyPaged (get : PagedListing ε α) (items : List α) : Prop :=
  ∃ cursors, HonestlyPaged get cursors items ∧ ∀ d ∈ cursors, UrlSafe d.toList

lemma WholeListing.allPages (h : WholeListing get c cursors items) (hnodup : cursors.Nodup)
    (hempty : "" ∉ cursors) (hfresh : ∀ d ∈ cursors, some d ≠ c) (k : ℕ) (all : List α) :
    drain (allPagesRound get) (cursors.length + k + 1) all c = some (.ok (all ++ items)) := by
  induction h generalizing all with
  | last h => simp [drain, allPagesRound, h, PageItems.spread]
  | @more c d cursors items rest h hrest ih =>
    obtain ⟨hnew, hnodup⟩ := List.nodup_cons.mp hnodup
    obtain ⟨hne, hempty⟩ := not_or.mp (mt List.mem_cons.mpr hempty)
    have hothers (e : String) (he : e ∈ cursors) : some e ≠ some d := fun heq =>
      hnew (Option.some_inj.mp heq ▸ he)
    have hround : allPagesRound get c = .more items d := by
      simp [allPagesRound, h, PageItems.spread, hfresh d List.mem_cons_self, Ne.symm hne]
    rw [List.length_cons, show cursors.length + 1 + k + 1 = cursors.length + k + 1 + 1 by omega, drain, hround,
      ← List.append_assoc]
    exact ih hnodup hempty hothers (all ++ items)

lemma WholeListing.paginated {get : String → Except ε (ListingPage α)} {base : String}
    (h : WholeListing (get ∘ pagePath base) c cursors items) (k : ℕ) (all : List α) :
    drain (paginatedRound get base) (cursors.length + k + 1) all c = some (.ok (all ++ items)) := by
  induction h generalizing all with
  | last h =>
    rw [Function.comp_apply] at h
    simp [drain, paginatedRound, h, PageItems.asArray]
  | @more c d cursors items rest h hrest ih =>
    rw [Function.comp_apply] at h
    have hround : paginatedRound get base c = .more items d := by
      simp [paginatedRound, h, PageItems.asArray]
    rw [List.length_cons, show cursors.length + 1 + k + 1 = cursors.length + k + 1 + 1 by omega, drain, hround,
      ← List.append_assoc]
    exact ih (all ++ items)

/-- What the server reads off a path with one of the cursors is the cursor. -/
lemma WholeListing.onPaths {read : Option String → Option String} (h : WholeListing get c cursors items)
    (hread : ∀ e, (∀ t ∈ e, UrlSafe t.toList) → read e = e) (hc : ∀ t ∈ c, UrlSafe t.toList)
    (hsafe : ∀ d ∈ cursors, UrlSafe d.toList) : WholeListing (get ∘ read) c cursors items := by
  induction h with
  | last h => exact .last ((congrArg get (hread _ hc)).trans h)
  | more h _ ih =>
    refine .more ((congrArg get (hread _ hc)).trans h) (ih ?_ fun d hd => hsafe d (List.mem_cons_of_mem _ hd))
    rintro _ ⟨⟩
    exact hsafe _ List.mem_cons_self

lemma SafelyPaged.eventually_drained (h : SafelyPaged get items) {read : String → Option String}
    {base : String} (hread : ∀ e, (∀ t ∈ e, UrlSafe t.toList) → read (pagePath base e) = e) :
    ∀ᶠ rounds in Filter.atTop, fetchAllPages get rounds = some (.ok items) ∧
      fetchPaginated (get ∘ read) base rounds = some (.ok items) := by
  obtain ⟨cursors, ⟨hwhole, hnodup, hempty⟩, hsafe⟩ := h
  have hpaths : WholeListing ((get ∘ read) ∘ pagePath base) none cursors items :=
    hwhole.onPaths hread nofun hsafe
  filter_upwards [Filter.eventually_ge_atTop (cursors.length + 1)] with rounds hrounds
  obtain ⟨k, rfl⟩ := Nat.exists_eq_add_of_le hrounds
  rw [show cursors.length + 1 + k = cursors.length + k + 1 by omega]
  exact ⟨hwhole.allPages hnodup hempty (fun _ _ => Option.some_ne_none _) k [], hpaths.paginated k []⟩

/-- A list of folders, each with its files and the folders in it. -/
inductive Forest (F D : Type) where
  | nil
  | cons (id : D) (files : List F) (below rest : Forest F D)

namespace Forest

variable {F D : Type}

/-- The folders at the top. -/
def roots : Forest F D → List D
  | nil => []
  | cons id _ _ rest => id :: rest.roots

/-- The files of all folders, a later folder before an earlier one. -/
def allFiles : Forest F D → List F
  | nil => []
  | cons _ files below rest => rest.allFiles ++ files ++ below.allFiles

def size : Forest F D → ℕ
  | nil => 0
  | cons _ _ below rest => rest.size + (below.size + 1)

/-- Each folder is related to the list of its files and to that of its folders. -/
def Listed (ofFiles : D → List F → Prop) (ofFolders : D → List D → Prop) : Forest F D → Prop
  | nil => True
  | cons id files below rest => ofFiles id files ∧ ofFolders id below.roots ∧
      below.Listed ofFiles ofFolders ∧ rest.Listed ofFiles ofFolders

lemma Listed.eventually {ofFiles : D → List F → Prop} {ofFolders : D → List D → Prop}
    {files' : ℕ → D → List F → Prop} {folders' : ℕ → D → List D → Prop} {forest : Forest F D}
    (h : forest.Listed ofFiles ofFolders)
    (hfiles : ∀ id files, ofFiles id files → ∀ᶠ n in Filter.atTop, files' n id files)
    (hfolders : ∀ id subs, ofFolders id subs → ∀ᶠ n in Filter.atTop, folders' n id subs) :
    ∀ᶠ n in Filter.atTop, forest.Listed (files' n) (folders' n) := by
  induction forest with
  | nil => exact .of_forall fun _ => trivial
  | cons id files below rest ihbelow ihrest =>
    obtain ⟨hf, hd, hbelow, hrest⟩ := h
    filter_upwards [hfiles id files hf, hfolders id below.roots hd, ihbelow hbelow, ihrest hrest]
      with n h₁ h₂ h₃ h₄
    exact ⟨h₁, h₂, h₃, h₄⟩

end Forest

variable {F D δ : Type}

section

variable {ofFiles : D → Option (Except δ (List F))} {ofFolders : D → Option (Except δ (List D))}

/-- The stack is last in, first out: a folder is walked with all below it before what was there. -/
lemma walkUnder_forest {forest : Forest F D}
    (h : forest.Listed (fun id files => ofFiles id = some (.ok files))
    (fun id subs => ofFolders id = some (.ok subs))) (rounds : ℕ) (acc : List F) (stack : List D) :
    walkUnder ofFiles ofFolders (forest.size + rounds) acc (stack ++ forest.roots) =
      walkUnder ofFiles ofFolders rounds (acc ++ forest.allFiles) stack := by
  induction forest generalizing rounds acc stack with
  | nil => simp [Forest.size, Forest.roots, Forest.allFiles]
  | cons id files below rest ihbelow ihrest =>
    obtain ⟨hfiles, hfolders, hbelow, hrest⟩ := h
    rw [Forest.size, Forest.roots, List.append_cons, Nat.add_assoc, ihrest hrest,
      show below.size + 1 + rounds = below.size + rounds + 1 by omega, walkUnder]
    simp only [List.getLast?_concat, List.dropLast_concat, hfiles, hfolders]
    rw [ihbelow hbelow, Forest.allFiles, List.append_assoc, List.append_assoc, List.append_assoc]

lemma walkUnder_folder {folder : D} {files : List F} {below : Forest F D}
    (h : (Forest.cons folder files below .nil).Listed (fun id files => ofFiles id = some (.ok files))
      (fun id subs => ofFolders id = some (.ok subs)))
    (hrounds : (Forest.cons folder files below .nil).size + 1 ≤ rounds) :
    walkUnder ofFiles ofFolders rounds [] [folder] = some (.ok (files ++ below.allFiles)) := by
  obtain ⟨k, rfl⟩ := Nat.exists_eq_add_of_le hrounds
  rw [Nat.add_assoc, Nat.add_comm 1 k]
  exact walkUnder_forest h (k + 1) [] []

end

/-- With enough rounds both walks return the files of the folder and of all folders below it. -/
theorem filesUnder_eq_allFiles (s : ListingServer ε F D) (folder : D) (files : List F) (below : Forest F D)
    (hserved : (Forest.cons folder files below .nil).Listed (fun id => SafelyPaged (s.files id))
      (fun id => SafelyPaged (s.folders id))) :
    ∃ enough, ∀ rounds ≥ enough,
      filesUnder s rounds folder = some (.ok (files ++ below.allFiles)) ∧
      cliFilesUnder s rounds folder = some (.ok (files ++ below.allFiles)) := by
  have hfiles (id : D) (items : List F) (h : SafelyPaged (s.files id) items) :=
    h.eventually_drained fun _ => readCursor_files (s := s) id
  have hfolders (id : D) (items : List D) (h : SafelyPaged (s.folders id) items) :=
    h.eventually_drained fun _ => readCursor_folders (s := s) id
  have hweb := hserved.eventually (fun id items h => (hfiles id items h).mono fun _ h => h.1)
    (fun id items h => (hfolders id items h).mono fun _ h => h.1)
  have hcli := hserved.eventually (fun id items h => (hfiles id items h).mono fun _ h => h.2)
    (fun id items h => (hfolders id items h).mono fun _ h => h.2)
  have hrounds := Filter.eventually_ge_atTop ((Forest.cons folder files below .nil).size + 1)
  refine Filter.eventually_atTop.mp ?_
  filter_upwards [hweb, hcli, hrounds] with rounds hweb hcli hrounds
  exact ⟨walkUnder_folder hweb hrounds, walkUnder_folder hcli hrounds⟩

def serving (files folders : ℕ → PagedListing String ℕ) : ListingServer String ℕ ℕ where
  files := files
  folders := folders
  idText _ := "0"
  idText_urlSafe _ := by simp [UrlSafe]
  decode := String.ofList
  decode_urlSafe _ _ := rfl

def twoFolders : ListingServer String ℕ ℕ :=
  serving (fun d c =>
    if d = 1 then .ok ⟨.array [12], none⟩
    else if c = none then .ok ⟨.array [10], some "a"⟩
    else .ok ⟨.array [11], none⟩)
  fun d _ => .ok ⟨.array (if d = 0 then [1] else []), none⟩

theorem twoFolders_filesUnder : ∃ enough, ∀ rounds ≥ enough,
    filesUnder twoFolders rounds 0 = some (.ok [10, 11, 12]) ∧
    cliFilesUnder twoFolders rounds 0 = some (.ok [10, 11, 12]) := by
  have hzero : SafelyPaged (twoFolders.files 0) ([10] ++ [11]) :=
    ⟨["a"], ⟨.more rfl (.last rfl), by decide, by decide⟩, by simp [UrlSafe]⟩
  have hone : SafelyPaged (twoFolders.files 1) [12] := ⟨[], ⟨.last rfl, by decide, by decide⟩, nofun⟩
  have hfolders (d : ℕ) : SafelyPaged (twoFolders.folders d) (if d = 0 then [1] else []) :=
    ⟨[], ⟨.last rfl, by decide, by decide⟩, nofun⟩
  exact filesUnder_eq_allFiles twoFolders 0 [10, 11] (.cons 1 [12] .nil .nil)
    ⟨hzero, hfolders 0, ⟨hone, hfolders 1, trivial, trivial⟩, trivial⟩

def ampersandServer : ListingServer String ℕ ℕ :=
  serving (fun _ c =>
    if c = none then .ok ⟨.array [10], some "a&b"⟩
    else if c = some "a&b" then .ok ⟨.array [11], none⟩
    else .error "invalid cursor")
  fun _ _ => .ok ⟨.array [], none⟩

/-- The server reads the cursor `a&b` of the command line as `a`, and the walk of a folder fails that
the browser walks to its end. -/
theorem ampersand_cursor : HonestlyPaged (ampersandServer.files 0) ["a&b"] [10, 11] ∧
    HonestlyPaged (ampersandServer.folders 0) [] [] ∧
    ∀ rounds ≥ 2, filesUnder ampersandServer rounds 0 = some (.ok [10, 11]) ∧
      cliFilesUnder ampersandServer rounds 0 = some (.error "invalid cursor") := by
  have hwhole : WholeListing (ampersandServer.files 0) none ["a&b"] ([10] ++ [11]) := .more rfl (.last rfl)
  refine ⟨⟨hwhole, by decide, by decide⟩, ⟨.last rfl, by decide, by decide⟩, fun rounds hrounds => ?_⟩
  obtain ⟨k, rfl⟩ := Nat.exists_eq_add_of_le' hrounds
  exact ⟨rfl, rfl⟩

end SignetDrive.Proofs
