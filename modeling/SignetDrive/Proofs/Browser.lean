import SignetDrive.Model.Browser

/-!
# What the web drive shows under its path

A load shows the rows of the folder it was begun for when they arrive, whatever folder is open by then.
-/

namespace SignetDrive.Proofs

open Browser
open Automaton (run Throughout)

variable {s t : Store} {k : ℕ} {load : Load} {loads : List Load}

/-! ### The property of the rows -/

def ListingOf (s : Store) (folderId : String) : Prop :=
  ∃ answer ∈ s.answers, answer.folderId = folderId ∧ s.childFolders.map (·.view) = answer.folders ∧
    s.files.map (·.view) = answer.files

/-- The rows are those of the current folder. -/
def ShowsCurrent (s : Store) : Prop :=
  match s.current with
  | none => s.childFolders = [] ∧ s.files = []
  | some folder => ListingOf s folder.folderId

/-- The load of a navigation is answered, loads show their rows in the order of their begin, and none
is pending when the path is emptied. -/
def InTurn (s : Store) : Event → Prop
  | .load k (.foldersNamed _) => k = 0
  | .load k (.filesNamed _) => k = 0
  | .load k .listFailed => ∀ load, s.loads[k]? = some load → load.navigated = false
  | .goHome => s.loads = []
  | .mutated k ok => ok = true → s.mutations[k]? = some .leave → s.loads = []
  | _ => True

/-! ### The queue of loads -/

lemma mem_tail_concat {x new : Load} (hx : x ∈ (loads ++ [new]).tail) : x ∈ loads.tail ∨ x = new := by
  cases loads with
  | nil => simp at hx
  | cons first loads => simpa using hx

lemma mem_tail_set {x new : Load} (hx : x ∈ (loads.set k new).tail) : x ∈ loads.tail ∨ x = new := by
  cases loads with
  | nil => simp at hx
  | cons first loads =>
    cases k with
    | zero => exact .inl hx
    | succ k => exact List.mem_or_eq_of_mem_set hx

lemma mem_tail_of_mem_tail_eraseIdx {x : Load} (hx : x ∈ (loads.eraseIdx k).tail) : x ∈ loads.tail := by
  cases loads with
  | nil => simp at hx
  | cons first loads =>
    cases k with
    | zero => exact List.mem_of_mem_tail hx
    | succ k => exact List.mem_of_mem_eraseIdx hx

def HalfShown (load : Load) : Prop := ∃ files, load.stage = .namingFiles files

/-- The rows will be those of the target once the pending loads are through. A refresh loads the folder
that the load before it has shown. -/
def Follows (known : String → Prop) (target : String) : List Load → Prop
  | [] => known target
  | load :: loads =>
    (load.navigated = false → ¬ HalfShown load → known load.folder.folderId) ∧
      Follows (· = load.folder.folderId) target loads

section Follows

variable {known known' : String → Prop} {target : String}

section

variable (h : Follows known target loads)

include h

lemma Follows.mono (hknown : ∀ id, known id → known' id) :
    Follows known' target loads := by
  cases loads with
  | nil => exact hknown target h
  | cons load loads =>
    refine ⟨fun hrefresh hhalf => ?_, h.2⟩
    exact hknown _ (h.1 hrefresh hhalf)

lemma Follows.concat (folder : Crumb) (navigated : Bool) (stage : Stage)
    (hrefresh : navigated = false → folder.folderId = target) :
    Follows known folder.folderId (loads ++ [⟨folder, navigated, stage⟩]) := by
  induction loads generalizing known with
  | nil =>
    refine ⟨fun hnavigated _ => ?_, rfl⟩
    rw [hrefresh hnavigated]
    exact h
  | cons load loads ih => exact ⟨h.1, ih h.2⟩

lemma Follows.eraseIdx (hk : loads[k]? = some load)
    (hrefresh : load.navigated = false) (hhalf : ¬ HalfShown load) :
    Follows known target (loads.eraseIdx k) := by
  induction loads generalizing known k with
  | nil => simp at hk
  | cons first loads ih =>
    cases k with
    | zero =>
      obtain rfl : first = load := by simpa using hk
      refine h.2.mono fun id hid => ?_
      rw [hid]
      exact h.1 hrefresh hhalf
    | succ k => exact ⟨h.1, ih h.2 hk⟩

lemma Follows.set (hk : loads[k]? = some load) (hhalf : ¬ HalfShown load)
    (stage : Stage) : Follows known target (loads.set k ⟨load.folder, load.navigated, stage⟩) := by
  induction loads generalizing known k with
  | nil => exact h
  | cons first loads ih =>
    cases k with
    | zero =>
      obtain rfl : first = load := by simpa using hk
      exact ⟨fun hrefresh _ => h.1 hrefresh hhalf, h.2⟩
    | succ k => exact ⟨h.1, ih h.2 hk⟩

end

end Follows

/-! ### The rows, step by step -/

def Backed (s : Store) (load : Load) : Prop :=
  match load.stage with
  | .listing => True
  | .namingFolders folders files => ⟨load.folder.folderId, folders, files⟩ ∈ s.answers
  | .namingFiles files => ⟨load.folder.folderId, s.childFolders.map (·.view), files⟩ ∈ s.answers

lemma Backed.answered (h : Backed s load) (more : List Answer) :
    Backed { s with loads := loads, answers := s.answers ++ more } load := by
  obtain ⟨folder, navigated, stage⟩ := load
  cases stage with
  | listing => trivial
  | namingFolders | namingFiles => exact List.mem_append_left _ h

lemma Backed.renamed (h : Backed s load) (hhalf : ¬ HalfShown load) {childFolders : List NamedFolder} :
    Backed { s with childFolders := childFolders, loads := loads } load := by
  obtain ⟨folder, navigated, stage⟩ := load
  cases stage with
  | listing => trivial
  | namingFolders folders files => exact h
  | namingFiles files => exact absurd ⟨files, rfl⟩ hhalf

structure RowsInvariant (s : Store) : Prop where
  home : s.current = none → s.loads = [] ∧ s.childFolders = [] ∧ s.files = []
  follows : ∀ folder, s.current = some folder → Follows (ListingOf s) folder.folderId s.loads
  backed : ∀ load ∈ s.loads, Backed s load
  /-- Only the oldest load has shown a part of its rows. -/
  waiting : ∀ load ∈ s.loads.tail, ¬ HalfShown load

lemma rowsInvariant_empty : RowsInvariant Store.empty where
  home _ := ⟨rfl, rfl, rfl⟩
  follows folder hfolder := by simp [Store.current, Store.empty] at hfolder
  backed load hload := by simp [Store.empty] at hload
  waiting load hload := by simp [Store.empty] at hload

lemma RowsInvariant.showsCurrent (hs : RowsInvariant s) (hloads : s.loads = []) : ShowsCurrent s := by
  unfold ShowsCurrent
  cases hcurrent : s.current with
  | none => exact (hs.home hcurrent).2
  | some folder =>
    have hfollows := hs.follows folder hcurrent
    rwa [hloads] at hfollows

lemma RowsInvariant.beginLoad (hs : RowsInvariant s) (path : List Crumb) (navigated : Bool)
    (hempty : path = [] → s.current = none) (hrefresh : navigated = false → path = s.path) :
    RowsInvariant (beginLoad navigated { s with path := path }) := by
  have hlast : Store.current { s with path := path } = path.getLast? := rfl
  unfold Browser.beginLoad
  rw [hlast]
  cases hfolder : path.getLast? with
  | none =>
    have hhome := hs.home (hempty (List.getLast?_eq_none_iff.mp hfolder))
    refine ⟨fun _ => hhome, fun folder hcurrent => ?_, hs.backed, hs.waiting⟩
    simp [hlast, hfolder] at hcurrent
  | some folder =>
    have hlisting : ¬ HalfShown ⟨folder, navigated, .listing⟩ := by simp [HalfShown]
    refine ⟨fun hcurrent => ?_, fun folder' hcurrent => ?_, fun load hload => ?_, fun load hload => ?_⟩
    · exact absurd (hfolder.symm.trans hcurrent) (by simp)
    · obtain rfl : folder = folder' := Option.some_inj.mp (hfolder.symm.trans hcurrent)
      cases hbefore : s.current with
      | none =>
        rw [(hs.home hbefore).1]
        refine ⟨fun hfalse => ?_, rfl⟩
        rw [hrefresh hfalse] at hfolder
        exact absurd (hfolder.symm.trans hbefore) (by simp)
      | some before =>
        apply (hs.follows before hbefore).concat
        intro hfalse
        rw [hrefresh hfalse] at hfolder
        rw [Option.some_inj.mp (hfolder.symm.trans hbefore)]
    · rcases List.mem_append.mp hload with hold | hnew
      · exact hs.backed load hold
      · rw [List.mem_singleton.mp hnew]
        trivial
    · rcases mem_tail_concat hload with hold | rfl
      · exact hs.waiting load hold
      · exact hlisting

lemma rowsInvariant_emptied (hpath : s.path = []) (hloads : s.loads = [])
    (hrows : s.childFolders = [] ∧ s.files = []) : RowsInvariant s where
  home _ := ⟨hloads, hrows⟩
  follows folder hcurrent := by simp [Store.current, hpath] at hcurrent
  backed load hload := by simp [hloads] at hload
  waiting load hload := by simp [hloads] at hload

/-! ### The rows and a load that goes on -/

section

variable (hs : RowsInvariant s)

include hs

variable {folder : Crumb}

lemma RowsInvariant.not_home {P : Prop} (hk : s.loads[k]? = some load) (hcurrent : s.current = none) : P := by
  simp [(hs.home hcurrent).1] at hk

variable {files : List FileView} {folders : List FolderView} {navigated : Bool}

lemma RowsInvariant.listed (hk : s.loads[k]? = some ⟨folder, navigated, .listing⟩) :
    RowsInvariant { s with
      loads := s.loads.set k ⟨folder, navigated, .namingFolders folders files⟩
      answers := s.answers ++ [⟨folder.folderId, folders, files⟩] } := by
  have hlisting : ¬ HalfShown ⟨folder, navigated, .listing⟩ := by simp [HalfShown]
  refine ⟨hs.not_home hk, fun current hcurrent => ?_, fun load hload => ?_, fun load hload => ?_⟩
  · refine ((hs.follows current hcurrent).set hk hlisting _).mono ?_
    rintro id ⟨answer, hanswer, hrows⟩
    exact ⟨answer, List.mem_append_left _ hanswer, hrows⟩
  · rcases List.mem_or_eq_of_mem_set hload with hold | rfl
    · exact (hs.backed load hold).answered _
    · exact List.mem_concat_self
  · rcases mem_tail_set hload with hold | rfl
    · exact hs.waiting load hold
    · simp [HalfShown]

lemma RowsInvariant.listFailed
    (hk : s.loads[k]? = some ⟨folder, false, .listing⟩) :
    RowsInvariant { s with loads := s.loads.eraseIdx k } := by
  refine ⟨hs.not_home hk, fun current hcurrent => ?_, fun load hload => ?_, fun load hload => ?_⟩
  · exact (hs.follows current hcurrent).eraseIdx hk rfl (by simp [HalfShown])
  · exact hs.backed load (List.mem_of_mem_eraseIdx hload)
  · exact hs.waiting load (mem_tail_of_mem_tail_eraseIdx hload)

lemma RowsInvariant.foldersNamed {name : FolderView → Option String}
    (hk : s.loads[0]? = some ⟨folder, navigated, .namingFolders folders files⟩) :
    RowsInvariant { s with
      childFolders := folders.map (nameFolder name)
      loads := s.loads.set 0 ⟨folder, navigated, .namingFiles files⟩ } := by
  obtain ⟨rest, hloads⟩ := List.head?_eq_some_iff.mp (List.head?_eq_getElem?.trans hk)
  have hbacked := hs.backed
  have hwaiting := hs.waiting
  rw [hloads] at hbacked hwaiting
  refine ⟨hs.not_home hk, fun current hcurrent => ?_, fun load hload => ?_, fun load hload => ?_⟩
  · have hfollows := hs.follows current hcurrent
    rw [hloads] at hfollows
    simp only [hloads, List.set_cons_zero]
    exact ⟨fun _ hhalf => absurd ⟨files, rfl⟩ hhalf, hfollows.2⟩
  · simp only [hloads, List.set_cons_zero] at hload
    rcases List.mem_cons.mp hload with rfl | hrest
    · have hanswer := hbacked _ List.mem_cons_self
      simpa [Backed, nameFolder, Function.comp_def] using hanswer
    · exact (hbacked load (List.mem_cons_of_mem _ hrest)).renamed (hwaiting load hrest)
  · simp only [hloads, List.set_cons_zero] at hload
    exact hwaiting load hload

lemma RowsInvariant.filesNamed {name : FileView → Option String}
    (hk : s.loads[0]? = some ⟨folder, navigated, .namingFiles files⟩) :
    RowsInvariant { s with files := files.map (nameFile name), loads := s.loads.eraseIdx 0 } := by
  obtain ⟨rest, hloads⟩ := List.head?_eq_some_iff.mp (List.head?_eq_getElem?.trans hk)
  have hbacked := hs.backed
  have hwaiting := hs.waiting
  rw [hloads] at hbacked hwaiting
  refine ⟨hs.not_home hk, fun current hcurrent => ?_, fun load hload => ?_, fun load hload => ?_⟩
  · have hfollows := hs.follows current hcurrent
    rw [hloads] at hfollows
    simp only [hloads, List.eraseIdx_cons_zero]
    -- from here on the rows are those of the folder of this load
    refine hfollows.2.mono fun id hid => ?_
    have hanswer : ⟨folder.folderId, s.childFolders.map (·.view), files⟩ ∈ s.answers :=
      hbacked _ List.mem_cons_self
    refine ⟨_, hanswer, hid.symm, rfl, ?_⟩
    simp [nameFile, Function.comp_def]
  · simp only [hloads, List.eraseIdx_cons_zero] at hload
    exact hbacked load (List.mem_cons_of_mem _ hload)
  · simp only [hloads, List.eraseIdx_cons_zero] at hload
    exact hwaiting load (List.mem_of_mem_tail hload)

lemma RowsInvariant.stepLoad {event : LoadEvent} (hk : s.loads[k]? = some load)
    (hturn : InTurn s (.load k event)) (h : stepLoad s k load event = some t) : RowsInvariant t := by
  obtain ⟨folder, navigated, stage⟩ := load
  cases event with
  | listed folders files =>
    cases stage with
    | listing =>
      rw [← Option.some_inj.mp h]
      exact hs.listed hk
    | namingFolders | namingFiles => cases h
  | listFailed =>
    cases stage with
    | listing =>
      obtain rfl : navigated = false := hturn _ hk
      rw [← Option.some_inj.mp h]
      exact hs.listFailed hk
    | namingFolders | namingFiles => cases h
  | foldersNamed name =>
    cases stage with
    | namingFolders folders files =>
      obtain rfl : k = 0 := hturn
      rw [← Option.some_inj.mp h]
      exact hs.foldersNamed hk
    | listing | namingFiles => cases h
  | filesNamed name =>
    cases stage with
    | namingFiles files =>
      obtain rfl : k = 0 := hturn
      rw [← Option.some_inj.mp h]
      exact hs.filesNamed hk
    | listing | namingFolders => cases h

end

/-! ### What the other steps change -/

lemma stepRefresh_cases {refresh : Refresh} {event : RefreshEvent}
    (h : stepRefresh s k refresh event = some t) : ∃ topLevel sharedWithMe refreshes,
      t = { s with topLevel := topLevel, sharedWithMe := sharedWithMe, refreshes := refreshes } ∨
        t = beginLoad false { s with refreshes := refreshes } := by
  unfold stepRefresh at h
  split at h
  all_goals first
    | exact ⟨_, _, _, .inl (Option.some_inj.mp h).symm⟩
    | exact ⟨s.topLevel, s.sharedWithMe, _, .inr (Option.some_inj.mp h).symm⟩
    | cases h

lemma openRename_cases (selected : Selected) (s : Store) :
    openRename selected s = s ∨
      ∃ item, openRename selected s = { s with dialog := some (.rename item) } ∧
        ∀ file, item = .file file → file ∈ s.files ∧ ∃ id, selected = .file id := by
  unfold openRename
  cases hitem : singleSelection selected s with
  | none => exact .inl rfl
  | some item =>
    refine .inr ⟨item, rfl, fun file hfile => ?_⟩
    subst hfile
    cases selected with
    | file id =>
      obtain ⟨found, hfound, heq⟩ := Option.map_eq_some_iff.mp hitem
      rw [← RowItem.file.inj heq]
      exact ⟨List.mem_of_find?_eq_some hfound, id, rfl⟩
    | folder id =>
      obtain ⟨found, -, heq⟩ := Option.map_eq_some_iff.mp hitem
      cases heq

lemma rename_cases (trimmed : String) (s : Store) :
    rename trimmed s = s ∨ rename trimmed s = beginMutation .request s ∨
      ∃ file, s.dialog = some (.rename (.file file)) ∧
        rename trimmed s =
          beginMutation .request
            { s with renames := s.renames ++ [⟨file.view.file_id, s.currentRootId.getD "", trimmed⟩] } := by
  unfold rename
  split
  · rename_i item hdialog
    split
    · exact .inl rfl
    · cases item with
      | file file => exact .inr (.inr ⟨file, hdialog, rfl⟩)
      | folder folder => exact .inr (.inl rfl)
  · exact .inl rfl

lemma mutated_cases {ok : Bool} (h : step s (.mutated k ok) = some t) :
    (s.mutations[k]? = some .leave ∧ ok = true ∧
        t = { s with path := [], childFolders := [], files := [], dialog := none,
                     refreshes := s.refreshes ++ [.quota], mutations := s.mutations.eraseIdx k }) ∨
      t = { s with dialog := none, refreshes := s.refreshes ++ [.quota], mutations := s.mutations.eraseIdx k } ∨
      t = { s with mutations := s.mutations.eraseIdx k } := by
  obtain ⟨mutation, hmutation, rfl⟩ := Option.map_eq_some_iff.mp h
  cases ok with
  | false => exact .inr (.inr rfl)
  | true =>
    cases mutation with
    | leave => exact .inl ⟨hmutation, rfl, rfl⟩
    | request => exact .inr (.inl rfl)

lemma RowsInvariant.step (hs : RowsInvariant s) {e : Event} (hturn : InTurn s e) (h : step s e = some t) :
    RowsInvariant t := by
  cases e with
  | openTopLevel | openChild =>
    rw [← Option.some_inj.mp h]
    exact hs.beginLoad _ true (by simp) (by simp)
  | navigateTo index =>
    rw [← Option.some_inj.mp h]
    refine hs.beginLoad _ true (fun hempty => ?_) (by simp)
    have hpath : s.path = [] := by simpa using hempty
    simp [Store.current, hpath]
  | goHome =>
    rw [← Option.some_inj.mp h]
    exact rowsInvariant_emptied rfl hturn ⟨rfl, rfl⟩
  | openTreePath path =>
    rw [← Option.some_inj.mp h]
    unfold openTreePath
    split
    · exact hs
    · exact hs.beginLoad path true (fun hempty => absurd hempty ‹_›) (by simp)
  | load k event =>
    obtain ⟨load, hk, hstep⟩ := Option.bind_eq_some_iff.mp h
    exact hs.stepLoad hk hturn hstep
  | refreshing k event =>
    obtain ⟨refresh, -, hstep⟩ := Option.bind_eq_some_iff.mp h
    obtain ⟨topLevel, sharedWithMe, refreshes, rfl | rfl⟩ := stepRefresh_cases hstep
    · exact ⟨hs.home, hs.follows, hs.backed, hs.waiting⟩
    · have hs' : RowsInvariant { s with refreshes := refreshes } := ⟨hs.home, hs.follows, hs.backed, hs.waiting⟩
      exact hs'.beginLoad s.path false (fun hempty => by simp [Store.current, hempty]) (fun _ => rfl)
  | openRename selected =>
    rw [← Option.some_inj.mp h]
    obtain heq | ⟨item, heq, -⟩ := openRename_cases selected s
    · rwa [heq]
    · rw [heq]
      exact ⟨hs.home, hs.follows, hs.backed, hs.waiting⟩
  | rename trimmed =>
    rw [← Option.some_inj.mp h]
    obtain heq | heq | ⟨file, -, heq⟩ := rename_cases trimmed s
    · rwa [heq]
    · rw [heq]
      exact ⟨hs.home, hs.follows, hs.backed, hs.waiting⟩
    · rw [heq]
      exact ⟨hs.home, hs.follows, hs.backed, hs.waiting⟩
  | mutated k ok =>
    obtain ⟨hleave, hok, rfl⟩ | rfl | rfl := mutated_cases h
    · exact rowsInvariant_emptied rfl (hturn hok hleave) ⟨rfl, rfl⟩
    · exact ⟨hs.home, hs.follows, hs.backed, hs.waiting⟩
    · exact ⟨hs.home, hs.follows, hs.backed, hs.waiting⟩
  | refresh | openContextMenu | closeContextMenu | openRenameItem | openDialog | closeDialog | mutate =>
    rw [← Option.some_inj.mp h]
    exact ⟨hs.home, hs.follows, hs.backed, hs.waiting⟩

/-! ### The root folder of a rename -/

/-- Which root folder a folder and a file belong to. A move stays under one root. -/
structure Roots where
  rootOf : String → String
  rootOfFile : String → String

/-- A folder's list holds what belongs to its root, the paths that are opened carry their root, and
a click is on a row that is shown. -/
def Truthful (w : Roots) (s : Store) : Event → Prop
  | .load k (.listed folders files) => ∀ load, s.loads[k]? = some load →
      (∀ f ∈ folders, w.rootOf f.folder_id = w.rootOf load.folder.folderId) ∧
        ∀ f ∈ files, w.rootOfFile f.file_id = w.rootOf load.folder.folderId
  | .openTopLevel folder => w.rootOf folder.view.folder_id = folder.view.folder_id
  | .openChild folder => folder ∈ s.childFolders
  | .openTreePath path => ∀ crumb ∈ path, w.rootOf crumb.folderId = crumb.rootFolderId ∧
      path.head?.map (·.rootFolderId) = some crumb.rootFolderId
  | .openContextMenu (.file file) => file ∈ s.files
  | .openRenameItem item => s.contextMenu = some item
  | _ => True

/-- The rename dialog or the context menu holds the file. -/
def Held (s : Store) (file : NamedFile) : Prop :=
  s.dialog = some (.rename (.file file)) ∨ s.contextMenu = some (.file file)

/-- A row is taken up only while no load is pending, and the open root stays while a file is held. -/
def RootKept (s : Store) : Event → Prop
  | .openRename (.file _) => s.loads = []
  | .openContextMenu (.file _) => s.loads = []
  | .openChild _ => s.loads = []
  | .openTopLevel folder => ∀ file, Held s file → s.currentRootId = some folder.view.folder_id
  | .openTreePath path => path ≠ [] → ∀ file, Held s file → s.currentRootId = path.head?.map (·.rootFolderId)
  | .goHome => ∀ file, ¬ Held s file
  | .mutated k ok => ok = true → s.mutations[k]? = some .leave → ∀ file, s.contextMenu ≠ some (.file file)
  | _ => True

variable {w : Roots}

structure RootsInvariant (w : Roots) (s : Store) : Prop where
  path : ∀ crumb ∈ s.path, w.rootOf crumb.folderId = crumb.rootFolderId ∧
    s.currentRootId = some crumb.rootFolderId
  folders : ∀ answer ∈ s.answers, ∀ f ∈ answer.folders, w.rootOf f.folder_id = w.rootOf answer.folderId
  files : ∀ answer ∈ s.answers, ∀ f ∈ answer.files, w.rootOfFile f.file_id = w.rootOf answer.folderId
  held : ∀ file, Held s file → s.currentRootId = some (w.rootOfFile file.view.file_id)
  renames : ∀ r ∈ s.renames, r.rootFolderId = w.rootOfFile r.file_id

lemma rootsInvariant_empty : RootsInvariant w Store.empty := by
  refine ⟨?_, ?_, ?_, ?_, ?_⟩ <;> simp [Store.empty, Held]

section

variable (hs : RowsInvariant s) (hw : RootsInvariant w s) (hloads : s.loads = [])

include hs hw hloads

lemma RowsInvariant.listing_of_mem (hrows : s.childFolders ≠ [] ∨ s.files ≠ []) :
    ∃ folderId, ListingOf s folderId ∧ s.currentRootId = some (w.rootOf folderId) := by
  have hshows := hs.showsCurrent hloads
  unfold ShowsCurrent at hshows
  cases hcurrent : s.current with
  | none =>
    rw [hcurrent] at hshows
    rcases hrows with hfolders | hfiles
    · exact absurd hshows.1 hfolders
    · exact absurd hshows.2 hfiles
  | some folder =>
    rw [hcurrent] at hshows
    have hpath := hw.path folder (List.mem_of_getLast? hcurrent)
    exact ⟨folder.folderId, hshows, hpath.1 ▸ hpath.2⟩

lemma RowsInvariant.root_of_file {file : NamedFile} (hfile : file ∈ s.files) :
    s.currentRootId = some (w.rootOfFile file.view.file_id) := by
  obtain ⟨folderId, ⟨answer, hanswer, rfl, -, hviews⟩, hroot⟩ :=
    hs.listing_of_mem hw hloads (.inr (List.ne_nil_of_mem hfile))
  rw [hroot, hw.files answer hanswer file.view (hviews ▸ List.mem_map_of_mem hfile)]

lemma RowsInvariant.root_of_folder {folder : NamedFolder} (hfolder : folder ∈ s.childFolders) :
    s.currentRootId = some (w.rootOf folder.view.folder_id) := by
  obtain ⟨folderId, ⟨answer, hanswer, rfl, hviews, -⟩, hroot⟩ :=
    hs.listing_of_mem hw hloads (.inl (List.ne_nil_of_mem hfolder))
  rw [hroot, hw.folders answer hanswer folder.view (hviews ▸ List.mem_map_of_mem hfolder)]

end

/-! ### The roots, step by step -/

lemma RootsInvariant.beginLoad (hw : RootsInvariant w s) (navigated : Bool) :
    RootsInvariant w (beginLoad navigated s) := by
  unfold Browser.beginLoad
  cases s.current with
  | none => exact hw
  | some folder => exact ⟨hw.path, hw.folders, hw.files, hw.held, hw.renames⟩

lemma RootsInvariant.setPath (hw : RootsInvariant w s) {path : List Crumb}
    (hpath : ∀ crumb ∈ path, w.rootOf crumb.folderId = crumb.rootFolderId ∧
      path.head?.map (·.rootFolderId) = some crumb.rootFolderId)
    (hheld : ∀ file, Held s file → s.currentRootId = path.head?.map (·.rootFolderId)) :
    RootsInvariant w { s with path := path } where
  path := hpath
  folders := hw.folders
  files := hw.files
  held file hfile := (hheld file hfile).symm.trans (hw.held file hfile)
  renames := hw.renames

lemma RootsInvariant.openChild (hs : RowsInvariant s) (hw : RootsInvariant w s) (hloads : s.loads = [])
    {folder : NamedFolder} (hfolder : folder ∈ s.childFolders) : RootsInvariant w (openChild folder s) := by
  have hroot := hs.root_of_folder hw hloads hfolder
  have hhead (crumb : Crumb) : (s.path ++ [crumb]).head?.map (·.rootFolderId) = s.currentRootId := by
    cases hpath : s.path with
    | nil => simp [Store.currentRootId, hpath] at hroot
    | cons first rest => simp [Store.currentRootId, hpath]
  unfold Browser.openChild
  rw [hroot, Option.getD_some]
  refine (hw.setPath (fun crumb hcrumb => ?_) fun file _ => (hhead _).symm).beginLoad true
  rw [hhead]
  rcases List.mem_append.mp hcrumb with hold | hnew
  · exact hw.path crumb hold
  · rw [List.mem_singleton.mp hnew]
    exact ⟨rfl, hroot⟩

section

variable (hw : RootsInvariant w s)

include hw

lemma RootsInvariant.navigateTo (index : ℕ) : RootsInvariant w (navigateTo index s) := by
  have hhead : (s.path.take (index + 1)).head?.map (·.rootFolderId) = s.currentRootId := by
    simp [Store.currentRootId, List.head?_take]
  refine (hw.setPath (fun crumb hcrumb => ?_) fun file _ => hhead.symm).beginLoad true
  rw [hhead]
  exact hw.path crumb (List.mem_of_mem_take hcrumb)

lemma RootsInvariant.stepLoad {event : LoadEvent} (hk : s.loads[k]? = some load)
    (htrue : Truthful w s (.load k event)) (h : stepLoad s k load event = some t) : RootsInvariant w t := by
  obtain ⟨folder, navigated, stage⟩ := load
  cases event with
  | listed folders files =>
    cases stage with
    | listing =>
      obtain ⟨hfolders, hfiles⟩ := htrue _ hk
      rw [← Option.some_inj.mp h]
      refine ⟨hw.path, fun answer hanswer => ?_, fun answer hanswer => ?_, hw.held, hw.renames⟩
      · rcases List.mem_append.mp hanswer with hold | hnew
        · exact hw.folders answer hold
        · rw [List.mem_singleton.mp hnew]
          exact hfolders
      · rcases List.mem_append.mp hanswer with hold | hnew
        · exact hw.files answer hold
        · rw [List.mem_singleton.mp hnew]
          exact hfiles
    | namingFolders | namingFiles => cases h
  | listFailed | foldersNamed | filesNamed =>
    cases stage <;> cases h
    exact ⟨hw.path, hw.folders, hw.files, hw.held, hw.renames⟩

lemma RootsInvariant.openDialog (dialog : Option Dialog)
    (hdialog : ∀ file, dialog = some (.rename (.file file)) → s.currentRootId =
    some (w.rootOfFile file.view.file_id)) : RootsInvariant w { s with dialog := dialog } where
  path := hw.path
  folders := hw.folders
  files := hw.files
  held file hfile := hfile.elim (hdialog file) fun hmenu => hw.held file (.inr hmenu)
  renames := hw.renames

lemma RootsInvariant.openMenu (menu : Option RowItem)
    (hmenu : ∀ file, menu = some (.file file) → s.currentRootId = some (w.rootOfFile file.view.file_id)) :
    RootsInvariant w { s with contextMenu := menu } where
  path := hw.path
  folders := hw.folders
  files := hw.files
  held file hfile := hfile.elim (fun hdialog => hw.held file (.inl hdialog)) (hmenu file)
  renames := hw.renames

lemma RootsInvariant.rename (trimmed : String) : RootsInvariant w (rename trimmed s) := by
  obtain heq | heq | ⟨file, hdialog, heq⟩ := rename_cases trimmed s
  · rwa [heq]
  · rw [heq]
    exact ⟨hw.path, hw.folders, hw.files, hw.held, hw.renames⟩
  · rw [heq]
    refine ⟨hw.path, hw.folders, hw.files, hw.held, fun r hr => ?_⟩
    rcases List.mem_append.mp hr with hold | hnew
    · exact hw.renames r hold
    · rw [List.mem_singleton.mp hnew, hw.held file (.inl hdialog), Option.getD_some]

end

lemma RootsInvariant.step (hs : RowsInvariant s) (hw : RootsInvariant w s) {e : Event} (htrue : Truthful w s e)
    (hkept : RootKept s e) (h : step s e = some t) : RootsInvariant w t := by
  cases e with
  | openTopLevel folder =>
    rw [← Option.some_inj.mp h]
    have hset : RootsInvariant w
        { s with path := [⟨folder.view.folder_id, folder.view.folder_id, folder.name⟩] } := by
      refine hw.setPath (fun crumb hcrumb => ?_) hkept
      rw [List.mem_singleton.mp hcrumb]
      exact ⟨htrue, rfl⟩
    exact hset.beginLoad true
  | openChild folder =>
    rw [← Option.some_inj.mp h]
    exact hw.openChild hs hkept htrue
  | navigateTo index =>
    rw [← Option.some_inj.mp h]
    exact hw.navigateTo index
  | goHome =>
    rw [← Option.some_inj.mp h]
    have hnone : RootsInvariant w { s with path := [] } :=
      hw.setPath (by simp) fun file hfile => absurd hfile (hkept file)
    exact ⟨hnone.path, hnone.folders, hnone.files, hnone.held, hnone.renames⟩
  | openTreePath path =>
    rw [← Option.some_inj.mp h]
    unfold openTreePath
    split
    · exact hw
    · exact (hw.setPath htrue (hkept ‹_›)).beginLoad true
  | load k event =>
    obtain ⟨load, hk, hstep⟩ := Option.bind_eq_some_iff.mp h
    exact hw.stepLoad hk htrue hstep
  | refreshing k event =>
    obtain ⟨refresh, -, hstep⟩ := Option.bind_eq_some_iff.mp h
    obtain ⟨topLevel, sharedWithMe, refreshes, rfl | rfl⟩ := stepRefresh_cases hstep
    · exact ⟨hw.path, hw.folders, hw.files, hw.held, hw.renames⟩
    · have hw' : RootsInvariant w { s with refreshes := refreshes } :=
        ⟨hw.path, hw.folders, hw.files, hw.held, hw.renames⟩
      exact hw'.beginLoad false
  | openRename selected =>
    rw [← Option.some_inj.mp h]
    obtain heq | ⟨item, heq, hshown⟩ := openRename_cases selected s
    · rwa [heq]
    · rw [heq]
      refine hw.openDialog _ fun file hfile => ?_
      obtain ⟨hmem, id, rfl⟩ := hshown file (Dialog.rename.inj (Option.some_inj.mp hfile))
      exact hs.root_of_file hw hkept hmem
  | openContextMenu item =>
    rw [← Option.some_inj.mp h]
    refine hw.openMenu _ fun file hfile => ?_
    obtain rfl : item = .file file := Option.some_inj.mp hfile
    exact hs.root_of_file hw hkept htrue
  | closeContextMenu =>
    rw [← Option.some_inj.mp h]
    exact hw.openMenu none (by simp)
  | openRenameItem item =>
    rw [← Option.some_inj.mp h]
    refine hw.openDialog _ fun file hfile => hw.held file (.inr ?_)
    rw [htrue, Dialog.rename.inj (Option.some_inj.mp hfile)]
  | openDialog =>
    rw [← Option.some_inj.mp h]
    exact hw.openDialog (some .other) (by simp)
  | closeDialog =>
    rw [← Option.some_inj.mp h]
    exact hw.openDialog none (by simp)
  | rename trimmed =>
    rw [← Option.some_inj.mp h]
    exact hw.rename trimmed
  | mutated k ok =>
    have hclosed := hw.openDialog none (by simp)
    obtain ⟨hleave, hok, rfl⟩ | rfl | rfl := mutated_cases h
    · have hnone : RootsInvariant w { s with dialog := none, path := [] } :=
        hclosed.setPath (by simp) fun file hfile => hfile.elim (by simp) fun hmenu => absurd hmenu
          (hkept hok hleave file)
      exact ⟨hnone.path, hnone.folders, hnone.files, hnone.held, hnone.renames⟩
    · exact ⟨hclosed.path, hclosed.folders, hclosed.files, hclosed.held, hclosed.renames⟩
    · exact ⟨hw.path, hw.folders, hw.files, hw.held, hw.renames⟩
  | refresh | mutate =>
    rw [← Option.some_inj.mp h]
    exact ⟨hw.path, hw.folders, hw.files, hw.held, hw.renames⟩

/-! ### Two top-level folders -/

section Sample

def folderA : Crumb := ⟨"a", "a", "A"⟩

def folderB : Crumb := ⟨"b", "b", "B"⟩

def sampleRoots : Roots where
  rootOf id := id
  rootOfFile id := if id = "in-a" then "a" else "b"

def loadSteps (k : ℕ) (id : String) : List Event :=
  [.load k (.listed [] [⟨id⟩]), .load k (.foldersNamed fun _ => none), .load k (.filesNamed fun _ => none)]

def overtaken : List Event :=
  [.openTreePath [folderA], .openTreePath [folderB]] ++ loadSteps 1 "in-b" ++ loadSteps 0 "in-a"

def overtakenStore : Store :=
  { Store.empty with
    path := [folderB]
    files := [⟨⟨"in-a"⟩, "(unreadable)"⟩]
    answers := [⟨"b", [], [⟨"in-b"⟩]⟩, ⟨"a", [], [⟨"in-a"⟩]⟩] }

def loadedInTurn : List Event :=
  [.openTreePath [folderA], .openTreePath [folderB]] ++ loadSteps 0 "in-a" ++ loadSteps 0 "in-b" ++
    [.openRename (.file "in-b"), .rename "new"]

end Sample

/-- With the loads showing their rows in turn, what is shown when none is pending is the listing of
the open folder. With rows taken up only while no load is pending, and the root kept while a file is
held, every rename is under the file's own root. -/
theorem rows_belong_to_path (w : Roots) (events : List Event)
    (htrue : Throughout step (Truthful w) Store.empty events)
    (hturn : Throughout step InTurn Store.empty events)
    (hkept : Throughout step RootKept Store.empty events)
    (s : Store) (hrun : run step Store.empty events = some s) :
    (s.loads = [] → ShowsCurrent s) ∧ ∀ r ∈ s.renames, r.rootFolderId = w.rootOfFile r.file_id := by
  have hinvariant : RowsInvariant s ∧ RootsInvariant w s := by
    refine Automaton.invariant_throughout (fun s => RowsInvariant s ∧ RootsInvariant w s)
      ⟨rowsInvariant_empty, rootsInvariant_empty⟩ ?_ (htrue.and (hturn.and hkept)) hrun
    rintro u e v ⟨htrue, hturn, hkept⟩ ⟨hrows, hroots⟩ hstep
    exact ⟨hrows.step hturn hstep, RootsInvariant.step hrows hroots htrue hkept hstep⟩
  exact ⟨hinvariant.1.showsCurrent, hinvariant.2.renames⟩

theorem rows_belong_to_path_in_turn :
    ∃ s, run step Store.empty loadedInTurn = some s ∧ (s.loads = [] ∧ s.renames = [⟨"in-b", "b", "new"⟩]) ∧
      (s.loads = [] → ShowsCurrent s) ∧ ∀ r ∈ s.renames, r.rootFolderId = sampleRoots.rootOfFile r.file_id := by
  refine ⟨_, rfl, ⟨rfl, rfl⟩, rows_belong_to_path sampleRoots loadedInTurn ?_ ?_ ?_ _ rfl⟩
  · refine .cons ?_ rfl (.cons ?_ rfl (.cons ?_ rfl (.cons trivial rfl (.cons trivial rfl (.cons ?_ rfl
      (.cons trivial rfl (.cons trivial rfl (.cons trivial rfl (.cons trivial rfl trivial)))))))))
    all_goals simp [Truthful, sampleRoots, folderA, folderB, openTreePath, beginLoad,
      Store.current, Store.empty]
  · refine .cons trivial rfl
      (.cons trivial rfl (.cons trivial rfl
        (.cons rfl rfl (.cons rfl rfl
          (.cons trivial rfl (.cons rfl rfl
            (.cons rfl rfl (.cons trivial rfl (.cons trivial rfl trivial)))))))))
  · refine .cons ?_ rfl (.cons ?_ rfl
      (.cons trivial rfl (.cons trivial rfl
        (.cons trivial rfl (.cons trivial rfl
          (.cons trivial rfl (.cons trivial rfl (.cons rfl rfl (.cons trivial rfl trivial)))))))))
    all_goals simp [RootKept, Held, openTreePath, beginLoad, Store.current, Store.empty]

/-- The slower load shows the rows of the first folder under the path of the second, and a rename of
the file that is shown goes under the wrong root. -/
theorem slow_load_shows_other_folder :
    run step Store.empty overtaken = some overtakenStore ∧
      Throughout step (Truthful sampleRoots) Store.empty overtaken ∧
      (overtakenStore.loads = [] ∧ overtakenStore.refreshes = [] ∧ overtakenStore.mutations = []) ∧
      ¬ ShowsCurrent overtakenStore ∧
      ∃ t, run step overtakenStore [.openRename (.file "in-a"), .rename "new"] = some t ∧
        t.renames = [⟨"in-a", "b", "new"⟩] ∧ sampleRoots.rootOfFile "in-a" = "a" := by
  refine ⟨rfl, ?_, ⟨rfl, rfl, rfl⟩, ?_, _, rfl, rfl, rfl⟩
  · refine .cons ?_ rfl (.cons ?_ rfl (.cons ?_ rfl (.cons trivial rfl (.cons trivial rfl (.cons ?_ rfl
      (.cons trivial rfl (.cons trivial rfl trivial)))))))
    all_goals simp [Truthful, sampleRoots, folderA, folderB, openTreePath, beginLoad,
      Store.current, Store.empty]
  · rintro ⟨answer, hanswer, hfolder, -, hfiles⟩
    simp only [overtakenStore, List.mem_cons, List.not_mem_nil, or_false] at hanswer
    rcases hanswer with rfl | rfl
    · simp [overtakenStore] at hfiles
    · simp [folderB] at hfolder

end SignetDrive.Proofs
