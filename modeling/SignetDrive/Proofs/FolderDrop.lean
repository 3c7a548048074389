import SignetDrive.Model.FolderDrop
import SignetDrive.Proofs.Browser
import SignetDrive.Proofs.Names

/-!
# Where an upload goes

An upload reads the open folder when the dropped tree has been read, and the share role of the open
root and the rows that are shown when the capacity check is answered.
-/

namespace SignetDrive.Proofs

open Browser FolderDrop
open Automaton (run Throughout)

/-! ### Plans -/

/-- Each folder of the plan stands after its parent, and the files go to folders of the plan. -/
structure WellPlaced (folders : List PlannedFolder) (files : List PlannedFile) : Prop where
  parents : ∀ (i : ℕ) (planned : PlannedFolder), folders[i]? = some planned →
    ∀ j, planned.parent = some j → j < i
  files : ∀ item ∈ files, ∀ j, item.folder = some j → j < folders.length

lemma wellPlaced_nil : WellPlaced [] [] where
  parents i planned h := by simp at h
  files item h := by simp at h

section WellPlaced

variable {folders : List PlannedFolder} {files : List PlannedFile}

lemma WellPlaced.addFolder (h : WellPlaced folders files) (planned : PlannedFolder)
    (hparent : ∀ j, planned.parent = some j → j < folders.length) :
    WellPlaced (folders ++ [planned]) files where
  parents i other hother j hj := by
    rcases Nat.lt_or_ge i folders.length with hi | hi
    · rw [List.getElem?_append_left hi] at hother
      exact h.parents i other hother j hj
    · obtain ⟨hlt, -⟩ := List.getElem?_eq_some_iff.mp hother
      obtain rfl : i = folders.length := by
        simp only [List.length_append, List.length_singleton] at hlt
        omega
      obtain rfl : planned = other := by simpa using hother
      exact hparent j hj
  files item hitem j hj := by
    have := h.files item hitem j hj
    simp only [List.length_append, List.length_singleton]
    omega

lemma WellPlaced.addFile (h : WellPlaced folders files) (item : PlannedFile)
    (hfolder : ∀ j, item.folder = some j → j < folders.length) : WellPlaced folders (files ++ [item]) where
  parents := h.parents
  files other hother := by
    rcases List.mem_append.mp hother with hold | hnew
    · exact h.files other hold
    · rw [List.mem_singleton.mp hnew]
      exact hfolder

end WellPlaced

/-- What reading a part of the tree does to the plan: it stays well placed, and no folder goes. -/
def Extends (plan plan' : FolderUploadPlan) : Prop :=
  WellPlaced plan'.folders plan'.files ∧ plan.folders.length ≤ plan'.folders.length

section Walk

variable {toLowerCase : String → String}

mutual

lemma visit_extends (parent : Option ℕ) (parentPath : String) (entry : Entry) {plan plan' : FolderUploadPlan}
    (hplan : WellPlaced plan.folders plan.files)
    (hparent : ∀ j, parent = some j → j < plan.folders.length)
    (h : visit toLowerCase parent parentPath entry plan = .ok plan') : Extends plan plan' := by
  cases entry with
  | other name => cases h
  | file name content =>
    simp only [visit] at h
    split at h
    · cases h
      exact ⟨hplan, le_rfl⟩
    · cases content with
      | none => cases h
      | some file =>
        cases h
        exact ⟨hplan.addFile _ hparent, le_rfl⟩
  | directory name readable batches =>
    simp only [visit] at h
    split at h
    · have hadded : WellPlaced (plan.folders ++ [⟨name, parent, joinPath parentPath name⟩]) plan.files :=
        hplan.addFolder _ hparent
      obtain ⟨hplaced, hlength⟩ := visitBatches_extends _ _ batches hadded (by simp) h
      refine ⟨hplaced, le_trans ?_ hlength⟩
      simp
    · cases h

lemma visitBatches_extends (parent : Option ℕ) (parentPath : String) (batches : List (List Entry))
    {plan plan' : FolderUploadPlan} (hplan : WellPlaced plan.folders plan.files)
    (hparent : ∀ j, parent = some j → j < plan.folders.length)
    (h : visitBatches toLowerCase parent parentPath batches plan = .ok plan') : Extends plan plan' := by
  cases batches with
  | nil =>
    cases h
    exact ⟨hplan, le_rfl⟩
  | cons batch batches =>
    cases batch with
    | nil =>
      cases h
      exact ⟨hplan, le_rfl⟩
    | cons child children =>
      simp only [visitBatches] at h
      cases hchildren : visitChildren toLowerCase parent parentPath (child :: children) plan with
      | error path => simp [hchildren, Except.bind] at h
      | ok next =>
        rw [hchildren] at h
        have hnext := visitChildren_extends parent parentPath (child :: children) hplan hparent hchildren
        have hrest := visitBatches_extends parent parentPath batches hnext.1
          (fun j hj => (hparent j hj).trans_le hnext.2) h
        exact ⟨hrest.1, hnext.2.trans hrest.2⟩

lemma visitChildren_extends (parent : Option ℕ) (parentPath : String) (children : List Entry)
    {plan plan' : FolderUploadPlan} (hplan : WellPlaced plan.folders plan.files)
    (hparent : ∀ j, parent = some j → j < plan.folders.length)
    (h : visitChildren toLowerCase parent parentPath children plan = .ok plan') : Extends plan plan' := by
  cases children with
  | nil =>
    cases h
    exact ⟨hplan, le_rfl⟩
  | cons child children =>
    simp only [visitChildren] at h
    cases hchild : visit toLowerCase parent parentPath child plan with
    | error path => simp [hchild, Except.bind] at h
    | ok next =>
      rw [hchild] at h
      have hnext := visit_extends parent parentPath child hplan hparent hchild
      have hrest := visitChildren_extends parent parentPath children hnext.1
        (fun j hj => (hparent j hj).trans_le hnext.2) h
      exact ⟨hrest.1, hnext.2.trans hrest.2⟩

end

lemma resolveEntries_wellPlaced {entries : List Entry} {plan : FolderUploadPlan}
    (h : resolveEntries toLowerCase entries = .ok plan) : WellPlaced plan.folders plan.files :=
  (visitChildren_extends none "" entries wellPlaced_nil (by simp) h).1

/-- Every path of the index leads to a folder of the plan. -/
structure Indexed (index : PathIndex) (files : List PlannedFile) : Prop where
  placed : WellPlaced index.folders files
  byPath : ∀ path place, index.byPath.lookup path = some place → place < index.folders.length

lemma folderFor_indexed {files : List PlannedFile} (segments : List String) :
    ∀ (parent : Option ℕ) (path : String) (index : PathIndex), Indexed index files →
      (∀ j, parent = some j → j < index.folders.length) →
      Indexed (folderFor parent path segments index).2 files ∧
        ∀ j, (folderFor parent path segments index).1 = some j →
          j < (folderFor parent path segments index).2.folders.length := by
  induction segments with
  | nil =>
    intro parent path index hindex hparent
    exact ⟨hindex, hparent⟩
  | cons name segments ih =>
    intro parent path index hindex hparent
    simp only [folderFor]
    cases hlookup : index.byPath.lookup (joinPath path name) with
    | some place =>
      apply ih (some place) _ index hindex
      intro j hj
      cases hj
      exact hindex.byPath _ _ hlookup
    | none =>
      apply ih
      · refine ⟨hindex.placed.addFolder _ hparent, fun path' place hplace => ?_⟩
        simp only [List.length_append, List.length_singleton]
        rw [List.lookup_cons] at hplace
        split at hplace
        · cases hplace
          exact Nat.lt_succ_self _
        · exact (hindex.byPath _ _ hplace).trans (Nat.lt_succ_self _)
      · intro j hj
        cases hj
        simp

lemma planRelative_wellPlaced (rest : List LocalFile) :
    ∀ (index : PathIndex) (files : List PlannedFile) (skipped : ℕ), Indexed index files →
      WellPlaced (planRelative toLowerCase rest index files skipped).folders
        (planRelative toLowerCase rest index files skipped).files := by
  induction rest with
  | nil =>
    intro index files skipped hindex
    exact hindex.placed
  | cons file rest ih =>
    intro index files skipped hindex
    obtain ⟨hnext, hfolder⟩ :=
      folderFor_indexed (relativeSegments file).dropLast none "" index hindex (by simp)
    simp only [planRelative]
    split
    · exact ih _ _ _ hnext
    · exact ih _ _ _ ⟨hnext.placed.addFile _ hfolder, hnext.byPath⟩

lemma planFromRelativePaths_wellPlaced (files : List LocalFile) :
    WellPlaced (planFromRelativePaths toLowerCase files).folders
      (planFromRelativePaths toLowerCase files).files :=
  planRelative_wellPlaced files ⟨[], []⟩ [] 0 ⟨wellPlaced_nil, by simp⟩

lemma sourcePlan_wellPlaced {source : Source} {started : Store} {plan : FolderUploadPlan}
    (h : source.plan toLowerCase started = some plan) : WellPlaced plan.folders plan.files := by
  cases source with
  | drop busy capture =>
    simp only [Source.plan, uploadDrop] at h
    split_ifs at h
    cases hresolved : resolveEntries toLowerCase capture.entries with
    | error path => simp [hresolved, Except.toOption] at h
    | ok resolved =>
      obtain rfl : resolved = plan := by simpa [hresolved, Except.toOption] using h
      exact resolveEntries_wellPlaced hresolved
  | pick files =>
    simp only [Source.plan, uploadPickedFolder] at h
    split_ifs at h
    cases h
    exact planFromRelativePaths_wellPlaced files

end Walk

/-! ### The property of the calls -/

/-- The names of a folder's subfolders and files. -/
structure Listing where
  folders : List String
  files : List String

def SameNames (names names' : List String) : Prop := ∀ name, name ∈ names ↔ name ∈ names'

/-- The names that are taken when the name is chosen are these, and the name is none of them. -/
structure ChosenAgainst (names : List String) (name : GivenName) : Prop where
  taken : ∃ desired taken, name = .chosen desired taken ∧ SameNames taken names
  free : name.text ∉ names

/-- Where a call may put something, and the names in the drop target. -/
structure Ground where
  places : List FolderTarget
  names : Listing

/-- The call puts its folder or file at one of the places, a file with the share flag. The name of one
that goes directly into the drop target is chosen against the names there. -/
def Placed (share : Bool) (ground : Ground) : FolderDrop.Call → Prop
  | .createFolder planned name parent _ =>
    (∃ place ∈ ground.places, parent = some place) ∧
      (planned.parent = none → ChosenAgainst ground.names.folders name)
  | .uploadFile target shareFolder name item =>
    target ∈ ground.places ∧ shareFolder = share ∧
      (item.folder = none → ChosenAgainst ground.names.files name)

/-- The names in the drop target once a planned folder or file has its name. -/
def withName (names : List String) (name : GivenName) : Option ℕ → List String
  | none => name.text :: names
  | some _ => names

def created (parent : Option FolderTarget) (id : Option String) : List FolderTarget :=
  match parent, id with
  | some parent, some id => [⟨id, parent.rootFolderId⟩]
  | _, _ => []

/-- What a call adds: a folder and its name, or the name of a file. -/
def Ground.after (ground : Ground) : FolderDrop.Call → Ground
  | .createFolder planned name parent id =>
    ⟨ground.places ++ created parent id, withName ground.names.folders name planned.parent, ground.names.files⟩
  | .uploadFile _ _ name item =>
    ⟨ground.places, ground.names.folders, withName ground.names.files name item.folder⟩

/-- Each call in turn goes to one of the places or to a folder that an earlier one created there, and
the names that earlier calls gave are taken too. -/
def GoesTo (share : Bool) : Ground → List FolderDrop.Call → Prop
  | _, [] => True
  | ground, call :: calls => Placed share ground call ∧ GoesTo share (ground.after call) calls

lemma goesTo_append {share : Bool} {ground : Ground} {calls more : List FolderDrop.Call} :
    GoesTo share ground (calls ++ more) ↔
      GoesTo share ground calls ∧ GoesTo share (calls.foldl Ground.after ground) more := by
  induction calls generalizing ground with
  | nil => simp [GoesTo]
  | cons call calls ih => simp [GoesTo, ih, and_assoc]

section Names

variable {names names' taken : List String} {name : GivenName}

lemma SameNames.withName (h : SameNames names names') (name : GivenName) (folder : Option ℕ) :
    SameNames (withName names name folder) (withName names' name folder) := by
  cases folder with
  | none =>
    intro other
    simp only [Proofs.withName, List.mem_cons, h other]
  | some j => exact h

lemma SameNames.chosenAgainst (h : SameNames taken names) (desired : String) :
    ChosenAgainst names (.chosen desired taken) where
  taken := ⟨desired, taken, rfl, h⟩
  free hmem := dedupeName_not_mem desired taken ((h _).mpr hmem)

lemma ChosenAgainst.sameNames {desired : String} (h : ChosenAgainst names (.chosen desired taken)) :
    SameNames taken names := by
  obtain ⟨_, _, heq, hsame⟩ := h.taken
  cases heq
  exact hsame

/-- A folder of the plan has its name, and the following ones are named as if that were taken. -/
lemma nameFolders_cons (planned : PlannedFolder) (folders : List PlannedFolder) (taken : List String) :
    ∃ name, nameFolders (planned :: folders) taken =
        name :: nameFolders folders (withName taken name planned.parent) ∧
      (planned.parent = none → name = .chosen planned.name taken) := by
  cases hparent : planned.parent with
  | none =>
    exact ⟨.chosen planned.name taken,
      by simp [nameFolders, hparent, Proofs.withName, GivenName.text], fun _ => rfl⟩
  | some j => exact ⟨.kept planned.name, by simp [nameFolders, hparent, Proofs.withName], by simp⟩

/-- The names taken in the drop target after a file has its name. -/
lemma lookup_none_cons (item : PlannedFile) (sets : List (Option ℕ × List String)) :
    (List.lookup none ((item.folder, name.text :: (sets.lookup item.folder).getD []) :: sets)).getD [] =
      withName ((sets.lookup none).getD []) name item.folder := by
  cases hfolder : item.folder with
  | none => simp [Proofs.withName]
  | some j => simp [List.lookup_cons, Proofs.withName]

end Names

section Calls

variable {share : Bool} {dropTarget : FolderTarget} {create : ℕ → Option String} {shareFolder : Bool}

/-! ### The calls of an upload, one after the other -/

lemma placeOf_eq_some (dropTarget : FolderTarget) {targets : List FolderTarget} {folder : Option ℕ}
    (hfolder : ∀ j, folder = some j → j < targets.length) :
    ∃ place, placeOf dropTarget targets folder = some place ∧ (place = dropTarget ∨ place ∈ targets) := by
  cases folder with
  | none => exact ⟨dropTarget, rfl, .inl rfl⟩
  | some j =>
    have hj := hfolder j rfl
    exact ⟨targets[j], List.getElem?_eq_getElem hj, .inr (List.getElem_mem hj)⟩

/-- The folders stand after their parents, when so many come before them. -/
def ParentsFirst (before : ℕ) (folders : List PlannedFolder) : Prop :=
  ∀ (i : ℕ) (planned : PlannedFolder), folders[i]? = some planned →
    ∀ j, planned.parent = some j → j < before + i

lemma WellPlaced.parentsFirst {folders : List PlannedFolder} {files : List PlannedFile}
    (h : WellPlaced folders files) : ParentsFirst 0 folders := by
  intro i planned hplanned j hj
  have := h.parents i planned hplanned j hj
  omega

lemma ParentsFirst.tail {before : ℕ} {planned : PlannedFolder} {folders : List PlannedFolder}
    (h : ParentsFirst before (planned :: folders)) : ParentsFirst (before + 1) folders := by
  intro i other hother j hj
  have := h (i + 1) other hother j hj
  omega

lemma createPlannedFolders_goesTo (share : Bool) (create : ℕ → Option String) (folders : List PlannedFolder) :
    ∀ (taken : List String) (targets : List FolderTarget) (ground : Ground), dropTarget ∈ ground.places →
      targets ⊆ ground.places → ParentsFirst targets.length folders →
      ((∃ planned ∈ folders, planned.parent = none) → SameNames taken ground.names.folders) →
      let result := createPlannedFolders create dropTarget (folders.zip (nameFolders folders taken)) targets
      GoesTo share ground result.1 ∧ dropTarget ∈ (result.1.foldl Ground.after ground).places ∧
        ∀ targets', result.2 = some targets' → targets' ⊆ (result.1.foldl Ground.after ground).places := by
  induction folders with
  | nil =>
    intro taken targets ground hdrop htargets _ _
    refine ⟨trivial, hdrop, fun targets' h => ?_⟩
    cases h
    exact htargets
  | cons planned folders ih =>
    intro taken targets ground hdrop htargets hfirst hnames
    obtain ⟨name, hname, htop⟩ := nameFolders_cons planned folders taken
    obtain ⟨parent, hplace, hparent⟩ := placeOf_eq_some dropTarget (hfirst 0 _ rfl)
    have hmem : parent ∈ ground.places := hparent.elim (fun h => h ▸ hdrop) fun h => htargets h
    have hplaced (id : Option String) : Placed share ground (.createFolder planned name (some parent) id) := by
      refine ⟨⟨parent, hmem, rfl⟩, fun hnone => ?_⟩
      rw [htop hnone]
      exact (hnames ⟨planned, List.mem_cons_self, hnone⟩).chosenAgainst planned.name
    simp only [hname, List.zip_cons_cons, createPlannedFolders, hplace]
    cases hid : create targets.length with
    | none => exact ⟨⟨hplaced none, trivial⟩, List.mem_append_left _ hdrop, by simp⟩
    | some id =>
      have hsubset : targets ++ [⟨id, parent.rootFolderId⟩] ⊆ ground.places ++ created
          (some parent) (some id) :=
        List.append_subset.mpr ⟨fun place h => List.mem_append_left _ (htargets h),
          List.subset_append_right _ _⟩
      have hrest : (∃ other ∈ folders, other.parent = none) → SameNames (withName taken name planned.parent)
          (withName ground.names.folders name planned.parent) := by
        rintro ⟨other, hother, hnone⟩
        exact (hnames ⟨other, List.mem_cons_of_mem _ hother, hnone⟩).withName name planned.parent
      obtain ⟨hgoes, hdrop', hresult⟩ :=
        ih _ _ (ground.after (.createFolder planned name (some parent) (some id)))
          (List.mem_append_left _ hdrop) hsubset (by simpa using hfirst.tail) hrest
      exact ⟨⟨hplaced (some id), hgoes⟩, hdrop', hresult⟩

lemma createPlannedFolders_files (pairs : List (PlannedFolder × GivenName)) :
    ∀ (targets : List FolderTarget) (ground : Ground),
      ((createPlannedFolders create dropTarget pairs targets).1.foldl Ground.after ground).names.files =
        ground.names.files := by
  induction pairs with
  | nil => exact fun _ _ => rfl
  | cons pair pairs ih =>
    intro targets ground
    simp only [createPlannedFolders]
    split
    · exact ih _ _
    · rfl

lemma uploadCalls_goesTo {targets : List FolderTarget} (items : List PlannedFile)
    (hshare : items ≠ [] → shareFolder = share) :
    ∀ (sets : List (Option ℕ × List String)) (ground : Ground), dropTarget ∈ ground.places →
      targets ⊆ ground.places →
      ((∃ item ∈ items, item.folder = none) → SameNames ((sets.lookup none).getD []) ground.names.files) →
      GoesTo share ground (uploadCalls shareFolder dropTarget targets items sets) := by
  induction items with
  | nil => exact fun _ _ _ _ _ => trivial
  | cons item items ih =>
    intro sets ground hdrop htargets hnames
    simp only [uploadCalls]
    cases hplace : placeOf dropTarget targets item.folder with
    | none => trivial
    | some place =>
      have hmem : place ∈ ground.places := by
        cases hfolder : item.folder with
        | none =>
          rw [hfolder] at hplace
          exact Option.some_inj.mp hplace ▸ hdrop
        | some j =>
          rw [hfolder] at hplace
          exact htargets (List.mem_of_getElem? hplace)
      refine ⟨⟨hmem, hshare (by simp), fun hnone => ?_⟩, ih (fun _ => hshare (by simp)) _ _ hdrop htargets ?_⟩
      · rw [hnone]
        exact (hnames ⟨item, List.mem_cons_self, hnone⟩).chosenAgainst item.file.name
      · rintro ⟨other, hother, hnone⟩
        rw [lookup_none_cons item sets]
        exact (hnames ⟨other, List.mem_cons_of_mem _ hother, hnone⟩).withName _ item.folder

section Necessary

variable (hcreate : ∀ i, ∃ id, create i = some id)
include hcreate

lemma createPlannedFolders_all (dropTarget : FolderTarget) (folders : List PlannedFolder) :
    ∀ (taken : List String) (targets : List FolderTarget), ParentsFirst targets.length folders →
      ∃ targets', (createPlannedFolders create dropTarget (folders.zip (nameFolders folders taken)) targets).2 =
        some targets' ∧ targets'.length = targets.length + folders.length := by
  induction folders with
  | nil => exact fun taken targets _ => ⟨targets, rfl, rfl⟩
  | cons planned folders ih =>
    intro taken targets hfirst
    obtain ⟨name, hname, -⟩ := nameFolders_cons planned folders taken
    obtain ⟨parent, hplace, -⟩ := placeOf_eq_some dropTarget (hfirst 0 _ rfl)
    obtain ⟨id, hid⟩ := hcreate targets.length
    obtain ⟨targets', hresult, hlength⟩ := ih (withName taken name planned.parent)
      (targets ++ [⟨id, parent.rootFolderId⟩]) (by simpa using hfirst.tail)
    simp only [hname, List.zip_cons_cons, createPlannedFolders, hplace, hid]
    refine ⟨targets', hresult, ?_⟩
    simp only [hlength, List.length_append, List.length_cons, List.length_nil]
    omega

/-- The first folder that goes into the drop target is named against the names taken at the start. -/
lemma sameNames_of_folders (folders : List PlannedFolder) :
    ∀ (taken : List String) (targets : List FolderTarget) (ground : Ground),
      ParentsFirst targets.length folders →
      GoesTo share ground
        (createPlannedFolders create dropTarget (folders.zip (nameFolders folders taken)) targets).1 →
      (∃ planned ∈ folders, planned.parent = none) → SameNames taken ground.names.folders := by
  induction folders with
  | nil => simp
  | cons planned folders ih =>
    intro taken targets ground hfirst hgoes hsome
    obtain ⟨name, hname, htop⟩ := nameFolders_cons planned folders taken
    obtain ⟨parent, hplace, -⟩ := placeOf_eq_some dropTarget (hfirst 0 _ rfl)
    obtain ⟨id, hid⟩ := hcreate targets.length
    simp only [hname, List.zip_cons_cons, createPlannedFolders, hplace, hid] at hgoes
    cases hparent : planned.parent with
    | none =>
      have hchosen := hgoes.1.2 hparent
      rw [htop hparent] at hchosen
      exact hchosen.sameNames
    | some j =>
      have hrest := ih _ _ _ (by simpa using hfirst.tail) hgoes.2 (by simpa [hparent] using hsome)
      simpa only [Ground.after, hparent, withName] using hrest

end Necessary

lemma necessary_of_files {targets : List FolderTarget} (items : List PlannedFile) :
    ∀ (sets : List (Option ℕ × List String)) (ground : Ground),
      (∀ item ∈ items, ∀ j, item.folder = some j → j < targets.length) →
      GoesTo share ground (uploadCalls shareFolder dropTarget targets items sets) →
      (items ≠ [] → shareFolder = share) ∧
        ((∃ item ∈ items, item.folder = none) → SameNames ((sets.lookup none).getD []) ground.names.files) := by
  induction items with
  | nil => simp
  | cons item items ih =>
    intro sets ground hitems hgoes
    obtain ⟨place, hplace, -⟩ := placeOf_eq_some dropTarget (hitems item List.mem_cons_self)
    simp only [uploadCalls, hplace] at hgoes
    obtain ⟨⟨-, hshare, hchosen⟩, hrest⟩ := hgoes
    refine ⟨fun _ => hshare, fun hsome => ?_⟩
    cases hfolder : item.folder with
    | none =>
      have hagainst := hchosen hfolder
      rw [hfolder] at hagainst
      exact hagainst.sameNames
    | some j =>
      have htail := (ih _ _ (fun other hother => hitems other (List.mem_cons_of_mem _ hother)) hrest).2
        (by simpa [hfolder] using hsome)
      rw [lookup_none_cons item sets] at htail
      simpa only [Ground.after, hfolder, withName] using htail

end Calls

/-! ### The upload and the store it meets -/

def walks : Source → Bool
  | .drop .. => true
  | .pick .. => false

/-- What the upload reads of the store, after the walk and after the capacity check, is still about the
folder it was started in, as far as the plan needs it. -/
structure StillOpen (source : Source) (F : Crumb) (listing : Listing) (walked checked : Store)
    (plan : FolderUploadPlan) : Prop where
  folder : walks source = true → ∀ folder, walked.current = some folder → target folder = target F
  share : plan.files ≠ [] → checked.currentShareRole.isSome = (checked.shareRole F.rootFolderId).isSome
  folders : (∃ planned ∈ plan.folders, planned.parent = none) →
    SameNames (checked.childFolders.map (·.name)) listing.folders
  files : (∃ item ∈ plan.files, item.folder = none) → SameNames (checked.files.map (·.name)) listing.files

section Perform

variable {share : Bool} {listing : Listing} {checked : Store} {folder : Crumb} {plan : FolderUploadPlan}
  {place : FolderTarget}

lemma performUpload_goesTo (hplan : WellPlaced plan.folders plan.files) (hfolder : target folder = place)
    (hshare : plan.files ≠ [] → checked.currentShareRole.isSome = share)
    (hfolders : (∃ planned ∈ plan.folders, planned.parent = none) →
      SameNames (checked.childFolders.map (·.name)) listing.folders)
    (hfiles : (∃ item ∈ plan.files, item.folder = none) → SameNames (checked.files.map (·.name)) listing.files)
    (answers : FolderDrop.Answers) :
    GoesTo share ⟨[place], listing⟩ (performUpload checked answers folder plan) := by
  subst hfolder
  obtain ⟨hgoes, hdrop, hresult⟩ := createPlannedFolders_goesTo share answers.create plan.folders
    (checked.childFolders.map (·.name)) [] ⟨[target folder], listing⟩ List.mem_cons_self (List.nil_subset _)
    hplan.parentsFirst hfolders
  simp only [performUpload]
  split
  · exact hgoes
  next targets htargets =>
    refine goesTo_append.mpr
      ⟨hgoes, uploadCalls_goesTo _ (fun hne => hshare ?_) _ _ hdrop (hresult targets htargets) ?_⟩
    · exact fun hnil => hne (by simp [hnil])
    · rintro ⟨item, hitem, htop⟩
      rw [createPlannedFolders_files]
      exact hfiles ⟨item, List.mem_of_mem_take hitem, htop⟩

/-- An upload none of whose creations fails, and which opens every file. -/
def unhindered (plan : FolderUploadPlan) : FolderDrop.Answers := ⟨fun _ => some "", plan.files.length⟩

lemma target_of_goesTo (hplan : WellPlaced plan.folders plan.files)
    (hne : ¬ (plan.files = [] ∧ plan.folders = []))
    (h : GoesTo share ⟨[place], listing⟩ (performUpload checked (unhindered plan) folder plan)) :
    target folder = place := by
  obtain ⟨folders, files, skipped⟩ := plan
  cases folders with
  | nil =>
    cases files with
    | nil => exact absurd ⟨rfl, rfl⟩ hne
    | cons item files =>
      have htop : item.folder = none := by
        cases hfolder : item.folder with
        | none => rfl
        | some j => exact absurd (hplan.files item List.mem_cons_self j hfolder) (by simp)
      simp only [performUpload, unhindered, nameFolders, List.zip_nil_left, createPlannedFolders,
        List.nil_append, List.length_cons, List.take_succ_cons, uploadCalls, htop, placeOf] at h
      exact List.mem_singleton.mp h.1.1
  | cons planned folders =>
    have htop : planned.parent = none := by
      cases hparent : planned.parent with
      | none => rfl
      | some j => exact absurd (hplan.parents 0 planned rfl j hparent) (by simp)
    have hplaced (name : GivenName) (id : Option String)
        (h : Placed share ⟨[place], listing⟩ (.createFolder planned name (some (target folder)) id)) :
        target folder = place := by
      obtain ⟨place', hmem, heq⟩ := h.1
      rw [Option.some_inj.mp heq]
      exact List.mem_singleton.mp hmem
    simp only [performUpload, unhindered, nameFolders, htop, List.zip_cons_cons,
      createPlannedFolders, placeOf] at h
    split at h
    · exact hplaced _ _ h.1
    · exact hplaced _ _ h.1

lemma read_of_goesTo (hplan : WellPlaced plan.folders plan.files)
    (h : GoesTo share ⟨[place], listing⟩ (performUpload checked (unhindered plan) folder plan)) :
    (plan.files ≠ [] → checked.currentShareRole.isSome = share) ∧
      ((∃ planned ∈ plan.folders, planned.parent = none) →
        SameNames (checked.childFolders.map (·.name)) listing.folders) ∧
      ((∃ item ∈ plan.files, item.folder = none) → SameNames (checked.files.map (·.name)) listing.files) := by
  have hcreate (i : ℕ) : ∃ id, (unhindered plan).create i = some id := ⟨"", rfl⟩
  obtain ⟨targets, hresult, hlength⟩ := createPlannedFolders_all hcreate (target folder) plan.folders
    (checked.childFolders.map (·.name)) [] hplan.parentsFirst
  simp only [performUpload, hresult, goesTo_append] at h
  obtain ⟨hfolders, hfiles⟩ := h
  have hbound : ∀ item ∈ plan.files, ∀ j, item.folder = some j → j < targets.length := by
    intro item hitem j hj
    have := hplan.files item hitem j hj
    simp only [List.length_nil] at hlength
    omega
  rw [unhindered, List.take_length] at hfiles
  obtain ⟨hshare, hnames⟩ := necessary_of_files plan.files _ _ hbound hfiles
  rw [createPlannedFolders_files] at hnames
  exact ⟨hshare, sameNames_of_folders hcreate plan.folders _ [] _ hplan.parentsFirst hfolders, hnames⟩

end Perform

lemma uploadPlan_eq_some {s : Store} {plan : FolderUploadPlan} {folder : Crumb}
    (h : uploadPlan s plan = some folder) :
    s.current = some folder ∧ ¬ (plan.files = [] ∧ plan.folders = []) := by
  unfold uploadPlan at h
  cases hcurrent : s.current with
  | none => simp [hcurrent] at h
  | some current =>
    simp only [hcurrent] at h
    split_ifs at h with hempty
    cases h
    exact ⟨rfl, hempty⟩

lemma sourceFolder_eq_some {source : Source} {F folder : Crumb} {started walked : Store}
    {plan : FolderUploadPlan} (hF : started.current = some F)
    (h : source.folder started walked plan = some folder) :
    (walks source = true → walked.current = some folder) ∧ (walks source = false → folder = F) ∧
      ¬ (plan.files = [] ∧ plan.folders = []) := by
  cases source with
  | drop busy capture =>
    obtain ⟨hcurrent, hne⟩ := uploadPlan_eq_some h
    exact ⟨fun _ => hcurrent, by simp [walks], hne⟩
  | pick files =>
    obtain ⟨hcurrent, hne⟩ := uploadPlan_eq_some h
    exact ⟨by simp [walks], fun _ => Option.some_inj.mp (hcurrent.symm.trans hF), hne⟩

lemma goesTo_of_stillOpen {toLowerCase : String → String} {source : Source} {F : Crumb} {listing : Listing}
    {started walked checked : Store} (hF : started.current = some F) {refused : Bool}
    (h : ∀ plan, source.plan toLowerCase started = some plan → (source.folder started walked plan).isSome →
      refused = false → StillOpen source F listing walked checked plan) (answers : FolderDrop.Answers) :
    GoesTo (checked.shareRole F.rootFolderId).isSome ⟨[target F], listing⟩
      (source.calls toLowerCase started walked checked refused answers) := by
  unfold Source.calls
  cases hplan : source.plan toLowerCase started with
  | none => trivial
  | some plan =>
    cases hfolder : source.folder started walked plan with
    | none =>
      simp only [hfolder]
      trivial
    | some folder =>
      cases refused with
      | true =>
        simp only [hfolder]
        trivial
      | false =>
        obtain ⟨hwalked, hpicked, -⟩ := sourceFolder_eq_some hF hfolder
        have hstill := h plan hplan (by simp [hfolder]) rfl
        have htarget : target folder = target F := by
          cases hwalks : walks source with
          | true => exact hstill.folder hwalks folder (hwalked hwalks)
          | false => rw [hpicked hwalks]
        simp only [hfolder]
        exact performUpload_goesTo (sourcePlan_wellPlaced hplan) htarget hstill.share hstill.folders
          hstill.files answers

/-! ### Uploads during which nobody navigates -/

/-- The event leads to no other folder. -/
def StaysThere (s : Store) : Event → Prop
  | .openTopLevel _ => False
  | .openChild _ => False
  | .navigateTo _ => False
  | .goHome => False
  | .openTreePath _ => False
  | .mutated k ok => ok = true → s.mutations[k]? ≠ some .leave
  | _ => True

lemma path_beginLoad (navigated : Bool) (s : Store) : (beginLoad navigated s).path = s.path := by
  unfold beginLoad
  cases s.current <;> rfl

lemma path_of_step {s t : Store} {e : Event} (hstays : StaysThere s e) (h : step s e = some t) :
    t.path = s.path := by
  cases e with
  | openTopLevel | openChild | navigateTo | goHome | openTreePath => exact absurd hstays id
  | load k event =>
    obtain ⟨⟨folder, navigated, stage⟩, -, hstep⟩ := Option.bind_eq_some_iff.mp h
    cases event <;> cases stage <;> cases hstep <;> rfl
  | refreshing k event =>
    obtain ⟨refresh, -, hstep⟩ := Option.bind_eq_some_iff.mp h
    obtain ⟨topLevel, sharedWithMe, refreshes, rfl | rfl⟩ := stepRefresh_cases hstep
    · rfl
    · exact path_beginLoad false _
  | openRename selected =>
    rw [← Option.some_inj.mp h]
    obtain heq | ⟨item, heq, -⟩ := openRename_cases selected s
    · rw [heq]
    · rw [heq]
  | rename trimmed =>
    rw [← Option.some_inj.mp h]
    obtain heq | heq | ⟨file, -, heq⟩ := rename_cases trimmed s
    · rw [heq]
    · rw [heq]
      rfl
    · rw [heq]
      rfl
  | mutated k ok =>
    obtain ⟨hleave, hok, -⟩ | rfl | rfl := mutated_cases h
    · exact absurd hleave (hstays hok)
    · rfl
    · rfl
  | refresh | openContextMenu | closeContextMenu | openRenameItem | openDialog | closeDialog =>
    rw [← Option.some_inj.mp h]
  | mutate mutation =>
    rw [← Option.some_inj.mp h]
    rfl

lemma path_of_run {s t : Store} {events : List Event} (hstays : Throughout step StaysThere s events)
    (hrun : run step s events = some t) : t.path = s.path := by
  refine Automaton.invariant_throughout (fun u => u.path = s.path) rfl ?_ hstays hrun
  intro u e v hstay hpath hstep
  rw [path_of_step hstay hstep, hpath]

/-- While nobody navigates, an upload goes where it was started, and its names there are free among the
rows that are shown when they are chosen. -/
theorem upload_stays_without_navigation (toLowerCase : String → String) (source : Source) (F : Crumb)
    {started walked checked : Store} (hF : started.current = some F)
    (hroot : started.currentRootId = some F.rootFolderId) {during meanwhile : List Event}
    (hduring : Throughout step StaysThere started during) (hwalk : run step started during = some walked)
    (hmeanwhile : Throughout step StaysThere walked meanwhile)
    (hcheck : run step walked meanwhile = some checked) (refused : Bool) (answers : FolderDrop.Answers) :
    GoesTo (checked.shareRole F.rootFolderId).isSome
      ⟨[target F], checked.childFolders.map (·.name), checked.files.map (·.name)⟩
      (source.calls toLowerCase started walked checked refused answers) := by
  have hwalked : walked.path = started.path := path_of_run hduring hwalk
  have hchecked : checked.path = started.path := (path_of_run hmeanwhile hcheck).trans hwalked
  refine goesTo_of_stillOpen hF (fun plan _ _ _ => ?_) answers
  refine ⟨fun _ folder hfolder => ?_, fun _ => ?_, fun _ _ => Iff.rfl, fun _ _ => Iff.rfl⟩
  · rw [Store.current, hwalked] at hfolder
    rw [Option.some_inj.mp (hfolder.symm.trans hF)]
  · rw [Store.currentRootId] at hroot
    simp [Store.currentShareRole, Store.currentRootId, hchecked, hroot]

/-! ### A share folder and a private one -/

section Sample

def shareFolderF : Crumb := ⟨"f", "f", "F"⟩

def privateFolderG : Crumb := ⟨"g", "g", "G"⟩

def openInF : Store :=
  { Store.empty with
    path := [shareFolderF]
    topLevel := [⟨⟨"f", "share"⟩, "F"⟩, ⟨⟨"g", "private"⟩, "G"⟩]
    files := [⟨⟨"in-f"⟩, "a.txt"⟩] }

def openInG : Store :=
  { openInF with
    path := [privateFolderG]
    files := [⟨⟨"in-g"⟩, "g.txt"⟩]
    answers := [⟨"g", [], [⟨"in-g"⟩]⟩] }

def openG : List Event :=
  [.openTreePath [privateFolderG], .load 0 (.listed [] [⟨"in-g"⟩]), .load 0 (.foldersNamed fun _ => none),
    .load 0 (.filesNamed fun _ => some "g.txt")]

def listingF : Listing := ⟨[], ["a.txt"]⟩

def droppedFile : LocalFile := ⟨"a.txt", 1, ""⟩

def sampleDrop : Source := .drop false ⟨[.file "a.txt" (some droppedFile)], []⟩

def samplePick : Source := .pick [droppedFile]

def accepting : FolderDrop.Answers := ⟨fun _ => some "new", 1⟩

theorem sampleDrop_stays_without_navigation :
    ∃ checked, run step openInF [.closeContextMenu] = some checked ∧
      GoesTo (checked.shareRole "f").isSome
        ⟨[target shareFolderF], checked.childFolders.map (·.name), checked.files.map (·.name)⟩
        (sampleDrop.calls id openInF openInF checked false accepting) := by
  have hwalk : Throughout step StaysThere openInF [] := trivial
  have hcheck : Throughout step StaysThere openInF [.closeContextMenu] := ⟨trivial, fun _ _ => trivial⟩
  exact ⟨_, rfl,
    upload_stays_without_navigation id sampleDrop shareFolderF rfl rfl hwalk rfl hcheck rfl false accepting⟩

end Sample

/-- Whatever happens to the store in between, every folder and every file of an upload goes under the
folder it was started in, with the share flag of that folder's root and with names chosen against its
listing and free in it, if and only if the store is still about that folder when it is read. -/
theorem upload_goes_where_started_iff (toLowerCase : String → String) (source : Source) (F : Crumb)
    (listing : Listing) (started walked checked : Store) (hF : started.current = some F) (refused : Bool) :
    (∀ answers, GoesTo (checked.shareRole F.rootFolderId).isSome ⟨[target F], listing⟩
        (source.calls toLowerCase started walked checked refused answers)) ↔
      ∀ plan, source.plan toLowerCase started = some plan → (source.folder started walked plan).isSome →
        refused = false → StillOpen source F listing walked checked plan := by
  constructor
  · intro h plan hplan hfolder hrefused
    obtain ⟨folder, hfolder⟩ := Option.isSome_iff_exists.mp hfolder
    have hplaced := sourcePlan_wellPlaced hplan
    obtain ⟨hwalked, -, hne⟩ := sourceFolder_eq_some hF hfolder
    simp only [Source.calls, hplan, hfolder, hrefused, Bool.false_eq_true, if_false] at h
    obtain ⟨hshare, hfolders, hfiles⟩ := read_of_goesTo hplaced (h (unhindered plan))
    refine ⟨fun hwalks other hother => ?_, hshare, hfolders, hfiles⟩
    obtain rfl : folder = other := Option.some_inj.mp ((hwalked hwalks).symm.trans hother)
    exact target_of_goesTo hplaced hne (h (unhindered plan))
  · exact goesTo_of_stillOpen hF

/-- What the drive is sent: the place, the share flag and the name of each file. -/
def sent : List FolderDrop.Call → List (FolderTarget × Bool × String) :=
  List.filterMap fun
    | .uploadFile target shareFolder name _ => some (target, shareFolder, name.text)
    | .createFolder .. => none

theorem upload_goes_where_started_in_f :
    openInF.current = some shareFolderF ∧
      sent (sampleDrop.calls id openInF openInF openInF false accepting) = [(⟨"f", "f"⟩, true, "a (1).txt")] ∧
      ∀ answers, GoesTo (openInF.shareRole "f").isSome ⟨[⟨"f", "f"⟩], listingF⟩
        (sampleDrop.calls id openInF openInF openInF false answers) := by
  refine ⟨rfl, by decide +kernel, ?_⟩
  apply (upload_goes_where_started_iff id sampleDrop shareFolderF listingF openInF openInF
    openInF rfl false).mpr
  intro plan hplan _ _
  refine ⟨fun _ folder hfolder => ?_, fun _ => rfl, fun _ _ => Iff.rfl, fun _ _ => Iff.rfl⟩
  rw [← Option.some_inj.mp hfolder]
  rfl

/-- The private folder is opened while the dropped file is read: it goes there. It is opened during
the capacity check: the file goes into the share folder without the share flag, under a name that is
taken there. -/
theorem upload_follows_navigation :
    run step openInF openG = some openInG ∧
      sent (sampleDrop.calls id openInF openInG openInG false accepting) = [(⟨"g", "g"⟩, false, "a.txt")] ∧
      sent (samplePick.calls id openInF openInF openInG false accepting) = [(⟨"f", "f"⟩, false, "a.txt")] ∧
      "a.txt" ∈ listingF.files ∧
      ¬ GoesTo (openInG.shareRole "f").isSome ⟨[⟨"f", "f"⟩], listingF⟩
        (sampleDrop.calls id openInF openInG openInG false accepting) ∧
      ¬ GoesTo (openInG.shareRole "f").isSome ⟨[⟨"f", "f"⟩], listingF⟩
        (samplePick.calls id openInF openInF openInG false accepting) := by
  have hdrop : sampleDrop.calls id openInF openInG openInG false accepting =
      [.uploadFile ⟨"g", "g"⟩ false (.chosen "a.txt" ["g.txt"]) ⟨droppedFile, none⟩] := rfl
  have hpick : samplePick.calls id openInF openInF openInG false accepting =
      [.uploadFile ⟨"f", "f"⟩ false (.chosen "a.txt" ["g.txt"]) ⟨droppedFile, none⟩] := rfl
  have hname : dedupeName "a.txt" ["g.txt"] = "a.txt" := by decide +kernel
  have hshare : (openInG.shareRole "f").isSome = true := rfl
  rw [hdrop, hpick]
  refine ⟨rfl, ?_, ?_, by simp [listingF], ?_, ?_⟩
  · simp [sent, GivenName.text, hname]
  · simp [sent, GivenName.text, hname]
  · simp [GoesTo, Placed]
  · rw [hshare]
    simp [GoesTo, Placed]

end SignetDrive.Proofs
