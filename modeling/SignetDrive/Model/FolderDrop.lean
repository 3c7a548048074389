import SignetDrive.Model.Browser
import SignetDrive.Model.Names

/-!
# Uploads of dropped and picked folders

`web/src/lib/folder-drop.ts` and the upload of `browser.svelte.ts`, which reads the store when it is
started, when the dropped tree has been read, and when the capacity check is answered.
-/

namespace SignetDrive.FolderDrop

open Browser

structure LocalFile where
  name : String
  size : ℕ
  webkitRelativePath : String
deriving DecidableEq

/-- A dropped entry. The batches are what `readEntries` gives, call by call. -/
inductive Entry where
  | file (name : String) (content : Option LocalFile)
  | directory (name : String) (readable : Bool) (batches : List (List Entry))
  | other (name : String)

def Entry.isDirectory : Entry → Bool
  | .directory .. => true
  | _ => false

structure DropCapture where
  entries : List Entry
  unreadable : List String

structure PlannedFolder where
  name : String
  /-- The place of an earlier folder of the plan, or the drop target itself. -/
  parent : Option ℕ
  path : String
deriving DecidableEq

structure PlannedFile where
  file : LocalFile
  folder : Option ℕ
deriving DecidableEq

structure FolderUploadPlan where
  folders : List PlannedFolder
  files : List PlannedFile
  skipped : ℕ
deriving DecidableEq

def FolderUploadPlan.empty : FolderUploadPlan := ⟨[], [], 0⟩

section Plan

-- `toLowerCase` is the method of JavaScript strings.
variable (toLowerCase : String → String)

def isSystemClutter (name : String) : Bool :=
  name = ".DS_Store" || "._".toList.isPrefixOf name.toList || toLowerCase name = "thumbs.db" ||
    toLowerCase name = "desktop.ini"

def joinPath (parentPath name : String) : String :=
  if parentPath = "" then name else parentPath ++ "/" ++ name

mutual

/-- An entry that cannot be read gives its path as the error. -/
def visit (parent : Option ℕ) (parentPath : String) : Entry → FolderUploadPlan → Except String FolderUploadPlan
  | .directory name readable batches, plan =>
    let path := joinPath parentPath name
    if readable then
      visitBatches (some plan.folders.length) path batches
        { plan with folders := plan.folders ++ [⟨name, parent, path⟩] }
    else .error path
  | .other name, _ => .error (joinPath parentPath name)
  | .file name content, plan =>
    if isSystemClutter toLowerCase name then .ok { plan with skipped := plan.skipped + 1 }
    else
      match content with
      | none => .error (joinPath parentPath name)
      | some file => .ok { plan with files := plan.files ++ [⟨file, parent⟩] }

/-- The children of a directory, up to the first empty batch. -/
def visitBatches (parent : Option ℕ) (parentPath : String) :
    List (List Entry) → FolderUploadPlan → Except String FolderUploadPlan
  | [], plan => .ok plan
  | [] :: _, plan => .ok plan
  | (child :: children) :: batches, plan =>
    (visitChildren parent parentPath (child :: children) plan).bind (visitBatches parent parentPath batches)

def visitChildren (parent : Option ℕ) (parentPath : String) :
    List Entry → FolderUploadPlan → Except String FolderUploadPlan
  | [], plan => .ok plan
  | child :: children, plan =>
    (visit parent parentPath child plan).bind (visitChildren parent parentPath children)

end

def resolveEntries (entries : List Entry) : Except String FolderUploadPlan :=
  visitChildren toLowerCase none "" entries .empty

structure PathIndex where
  folders : List PlannedFolder
  byPath : List (String × ℕ)

def folderFor (parent : Option ℕ) (path : String) : List String → PathIndex → Option ℕ × PathIndex
  | [], index => (parent, index)
  | name :: segments, index =>
    let path := joinPath path name
    match index.byPath.lookup path with
    | some place => folderFor (some place) path segments index
    | none =>
      let place := index.folders.length
      folderFor (some place) path segments
        ⟨index.folders ++ [⟨name, parent, path⟩], (path, place) :: index.byPath⟩

def relativeSegments (file : LocalFile) : List String :=
  let rel := if file.webkitRelativePath = "" then file.name else file.webkitRelativePath
  ((rel.toList.splitOn '/').map String.ofList).filter (· ≠ "")

def planRelative : List LocalFile → PathIndex → List PlannedFile → ℕ → FolderUploadPlan
  | [], index, files, skipped => ⟨index.folders, files, skipped⟩
  | file :: rest, index, files, skipped =>
    let segments := relativeSegments file
    let name := segments.getLast?.getD file.name
    let (folder, index) := folderFor none "" segments.dropLast index
    if isSystemClutter toLowerCase name then planRelative rest index files (skipped + 1)
    else planRelative rest index (files ++ [⟨file, folder⟩]) skipped

def planFromRelativePaths (files : List LocalFile) : FolderUploadPlan :=
  planRelative toLowerCase files ⟨[], []⟩ [] 0

end Plan

/-- The name of a folder or file: its own, or the one that `dedupe` chooses when it is called with a
desired name and the names that are taken. -/
inductive GivenName where
  | kept (name : String)
  | chosen (desired : String) (taken : List String)

def GivenName.text : GivenName → String
  | .kept name => name
  | .chosen desired taken => dedupeName desired taken

def nameFolders : List PlannedFolder → List String → List GivenName
  | [], _ => []
  | f :: folders, taken =>
    match f.parent with
    | some _ => .kept f.name :: nameFolders folders taken
    | none => .chosen f.name taken :: nameFolders folders (dedupeName f.name taken :: taken)

structure FolderTarget where
  folderId : String
  rootFolderId : String
deriving DecidableEq

def target (folder : Browser.Crumb) : FolderTarget := ⟨folder.folderId, folder.rootFolderId⟩

/-- A call of the drive for a folder or a file of the plan; what is sent is the text of the name. -/
inductive Call where
  /-- `createFolder`, with the id of the new folder if it succeeds; without a parent it is a root. -/
  | createFolder (planned : PlannedFolder) (name : GivenName) (parent : Option FolderTarget)
      (created : Option String)
  | uploadFile (target : FolderTarget) (shareFolder : Bool) (name : GivenName) (item : PlannedFile)

def placeOf (dropTarget : FolderTarget) (targets : List FolderTarget) : Option ℕ → Option FolderTarget
  | none => some dropTarget
  | some i => targets[i]?

/-- The calls, and the targets by place unless one of the folders could not be created. -/
def createPlannedFolders (create : ℕ → Option String) (dropTarget : FolderTarget) :
    List (PlannedFolder × GivenName) → List FolderTarget → List Call × Option (List FolderTarget)
  | [], targets => ([], some targets)
  | (planned, name) :: rest, targets =>
    let place := placeOf dropTarget targets planned.parent
    match place, create targets.length with
    | some parent, some id =>
      let (calls, result) :=
        createPlannedFolders create dropTarget rest (targets ++ [⟨id, parent.rootFolderId⟩])
      (.createFolder planned name place (some id) :: calls, result)
    | _, created => ([.createFolder planned name place created], none)

/-- The batch opens its files in order; each target keeps its own set of taken names. -/
def uploadCalls (shareFolder : Bool) (dropTarget : FolderTarget) (targets : List FolderTarget) :
    List PlannedFile → List (Option ℕ × List String) → List Call
  | [], _ => []
  | item :: rest, sets =>
    let taken := (sets.lookup item.folder).getD []
    let name := GivenName.chosen item.file.name taken
    match placeOf dropTarget targets item.folder with
    | none => []
    | some target =>
      .uploadFile target shareFolder name item ::
        uploadCalls shareFolder dropTarget targets rest ((item.folder, name.text :: taken) :: sets)

/-- What the upload meets: the answers to its creations, and how many files it opens before it is
cancelled. -/
structure Answers where
  create : ℕ → Option String
  opened : ℕ

section Upload

variable (toLowerCase : String → String)

/-- `uploadDrop` up to the end of the walk: the plan it goes on with. -/
def uploadDrop (started : Store) (busy : Bool) (capture : DropCapture) : Option FolderUploadPlan :=
  if started.current = none ∨ busy then none
  else if capture.unreadable ≠ [] then none
  else if capture.entries.isEmpty then none
  else if capture.entries.any Entry.isDirectory ∧ ¬ started.ownsCurrentRoot then none
  else (resolveEntries toLowerCase capture.entries).toOption

def uploadPickedFolder (started : Store) (files : List LocalFile) : Option FolderUploadPlan :=
  if started.current = none ∨ files = [] then none else some (planFromRelativePaths toLowerCase files)

/-- `uploadPlan` up to the capacity check: the folder it goes on with. -/
def uploadPlan (s : Store) (plan : FolderUploadPlan) : Option Crumb :=
  match s.current with
  | none => none
  | some folder =>
    if plan.files = [] ∧ plan.folders = [] then none
    else if plan.folders ≠ [] ∧ ¬ s.ownsCurrentRoot then none
    else some folder

def performUpload (s : Store) (answers : Answers) (folder : Crumb) (plan : FolderUploadPlan) : List Call :=
  let shareFolder := s.currentShareRole.isSome
  let names := nameFolders plan.folders (s.childFolders.map (·.name))
  let (created, targets) :=
    createPlannedFolders answers.create (target folder) (plan.folders.zip names) []
  match targets with
  | none => created
  | some targets =>
    created ++ uploadCalls shareFolder (target folder) targets (plan.files.take answers.opened)
      [(none, s.files.map (·.name))]

inductive Source where
  | drop (busy : Bool) (capture : DropCapture)
  | pick (files : List LocalFile)

def Source.plan (source : Source) (started : Store) : Option FolderUploadPlan :=
  match source with
  | .drop busy capture => uploadDrop toLowerCase started busy capture
  | .pick files => uploadPickedFolder toLowerCase started files

/-- The folder an upload goes on with: a drop asks for it after the walk, a pick at once. -/
def Source.folder (source : Source) (started walked : Store) (plan : FolderUploadPlan) : Option Crumb :=
  match source with
  | .drop .. => uploadPlan walked plan
  | .pick .. => uploadPlan started plan

/-- The calls of an upload, from the store when it is started, when the tree has been read and when
the capacity check is answered. -/
def Source.calls (source : Source) (started walked checked : Store) (refused : Bool)
    (answers : Answers) : List Call :=
  match source.plan toLowerCase started with
  | none => []
  | some plan =>
    match source.folder started walked plan with
    | none => []
    | some folder => if refused then [] else performUpload checked answers folder plan

end Upload

end SignetDrive.FolderDrop
