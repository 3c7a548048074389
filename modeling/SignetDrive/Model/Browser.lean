import SignetDrive.Lib.Automaton

/-!
# The browser store of the web drive

`web/src/lib/browser.svelte.ts`. A call runs to its next `await` without interruption; an event starts a
call, or says what an `await` of a call came to. The loads of a folder's contents are listed as begun.
-/

namespace SignetDrive.Browser

structure FolderView where
  folder_id : String
  folder_type : String
deriving DecidableEq

structure FileView where
  file_id : String
deriving DecidableEq

structure NamedFolder where
  view : FolderView
  name : String
deriving DecidableEq

structure NamedFile where
  view : FileView
  name : String
deriving DecidableEq

/-- One step of the path, with the top-level folder that binds the keys of its hierarchy. -/
structure Crumb where
  folderId : String
  rootFolderId : String
  name : String
deriving DecidableEq

inductive RowItem where
  | file (file : NamedFile)
  | folder (folder : NamedFolder)
deriving DecidableEq

inductive Dialog where
  | rename (item : RowItem)
  /-- Any other dialog: a new folder, a move, a deletion, the share panel. -/
  | other
deriving DecidableEq

inductive Stage where
  /-- It awaits the two lists. -/
  | listing
  /-- It awaits the names of the child folders. -/
  | namingFolders (folders : List FolderView) (files : List FileView)
  /-- The child folders are shown; it awaits the names of the files. -/
  | namingFiles (files : List FileView)
deriving DecidableEq

structure Load where
  folder : Crumb
  /-- Begun by a navigation step, and not by a refresh. -/
  navigated : Bool
  stage : Stage
deriving DecidableEq

inductive Refresh where
  | quota
  | topLevel
  | namingTopLevel (folders : List FolderView)
  | sharedWithMe
  | namingShared (folders : List FolderView)
  | tree
deriving DecidableEq

inductive Mutation where
  | leave
  /-- One that leaves the path and the rows to the refresh after it. -/
  | request
deriving DecidableEq

structure Answer where
  folderId : String
  folders : List FolderView
  files : List FileView
deriving DecidableEq

/-- A call of `Drive.renameFile`: the name is encrypted under the root folder. -/
structure Rename where
  file_id : String
  rootFolderId : String
  newName : String
deriving DecidableEq

structure Store where
  path : List Crumb
  topLevel : List NamedFolder
  sharedWithMe : List NamedFolder
  childFolders : List NamedFolder
  files : List NamedFile
  dialog : Option Dialog
  contextMenu : Option RowItem
  loads : List Load
  refreshes : List Refresh
  mutations : List Mutation
  answers : List Answer
  renames : List Rename
deriving DecidableEq

def Store.empty : Store := ⟨[], [], [], [], [], none, none, [], [], [], [], []⟩

namespace Store

variable (s : Store)

def current : Option Crumb := s.path.getLast?

def currentRootId : Option String := s.path.head?.map (·.rootFolderId)

end Store

inductive ShareRole where
  | owner
  | recipient
deriving DecidableEq

variable (s : Store)

def Store.shareRole (rootId : String) : Option ShareRole :=
  if rootId = "" then none
  else if s.topLevel.any fun f => f.view.folder_id = rootId ∧ f.view.folder_type ≠ "private" then some .owner
  else if s.sharedWithMe.any fun f => f.view.folder_id = rootId then some .recipient
  else none

def Store.currentShareRole : Option ShareRole := s.currentRootId.bind s.shareRole

def Store.ownsCurrentRoot : Bool := s.currentShareRole ≠ some .recipient

def beginLoad (navigated : Bool) (s : Store) : Store :=
  match s.current with
  | none => s
  | some folder => { s with loads := s.loads ++ [⟨folder, navigated, .listing⟩] }

def openTopLevel (folder : NamedFolder) (s : Store) : Store :=
  beginLoad true { s with path := [⟨folder.view.folder_id, folder.view.folder_id, folder.name⟩] }

def openChild (folder : NamedFolder) (s : Store) : Store :=
  let rootFolderId := s.currentRootId.getD folder.view.folder_id
  beginLoad true { s with path := s.path ++ [⟨folder.view.folder_id, rootFolderId, folder.name⟩] }

def navigateTo (index : ℕ) (s : Store) : Store :=
  beginLoad true { s with path := s.path.take (index + 1) }

/-- Its refresh follows at once. -/
def goHome : Store :=
  { s with path := [], childFolders := [], files := [], refreshes := s.refreshes ++ [.quota] }

def openTreePath (path : List Crumb) (s : Store) : Store :=
  if path = [] then s else beginLoad true { s with path := path }

def nameFolder (name : FolderView → Option String) (view : FolderView) : NamedFolder :=
  ⟨view, (name view).getD "(unreadable)"⟩

def nameFile (name : FileView → Option String) (view : FileView) : NamedFile :=
  ⟨view, (name view).getD "(unreadable)"⟩

inductive Selected where
  | file (id : String)
  | folder (id : String)

/-- `singleSelection`: the row that alone is selected, by its id, if it is still shown. -/
def singleSelection (selected : Selected) (s : Store) : Option RowItem :=
  match selected with
  | .file id => (s.files.find? fun f => f.view.file_id = id).map .file
  | .folder id => (s.childFolders.find? fun f => f.view.folder_id = id).map .folder

def openRename (selected : Selected) (s : Store) : Store :=
  match singleSelection selected s with
  | some item => { s with dialog := some (.rename item) }
  | none => s

def beginMutation (mutation : Mutation) (s : Store) : Store :=
  { s with mutations := s.mutations ++ [mutation] }

/-- The root folder is the one that is open when the dialog is submitted. -/
def rename (trimmed : String) (s : Store) : Store :=
  match s.dialog with
  | some (.rename item) =>
    if trimmed = "" then s
    else
      match item with
      | .file file =>
        beginMutation .request
          { s with renames := s.renames ++ [⟨file.view.file_id, s.currentRootId.getD "", trimmed⟩] }
      | .folder _ => beginMutation .request s
  | _ => s

/-- The operation of a `mutate` is answered; a leave that succeeds goes home first. -/
def endMutation (mutation : Mutation) (s : Store) : Store :=
  match mutation with
  | .leave =>
    { s with path := [], childFolders := [], files := [], dialog := none, refreshes := s.refreshes ++ [.quota] }
  | .request => { s with dialog := none, refreshes := s.refreshes ++ [.quota] }

inductive LoadEvent where
  | listed (folders : List FolderView) (files : List FileView)
  | listFailed
  | foldersNamed (name : FolderView → Option String)
  | filesNamed (name : FileView → Option String)

/-- What an `await` of a refresh came to; a list that fails is missing. -/
inductive RefreshEvent where
  | quotaAnswered (ok : Bool)
  | listed (folders : Option (List FolderView))
  | named (name : FolderView → Option String)
  | treeRefreshed

inductive Event where
  | openTopLevel (folder : NamedFolder)
  | openChild (folder : NamedFolder)
  | navigateTo (index : ℕ)
  | goHome
  | openTreePath (path : List Crumb)
  /-- The timer of the change stream starts a refresh. -/
  | refresh
  | load (k : ℕ) (event : LoadEvent)
  | refreshing (k : ℕ) (event : RefreshEvent)
  /-- The toolbar's rename, for the row that is selected. -/
  | openRename (selected : Selected)
  | openContextMenu (item : RowItem)
  | closeContextMenu
  | openRenameItem (item : RowItem)
  | openDialog
  | closeDialog
  /-- The rename dialog is submitted, with its text trimmed. -/
  | rename (trimmed : String)
  | mutate (mutation : Mutation)
  | mutated (k : ℕ) (ok : Bool)

/-- `loadContents` after an `await`. A failed list leaves the rows as they are. -/
def stepLoad (k : ℕ) : Load → LoadEvent → Option Store
  | ⟨folder, navigated, .listing⟩, .listed folders files =>
    some { s with
      loads := s.loads.set k ⟨folder, navigated, .namingFolders folders files⟩
      answers := s.answers ++ [⟨folder.folderId, folders, files⟩] }
  | ⟨_, _, .listing⟩, .listFailed => some { s with loads := s.loads.eraseIdx k }
  | ⟨folder, navigated, .namingFolders folders files⟩, .foldersNamed name =>
    some { s with
      childFolders := folders.map (nameFolder name)
      loads := s.loads.set k ⟨folder, navigated, .namingFiles files⟩ }
  | ⟨_, _, .namingFiles files⟩, .filesNamed name =>
    some { s with files := files.map (nameFile name), loads := s.loads.eraseIdx k }
  | _, _ => none

/-- `refresh` after an `await`. A failed list of the shared folders is caught; another failure ends
the refresh. -/
def stepRefresh (k : ℕ) : Refresh → RefreshEvent → Option Store
  | .quota, .quotaAnswered true => some { s with refreshes := s.refreshes.set k .topLevel }
  | .quota, .quotaAnswered false => some { s with refreshes := s.refreshes.eraseIdx k }
  | .topLevel, .listed (some folders) =>
    some { s with refreshes := s.refreshes.set k (.namingTopLevel folders) }
  | .topLevel, .listed none => some { s with refreshes := s.refreshes.eraseIdx k }
  | .namingTopLevel folders, .named name =>
    some { s with topLevel := folders.map (nameFolder name), refreshes := s.refreshes.set k .sharedWithMe }
  | .sharedWithMe, .listed (some folders) =>
    some { s with refreshes := s.refreshes.set k (.namingShared folders) }
  | .sharedWithMe, .listed none => some { s with refreshes := s.refreshes.set k .tree }
  | .namingShared folders, .named name =>
    some { s with sharedWithMe := folders.map (nameFolder name), refreshes := s.refreshes.set k .tree }
  | .tree, .treeRefreshed => some (beginLoad false { s with refreshes := s.refreshes.eraseIdx k })
  | _, _ => none

def step : Event → Option Store
  | .openTopLevel folder => some (openTopLevel folder s)
  | .openChild folder => some (openChild folder s)
  | .navigateTo index => some (navigateTo index s)
  | .goHome => some (goHome s)
  | .openTreePath path => some (openTreePath path s)
  | .refresh => some { s with refreshes := s.refreshes ++ [.quota] }
  | .load k event => s.loads[k]?.bind fun load => stepLoad s k load event
  | .refreshing k event => s.refreshes[k]?.bind fun refresh => stepRefresh s k refresh event
  | .openRename selected => some (openRename selected s)
  | .openContextMenu item => some { s with contextMenu := some item }
  | .closeContextMenu => some { s with contextMenu := none }
  | .openRenameItem item => some { s with dialog := some (.rename item) }
  | .openDialog => some { s with dialog := some .other }
  | .closeDialog => some { s with dialog := none }
  | .rename trimmed => some (rename trimmed s)
  | .mutate mutation => some (beginMutation mutation s)
  | .mutated k ok => s.mutations[k]?.map fun mutation =>
      let s := { s with mutations := s.mutations.eraseIdx k }
      if ok then endMutation mutation s else s

end SignetDrive.Browser
