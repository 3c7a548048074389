import SignetDrive.Model.Receipt

/-!
# State files of uploads in flight

`cli/src/upload_state.rs`. What `serde_json` reads from a file and the hash of the anchor are
parameters.
-/

namespace SignetDrive

open Client

/-- One upload in flight: what its state file holds, without the measured rate. -/
structure UploadState where
  fileId : String
  uploadId : String
  serverUrl : String
  folderId : String
  rootFolderId : String
  name : String
  sourcePath : String
  fileSize : U64
  fileMtimeUnix : I64
  chunkSize : U64
  chunkCount : I32
  contentAnchor : Option String
  deriving DecidableEq

/-- An entry of the state directory; it has no bytes if it cannot be read. -/
structure StateFile where
  path : String
  bytes : Option Bytes
  deriving DecidableEq

structure ResumeKey where
  serverUrl : String
  folderId : String
  name : String
  sourcePath : String
  fileSize : U64
  fileMtimeUnix : I64
  contentAnchor : Option String
  deriving DecidableEq

def readExact (file : Bytes) (start count : ℕ) : Option Bytes :=
  if (file.drop start).length < count then none else some ((file.drop start).take count)

/-- The hash of the two ends of the source; `none` if it cannot be read. -/
def contentAnchor (fingerprintRaw : Bytes → String) (source : Option Bytes) (fileSize chunkSize : U64) :
    Option String := do
  let file ← source
  let span := min chunkSize.val fileSize.val
  let head ← readExact file 0 span
  let tail ← readExact file (fileSize.val - span) span
  return fingerprintRaw (utf8 "signet:resume-anchor:v1" ++ toBeBytes 8 fileSize.val ++ head ++ tail)

namespace UploadState

variable (state : UploadState) (key : ResumeKey)

def sameDest : Bool :=
  state.serverUrl = key.serverUrl ∧ state.folderId = key.folderId ∧ state.name = key.name

def sameContent : Bool :=
  match state.contentAnchor, key.contentAnchor with
  | some stored, some current => stored = current
  | _, _ => false

def sameSource : Bool :=
  state.sourcePath = key.sourcePath ∧ state.fileSize = key.fileSize ∧ state.fileMtimeUnix = key.fileMtimeUnix ∧
    state.sameContent key

end UploadState

variable (parse : Bytes → Option UploadState)

def StateFile.state (file : StateFile) : Option UploadState := file.bytes.bind parse

/-- The first state that matches, and the files that are removed on the way: those for the same
destination with another source. -/
def findMatchIn (key : ResumeKey) : List StateFile → Option UploadState × List StateFile
  | [] => (none, [])
  | file :: entries =>
    match file.state parse with
    | none => findMatchIn key entries
    | some state =>
      if state.sameDest key then
        if state.sameSource key then (some state, [])
        else
          let (found, removed) := findMatchIn key entries
          (found, file :: removed)
      else findMatchIn key entries

/-- The directory after the removals, as far as the file system lets them happen. -/
def sweep (entries removed : List StateFile) (removes : StateFile → Bool) : List StateFile :=
  entries.filter fun file => !(file ∈ removed && removes file)

structure UploadCommand where
  serverUrl : String
  folderId : String
  rootFolderId : String
  name : String
  inPath : String
  sourcePath : String
  chunkSize : U64
  fileMtimeUnix : I64
  fileSize : U64
  file : Bytes
  length_file : file.length = fileSize.val

namespace UploadCommand

variable (cmd : UploadCommand)

def anchor (fingerprintRaw : Bytes → String) (readable : Bool) : Option String :=
  SignetDrive.contentAnchor fingerprintRaw (if readable then some cmd.file else none) cmd.fileSize cmd.chunkSize

def key (anchor : Option String) : ResumeKey :=
  ⟨cmd.serverUrl, cmd.folderId, cmd.name, cmd.sourcePath, cmd.fileSize, cmd.fileMtimeUnix, anchor⟩

def state (anchor : Option String) (fileId uploadId : String) (chunkCount : I32) : UploadState :=
  ⟨fileId, uploadId, cmd.serverUrl, cmd.folderId, cmd.rootFolderId, cmd.name, cmd.sourcePath, cmd.fileSize,
    cmd.fileMtimeUnix, cmd.chunkSize, chunkCount, anchor⟩

end UploadCommand

end SignetDrive
