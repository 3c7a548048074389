import SignetDrive.Lib.PositionedWrite
import SignetDrive.Model.Envelope

/-!
# The cut of a file into chunks

The chunk plan of an upload and the ranges of a download, `cli/src/commands.rs`. An operation that
overflows panics or wraps, by the build profile; `none` is a panic.
-/

namespace SignetDrive

def MAX_PARTS : ℕ := 10000

def plannedChunks (fileSize chunkSize : U64) : Option U64 :=
  if fileSize.val = 0 then some 1 else divCeil fileSize chunkSize

def chunkPlan (profile : Profile) (fileSize chunkSize : U64) : Option (Except CliError (I32 × I64)) := do
  let chunkCount ← plannedChunks fileSize chunkSize
  if MAX_PARTS < chunkCount.val then
    return .error (.invalidArgs
      (s!"file needs {chunkCount.val} chunks at chunk_size {chunkSize.val}; the max is {MAX_PARTS}. " ++
        "Use a larger --chunk-size"))
  else
    let overhead ← profile.i64 (chunkCount.asI64.1 * MULTIPART_CHUNK_OVERHEAD)
    let declaredSize ← profile.i64 (fileSize.asI64.1 + overhead.1)
    return .ok (chunkCount.asI32, declaredSize)

def MIN_MULTIPART_CHUNK_SIZE : ℕ := 5 * 1024 * 1024

/-- Of several parts only the last may be smaller than the storage allows. -/
def checkMultipartFloor (chunkCount : I32) (chunkSize : U64) : Except CliError Unit :=
  if 1 < chunkCount.1 ∧ chunkSize.val < MIN_MULTIPART_CHUNK_SIZE then
    .error (.invalidArgs
      (s!"--chunk-size {chunkSize.val} is below the {MIN_MULTIPART_CHUNK_SIZE}-byte (5 MiB) minimum " ++
        s!"that object storage requires for multi-part uploads; this file needs {chunkCount.1} parts " ++
        "(use a larger --chunk-size; only a single-part upload may go below the minimum)"))
  else .ok ()

/-- The first and the last byte of chunk `i` in the stored object. -/
def chunkRange (profile : Profile) (multipartChunks : U32) (onDisk last : U64) (i : ℕ) :
    Option (U64 × U64) := do
  let start ← profile.u64 (i * onDisk.val)
  if i < multipartChunks.val - 1 then
    let next ← profile.u64 (start.val + onDisk.val)
    let stop ← profile.u64Sub next 1
    return (start, stop)
  else
    return (start, last)

def chunkRanges (profile : Profile) (multipartChunks : U32) (chunkSize sizeBytes : U64) :
    Option (List (U64 × U64)) := do
  let onDisk ← profile.u64 (chunkSize.val + MULTIPART_CHUNK_OVERHEAD)
  let last : U64 := ⟨sizeBytes.val - 1, by omega⟩
  (List.range multipartChunks.val).mapM (chunkRange profile multipartChunks onDisk last)

def indexAsU32 (index : ℕ) : U32 := ⟨index % 2 ^ 32, Nat.mod_lt _ (by norm_num)⟩

lemma val_indexAsU32 {index : ℕ} (h : index < 2 ^ 32) : (indexAsU32 index).val = index := Nat.mod_eq_of_lt h

def chunkOffset (profile : Profile) (plainStride : U64) (index : ℕ) : Option U64 :=
  profile.u64 (index * plainStride.val)

end SignetDrive
