import SignetDrive.Model.UploadParts
import SignetDrive.Model.UploadState

/-!
# Completing an upload

What `upload` and `try_resume` of `cli/src/commands.rs` post once all parts are stored.
-/

namespace SignetDrive

open Client

/-- An array member; empty if it is missing. -/
def jsonParts (response : Json) (key : String) : List Json := ((response.get key).bind Json.asArray).getD []

/-- An integer member, `as u64`; 0 if it is missing. -/
def jsonU64 (response : Json) (key : String) : U64 := ((response.getI64 key).map I64.asU64).getD 0

def uploadedParts (resume : Json) : List PartInput :=
  (jsonParts resume "uploaded_parts").map fun part =>
    ⟨(jsonU64 part "part_number").asI32, (part.getStr "etag").getD ""⟩

def completeParts (resume : Option Json) (newParts : List PartInput) : List PartInput :=
  match resume with
  | none => newParts
  | some resume => uploadedParts resume ++ newParts

end SignetDrive
