import SignetDrive.Model.Anchoring
import SignetDrive.Model.OwnerWatch

/-!
# Verifying a key in the log

`transparency_verify` of `cli/src/commands.rs`.
-/

namespace SignetDrive
open Client Program

/-- `doc[key]`: null when there is no such member. -/
def Json.index (self : Json) (key : String) : Json := (self.get key).getD .null

def hex32 (p : Primitives) (value : Json) (what : String) : Except CliError Hash := do
  let s ← okOr value.asStr (.invalidData s!"missing/invalid {what}")
  let bytes ← okOr (p.hexDecode s) (.invalidData s!"{what} is not hex")
  okOr (toVector 32 bytes) (.invalidData s!"{what} is not 32 bytes")

inductive PublishedRootVerdict where
  | noPublishedRoot
  | matchAtSameSize
  | consistentAdvance (fromSize toSize : U64)
  | rootMismatchAtSameSize
  | logShrank (published proof : U64)
  | notAnExtension (fromSize toSize : U64)
  deriving DecidableEq

section

variable (p : Primitives) {E : Type}

def fetchConsistencyNodes (server : HttpServer) (serverUrl : String) (epoch : U16) (fromSize toSize : U64) :
    Program String E CliError (List Hash) := do
  let doc ← request server
    (s!"{serverUrl}/v1/transparency/log/consistency-proof?from={fromSize.val}&to={toSize.val}" ++
      s!"&epoch={epoch.val}")
  let nodes ← check (okOr (doc.index "consistency_proof").asArray
    (.invalidData "consistency-proof response missing proof array"))
  check (nodes.mapM fun v => hex32 p v "consistency_proof element")

/-- The verdict on the published root and the root of the proof. Only an advance asks for nodes. -/
def judgePublishedRoot (proofRoot : Hash) (proofSize : U64) (committed : Option (Hash × U64))
    (fetchNodes : U64 → U64 → Program String E CliError (List Hash)) :
    Program String E CliError PublishedRootVerdict :=
  match committed with
  | none => return .noPublishedRoot
  | some (publishedRoot, publishedSize) =>
    if publishedSize = proofSize then
      return if publishedRoot = proofRoot then .matchAtSameSize else .rootMismatchAtSameSize
    else if publishedSize > proofSize then return .logShrank publishedSize proofSize
    else do
      let nodes ← fetchNodes publishedSize proofSize
      return if verifyConsistency p.sha256 publishedSize.val proofSize.val publishedRoot proofRoot nodes
        then .consistentAdvance publishedSize proofSize else .notAnExtension publishedSize proofSize

def verdictResult (verdict : PublishedRootVerdict) : Except CliError Unit :=
  match verdict with
  | .noPublishedRoot => .error (.unanchored
      "the inclusion holds but no root is published for this epoch yet")
  | .matchAtSameSize => .ok ()
  | .consistentAdvance _ _ => .ok ()
  | .rootMismatchAtSameSize => .error (.transparencyViolation
      ("the log presents a DIFFERENT root for the publicly-committed size (fork or rewrite): " ++
        "TRANSPARENCY VIOLATION"))
  | .logShrank published proof => .error (.transparencyViolation
      (s!"the log ({proof.val} entries) is SMALLER than the publicly-committed " ++
        s!"size ({published.val}): entries have been removed. TRANSPARENCY VIOLATION"))
  | .notAnExtension fromSize toSize => .error (.transparencyViolation
      (s!"the log's advance {fromSize.val} → {toSize.val} does NOT extend the publicly-committed " ++
        "root: history rewritten. TRANSPARENCY VIOLATION"))

end

structure VerifyArgs where
  inclusionProofFile : Option String
  fingerprint : Option String
  purpose : Option String
  publishedRoot : Option String
  publishedSize : Option U64
  anchorRepo : Option String
  serverUrl : String

inductive Asked where
  | saved (file : String) (purpose : Option String)
  | key (fingerprint purpose : String)

def Asked.fingerprint : Asked → Option String
  | saved _ _ => none
  | key fingerprint _ => some fingerprint

def Asked.purpose : Asked → Option String
  | saved _ purpose => purpose
  | key _ purpose => some purpose

def checkArgs (a : VerifyArgs) : Except CliError Asked := do
  ensure (a.publishedRoot.isSome = a.publishedSize.isSome) (.invalidArgs
    ("--published-root and --published-size must be given together: " ++
      "the roots.jsonl line carries both"))
  match a.inclusionProofFile, a.fingerprint, a.purpose with
  | some file, none, purpose => return .saved file purpose
  | none, some fingerprint, some purpose => return .key fingerprint purpose
  | none, some _, none => .error (.invalidArgs "--purpose is required with --fingerprint")
  | _, _, _ => .error (.invalidArgs "specify --inclusion-proof <file> or --fingerprint --purpose")

def proofEpoch (doc : Json) : U16 :=
  ((doc.getU64 "epoch").bind fun n => if h : n.val < 2 ^ 16 then some ⟨n.val, h⟩ else none).getD 1

def asciiLowercase (s : String) : String := String.ofList (s.toList.map asciiLower)

/-- A proof from an epoch that has ended: only a root that is stated at the final size is compared. -/
def judgeRetired (line : RootLine) (doc : Json) : Except CliError Unit :=
  ensure (doc.getU64 "log_size_at_proof" = some line.logSize →
      (doc.getStr "merkle_root_at_proof").map asciiLowercase = some (hexEncode line.merkleRoot.toList))
    (.transparencyViolation
      (s!"this epoch-{(proofEpoch doc).val} proof's root at size {line.logSize.val} is not the epoch's " ++
        "published end root: TRANSPARENCY VIOLATION"))

structure InclusionProof where
  entryId : U64
  treeSize : U64
  root : Hash
  path : List Hash

def inclusionUrl (serverUrl fingerprint purpose : String) (epoch : U16) : String :=
  s!"{serverUrl}/v1/transparency/log/inclusion-proof?fingerprint={fingerprint}&purpose={purpose}" ++
    s!"&epoch={epoch.val}"

section

variable (p : Primitives)

def readProof (doc : Json) : Except CliError InclusionProof := do
  let entryId ← okOr (doc.index "entry_id").asU64 (.invalidData "proof missing entry_id")
  let treeSize ← okOr (doc.index "log_size_at_proof").asU64 (.invalidData "proof missing log_size_at_proof")
  let root ← hex32 p (doc.index "merkle_root_at_proof") "merkle_root_at_proof"
  let items ← okOr (doc.index "inclusion_proof").asArray (.invalidData "proof missing inclusion_proof array")
  let path ← items.mapM fun v => hex32 p v "inclusion_proof element"
  return ⟨entryId, treeSize, root, path⟩

def InclusionProof.consistent (proof : InclusionProof) (leaf : Hash) : Bool :=
  1 ≤ proof.entryId.val &&
    verifyInclusion p.sha256 leaf (proof.entryId.val - 1) proof.treeSize.val proof.path proof.root

/-- The root to hold a proof to: the explicit one, or the latest root of the anchored epoch. An error
inside is why there is none. -/
def committedRoot (a : VerifyArgs) (anchoring : Option Anchoring) :
    Except CliError (Except String (Option (Hash × U64))) :=
  match a.publishedRoot, a.publishedSize with
  | some hex, some size => do
    let root ← okOr ((p.hexDecode (String.ofList (trim hex.toList))).bind (toVector 32))
      (.invalidArgs "--published-root must be 32-byte hex")
    return .ok (some (root, size))
  | _, _ =>
    match anchoring with
    | some ⟨served, some anchors, .anchored _, _⟩ =>
      .ok (.ok ((anchors.latestRoot served.epoch).map fun r => (r.merkleRoot, r.logSize)))
    | some ⟨_, _, .unanchored why, _⟩ => .ok (.error why)
    | _ => .ok (.error (if anchoring.any Anchoring.repoKnown then "the public anchor files could not be read"
        else "no public anchor repository is known for this server (pass --anchor-repo)"))

variable {E : Type} (server : HttpServer) (a : VerifyArgs)

def verifyProofDoc (asked : Asked) (anchoring : Option Anchoring) (doc : Json) :
    Program String E CliError Unit := do
  let entryHash ← check (bindLeaf p doc asked.fingerprint asked.purpose)
  let proof ← check (readProof p doc)
  let committed ← check (committedRoot p a anchoring)
  check (ensure (proof.consistent p entryHash)
    (.signatureInvalid "inclusion proof does not verify against its root"))
  match committed with
  | .error why => check (.error (.unanchored s!"the inclusion holds but the root is not anchored: {why}"))
  | .ok committed =>
    let verdict ← judgePublishedRoot p proof.root proof.treeSize committed
      (fetchConsistencyNodes p server a.serverUrl (proofEpoch doc))
    check (verdictResult verdict)

def fetchProofDoc (readJsonArg : String → Except CliError Json) (asked : Asked) (anchoring : Option Anchoring) :
    Program String E CliError Json :=
  match asked with
  | .saved file _ => check (readJsonArg file)
  | .key fingerprint purpose =>
    request server (inclusionUrl a.serverUrl fingerprint purpose (anchoring.elim 1 fun x => x.served.epoch))

def refuseViolation (anchoring : Option Anchoring) : Except CliError Unit :=
  match anchoring.map Anchoring.verdict with
  | some (.violation why) => .error (.transparencyViolation s!"{why}: TRANSPARENCY VIOLATION")
  | _ => .ok ()

/-- One attempt of the command. A saved proof with an explicit root asks no server. -/
def transparencyVerifyOnce (anchor : Program String E CliError Anchoring)
    (readJsonArg : String → Except CliError Json) (asked : Asked) : Program String E CliError Unit := do
  let offline := a.inclusionProofFile.isSome && a.publishedRoot.isSome
  let anchoring ← if offline then pure none else do
    let anchoring ← anchor
    pure (some anchoring)
  check (refuseViolation anchoring)
  let doc ← fetchProofDoc server a readJsonArg asked anchoring
  match (anchoring.bind Anchoring.anchors).bind fun x => x.endLine (proofEpoch doc) with
  | some line => check (judgeRetired line doc)
  | none => verifyProofDoc p server a asked anchoring doc

end

/-- What one attempt meets: the server, the environment with the public files, and the state file. -/
structure VerifyAttempt where
  server : HttpServer
  env : AnchorEnv
  file : Option Json

section

variable (p : Primitives) (fromStr : String → Except String Json) (readJsonArg : String → Except CliError Json)

def verifyAttempt (a : VerifyArgs) (asked : Asked) (attempt : VerifyAttempt) : Except CliError Unit :=
  let anchor : Program String Unit CliError Anchoring := do
    let (anchoring, _) ← anchorLog p fromStr attempt.server attempt.env attempt.file a.serverUrl a.anchorRepo
    return anchoring
  (transparencyVerifyOnce p attempt.server a anchor readJsonArg asked ⟨[], []⟩).map Prod.fst

/-- The command, with a second attempt when the epoch moved under the first, which then meets the state
that the first one saved. -/
def transparencyVerify (first second : VerifyAttempt) (a : VerifyArgs) : Except CliError Unit := do
  let asked ← checkArgs a
  onceMoreOnEpochChange (verifyAttempt p fromStr readJsonArg a asked first)
    (verifyAttempt p fromStr readJsonArg a asked second)

end

end SignetDrive
