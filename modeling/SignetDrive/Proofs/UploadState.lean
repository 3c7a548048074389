import Mathlib.Data.List.TakeWhile
import SignetDrive.Model.Chunks
import SignetDrive.Model.UploadState

/-!
# Which state files a search removes

The source is judged by an anchor that is hashed from as many bytes as the chunk size of the run says.
-/

namespace SignetDrive.Proofs
open Client

variable {fingerprintRaw : Bytes → String} {parse : Bytes → Option UploadState} {key : ResumeKey}
  {entries : List StateFile} {file : StateFile} {state : UploadState} {before now : UploadCommand}
  {readable : Bool}

/-- What is hashed for the anchor. -/
def anchorText (cmd : UploadCommand) : Bytes :=
  let span := min cmd.chunkSize.val cmd.fileSize.val
  utf8 "signet:resume-anchor:v1" ++ toBeBytes 8 cmd.fileSize.val ++ cmd.file.take span ++
    (cmd.file.drop (cmd.fileSize.val - span)).take span

lemma readExact_eq_some {bytes : Bytes} {start count : ℕ} (h : start + count ≤ bytes.length) :
    readExact bytes start count = some ((bytes.drop start).take count) := by
  rw [readExact, List.length_drop, if_neg (by omega)]

lemma anchor_eq (cmd : UploadCommand) (readable : Bool) :
    cmd.anchor fingerprintRaw readable = if readable then some (fingerprintRaw (anchorText cmd)) else none := by
  cases readable with
  | false => rfl
  | true =>
    have hlength := cmd.length_file
    rw [UploadCommand.anchor, contentAnchor, if_pos rfl, if_pos rfl, Option.bind_eq_bind, Option.bind_some]
    dsimp only
    rw [readExact_eq_some (by omega), readExact_eq_some (by omega)]
    rfl

lemma length_anchorText (cmd : UploadCommand) :
    (anchorText cmd).length = 31 + 2 * min cmd.chunkSize.val cmd.fileSize.val := by
  have hlength := cmd.length_file
  have hprefix : (utf8 "signet:resume-anchor:v1").length = 23 := by decide
  simp only [anchorText, List.length_append, hprefix, length_toBeBytes, List.length_take, List.length_drop]
  omega

variable (parse key) in
/-- The state in the file is for the destination of the key and its source. -/
def isMatch (file : StateFile) : Bool :=
  (file.state parse).any fun state => state.sameDest key && state.sameSource key

/-- The search returns the first match, and removes what is for the destination before it. -/
lemma findMatchIn_eq (entries : List StateFile) : findMatchIn parse key entries =
    ((entries.find? (isMatch parse key)).bind (StateFile.state parse),
      (entries.takeWhile fun file => !isMatch parse key file).filter fun file =>
        (file.state parse).any (UploadState.sameDest · key)) := by
  induction entries with
  | nil => rfl
  | cons head entries ih =>
    rw [findMatchIn]
    cases hhead : head.state parse with
    | none => simp [ih, isMatch, hhead]
    | some state =>
      by_cases hdest : state.sameDest key = true
      · by_cases hsource : state.sameSource key = true <;> simp [ih, isMatch, hhead, hdest, hsource]
      · simp [ih, isMatch, hhead, hdest]

lemma mem_removed_iff : file ∈ (findMatchIn parse key entries).2 ↔
    ∃ front rest, entries = front ++ file :: rest ∧ (∀ other ∈ front, isMatch parse key other = false) ∧
      ∃ state, file.state parse = some state ∧ state.sameDest key = true ∧ state.sameSource key = false := by
  rw [findMatchIn_eq, List.mem_filter, Option.any_eq_true]
  constructor
  · rintro ⟨hmem, state, hstate, hdest⟩
    obtain ⟨rest, hrest⟩ := List.takeWhile_prefix (l := entries) fun file => !isMatch parse key file
    have hbefore : ∀ other ∈ entries.takeWhile fun file => !isMatch parse key file, isMatch parse key
        other = false :=
      fun other hother => by simpa using List.mem_takeWhile_imp hother
    obtain ⟨front, more, hfront⟩ := List.append_of_mem hmem
    rw [hfront, List.append_assoc] at hrest
    rw [hfront] at hbefore
    refine ⟨front, _, hrest.symm, fun other hother => hbefore other (List.mem_append_left _ hother), state,
      hstate, hdest, ?_⟩
    have hfile := hbefore file (List.mem_append_right _ List.mem_cons_self)
    simpa [isMatch, hstate, hdest] using hfile
  · rintro ⟨front, rest, rfl, hfront, state, hstate, hdest, hsource⟩
    refine ⟨?_, state, hstate, hdest⟩
    rw [List.takeWhile_append_of_pos fun other hother => by rw [hfront other hother, Bool.not_false]]
    simp [isMatch, hstate, hsource]

/-- The source has the path, the size, the modification time and the bytes it had. -/
def Unchanged (before now : UploadCommand) : Prop :=
  before.sourcePath = now.sourcePath ∧ before.fileSize = now.fileSize ∧
    before.fileMtimeUnix = now.fileMtimeUnix ∧ before.file = now.file

variable (fingerprintRaw) in
/-- The state is what an upload saves, whose plan is not refused. -/
def WrittenBy (cmd : UploadCommand) (state : UploadState) : Prop :=
  ∃ fileId uploadId chunkCount, (∃ profile declared,
      chunkPlan profile cmd.fileSize cmd.chunkSize = some (.ok (chunkCount, declared))) ∧
    checkMultipartFloor chunkCount cmd.chunkSize = .ok () ∧
    state = cmd.state (cmd.anchor fingerprintRaw true) fileId uploadId chunkCount

lemma sameSource_iff (hstate : WrittenBy fingerprintRaw before state) (hsame : Unchanged before now) :
    state.sameSource (now.key (now.anchor fingerprintRaw readable)) = true ↔
      readable = true ∧ fingerprintRaw (anchorText before) = fingerprintRaw (anchorText now) := by
  obtain ⟨fileId, uploadId, chunkCount, -, -, rfl⟩ := hstate
  obtain ⟨hpath, hsize, hmtime, -⟩ := hsame
  rw [UploadState.sameSource, decide_eq_true_eq, anchor_eq, anchor_eq, if_pos rfl]
  cases readable <;> simp [UploadState.sameContent, UploadCommand.state, UploadCommand.key,
    hpath, hsize, hmtime]

section

variable (fingerprintRaw : Bytes → String) (parse : Bytes → Option UploadState) (now : UploadCommand)
  (readable : Bool) (entries : List StateFile)

/-- A state file with an anchor is removed only if it is for the same destination and its source has
changed since the upload that saved it. -/
def LosesNothing (writer : StateFile → Option UploadCommand) : Prop :=
  ∀ file ∈ (findMatchIn parse (now.key (now.anchor fingerprintRaw readable)) entries).2,
    ∃ state, file.state parse = some state ∧ (state.contentAnchor.isSome →
      state.serverUrl = now.serverUrl ∧ state.folderId = now.folderId ∧ state.name = now.name ∧
        ∀ before ∈ writer file, ¬ Unchanged before now)

/-- What is returned is a stored state for the same destination, source and anchor. -/
def ReturnsMatch : Prop :=
  ∀ state, (findMatchIn parse (now.key (now.anchor fingerprintRaw readable)) entries).1 = some state →
    (∃ file ∈ entries, file.state parse = some state) ∧
    state.serverUrl = now.serverUrl ∧ state.folderId = now.folderId ∧ state.name = now.name ∧
    state.sourcePath = now.sourcePath ∧ state.fileSize = now.fileSize ∧
    state.fileMtimeUnix = now.fileMtimeUnix ∧ state.contentAnchor.isSome ∧
    state.contentAnchor = now.anchor fingerprintRaw readable

/-- However the removals go, the other files stay and none is added. -/
def KeepsOthers : Prop :=
  ∀ removes, let removed := (findMatchIn parse (now.key (now.anchor fingerprintRaw readable)) entries).2
    removed ⊆ entries ∧ sweep entries removed removes ⊆ entries ∧
      ∀ file ∈ entries, file ∉ removed → file ∈ sweep entries removed removes

/-- A state that the search comes to, for the command's destination and saved by `before` from a source
that has not changed since. -/
def ReachedUnchanged (writer : StateFile → Option UploadCommand) (before : UploadCommand) : Prop :=
  ∃ front file rest, entries = front ++ file :: rest ∧
    (∀ other ∈ front, isMatch parse (now.key (now.anchor fingerprintRaw readable)) other = false) ∧
    before ∈ writer file ∧ before.serverUrl = now.serverUrl ∧ before.folderId = now.folderId ∧
    before.name = now.name ∧ Unchanged before now

end

lemma sameDest_iff {anchor : Option String} : state.sameDest (now.key anchor) = true ↔
    state.serverUrl = now.serverUrl ∧ state.folderId = now.folderId ∧ state.name = now.name := by
  rw [UploadState.sameDest, decide_eq_true_eq]
  rfl

lemma returnsMatch (now : UploadCommand) (readable : Bool) (entries : List StateFile) :
    ReturnsMatch fingerprintRaw parse now readable entries := by
  intro state hfound
  rw [findMatchIn_eq] at hfound
  obtain ⟨file, hfile, hstate⟩ := Option.bind_eq_some_iff.mp hfound
  have hmatch := List.find?_some hfile
  simp only [isMatch, hstate, Option.any_some, Bool.and_eq_true] at hmatch
  obtain ⟨hserver, hfolder, hname⟩ := sameDest_iff.mp hmatch.1
  have hsource := hmatch.2
  rw [UploadState.sameSource, decide_eq_true_eq] at hsource
  obtain ⟨hpath, hsize, hmtime, hcontent⟩ := hsource
  refine ⟨⟨file, List.mem_of_find?_eq_some hfile, hstate⟩, hserver, hfolder, hname, hpath, hsize, hmtime, ?_⟩
  rw [UploadState.sameContent] at hcontent
  split at hcontent
  case h_1 stored current hstored hcurrent =>
    rw [decide_eq_true_eq] at hcontent
    rw [hstored, hcontent]
    exact ⟨rfl, hcurrent.symm⟩
  case h_2 => cases hcontent

lemma keepsOthers (now : UploadCommand) (readable : Bool) (entries : List StateFile) :
    KeepsOthers fingerprintRaw parse now readable entries := by
  intro removes
  refine ⟨?_, List.filter_subset_self _, ?_⟩
  · intro file hfile
    obtain ⟨front, rest, rfl, -⟩ := mem_removed_iff.mp hfile
    exact List.mem_append_right _ List.mem_cons_self
  · intro file hfile hkept
    refine List.mem_filter.mpr ⟨hfile, ?_⟩
    simp [hkept]

lemma anchorText_congr (hsame : Unchanged before now)
    (hspan : min before.chunkSize.val now.fileSize.val = min now.chunkSize.val now.fileSize.val) :
    anchorText before = anchorText now := by
  obtain ⟨-, hsize, -, hfile⟩ := hsame
  simp only [anchorText, hsize, hfile, hspan]

/-- A search loses no state of an unchanged source exactly if, for each one it comes to, the source can
be read and the ends that are hashed have the length they had when the state was saved. That the two
hashes differ if their texts do is used in one direction only. -/
theorem search_loses_nothing_iff (fingerprintRaw : Bytes → String) (parse : Bytes → Option UploadState)
    (now : UploadCommand) (readable : Bool) (entries : List StateFile)
    (writer : StateFile → Option UploadCommand) (hwriter : ∀ file ∈ entries, ∀ before ∈ writer file,
      ∃ state, file.state parse = some state ∧ WrittenBy fingerprintRaw before state)
    (hhash : ∀ before, Unchanged before now →
      fingerprintRaw (anchorText before) = fingerprintRaw (anchorText now) →
      anchorText before = anchorText now) :
    (LosesNothing fingerprintRaw parse now readable entries writer ∧
      ReturnsMatch fingerprintRaw parse now readable entries ∧
      KeepsOthers fingerprintRaw parse now readable entries) ↔
    ∀ before, ReachedUnchanged fingerprintRaw parse now readable entries writer before →
      readable = true ∧ min before.chunkSize.val now.fileSize.val = min now.chunkSize.val now.fileSize.val := by
  constructor
  · rintro ⟨hloses, -, -⟩ before ⟨front, file, rest, rfl, hfront, hbefore, hserver, hfolder, hname, hsame⟩
    obtain ⟨state, hstate, hwritten⟩ := hwriter file (List.mem_append_right _ List.mem_cons_self) before hbefore
    by_cases hsource : state.sameSource (now.key (now.anchor fingerprintRaw readable)) = true
    · obtain ⟨hreadable, hanchors⟩ := (sameSource_iff hwritten hsame).mp hsource
      have hlength := congrArg List.length (hhash before hsame hanchors)
      rw [length_anchorText, length_anchorText, hsame.2.1] at hlength
      exact ⟨hreadable, by omega⟩
    · obtain ⟨fileId, uploadId, chunkCount, -, -, rfl⟩ := hwritten
      have hremoved := mem_removed_iff.mpr ⟨front, rest, rfl, hfront, _, hstate,
        sameDest_iff.mpr ⟨hserver, hfolder, hname⟩, Bool.eq_false_iff.mpr hsource⟩
      obtain ⟨state, hstate', hchanged⟩ := hloses file hremoved
      obtain rfl := Option.some_inj.mp (hstate.symm.trans hstate')
      exact absurd hsame ((hchanged (by rw [anchor_eq]; rfl)).2.2.2 before hbefore)
  · intro hspans
    refine ⟨?_, returnsMatch now readable entries, keepsOthers now readable entries⟩
    intro file hremoved
    obtain ⟨front, rest, hentries, hfront, state, hstate, hdest, hsource⟩ := mem_removed_iff.mp hremoved
    obtain ⟨hserver, hfolder, hname⟩ := sameDest_iff.mp hdest
    refine ⟨state, hstate, fun _ => ⟨hserver, hfolder, hname, fun before hbefore hsame => ?_⟩⟩
    obtain ⟨state', hstate', hwritten⟩ := hwriter file (by rw [hentries]; simp) before hbefore
    obtain rfl := Option.some_inj.mp (hstate.symm.trans hstate')
    have hdest' : before.serverUrl = now.serverUrl ∧ before.folderId = now.folderId ∧
        before.name = now.name := by
      obtain ⟨fileId, uploadId, chunkCount, -, -, rfl⟩ := hwritten
      exact ⟨hserver, hfolder, hname⟩
    obtain ⟨hreadable, hspan⟩ := hspans before
      ⟨front, file, rest, hentries, hfront, hbefore, hdest'.1, hdest'.2.1, hdest'.2.2, hsame⟩
    have hmatch := (sameSource_iff hwritten hsame).mpr
      ⟨hreadable, congrArg fingerprintRaw (anchorText_congr hsame hspan)⟩
    exact absurd hmatch (Bool.eq_false_iff.mp hsource)

def reportBytes : Bytes := List.replicate (20 * 2 ^ 20) 7

lemma length_reportBytes : reportBytes.length = (20 * 2 ^ 20 : U64).val := List.length_replicate

/-- A file of 20 MiB. -/
def reportUpload (chunkSize : U64) : UploadCommand :=
  ⟨"https://staging.example", "folder", "root", "report.pdf", "report.pdf", "/tmp/report.pdf", chunkSize,
    1784000000, 20 * 2 ^ 20, reportBytes, length_reportBytes⟩

/-- The state of its upload at the default chunk size of 16 MiB. -/
def reportState : UploadState :=
  (reportUpload (2 ^ 24)).state ((reportUpload (2 ^ 24)).anchor hexEncode true) "file" "upload" 2

def reportFile : StateFile := ⟨"file.json", some []⟩

def parseReport : Bytes → Option UploadState := fun _ => some reportState

lemma reportState_written : WrittenBy hexEncode (reportUpload (2 ^ 24)) reportState :=
  ⟨_, _, _, ⟨.release, _, rfl⟩, rfl, rfl⟩

theorem same_chunk_size_loses_nothing :
    LosesNothing hexEncode parseReport (reportUpload (2 ^ 24)) true [reportFile]
        (fun _ => some (reportUpload (2 ^ 24))) ∧
      ReturnsMatch hexEncode parseReport (reportUpload (2 ^ 24)) true [reportFile] ∧
      KeepsOthers hexEncode parseReport (reportUpload (2 ^ 24)) true [reportFile] := by
  refine (search_loses_nothing_iff hexEncode parseReport (reportUpload (2 ^ 24)) true [reportFile]
    (fun _ => some (reportUpload (2 ^ 24))) ?_ fun _ _ h => hexEncode_injective h).mpr ?_
  · rintro file hfile before ⟨⟩
    obtain rfl := List.mem_singleton.mp hfile
    exact ⟨reportState, rfl, reportState_written⟩
  · rintro before ⟨-, -, -, -, -, ⟨⟩, -⟩
    exact ⟨rfl, rfl⟩

/-- The same file, unchanged and readable, uploaded again at a chunk size of 8 MiB: its state is
removed. -/
theorem other_chunk_size_removes :
    Unchanged (reportUpload (2 ^ 24)) (reportUpload (2 ^ 23)) ∧
    WrittenBy hexEncode (reportUpload (2 ^ 24)) reportState ∧
      reportFile.state parseReport = some reportState ∧ reportState.contentAnchor.isSome ∧
      findMatchIn parseReport ((reportUpload (2 ^ 23)).key
        ((reportUpload (2 ^ 23)).anchor hexEncode true)) [reportFile] =
        (none, [reportFile]) := by
  have hsame : Unchanged (reportUpload (2 ^ 24)) (reportUpload (2 ^ 23)) := ⟨rfl, rfl, rfl, rfl⟩
  have hstate : reportFile.state parseReport = some reportState := rfl
  refine ⟨hsame, reportState_written, hstate, by rw [reportState, UploadCommand.state, anchor_eq]; rfl, ?_⟩
  -- the two texts that are hashed differ in length
  have hsource : ¬ reportState.sameSource
      ((reportUpload (2 ^ 23)).key ((reportUpload (2 ^ 23)).anchor hexEncode true)) = true := by
    intro hmatch
    have htexts := hexEncode_injective ((sameSource_iff reportState_written hsame).mp hmatch).2
    have hlength := congrArg List.length htexts
    rw [length_anchorText, length_anchorText] at hlength
    exact absurd hlength (by decide)
  rw [findMatchIn, hstate]
  dsimp only
  rw [if_pos (sameDest_iff.mpr ⟨rfl, rfl, rfl⟩), if_neg hsource]
  rfl

end SignetDrive.Proofs
