import Mathlib.Data.List.TakeWhile
import SignetDrive.Model.WebDownload
import SignetDrive.Proofs.Envelope

/-!
# What a download in the browser hands to its sink

The count of chunks comes from the server: a count that is not positive lets the sink close with
nothing written.
-/

namespace SignetDrive.Proofs
open Client Automaton WebDownload

section

variable {c : EnvelopeCrypto} {dek : Dek} {fileId : FileId} {n : U32} {parts : U32 → Bytes}

/-! ### Opening a chunk -/

lemma JsNumber.ofNat_lt_ofNat {i j : ℕ} : (JsNumber.ofNat i).lt (.ofNat j) = decide (i < j) := by
  simp [JsNumber.ofNat, JsNumber.lt]

variable {i : ℕ} {event : WebDownloadEvent}

variable {count : JsNumber} {chunk : Bytes}

lemma webIsLastChunk_ok {isLast : Bool} :
    webIsLastChunk i count = .ok isLast ↔
      ∃ m : U32, count = .ofNat m.val ∧ i < m.val ∧ isLast = decide (i + 1 = m.val) := by
  simp only [webIsLastChunk, except_bind_ok, ensure_ok, except_pure_ok]
  constructor
  · rintro ⟨-, -, -, ⟨hint, hpos, hmax⟩, -, hlt, rfl⟩
    cases count with
    | nan | negInfinity | infinity => simp [JsNumber.isInteger] at hint
    | finite q =>
      have hq : (q.num : ℚ) = q :=
        Rat.den_eq_one_iff q |>.mp (by simpa [JsNumber.isInteger, Rat.isInt] using hint)
      obtain ⟨z, rfl⟩ : ∃ z : ℤ, q = z := ⟨q.num, hq.symm⟩
      simp only [JsNumber.lt, JsNumber.ofNat, decide_eq_true_eq, not_lt] at hpos hmax hlt
      norm_cast at hpos hmax hlt
      have hz : z < 2 ^ 32 := by
        have hval : (MAX_U32 : ℤ) = 2 ^ 32 - 1 := rfl
        omega
      lift z to ℕ using by omega
      norm_cast at hlt hz
      refine ⟨⟨z, hz⟩, rfl, hlt, ?_⟩
      simp only [JsNumber.ofNat, JsNumber.finite.injEq, decide_eq_decide]
      norm_cast
      exact eq_comm
  · rintro ⟨m, rfl, hlt, rfl⟩
    have hm := m.isLt
    refine ⟨(), by simp only [MAX_U32]; omega, (), ⟨?_, ?_, ?_⟩, (), ?_, ?_⟩
    · simp [JsNumber.isInteger, JsNumber.ofNat, Rat.isInt]
    · simp only [JsNumber.ofNat_lt_ofNat, decide_eq_true_eq]
      omega
    · simp only [JsNumber.ofNat_lt_ofNat, MAX_U32, decide_eq_true_eq]
      omega
    · simpa only [JsNumber.ofNat_lt_ofNat, decide_eq_true_eq] using hlt
    · simp only [JsNumber.ofNat, JsNumber.finite.injEq, Nat.cast_inj, decide_eq_decide]
      exact eq_comm

lemma webOpenChunk_ok {envelope : Bytes} :
    webOpenChunk c dek fileId i count envelope = .ok chunk ↔
      ∃ j m : U32, i = j.val ∧ count = .ofNat m.val ∧ openChunk c dek fileId j m envelope = .ok chunk := by
  simp only [webOpenChunk, aesGcmOpen, except_bind_ok, ensure_ok, okOr_ok, webIsLastChunk_ok, openChunk_ok,
    not_lt]
  constructor
  · rintro ⟨-, hlen, -, hmagic, -, halg, _, ⟨m, hcount, hlt, rfl⟩, -, hindex, hopen⟩
    refine ⟨⟨i, by omega⟩, m, rfl, hcount, hlt, hlen, hmagic, halg, hindex, ?_⟩
    have hj : Fin.ofNat _ i = (⟨i, by omega⟩ : U32) := Fin.ext (Nat.mod_eq_of_lt (by omega))
    rw [hj] at hopen
    exact hopen
  · rintro ⟨j, m, rfl, hcount, hlt, hlen, hmagic, halg, hindex, hopen⟩
    refine ⟨(), hlen, (), hmagic, (), halg, _, ⟨m, hcount, hlt, rfl⟩, (), hindex, ?_⟩
    have hj : Fin.ofNat _ j.val = j := Fin.ext (Nat.mod_eq_of_lt j.isLt)
    rw [hj]
    exact hopen

/-- The chunk is the file's chunk `i`, and the count makes it the last exactly if it is. -/
def OpenedAs (n : U32) (parts : U32 → Bytes) (count : JsNumber) (i : ℕ) (chunk : Bytes) : Prop :=
  ∃ m : U32, count = .ofNat m.val ∧ i < m.val ∧ i < n.val ∧ (i + 1 = m.val ↔ i + 1 = n.val) ∧
    chunk = parts (Fin.ofNat _ i)

lemma OpenedAs.of_webOpenChunk {envelope : Bytes}
    (hunforged : EnvelopeUnforged c dek fileId (chunkSeals c dek fileId n parts) (Fin.ofNat _ i) envelope)
    (hopen : webOpenChunk c dek fileId i count envelope = .ok chunk) : OpenedAs n parts count i chunk := by
  obtain ⟨j, m, rfl, hcount, hopen⟩ := webOpenChunk_ok.mp hopen
  have hj : Fin.ofNat _ j.val = j := Fin.ext (Nat.mod_eq_of_lt j.isLt)
  rw [hj] at hunforged
  obtain ⟨hlt, hlast, hchunk⟩ := openChunk_unforged hunforged hopen
  obtain ⟨hm, -⟩ := openChunk_ok.mp hopen
  exact ⟨m, hcount, hm, hlt, hlast, hj.symm ▸ hchunk⟩

/-! ### The loop -/

/-- The chunks that were written. -/
def chunksOf (calls : List SinkCall) : List Bytes :=
  calls.filterMap fun
    | .write chunk => some chunk
    | _ => none

/-- The calls that are no writes. -/
def endings (calls : List SinkCall) : List SinkCall :=
  calls.filter fun
    | .write _ => false
    | _ => true

variable {calls : List SinkCall}

@[simp] lemma chunksOf_write (chunk : Bytes) :
    chunksOf (calls ++ [.write chunk]) = chunksOf calls ++ [chunk] := by
  simp [chunksOf]

@[simp] lemma chunksOf_close : chunksOf (calls ++ [.close]) = chunksOf calls := by simp [chunksOf]

@[simp] lemma chunksOf_abort : chunksOf (calls ++ [.abort]) = chunksOf calls := by simp [chunksOf]

@[simp] lemma endings_write (chunk : Bytes) : endings (calls ++ [.write chunk]) = endings calls := by
  simp [endings]

@[simp] lemma endings_close : endings (calls ++ [.close]) = endings calls ++ [.close] := by simp [endings]

@[simp] lemma endings_abort : endings (calls ++ [.abort]) = endings calls ++ [.abort] := by simp [endings]

lemma close_mem_endings : .close ∈ endings calls ↔ .close ∈ calls := by simp [endings]

def handed (s : WebDownload) : ℕ := (chunksOf s.calls).length

/-- The chunks opened and those still fetched are among the started ones that the sink has not been
handed, and a chunk is not both. -/
structure ChunksKnown (n : U32) (parts : U32 → Bytes) (s : WebDownload) : Prop where
  opened : ∀ entry ∈ s.opened, OpenedAs n parts s.multipartChunks entry.1 entry.2
  openedStarted : ∀ entry ∈ s.opened, handed s ≤ entry.1 ∧ entry.1 < s.nextStart ∧ (entry.1, false) ∉ s.inFlight
  started : ∀ task ∈ s.inFlight, task.1 < s.nextStart
  waiting : ∀ i, (i, false) ∈ s.inFlight → handed s ≤ i ∧ (JsNumber.ofNat i).lt s.multipartChunks
  order : handed s ≤ s.nextStart
  written : ∀ i chunk, (chunksOf s.calls)[i]? = some chunk → OpenedAs n parts s.multipartChunks i chunk

/-- What holds where the call waits; `threw` says that the callback threw before the loop. -/
def PhaseHolds (threw : Prop) (s : WebDownload) : Prop :=
  match s.phase with
  | .makingSink => s.sink = false ∧ s.calls = [] ∧ s.nextWrite = 0 ∧ s.inFlight = []
  | .racing raced => s.sink = true ∧ endings s.calls = [] ∧ handed s = s.nextWrite ∧ raced ≠ []
  | .writing => s.sink = true ∧ endings s.calls = [] ∧ handed s = s.nextWrite + 1
  | .closing =>
    s.sink = true ∧ endings s.calls = [.close] ∧ (JsNumber.ofNat (handed s)).lt s.multipartChunks = false
  | .aborting _ => s.sink = true ∧ endings s.calls = [.abort]
  | .finished _ =>
    (endings s.calls = [.close] ∧ (JsNumber.ofNat (handed s)).lt s.multipartChunks = false) ∨
      endings s.calls = [.abort] ∨ (s.calls = [] ∧ (s.sink = true → threw) ∧ s.inFlight = [])

structure WebDownloadInvariant (n : U32) (parts : U32 → Bytes) (threw : Prop) (s : WebDownload) : Prop where
  chunks : ChunksKnown n parts s
  phase : PhaseHolds threw s

variable {s t : WebDownload} {threw : Prop}

lemma mem_takeWhile_range {p : ℕ → Bool} {a w i : ℕ} (h : i ∈ ((List.range w).map (a + ·)).takeWhile p) :
    a ≤ i ∧ i < a + (((List.range w).map (a + ·)).takeWhile p).length ∧ p i = true := by
  refine ⟨?_, ?_, List.mem_takeWhile_imp h⟩
  all_goals
    obtain ⟨d, hd, rfl⟩ := List.getElem_of_mem h
    rw [(List.takeWhile_prefix p).getElem hd, List.getElem_map, List.getElem_range]
    omega

lemma mem_startTasks {task : ℕ × Bool} (h : task ∈ s.startTasks.inFlight) :
    task ∈ s.inFlight ∨
      s.nextStart ≤ task.1 ∧ task.1 < s.startTasks.nextStart ∧
      (JsNumber.ofNat task.1).lt s.multipartChunks := by
  simp only [WebDownload.startTasks, List.mem_append, List.mem_map] at h ⊢
  refine h.imp_right ?_
  rintro ⟨i, hi, rfl⟩
  exact mem_takeWhile_range hi

section

variable (h : ChunksKnown n parts s)

include h

lemma ChunksKnown.startTasks : ChunksKnown n parts s.startTasks := by
  have hle : s.nextStart ≤ s.startTasks.nextStart := Nat.le_add_right _ _
  constructor
  case opened => exact h.opened
  case openedStarted =>
    intro entry hentry
    obtain ⟨hhanded, hlt, hsettled⟩ := h.openedStarted entry hentry
    refine ⟨hhanded, hlt.trans_le hle, ?_⟩
    intro hmem
    obtain hold | ⟨hnew, -, -⟩ := mem_startTasks hmem
    · exact hsettled hold
    · exact absurd hlt (Nat.not_lt.mpr hnew)
  case started =>
    intro task htask
    obtain hold | ⟨-, hnew, -⟩ := mem_startTasks htask
    · exact (h.started task hold).trans_le hle
    · exact hnew
  case waiting =>
    intro i hi
    obtain hold | ⟨hnew, -, hlt⟩ := mem_startTasks hi
    · exact h.waiting i hold
    · exact ⟨h.order.trans hnew, hlt⟩
  case order => exact h.order.trans hle
  case written => exact h.written

lemma ChunksKnown.write (hnext : handed s = s.nextWrite) (hchunk : (s.nextWrite, chunk) ∈ s.opened) :
    ChunksKnown n parts (s.write chunk) := by
  obtain ⟨-, hstarted, hsettled⟩ := h.openedStarted _ hchunk
  have hhanded : handed (s.write chunk) = handed s + 1 := by simp [handed, WebDownload.write]
  constructor
  case opened =>
    intro entry hentry
    exact h.opened entry (List.mem_of_mem_filter hentry)
  case openedStarted =>
    intro entry hentry
    obtain ⟨hentry, hne⟩ := List.mem_filter.mp hentry
    obtain ⟨hle, hrest⟩ := h.openedStarted entry hentry
    refine ⟨?_, hrest⟩
    have hne : entry.1 ≠ s.nextWrite := by simpa using hne
    omega
  case started => exact h.started
  case waiting =>
    intro i hi
    obtain ⟨hle, hlt⟩ := h.waiting i hi
    refine ⟨?_, hlt⟩
    have hne : i ≠ s.nextWrite := fun heq => hsettled (heq ▸ hi)
    omega
  case order =>
    rw [hhanded, hnext]
    exact hstarted
  case written =>
    intro i part hpart
    simp only [WebDownload.write, chunksOf_write] at hpart
    obtain hold | ⟨hi, hnew⟩ : (chunksOf s.calls)[i]? = some part ∨ i = handed s ∧ part = chunk := by
      rw [List.getElem?_append] at hpart
      split at hpart
      · exact .inl hpart
      · rw [List.getElem?_singleton] at hpart
        split at hpart
        · refine .inr ⟨?_, (Option.some.inj hpart).symm⟩
          unfold handed
          omega
        · cases hpart
    · exact h.written i part hold
    · rw [hi, hnew, hnext]
      exact h.opened _ hchunk

lemma ChunksKnown.congr (hopened : t.opened = s.opened)
    (hcount : t.multipartChunks = s.multipartChunks) (hstart : t.nextStart = s.nextStart)
    (hflight : t.inFlight = s.inFlight) (hcalls : chunksOf t.calls = chunksOf s.calls) :
    ChunksKnown n parts t := by
  have hhanded : handed t = handed s := congrArg List.length hcalls
  constructor
  · rw [hopened, hcount]
    exact h.opened
  · rw [hopened, hhanded, hstart, hflight]
    exact h.openedStarted
  · rw [hflight, hstart]
    exact h.started
  · rw [hflight, hhanded, hcount]
    exact h.waiting
  · rw [hhanded, hstart]
    exact h.order
  · rw [hcalls, hcount]
    exact h.written

section

variable (hsink : s.sink = true) (hends : endings s.calls = [])

include hsink hends

lemma WebDownloadInvariant.fail (error : WebError) : WebDownloadInvariant n parts threw (s.fail error) :=
  ⟨h.congr rfl rfl rfl rfl chunksOf_abort, hsink, by simp [WebDownload.fail, hends]⟩

lemma WebDownloadInvariant.write (hnext : handed s = s.nextWrite)
    (hchunk : s.opened.lookup s.nextWrite = some chunk) :
    WebDownloadInvariant n parts threw (s.write chunk) := by
  obtain ⟨_, _, hopened, -⟩ := List.lookup_eq_some_iff.mp hchunk
  refine ⟨h.write hnext (by simp [hopened]), hsink, by simp [WebDownload.write, hends], ?_⟩
  have hhanded : handed (s.write chunk) = handed s + 1 := by simp [handed, WebDownload.write]
  rw [hhanded, hnext, WebDownload.write]

lemma WebDownloadInvariant.advance (hnext : handed s = s.nextWrite) :
    WebDownloadInvariant n parts threw s.advance := by
  unfold WebDownload.advance
  split
  case isFalse hlt =>
    refine ⟨h.congr rfl rfl rfl rfl chunksOf_close, hsink, by simp [hends], ?_⟩
    simpa [handed, ← hnext] using hlt
  case isTrue hlt =>
    split
    case h_1 error herror => exact .fail h hsink hends error
    case h_2 =>
      have hstarted := h.startTasks
      dsimp only
      split
      case h_1 chunk hchunk => exact .write hstarted hsink hends hnext hchunk
      case h_2 =>
        split
        case isTrue => exact .fail hstarted hsink hends _
        case isFalse hflight => exact ⟨hstarted.congr rfl rfl rfl rfl rfl, hsink, hends, hnext,
          by simpa using hflight⟩

lemma WebDownloadInvariant.drain (hnext : handed s = s.nextWrite + 1) :
    WebDownloadInvariant n parts threw s.drain := by
  have hmoved : ChunksKnown n parts { s with nextWrite := s.nextWrite + 1 } := h.congr rfl rfl rfl rfl rfl
  unfold WebDownload.drain
  split
  case h_1 chunk hchunk => exact .write hmoved hsink hends hnext hchunk
  case h_2 => exact .advance hmoved hsink hends hnext

end

end

lemma mem_settle {task : ℕ × Bool} (h : task ∈ (s.settle i).inFlight) :
    task = (i, true) ∨ task ∈ s.inFlight ∧ task.1 ≠ i := by
  obtain ⟨old, hold, heq⟩ := List.mem_map.mp h
  split at heq
  case isTrue => exact .inl heq.symm
  case isFalse hne => exact .inr (heq ▸ ⟨hold, hne⟩)

lemma ChunksKnown.settle (h : ChunksKnown n parts s) (hi : i < s.nextStart) :
    ChunksKnown n parts (s.settle i) := by
  have hold : ∀ j, (j, false) ∈ (s.settle i).inFlight → (j, false) ∈ s.inFlight := by
    intro j hj
    obtain heq | ⟨hold, -⟩ := mem_settle hj
    · simp at heq
    · exact hold
  constructor
  case opened => exact h.opened
  case openedStarted =>
    intro entry hentry
    obtain ⟨hle, hlt, hsettled⟩ := h.openedStarted entry hentry
    exact ⟨hle, hlt, fun hmem => hsettled (hold _ hmem)⟩
  case started =>
    intro task htask
    obtain rfl | ⟨hold, -⟩ := mem_settle htask
    · exact hi
    · exact h.started task hold
  case waiting => exact fun j hj => h.waiting j (hold j hj)
  case order => exact h.order
  case written => exact h.written

lemma ChunksKnown.taskOk (h : ChunksKnown n parts s) (hi : (i, false) ∈ s.inFlight)
    (hchunk : OpenedAs n parts s.multipartChunks i chunk) :
    ChunksKnown n parts (s.taskDone i (.ok chunk)) := by
  have hsettled := h.settle (h.started _ hi)
  constructor
  case opened =>
    rw [taskDone, WebDownload.settle]
    exact List.forall_mem_cons.mpr ⟨hchunk, h.opened⟩
  case openedStarted =>
    rw [taskDone, WebDownload.settle]
    refine List.forall_mem_cons.mpr ⟨⟨(h.waiting i hi).1, h.started _ hi, ?_⟩, hsettled.openedStarted⟩
    intro hmem
    obtain heq | ⟨-, hne⟩ := mem_settle (s := s) hmem
    · simp at heq
    · exact hne rfl
  case started => exact hsettled.started
  case waiting => exact hsettled.waiting
  case order => exact hsettled.order
  case written => exact hsettled.written

lemma PhaseHolds.inFlight {flight : List (ℕ × Bool)} (h : PhaseHolds threw s)
    (hempty : s.inFlight = [] → flight = []) : PhaseHolds threw { s with inFlight := flight } := by
  obtain ⟨count, window, nextStart, nextWrite, opened, inFlight, firstError, sink, calls, phase⟩ := s
  cases phase with
  | makingSink =>
    obtain ⟨hsink, hcalls, hnext, hflight⟩ := h
    exact ⟨hsink, hcalls, hnext, hempty hflight⟩
  | racing | writing | closing | aborting => exact h
  | finished =>
    refine h.imp_right (Or.imp_right ?_)
    rintro ⟨hcalls, hsink, hflight⟩
    exact ⟨hcalls, hsink, hempty hflight⟩

lemma PhaseHolds.settle (h : PhaseHolds threw s) (i : ℕ) : PhaseHolds threw (s.settle i) :=
  h.inFlight fun hempty => by rw [hempty, List.map_nil]

lemma WebDownloadInvariant.removed (h : WebDownloadInvariant n parts threw s) (i : ℕ) :
    WebDownloadInvariant n parts threw { s with inFlight := s.inFlight.filter fun task => task.1 ≠ i } := by
  obtain ⟨⟨hopened, hopenedStarted, hstarted, hwaiting, horder, hwritten⟩, hphase⟩ := h
  refine ⟨⟨hopened, ?_, ?_, ?_, horder, hwritten⟩,
    hphase.inFlight fun hempty => by rw [hempty, List.filter_nil]⟩
  · intro entry hentry
    obtain ⟨hle, hlt, hsettled⟩ := hopenedStarted entry hentry
    exact ⟨hle, hlt, fun hmem => hsettled (List.mem_of_mem_filter hmem)⟩
  · exact fun task htask => hstarted task (List.mem_of_mem_filter htask)
  · exact fun j hj => hwaiting j (List.mem_of_mem_filter hj)

variable (c dek fileId s) in
/-- What a step can do, by the event and the phase it needs. -/
inductive WebStep : WebDownloadEvent → WebDownload → Prop where
  | noSink {error progress} (hp : s.phase = .makingSink) :
    WebStep (.sinkMade (.error error) progress) (s.finish (.error error))
  | threw {error} (hp : s.phase = .makingSink) :
    WebStep (.sinkMade (.ok ()) (some error)) (finish { s with sink := true } (.error error))
  | sink (hp : s.phase = .makingSink) : WebStep (.sinkMade (.ok ()) none) (advance { s with sink := true })
  | fetched {index result} (hi : (index, false) ∈ s.inFlight) : WebStep (.fetched index result)
    (s.taskDone index (result.bind (webOpenChunk c dek fileId index s.multipartChunks)))
  | removed {index} : WebStep (.removed index)
      { s with inFlight := s.inFlight.filter fun task => task.1 ≠ index }
  | raced {raced} (hp : s.phase = .racing raced) : WebStep .raced s.advance
  | failed {result progress error} (hp : s.phase = .writing) : WebStep (.wrote result progress) (s.fail error)
  | drained (hp : s.phase = .writing) : WebStep (.wrote (.ok ()) none) s.drain
  | closed {result} (hp : s.phase = .closing) : WebStep (.closed result) (s.finish result)
  | aborted {result error} (hp : s.phase = .aborting error) :
      WebStep (.aborted result) (s.finish (.error error))

lemma WebStep.of_step (hstep : s.step c dek fileId event = some t) : WebStep c dek fileId s event t := by
  cases event with
  | sinkMade | wrote | closed | aborted =>
    simp only [WebDownload.step] at hstep
    split at hstep <;> simp only [Option.some.injEq, reduceCtorEq] at hstep
    all_goals
      subst hstep
      constructor
      assumption
  | fetched | removed =>
    simp only [WebDownload.step, Option.ite_none_right_eq_some, Option.some.injEq] at hstep
    obtain ⟨hi, rfl⟩ := hstep
    first | exact .fetched hi | exact .removed
  | raced =>
    simp only [WebDownload.step] at hstep
    split at hstep <;> simp only [Option.ite_none_right_eq_some, Option.some.injEq, reduceCtorEq] at hstep
    obtain ⟨-, rfl⟩ := hstep
    exact .raced ‹_›

lemma WebDownloadInvariant.step (h : WebDownloadInvariant n parts threw s)
    (hthrew : ∀ e, event = .sinkMade (.ok ()) (some e) → threw)
    (hunforged : ∀ i bytes, event = .fetched i (.ok bytes) →
      EnvelopeUnforged c dek fileId (chunkSeals c dek fileId n parts) (Fin.ofNat _ i) bytes)
    (hstep : s.step c dek fileId event = some t) : WebDownloadInvariant n parts threw t := by
  have hphase := h.phase
  unfold PhaseHolds at hphase
  cases WebStep.of_step hstep with
  | noSink hp =>
    rw [hp] at hphase
    obtain ⟨hsink, hcalls, -, hflight⟩ := hphase
    refine ⟨h.chunks.congr rfl rfl rfl rfl rfl, .inr (.inr ⟨hcalls, ?_, hflight⟩)⟩
    simp [finish, hsink]
  | threw hp =>
    rw [hp] at hphase
    obtain ⟨hsink, hcalls, -, hflight⟩ := hphase
    exact ⟨h.chunks.congr rfl rfl rfl rfl rfl, .inr (.inr ⟨hcalls, fun _ => hthrew _ rfl, hflight⟩)⟩
  | sink hp =>
    rw [hp] at hphase
    obtain ⟨-, hcalls, hnext, -⟩ := hphase
    refine .advance (h.chunks.congr rfl rfl rfl rfl rfl) rfl ?_ ?_
    · simp [hcalls, endings]
    · simp [handed, hcalls, hnext, chunksOf]
  | @fetched i result hi =>
    cases hopen : result.bind (webOpenChunk c dek fileId i s.multipartChunks) with
    | error error =>
      exact ⟨(h.chunks.settle (h.chunks.started _ hi)).congr rfl rfl rfl rfl rfl, h.phase.settle i⟩
    | ok chunk =>
      cases result with
      | error error => simp [Except.bind] at hopen
      | ok bytes =>
        exact ⟨h.chunks.taskOk hi (.of_webOpenChunk (hunforged i bytes rfl) hopen), h.phase.settle i⟩
  | removed => exact h.removed _
  | raced hp =>
    rw [hp] at hphase
    obtain ⟨hsink, hends, hnext, -⟩ := hphase
    exact .advance h.chunks hsink hends hnext
  | failed hp =>
    rw [hp] at hphase
    exact .fail h.chunks hphase.1 hphase.2.1 _
  | drained hp =>
    rw [hp] at hphase
    exact .drain h.chunks hphase.1 hphase.2.1 hphase.2.2
  | closed hp =>
    rw [hp] at hphase
    exact ⟨h.chunks.congr rfl rfl rfl rfl rfl, .inl hphase.2⟩
  | aborted hp =>
    rw [hp] at hphase
    exact ⟨h.chunks.congr rfl rfl rfl rfl rfl, .inr (.inl hphase.2)⟩

/-! ### What was written when the sink closes -/

lemma step_multipartChunks (hstep : s.step c dek fileId event = some t) :
    t.multipartChunks = s.multipartChunks := by
  have hadvance : ∀ u : WebDownload, u.advance.multipartChunks = u.multipartChunks := by
    intro u
    simp only [WebDownload.advance]
    repeat' split
    all_goals rfl
  have hdrain : ∀ u : WebDownload, u.drain.multipartChunks = u.multipartChunks := by
    intro u
    unfold WebDownload.drain
    split
    · rfl
    · exact hadvance _
  have htask : ∀ (u : WebDownload) i r, (u.taskDone i r).multipartChunks = u.multipartChunks := by
    intro u i r
    cases r <;> rfl
  cases WebStep.of_step hstep with
  | sink | raced => exact hadvance _
  | drained => exact hdrain s
  | fetched => exact htask ..
  | noSink | threw | removed | failed | closed | aborted => rfl

/-- The parts in their order. -/
def joined (n : U32) (parts : U32 → Bytes) : Bytes := (List.range n.val).flatMap fun i => parts (Fin.ofNat _ i)

lemma ChunksKnown.chunksOf_eq (h : ChunksKnown n parts s) :
    chunksOf s.calls = (List.range (handed s)).map fun i => parts (Fin.ofNat _ i) := by
  apply List.ext_getElem
  · simp [handed]
  · intro i hi hi'
    obtain ⟨-, -, -, -, -, hchunk⟩ := h.written i _ (List.getElem?_eq_getElem hi)
    simpa using hchunk

lemma WebDownloadInvariant.not_lt_of_close (h : WebDownloadInvariant n parts threw s)
    (hclose : .close ∈ s.calls) : (JsNumber.ofNat (handed s)).lt s.multipartChunks = false := by
  have hphase := h.phase
  rw [← close_mem_endings] at hclose
  unfold PhaseHolds at hphase
  split at hphase
  case h_1 => simp [hphase.2.1, endings] at hclose
  case h_2 => simp [hphase.2.1] at hclose
  case h_3 => simp [hphase.2.1] at hclose
  case h_4 => exact hphase.2.2
  case h_5 => simp [hphase.2] at hclose
  case h_6 =>
    obtain ⟨-, hlt⟩ | habort | ⟨hcalls, -⟩ := hphase
    · exact hlt
    · simp [habort] at hclose
    · simp [hcalls, endings] at hclose

lemma WebDownloadInvariant.flatten_chunksOf (h : WebDownloadInvariant n parts threw s)
    (hclose : .close ∈ s.calls) : (chunksOf s.calls).flatten = joined n parts ↔
      (JsNumber.ofNat 0).lt s.multipartChunks ∨ joined n parts = [] := by
  have hcount := h.not_lt_of_close hclose
  have hchunks := h.chunks.chunksOf_eq
  obtain hzero | hpos := Nat.eq_zero_or_pos (handed s)
  · rw [hzero] at hcount hchunks
    rw [hchunks, hcount]
    simp only [List.range_zero, List.map_nil, List.flatten_nil, Bool.false_eq_true, false_or]
    exact eq_comm
  · obtain ⟨m, hm, hlt, hn, hlast, -⟩ :=
      h.chunks.written _ _ (List.getElem?_eq_getElem (Nat.sub_one_lt_of_lt hpos))
    change handed s - 1 < m.val at hlt
    change handed s - 1 < n.val at hn
    change handed s - 1 + 1 = m.val ↔ handed s - 1 + 1 = n.val at hlast
    rw [hm, JsNumber.ofNat_lt_ofNat, decide_eq_false_iff_not] at hcount
    have hall : handed s = n.val := by omega
    rw [hchunks, hall, hm, JsNumber.ofNat_lt_ofNat]
    have hpos : 0 < m.val := by omega
    simp [joined, List.flatMap, hpos]

/-! ### Failures -/

lemma JsNumber.ofNat_lt_of_le {i j : ℕ} {x : JsNumber} (hij : i ≤ j) (h : (JsNumber.ofNat j).lt x) :
    (JsNumber.ofNat i).lt x := by
  cases x with
  | nan | negInfinity => simp [JsNumber.lt, JsNumber.ofNat] at h
  | infinity => rfl
  | finite q =>
    simp only [JsNumber.lt, JsNumber.ofNat, decide_eq_true_eq] at h ⊢
    exact lt_of_le_of_lt (Nat.cast_le.mpr hij) h

/-- A chunk of the count that has been started, and that will never open. -/
def Missing (s : WebDownload) : Prop :=
  ∃ i < s.nextStart, handed s ≤ i ∧ (JsNumber.ofNat i).lt s.multipartChunks ∧ (i, false) ∉ s.inFlight ∧
    ∀ chunk, (i, chunk) ∉ s.opened

def InLoop : WebDownloadPhase → Prop
  | .racing _ | .writing => True
  | _ => False

def Doomed (s : WebDownload) : Prop :=
  endings s.calls = [.abort] ∨ (endings s.calls = [] ∧ InLoop s.phase ∧ Missing s)

lemma Doomed.fail (hends : endings s.calls = []) (error : WebError) : Doomed (s.fail error) :=
  .inl (by simp [WebDownload.fail, hends])

lemma Doomed.write (hends : endings s.calls = []) (hnext : handed s = s.nextWrite) (hmissing : Missing s)
    (hchunk : s.opened.lookup s.nextWrite = some chunk) : Doomed (s.write chunk) := by
  obtain ⟨i, hstart, hle, hlt, hflight, hopened⟩ := hmissing
  obtain ⟨_, _, hmem, -⟩ := List.lookup_eq_some_iff.mp hchunk
  have hne : i ≠ s.nextWrite := by
    rintro rfl
    exact hopened chunk (by simp [hmem])
  have hhanded : handed (s.write chunk) = handed s + 1 := by simp [handed, WebDownload.write]
  refine .inr ⟨by simp [WebDownload.write, hends], trivial, i, hstart, by omega, hlt, hflight, ?_⟩
  exact fun part hpart => hopened part (List.mem_of_mem_filter hpart)

lemma Missing.startTasks (h : Missing s) : Missing s.startTasks := by
  obtain ⟨i, hstart, hle, hlt, hflight, hopened⟩ := h
  refine ⟨i, hstart.trans_le (Nat.le_add_right _ _), hle, hlt, ?_, hopened⟩
  intro hmem
  obtain hold | ⟨hnew, -⟩ := mem_startTasks hmem
  · exact hflight hold
  · exact absurd hstart (Nat.not_lt.mpr hnew)

lemma Doomed.advance (hends : endings s.calls = []) (hnext : handed s = s.nextWrite) (hmissing : Missing s) :
    Doomed s.advance := by
  unfold WebDownload.advance
  split
  case isFalse hlt =>
    obtain ⟨i, -, hle, hi, -⟩ := hmissing
    exact absurd (JsNumber.ofNat_lt_of_le (hnext ▸ hle) hi) hlt
  case isTrue =>
    split
    case h_1 error _ => exact .fail hends error
    case h_2 =>
      have hstarted := hmissing.startTasks
      dsimp only
      split
      case h_1 chunk hchunk => exact .write hends hnext hstarted hchunk
      case h_2 =>
        split
        case isTrue => exact .fail (s := s.startTasks) hends _
        case isFalse => exact .inr ⟨hends, trivial, hstarted⟩

lemma Doomed.drain (hends : endings s.calls = []) (hnext : handed s = s.nextWrite + 1) (hmissing : Missing s) :
    Doomed s.drain := by
  unfold WebDownload.drain
  split
  case h_1 chunk hchunk => exact .write hends hnext hmissing hchunk
  case h_2 => exact .advance hends hnext hmissing

lemma Missing.taskDone (h : Missing s) (hi : (i, false) ∈ s.inFlight) (r : Except WebError Bytes) :
    Missing (s.taskDone i r) := by
  obtain ⟨j, hstart, hle, hlt, hflight, hopened⟩ := h
  have hsettled : (j, false) ∉ (s.settle i).inFlight := by
    intro hmem
    obtain heq | ⟨hold, -⟩ := mem_settle hmem
    · simp at heq
    · exact hflight hold
  cases r with
  | error => exact ⟨j, hstart, hle, hlt, hsettled, hopened⟩
  | ok chunk =>
    refine ⟨j, hstart, hle, hlt, hsettled, ?_⟩
    intro part hpart
    obtain heq | hold := List.mem_cons.mp hpart
    · simp only [Prod.mk.injEq] at heq
      exact hflight (heq.1 ▸ hi)
    · exact hopened part hold

lemma Doomed.step (h : Doomed s) (hinv : WebDownloadInvariant n parts threw s)
    (hstep : s.step c dek fileId event = some t) : Doomed t := by
  have hphase := hinv.phase
  unfold PhaseHolds at hphase
  -- where the call waits in the loop, nothing has ended it yet
  have hloop : endings s.calls = [] → InLoop s.phase ∧ Missing s := by
    intro hends
    obtain habort | ⟨-, hmissing⟩ := h
    · simp [hends] at habort
    · exact hmissing
  cases WebStep.of_step hstep with
  | noSink hp | threw hp | sink hp =>
    rw [hp] at hphase hloop
    exact absurd (hloop (by simp [hphase.2.1, endings])).1 id
  | @fetched i result hi =>
    generalize result.bind _ = r
    refine Or.imp ?_ ?_ h
    · cases r <;> exact id
    · rintro ⟨hends, hin, hmissing⟩
      refine ⟨?_, ?_, hmissing.taskDone hi r⟩
      · cases r <;> exact hends
      · cases r <;> exact hin
  | removed =>
    refine Or.imp_right ?_ h
    rintro ⟨hends, hin, j, hstart, hle, hlt, hflight, hopened⟩
    exact ⟨hends, hin, j, hstart, hle, hlt, fun hmem => hflight (List.mem_of_mem_filter hmem), hopened⟩
  | raced hp =>
    rw [hp] at hphase
    exact .advance hphase.2.1 hphase.2.2.1 (hloop hphase.2.1).2
  | failed hp =>
    rw [hp] at hphase
    exact .fail hphase.2.1 _
  | drained hp =>
    rw [hp] at hphase
    exact .drain hphase.2.1 hphase.2.2 (hloop hphase.2.1).2
  | closed hp =>
    rw [hp] at hphase
    simp [Doomed, hphase.2.1] at h
  | aborted hp =>
    rw [hp] at hphase
    exact .inl hphase.2

/-- A fetch that does not open, or a write that fails. -/
def StepFailed (c : EnvelopeCrypto) (dek : Dek) (fileId : FileId) (count : JsNumber) : WebDownloadEvent → Prop
  | .fetched i result => ∀ chunk, result.bind (webOpenChunk c dek fileId i count) ≠ .ok chunk
  | .wrote (.error _) _ => True
  | _ => False

lemma Doomed.of_failed (hinv : WebDownloadInvariant n parts threw s)
    (hfailed : StepFailed c dek fileId s.multipartChunks event) (hstep : s.step c dek fileId event = some t) :
    Doomed t := by
  have hphase := hinv.phase
  unfold PhaseHolds at hphase
  cases WebStep.of_step hstep with
  | noSink | threw | sink | removed | raced | drained | closed | aborted => exact absurd hfailed id
  | failed hp =>
    rw [hp] at hphase
    exact .fail hphase.2.1 _
  | @fetched i result hi =>
    obtain ⟨hle, hlt⟩ := hinv.chunks.waiting i hi
    have hopen : .close ∉ s.calls := by
      intro hclose
      have hnot := hinv.not_lt_of_close hclose
      rw [JsNumber.ofNat_lt_of_le hle hlt] at hnot
      cases hnot
    cases hresult : result.bind (webOpenChunk c dek fileId i s.multipartChunks) with
    | ok chunk => exact absurd hresult (hfailed chunk)
    | error error =>
      have hmissing : Missing (s.taskDone i (.error error)) := by
        refine ⟨i, hinv.chunks.started _ hi, hle, hlt, ?_, ?_⟩
        · intro hmem
          obtain heq | ⟨-, hne⟩ := mem_settle (s := s) hmem
          · simp at heq
          · exact hne rfl
        · exact fun chunk hchunk => (hinv.chunks.openedStarted _ hchunk).2.2 hi
      rw [← close_mem_endings] at hopen
      cases hp : s.phase with
      | makingSink =>
        rw [hp] at hphase
        simp [hphase.2.2.2] at hi
      | racing | writing =>
        rw [hp] at hphase
        exact .inr ⟨hphase.2.1, by simp [taskDone, settle, hp, InLoop], hmissing⟩
      | closing =>
        rw [hp] at hphase
        simp [hphase.2.1] at hopen
      | aborting =>
        rw [hp] at hphase
        exact .inl hphase.2
      | finished =>
        rw [hp] at hphase
        obtain ⟨hclose, -⟩ | habort | ⟨-, -, hflight⟩ := hphase
        · simp [hclose] at hopen
        · exact .inl habort
        · simp [hflight] at hi

/-! ### Whole downloads -/

/-- The download has ended. -/
def Settled (s : WebDownload) : Prop := ∃ result, s.phase = .finished result

lemma WebDownloadInvariant.start (answer : DownloadUrlResponse) :
    WebDownloadInvariant n parts threw (start answer) := by
  unfold WebDownload.start
  split
  · refine ⟨⟨?_, ?_, ?_, ?_, ?_, ?_⟩, rfl, rfl, rfl, rfl⟩ <;> simp [handed, chunksOf]
  · refine ⟨⟨?_, ?_, ?_, ?_, ?_, ?_⟩, .inr (.inr ⟨rfl, ?_, rfl⟩)⟩ <;> simp [handed, chunksOf]

lemma stopped_of_threw {events : List WebDownloadEvent} (hcalls : s.calls = []) (hsettled : Settled s)
    (hrun : run (WebDownload.step c dek fileId) s events = some t) : t.calls = [] := by
  suffices hstopped : t.calls = [] ∧ Settled t from hstopped.1
  refine invariant (fun u => u.calls = [] ∧ Settled u) ⟨hcalls, hsettled⟩ ?_ hrun
  rintro event - u v ⟨hcalls, result, hp⟩ hstep
  cases WebStep.of_step hstep with
  | @fetched i r hi =>
    generalize r.bind _ = r
    cases r <;> exact ⟨hcalls, result, hp⟩
  | removed => exact ⟨hcalls, result, hp⟩
  | noSink hq | threw hq | sink hq | raced hq | failed hq | drained hq | closed hq | aborted hq =>
    simp [hp] at hq

lemma WebDownloadInvariant.not_stuck (h : WebDownloadInvariant n parts threw s) (hsettled : ¬ Settled s) :
    ∃ event, (s.step c dek fileId event).isSome := by
  have hphase := h.phase
  unfold PhaseHolds at hphase
  cases hp : s.phase with
  | makingSink => exact ⟨.sinkMade (.ok ()) none, by simp [WebDownload.step, hp]⟩
  | writing => exact ⟨.wrote (.ok ()) none, by simp [WebDownload.step, hp]⟩
  | closing => exact ⟨.closed (.ok ()), by simp [WebDownload.step, hp]⟩
  | aborting => exact ⟨.aborted (.ok ()), by simp [WebDownload.step, hp]⟩
  | finished result => exact absurd ⟨result, hp⟩ hsettled
  | racing raced =>
    rw [hp] at hphase
    obtain ⟨i, hi⟩ := List.exists_mem_of_ne_nil _ hphase.2.2.2
    by_cases hflight : i ∈ s.inFlight.map Prod.fst
    · obtain ⟨⟨j, settled⟩, hmem, -⟩ := List.mem_map.mp hflight
      cases settled with
      | false => exact ⟨.fetched j (.ok []), by simp [WebDownload.step, hmem]⟩
      | true => exact ⟨.removed j, by simp [WebDownload.step, hmem]⟩
    · have hraced : ∃ i ∈ raced, i ∉ s.inFlight.map Prod.fst := ⟨i, hi, hflight⟩
      exact ⟨.raced, by simp only [WebDownload.step, hp, if_pos hraced, Option.isSome_some]⟩

lemma WebDownloadInvariant.endings_le (h : WebDownloadInvariant n parts threw s) :
    (endings s.calls).length ≤ 1 := by
  have hphase := h.phase
  unfold PhaseHolds at hphase
  split at hphase
  case h_1 => simp [hphase.2.1, endings]
  case h_2 | h_3 | h_4 => simp [hphase.2.1]
  case h_5 => simp [hphase.2]
  case h_6 =>
    obtain ⟨hclose, -⟩ | habort | ⟨hcalls, -⟩ := hphase
    · simp [hclose]
    · simp [habort]
    · simp [hcalls, endings]

lemma start_cases (answer : DownloadUrlResponse) :
    answer.multipartChunks = some (start answer).multipartChunks ∨ (start answer).calls = [] ∧
    Settled (start answer) := by
  unfold WebDownload.start
  split
  case h_1 hchunks _ => exact .inl hchunks
  case h_2 => exact .inr ⟨rfl, _, rfl⟩

lemma stopped_of_sinkMade {e : WebError} (hinv : WebDownloadInvariant n parts threw s)
    (hstep : s.step c dek fileId (.sinkMade (.ok ()) (some e)) = some t) : t.calls = [] ∧ Settled t := by
  have hphase := hinv.phase
  unfold PhaseHolds at hphase
  cases WebStep.of_step hstep with
  | threw hp =>
    rw [hp] at hphase
    exact ⟨hphase.2.1, _, rfl⟩

lemma Doomed.aborts (h : Doomed s) : .close ∉ s.calls ∧ (Settled s → endings s.calls = [.abort]) := by
  rw [← close_mem_endings]
  obtain habort | ⟨hends, hin, -⟩ := h
  · simp [habort]
  · refine ⟨by simp [hends], ?_⟩
    rintro ⟨result, hp⟩
    simp [hp, InLoop] at hin

variable {answer : DownloadUrlResponse} {events before : List WebDownloadEvent}

structure WebDownloadReaches (n : U32) (parts : U32 → Bytes) (answer : DownloadUrlResponse)
    (events : List WebDownloadEvent) (s : WebDownload) : Prop where
  invariant : WebDownloadInvariant n parts (∃ e, .sinkMade (.ok ()) (some e) ∈ events) s
  count : s.multipartChunks = (start answer).multipartChunks

/-- What is fetched is no forgery under the key of the file. -/
def FetchesUnforged (c : EnvelopeCrypto) (dek : Dek) (fileId : FileId) (n : U32) (parts : U32 → Bytes)
    (events : List WebDownloadEvent) : Prop :=
  ∀ i bytes, .fetched i (.ok bytes) ∈ events →
    EnvelopeUnforged c dek fileId (chunkSeals c dek fileId n parts) (Fin.ofNat _ i) bytes

lemma WebDownloadReaches.step (h : WebDownloadReaches n parts answer events s)
    (hunforged : FetchesUnforged c dek fileId n parts events) (hevent : event ∈ events)
    (hstep : s.step c dek fileId event = some t) : WebDownloadReaches n parts answer events t := by
  refine ⟨h.invariant.step ?_ ?_ hstep, (step_multipartChunks hstep).trans h.count⟩
  · rintro e rfl
    exact ⟨e, hevent⟩
  · rintro i bytes rfl
    exact hunforged i bytes hevent

lemma WebDownloadReaches.run (hunforged : FetchesUnforged c dek fileId n parts events) (hsub : before ⊆ events)
    (hrun : run (WebDownload.step c dek fileId) (start answer) before = some s) :
    WebDownloadReaches n parts answer events s :=
  Automaton.invariant (WebDownloadReaches n parts answer events) ⟨.start answer, rfl⟩
    (fun _ hevent _ _ hu hstep => hu.step hunforged (hsub hevent) hstep) hrun

lemma Doomed.run {after : List WebDownloadEvent} (h : Doomed s)
    (hs : WebDownloadReaches n parts answer events s) (hunforged : FetchesUnforged c dek fileId n parts events)
    (hsub : after ⊆ events) (hrun : Automaton.run (WebDownload.step c dek fileId) s after = some t) :
    Doomed t := by
  have hboth : Doomed t ∧ WebDownloadReaches n parts answer events t := by
    refine invariant (fun u => Doomed u ∧ WebDownloadReaches n parts answer events u) ⟨h, hs⟩ ?_ hrun
    rintro event hevent u v ⟨hdoomed, hu⟩ hstep
    exact ⟨hdoomed.step hu.invariant hstep, hu.step hunforged (hsub hevent) hstep⟩
  exact hboth.1

end

/-! ### A sample download -/

def sampleAnswer (chunks : ℚ) : DownloadUrlResponse :=
  ⟨some (.finite chunks), some (.finite 3), some (.finite 2)⟩

def samplePart (i : U32) : Bytes := if i = 0 then [1, 2, 3] else [4]

def sampleStored (i : U32) : Bytes := sampleEnvelope (.replicate 32 3) (.replicate 16 4) 2 i (samplePart i)

def sampleWebEvents : List WebDownloadEvent :=
  [.sinkMade (.ok ()) none, .fetched 1 (.ok (sampleStored 1)), .fetched 0 (.ok (sampleStored 0)), .removed 0,
    .raced, .wrote (.ok ()) none, .wrote (.ok ()) none, .closed (.ok ())]

lemma sampleStored_unforged {i : U32} (hi : i < 2) (j : U32) :
    EnvelopeUnforged sampleCrypto (.replicate 32 3) (.replicate 16 4)
      (chunkSeals sampleCrypto (.replicate 32 3) (.replicate 16 4) 2 samplePart) j (sampleStored i) :=
  sampleCrypto_unforged samplePart (sampleCrypto_sealChunk _ _ (samplePart i) hi) j

lemma sampleWebEvents_unforged :
    FetchesUnforged sampleCrypto (.replicate 32 3) (.replicate 16 4) 2 samplePart sampleWebEvents := by
  intro i bytes hmem
  simp only [sampleWebEvents, List.mem_cons, reduceCtorEq, WebDownloadEvent.fetched.injEq, Except.ok.injEq,
    false_or, List.not_mem_nil, or_false] at hmem
  obtain ⟨rfl, rfl⟩ | ⟨rfl, rfl⟩ := hmem
  · exact sampleStored_unforged (by decide) _
  · exact sampleStored_unforged (by decide) _

/-- Whatever the server, storage, the sink and the order of the fetches: when the sink closes, it
has got the file exactly if the count was positive or the file is empty. It is closed or aborted
at most once, and by the end of the call exactly once unless the progress callback threw before
the loop. After a failure it is aborted, and the call always waits for something that can
happen. -/
theorem web_download_integrity (c : EnvelopeCrypto) (dek : Dek) (fileId : FileId) (n : U32)
    (parts : U32 → Bytes) (answer : DownloadUrlResponse) (events : List WebDownloadEvent) (t : WebDownload)
    (hunforged : FetchesUnforged c dek fileId n parts events)
    (hrun : run (WebDownload.step c dek fileId) (WebDownload.start answer) events = some t) :
    (.close ∈ t.calls → ((chunksOf t.calls).flatten = joined n parts ↔
      (∃ chunks, answer.multipartChunks = some chunks ∧ (JsNumber.ofNat 0).lt chunks) ∨ joined n parts = [])) ∧
    (endings t.calls).length ≤ 1 ∧
    (t.sink = true → Settled t →
      ((endings t.calls).length = 1 ↔ ∀ e, .sinkMade (.ok ()) (some e) ∉ events)) ∧
    ((∃ event ∈ events, StepFailed c dek fileId t.multipartChunks event) →
      .close ∉ t.calls ∧ (Settled t → endings t.calls = [.abort])) ∧
    (¬ Settled t → ∃ event, (t.step c dek fileId event).isSome) := by
  have ht : WebDownloadReaches n parts answer events t := .run hunforged (List.Subset.refl _) hrun
  refine ⟨?_, ht.invariant.endings_le, ?_, ?_, ht.invariant.not_stuck⟩
  · intro hclose
    rw [ht.invariant.flatten_chunksOf hclose, ht.count]
    obtain hchunks | ⟨hcalls, hsettled⟩ := start_cases answer
    · simp [hchunks]
    · simp [stopped_of_threw hcalls hsettled hrun] at hclose
  · rintro hsink ⟨result, hp⟩
    constructor
    · intro hone e hthrew
      obtain ⟨before, after, u, v, hsplit, hbefore, hstep, hafter⟩ := run_of_mem hthrew hrun
      have hu : WebDownloadReaches n parts answer events u := .run hunforged (by simp [hsplit]) hbefore
      obtain ⟨hcalls, hsettled⟩ := stopped_of_sinkMade hu.invariant hstep
      simp [stopped_of_threw hcalls hsettled hafter, endings] at hone
    · intro hnot
      have hphase := ht.invariant.phase
      simp only [PhaseHolds, hp] at hphase
      obtain ⟨hclose, -⟩ | habort | ⟨-, hthrew, -⟩ := hphase
      · simp [hclose]
      · simp [habort]
      · obtain ⟨e, he⟩ := hthrew hsink
        exact absurd he (hnot e)
  · rintro ⟨event, hevent, hfailed⟩
    obtain ⟨before, after, u, v, hsplit, hbefore, hstep, hafter⟩ := run_of_mem hevent hrun
    have hu : WebDownloadReaches n parts answer events u := .run hunforged (by simp [hsplit]) hbefore
    rw [ht.count, ← hu.count] at hfailed
    have hv : Doomed v := .of_failed hu.invariant hfailed hstep
    have hsub : after ⊆ events := fun later hlater => by simp [hsplit, hlater]
    exact (hv.run (hu.step hunforged hevent hstep) hunforged hsub hafter).aborts

theorem web_download_integrity_two_chunks :
    ∃ t, run (WebDownload.step sampleCrypto (.replicate 32 3) (.replicate 16 4))
      (start (sampleAnswer 2)) sampleWebEvents =
        some t ∧ .close ∈ t.calls ∧ (chunksOf t.calls).flatten = joined 2 samplePart ∧
        (endings t.calls).length = 1 := by
  obtain ⟨t, hrun, hcalls, hsink, hsettled⟩ : ∃ t, run
      (WebDownload.step sampleCrypto (.replicate 32 3) (.replicate 16 4))
      (start (sampleAnswer 2)) sampleWebEvents = some t ∧ t.calls = [.write [1, 2, 3], .write [4], .close] ∧
      t.sink = true ∧ Settled t := ⟨_, rfl, rfl, rfl, _, rfl⟩
  have hclose : .close ∈ t.calls := by simp [hcalls]
  obtain ⟨hcontent, -, hone, -⟩ := web_download_integrity sampleCrypto _ _ 2 samplePart
    (sampleAnswer 2) sampleWebEvents t sampleWebEvents_unforged hrun
  refine ⟨t, hrun, hclose, (hcontent hclose).mpr (.inl ⟨_, rfl, rfl⟩), (hone hsink hsettled).mpr ?_⟩
  simp [sampleWebEvents]

/-- The server states no chunks: the sink is closed with nothing written. The callback throws
before the loop: the sink is neither closed nor aborted. -/
theorem web_download_empty_output :
    (∃ t, run (WebDownload.step sampleCrypto (.replicate 32 3) (.replicate 16 4)) (start (sampleAnswer 0))
        [.sinkMade (.ok ()) none, .closed (.ok ())] = some t ∧ t.phase = .finished (.ok ()) ∧
        t.calls = [.close] ∧
      (chunksOf t.calls).flatten ≠ joined 2 samplePart) ∧
    ∃ t, run (WebDownload.step sampleCrypto (.replicate 32 3) (.replicate 16 4)) (start (sampleAnswer 2))
        [.sinkMade (.ok ()) (some (.other "progress"))] = some t ∧ t.sink = true ∧ Settled t ∧
        endings t.calls = [] := by
  constructor
  · refine ⟨_, rfl, rfl, rfl, ?_⟩
    decide
  · exact ⟨_, rfl, rfl, ⟨_, rfl⟩, rfl⟩

end SignetDrive.Proofs
