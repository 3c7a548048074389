import SignetDrive.Model.UploadParts
import SignetDrive.Proofs.Envelope

/-!
# The parts of an upload are delivered as planned

Every part of the plan is in one place at a time: still to be read, in the channel, with a worker,
or recorded.
-/

namespace SignetDrive.Proofs
open Client Automaton

variable {a : UploadPartsArgs}

/-! ### Preparing a part -/

variable (a) in
def sealedPart (partNumber : I32) : Except CliError Bytes :=
  sealPart a partNumber (unread a partNumber [])

def PrepareEvent.error : PrepareEvent → Option CliError
  | .seeked e => e.map fun e => .inputRead s!"seeking input: {e}"
  | .read (.error e) => some (.inputRead s!"reading input: {e}")
  | .read (.ok _) => none

variable (a) in
/-- What has been read of a part is the start of its bytes. -/
def PreparingKnows (partNumber : I32) : Preparing → Prop
  | .seeking => True
  | .reading buf => buf <+: unread a partNumber []

lemma unread_eq (partNumber : I32) (buf : Bytes) :
    unread a partNumber buf = (unread a partNumber []).drop buf.length := by
  simp [unread, List.drop_take, List.drop_drop]

variable {partNumber : I32}

lemma append_unread {buf : Bytes} (h : buf <+: unread a partNumber []) :
    buf ++ unread a partNumber buf = unread a partNumber [] := by
  rw [unread_eq]
  exact List.prefix_append_drop h |>.symm

variable (a partNumber) in
def PreparedBy (event : PrepareEvent) : Preparing ⊕ Except CliError Bytes → Prop
  | .inl progress => PrepareEvent.error event = none ∧ PreparingKnows a partNumber progress
  | .inr outcome => PrepareEvent.error event = none ∧ outcome = sealedPart a partNumber ∨
      ∃ e, PrepareEvent.error event = some e ∧ outcome = .error e

lemma fillChunk_knows {buf : Bytes} {event : PrepareEvent} (herror : PrepareEvent.error event = none)
    (h : buf <+: unread a partNumber []) : PreparedBy a partNumber event (fillChunk a partNumber buf) := by
  unfold fillChunk
  split
  case isTrue => exact ⟨herror, h⟩
  case isFalse hfull =>
    have hle : (unread a partNumber []).length ≤ a.chunkSize := by simp [unread]
    have hbuf : buf = unread a partNumber [] := h.eq_of_length (le_antisymm h.length_le (by omega))
    exact .inl ⟨herror, by rw [sealedPart, ← hbuf]⟩

lemma preparing_step {progress : Preparing} {event : PrepareEvent}
    {outcome : Preparing ⊕ Except CliError Bytes} (h : PreparingKnows a partNumber progress)
    (hstep : progress.step a partNumber event = some outcome) : PreparedBy a partNumber event outcome := by
  cases progress with
  | seeking =>
    cases event with
    | read => simp [Preparing.step] at hstep
    | seeked e =>
      cases e with
      | none =>
        obtain rfl : fillChunk a partNumber [] = outcome := by simpa [Preparing.step] using hstep
        exact fillChunk_knows rfl (List.nil_prefix)
      | some e =>
        simp only [Preparing.step, Option.some.injEq] at hstep
        subst hstep
        exact .inr ⟨_, rfl, rfl⟩
  | reading buf =>
    cases event with
    | seeked => simp [Preparing.step] at hstep
    | read result =>
      cases result with
      | error e =>
        simp only [Preparing.step, Option.some.injEq] at hstep
        subst hstep
        exact .inr ⟨_, rfl, rfl⟩
      | ok count =>
        simp only [Preparing.step] at hstep
        have hall := append_unread h
        split at hstep
        case isTrue =>
          simp only [List.isEmpty_iff, Option.ite_none_right_eq_some, Option.some.injEq] at hstep
          obtain ⟨hempty, rfl⟩ := hstep
          rw [hempty, List.append_nil] at hall
          exact .inl ⟨rfl, by rw [sealedPart, ← hall]⟩
        case isFalse =>
          simp only [Option.ite_none_right_eq_some, Option.some.injEq] at hstep
          obtain ⟨-, rfl⟩ := hstep
          apply fillChunk_knows rfl
          rw [← hall]
          exact (List.prefix_append_right_inj buf).mpr (List.take_prefix _ _)

/-! ### What a thread can do -/

variable {planned : List (I32 × String)} {s t : ThreadedUpload} {event : UploadPartsEvent} {k : ℕ}
  {w w' : UploadWorker} {n : I32}

open ThreadedUpload

variable (a planned s) in
/-- What one event can do at a state of the producer. -/
inductive ProducerMoves : Producer → UploadPartsEvent → ThreadedUpload → Prop
  | opened : ProducerMoves .opening (.opened none) (s.produce (.next planned))
  | openFailed (e : String) :
    ProducerMoves .opening (.opened (some e)) (s.produce (.sending (.error (openError a e)) []))
  | aborts (rest : List (I32 × String)) (habort : s.abort = true) :
    ProducerMoves (.next rest) (.producerLoads true) (s.produce .exited)
  | done : ProducerMoves (.next []) (.producerLoads false) (s.produce .exited)
  | takes (part : I32 × String) (rest : List (I32 × String)) :
    ProducerMoves (.next (part :: rest)) (.producerLoads false) (s.produce (.preparing part rest .seeking))
  | prepares {part : I32 × String} {rest : List (I32 × String)} {progress : Preparing} {event : PrepareEvent}
      {outcome : Preparing ⊕ Except CliError Bytes} (hstep : progress.step a part.1 event = some outcome) :
    ProducerMoves (.preparing part rest progress) (.prepare event) (s.produce (prepared part rest outcome))
  | pushed (item : Item) (rest : List (I32 × String)) :
    ProducerMoves (.sending item rest) .pushed
      (produce { s with queue := s.queue ++ [item] } (afterSend item rest))
  | met (item : Item) (rest : List (I32 × String)) {k : ℕ} (hw : s.workers[k]? = some .receiving) :
    ProducerMoves (.sending item rest) (.met k)
      (setWorker (s.produce (afterSend item rest)) k (.holding item))

lemma producerStep_moves (h : s.producerStep a planned event = some t) :
    ProducerMoves a planned s s.producer event t := by
  unfold producerStep at h
  split at h
  case h_1 hp =>
    cases h
    rw [hp]
    exact .opened
  case h_2 e hp =>
    cases h
    rw [hp]
    exact .openFailed e
  case h_3 rest aborted hp =>
    rw [hp]
    cases aborted with
    | true =>
      simp only [Bool.true_and, Bool.not_eq_true', if_true, Option.ite_none_left_eq_some, Option.some.injEq,
        Bool.not_eq_false] at h
      obtain ⟨habort, rfl⟩ := h
      exact .aborts rest habort
    | false =>
      simp only [Bool.false_and, Bool.false_eq_true, if_false] at h
      split at h
      all_goals cases h
      · exact .done
      · exact .takes _ _
  case h_4 part rest progress prepareEvent hp =>
    rw [hp]
    obtain ⟨outcome, hstep, rfl⟩ := Option.map_eq_some_iff.mp h
    exact .prepares hstep
  case h_5 item rest hp =>
    rw [hp]
    simp only [Option.ite_none_right_eq_some, Option.some.injEq] at h
    obtain ⟨-, rfl⟩ := h
    exact .pushed item rest
  case h_6 item rest j hp =>
    rw [hp]
    split at h
    case h_1 hw =>
      simp only [Option.ite_none_right_eq_some, Option.some.injEq] at h
      obtain ⟨-, rfl⟩ := h
      exact .met item rest hw
    case h_2 => cases h
  case h_7 => cases h

variable (s k) in
/-- What one event can do at a state of a worker. -/
inductive WorkerMoves : UploadWorker → UploadPartsEvent → ThreadedUpload → Prop
  | locked (j : ℕ) : WorkerMoves .locking (.locked j) (s.setWorker k .receiving)
  | received (j : ℕ) {item : Item} {queue : List Item} (hqueue : s.queue = item :: queue) :
    WorkerMoves .receiving (.received j) (setWorker { s with queue := queue } k (.holding item))
  | closed (j : ℕ) (hqueue : s.queue = []) (hproducer : s.producer = .exited) :
    WorkerMoves .receiving (.received j) (s.setWorker k .exited)
  | drained (j : ℕ) (item : Item) (habort : s.abort = true) :
    WorkerMoves (.holding item) (.workerLoads j true) (s.setWorker k .locking)
  | puts (j : ℕ) (partNumber : I32) (url : String) (envelope : Bytes) :
    WorkerMoves (.holding (.ok (partNumber, url, envelope))) (.workerLoads j false)
      (s.setWorker k (.putting partNumber url envelope))
  | refused (j : ℕ) (e : CliError) :
    WorkerMoves (.holding (.error e)) (.workerLoads j false) (s.setWorker k (.failing e))
  | put (j : ℕ) (partNumber : I32) (url : String) (envelope : Bytes) (etag : String) :
    WorkerMoves (.putting partNumber url envelope) (.put j (.ok etag))
      (setWorker { s with sent := s.sent ++ [⟨partNumber, url, envelope, etag⟩] } k
        (.recording ⟨partNumber, etag⟩))
  | putFailed (j : ℕ) (partNumber : I32) (url : String) (envelope : Bytes) (e : CliError) :
    WorkerMoves (.putting partNumber url envelope) (.put j (.error e)) (s.setWorker k (.failing e))
  | recorded (j : ℕ) (part : PartInput) :
    WorkerMoves (.recording part) (.recorded j) (setWorker { s with parts := s.parts ++ [part] } k .locking)
  | failed (j : ℕ) (e : CliError) :
    WorkerMoves (.failing e) (.recorded j)
    (setWorker { s with firstError := s.firstError.or (some e) } k .aborting)
  | aborted (j : ℕ) : WorkerMoves .aborting (.abortStored j) (setWorker { s with abort := true } k .locking)

lemma workerStep_moves (h : s.workerStep k w event = some t) : WorkerMoves s k w event t := by
  cases w with
  | locking =>
    cases event <;> simp only [workerStep, Option.ite_none_left_eq_some, reduceCtorEq, Option.some.injEq] at h
    obtain ⟨-, rfl⟩ := h
    exact .locked _
  | receiving =>
    cases event <;> simp only [workerStep, reduceCtorEq] at h
    split at h
    case h_1 hqueue =>
      cases h
      exact .received _ hqueue
    case h_2 hqueue hproducer =>
      cases h
      exact .closed _ hqueue hproducer
    case h_3 => cases h
  | holding item =>
    cases event <;> simp only [workerStep, reduceCtorEq] at h
    case workerLoads j aborted =>
      cases aborted with
      | true =>
        simp only [Bool.true_and, Bool.not_eq_true', if_true, Option.ite_none_left_eq_some, Option.some.injEq,
          Bool.not_eq_false] at h
        obtain ⟨habort, rfl⟩ := h
        exact .drained j item habort
      | false =>
        simp only [Bool.false_and, Bool.false_eq_true, if_false] at h
        split at h
        all_goals cases h
        · exact .puts j _ _ _
        · exact .refused j _
  | putting partNumber url envelope =>
    cases event <;> simp only [workerStep, reduceCtorEq] at h
    case put j result =>
      cases result with
      | ok etag =>
        cases h
        exact .put j partNumber url envelope etag
      | error e =>
        cases h
        exact .putFailed j partNumber url envelope e
  | recording part =>
    cases event <;> simp only [workerStep, reduceCtorEq, Option.some.injEq] at h
    subst h
    exact .recorded _ part
  | failing e =>
    cases event <;> simp only [workerStep, reduceCtorEq, Option.some.injEq] at h
    subst h
    exact .failed _ e
  | aborting =>
    cases event <;> simp only [workerStep, reduceCtorEq, Option.some.injEq] at h
    subst h
    exact .aborted _
  | exited => cases event <;> simp only [workerStep, reduceCtorEq] at h

/-! ### Where the parts are -/

def itemHas (n : I32) : Item → Bool
  | .ok (m, _, _) => m == n
  | .error _ => false

def itemFails : Item → Bool
  | .ok _ => false
  | .error _ => true

def workerHas (n : I32) : UploadWorker → Bool
  | .holding item => itemHas n item
  | .putting m _ _ => m == n
  | .recording part => part.partNumber == n
  | _ => false

def workerFails : UploadWorker → Bool
  | .holding item => itemFails item
  | .failing _ => true
  | _ => false

variable (planned) in
def producerCopies (n : I32) : Producer → ℕ
  | .opening => (planned.map Prod.fst).count n
  | .next rest => (rest.map Prod.fst).count n
  | .preparing part rest _ => ((part :: rest).map Prod.fst).count n
  | .sending item rest => (itemHas n item).toNat + (rest.map Prod.fst).count n
  | .exited => 0

def producerFails : Producer → Bool
  | .sending item _ => itemFails item
  | _ => false

variable (planned) in
/-- How often a part is somewhere. -/
def copies (s : ThreadedUpload) (n : I32) : ℕ :=
  producerCopies planned n s.producer + s.queue.countP (itemHas n) + s.workers.countP (workerHas n) +
    (s.parts.map PartInput.partNumber).count n

/-- How many errors are somewhere. -/
def troubles (s : ThreadedUpload) : ℕ :=
  s.firstError.isSome.toNat + (producerFails s.producer).toNat + s.queue.countP itemFails +
    s.workers.countP workerFails

variable (a) in
/-- The error that an event brings. -/
def eventError : UploadPartsEvent → Option CliError
  | .opened e => e.map (openError a)
  | .prepare event => PrepareEvent.error event
  | .put _ (.error e) => some e
  | _ => none

/-- A flag that is set, or about to be, has an error behind it. -/
structure AbortKnown (s : ThreadedUpload) : Prop where
  flag : s.abort = true → s.firstError.isSome
  worker : .aborting ∈ s.workers → s.firstError.isSome

lemma AbortKnown.setWorker (h : AbortKnown s) (hne : w ≠ .aborting) : AbortKnown (s.setWorker k w) := by
  refine ⟨h.flag, ?_⟩
  intro hmem
  obtain hold | heq := List.mem_or_eq_of_mem_set hmem
  · exact h.worker hold
  · exact absurd heq.symm hne

variable (a planned) in
/-- What one event does to the parts and the errors: nothing gets lost, unless an error is there. -/
structure StepAccounts (event : UploadPartsEvent) (s t : ThreadedUpload) : Prop where
  abort : AbortKnown t
  troubled : 0 < troubles s ∨ eventError a event ≠ none → 0 < troubles t
  copies : troubles t = 0 → ∀ n, copies planned t n = copies planned s n

lemma StepAccounts.of_eq (habort : AbortKnown t) (hevent : eventError a event = none)
    (htroubles : troubles t = troubles s)
    (hcopies : ∀ n, Proofs.copies planned t n = Proofs.copies planned s n) :
    StepAccounts a planned event s t := by
  refine ⟨habort, ?_, fun _ => hcopies⟩
  rw [htroubles, hevent]
  simp

lemma StepAccounts.of_troubled (habort : AbortKnown t) (htroubles : 0 < troubles t) :
    StepAccounts a planned event s t :=
  ⟨habort, fun _ => htroubles, fun hnone => absurd hnone htroubles.ne'⟩

lemma troubles_pos_of_firstError (h : s.firstError.isSome) : 0 < troubles s := by simp [troubles, h]

lemma troubles_setWorker (hw : s.workers[k]? = some w) (w' : UploadWorker) :
    troubles (s.setWorker k w') + (workerFails w).toNat = troubles s + (workerFails w').toNat := by
  have hcount := countP_set workerFails hw w'
  simp only [troubles, setWorker]
  omega

lemma copies_setWorker (planned : List (I32 × String)) (hw : s.workers[k]? = some w) (w' : UploadWorker)
    (n : I32) : copies planned (s.setWorker k w') n + (workerHas n w).toNat = copies planned s n +
    (workerHas n w').toNat := by
  have hcount := countP_set (workerHas n) hw w'
  simp only [copies, setWorker]
  omega

lemma StepAccounts.setWorker (h : AbortKnown s) (hw : s.workers[k]? = some w)
    (hevent : eventError a event = none) (hne : w' ≠ .aborting) (hfails : workerFails w' = workerFails w)
    (hhas : ∀ n, workerHas n w' = workerHas n w) : StepAccounts a planned event s (s.setWorker k w') := by
  refine .of_eq (h.setWorker hne) hevent ?_ ?_
  · exact Nat.add_right_cancel (hfails ▸ troubles_setWorker hw _)
  · exact fun n => Nat.add_right_cancel (hhas n ▸ copies_setWorker planned hw _ n)

lemma WorkerMoves.accounts (hmoves : WorkerMoves s k w event t) (hw : s.workers[k]? = some w)
    (h : AbortKnown s) : StepAccounts a planned event s t := by
  cases hmoves with
  | locked | closed | puts | refused => exact .setWorker h hw rfl (by simp) rfl fun _ => rfl
  | put j partNumber url envelope etag =>
    have hset : StepAccounts a planned (.put j (.ok etag))
        { s with sent := s.sent ++ [⟨partNumber, url, envelope, etag⟩] } _ :=
      .setWorker ⟨h.flag, h.worker⟩ hw rfl
        (show UploadWorker.recording ⟨partNumber, etag⟩ ≠ .aborting by simp) rfl fun _ => rfl
    exact ⟨hset.abort, hset.troubled, hset.copies⟩
  | @received j item queue hqueue =>
    refine .of_eq (AbortKnown.setWorker ⟨h.flag, h.worker⟩ (by simp)) rfl ?_ ?_
    · have hset := troubles_setWorker (s := { s with queue := queue }) hw (.holding item)
      have hbefore : troubles s = troubles { s with queue := queue } + (itemFails item).toNat := by
        simp only [troubles, hqueue, countP_cons]
        omega
      rw [hbefore]
      exact hset
    · intro n
      have hset := copies_setWorker (s := { s with queue := queue }) planned hw (.holding item) n
      have hbefore : copies planned s n = copies planned { s with queue := queue } n +
          (itemHas n item).toNat := by
        simp only [copies, hqueue, countP_cons]
        omega
      rw [hbefore]
      exact hset
  | recorded j part =>
    refine .of_eq (AbortKnown.setWorker ⟨h.flag, h.worker⟩ (by simp)) rfl ?_ ?_
    · exact troubles_setWorker (s := { s with parts := s.parts ++ [part] }) hw .locking
    · intro n
      have hset := copies_setWorker (s := { s with parts := s.parts ++ [part] }) planned hw .locking n
      have hafter : copies planned { s with parts := s.parts ++ [part] } n = copies planned s n +
          (workerHas n (.recording part)).toNat := by
        have hcount := countP_concat (· == n) (s.parts.map PartInput.partNumber) part.partNumber
        simp only [copies, workerHas, List.map_append, List.map_cons, List.map_nil, List.count,
          hcount, Nat.add_assoc]
      rw [hafter] at hset
      exact Nat.add_right_cancel hset
  | drained j item habort =>
    exact .of_troubled (h.setWorker
      (by simp)) (troubles_pos_of_firstError (s := s.setWorker k _) (h.flag habort))
  | putFailed j partNumber url envelope e =>
    refine .of_troubled (h.setWorker (by simp)) ?_
    have hset : troubles (s.setWorker k (.failing e)) = troubles s + 1 := troubles_setWorker hw _
    omega
  | failed j e =>
    have herror : (s.firstError.or (some e)).isSome := by simp
    exact .of_troubled ⟨fun _ => herror, fun _ => herror⟩
      (troubles_pos_of_firstError (s := setWorker _ _ _) herror)
  | aborted j =>
    have herror : s.firstError.isSome := h.worker (List.mem_of_getElem? hw)
    exact .of_troubled ⟨fun _ => herror, fun _ => herror⟩
      (troubles_pos_of_firstError (s := setWorker _ _ _) herror)

lemma preparing_error {progress : Preparing} {prepareEvent : PrepareEvent}
    {outcome : Preparing ⊕ Except CliError Bytes}
    (hstep : progress.step a partNumber prepareEvent = some outcome)
    (hne : PrepareEvent.error prepareEvent ≠ none) : ∃ e, outcome = .inr (.error e) := by
  cases prepareEvent with
  | seeked e =>
    cases e with
    | none => exact absurd rfl hne
    | some e =>
      cases progress <;> simp only [Preparing.step, Option.some.injEq, reduceCtorEq] at hstep
      exact ⟨_, hstep.symm⟩
  | read result =>
    cases result with
    | ok => exact absurd rfl hne
    | error e =>
      cases progress <;> simp only [Preparing.step, Option.some.injEq, reduceCtorEq] at hstep
      exact ⟨_, hstep.symm⟩

lemma AbortKnown.produce {p : Producer} (h : AbortKnown s) : AbortKnown (s.produce p) := ⟨h.flag, h.worker⟩

lemma StepAccounts.produce {p : Producer} (h : AbortKnown s) (hevent : eventError a event = none)
    (hfails : producerFails p = producerFails s.producer)
    (hcopies : ∀ n, producerCopies planned n p = producerCopies planned n s.producer) :
    StepAccounts a planned event s (s.produce p) := by
  refine .of_eq h.produce hevent ?_ ?_
  · simp only [troubles, ThreadedUpload.produce, hfails]
  · intro n
    simp only [Proofs.copies, ThreadedUpload.produce, hcopies n]

lemma ProducerMoves.accounts (hmoves : ProducerMoves a planned s s.producer event t) (h : AbortKnown s) :
    StepAccounts a planned event s t := by
  generalize hp : s.producer = p at hmoves
  cases hmoves with
  | opened | done | takes => exact .produce h rfl (by rw [hp]; rfl) fun n => by rw [hp]; rfl
  | openFailed e =>
    refine .of_troubled h.produce ?_
    simp [troubles, ThreadedUpload.produce, producerFails, itemFails]
  | aborts rest habort =>
    exact .of_troubled h.produce (troubles_pos_of_firstError (s := s.produce _) (h.flag habort))
  | @prepares part rest progress prepareEvent outcome hstep =>
    by_cases herror : ∃ e, outcome = .inr (.error e)
    · obtain ⟨e, rfl⟩ := herror
      refine .of_troubled h.produce ?_
      simp [troubles, ThreadedUpload.produce, prepared, producerFails, Except.map, itemFails]
    · have hevent : PrepareEvent.error prepareEvent = none :=
        not_not.mp fun hne => herror (preparing_error hstep hne)
      match outcome with
      | .inl progress => exact .produce h hevent (by rw [hp]; rfl) fun n => by rw [hp]; rfl
      | .inr (.error e) => exact absurd ⟨e, rfl⟩ herror
      | .inr (.ok envelope) =>
        refine .produce h hevent (by rw [hp]; rfl) fun n => ?_
        simp only [hp, producerCopies, prepared, Except.map, itemHas, List.map_cons, List.count, countP_cons]
  | pushed item rest =>
    cases item with
    | error e =>
      refine .of_troubled ⟨h.flag, h.worker⟩ ?_
      simp only [troubles, ThreadedUpload.produce, countP_concat, itemFails, Bool.toNat_true]
      omega
    | ok part =>
      refine .of_eq ⟨h.flag, h.worker⟩ rfl ?_ ?_
      · simp [troubles, ThreadedUpload.produce, afterSend, hp, producerFails, itemFails]
      · intro n
        simp only [copies, ThreadedUpload.produce, afterSend, hp, producerCopies, countP_concat]
        omega
  | @met item rest k hw =>
    have habort : AbortKnown ((s.produce (afterSend item rest)).setWorker k (.holding item)) :=
      h.produce.setWorker (by simp)
    have htroubles := troubles_setWorker (s := s.produce (afterSend item rest)) hw (.holding item)
    cases item with
    | error e =>
      refine .of_troubled habort ?_
      simp only [workerFails, itemFails, Bool.toNat_true, Bool.toNat_false] at htroubles
      omega
    | ok part =>
      refine .of_eq habort rfl ?_ ?_
      · simp only [workerFails, itemFails, Nat.add_right_cancel_iff] at htroubles
        rw [htroubles]
        simp [troubles, ThreadedUpload.produce, afterSend, hp, producerFails, itemFails]
      · intro n
        have hset := copies_setWorker (s := s.produce (.next rest)) planned hw (.holding (.ok part)) n
        have hafter : copies planned s n = copies planned (s.produce (.next rest)) n +
            (itemHas n (.ok part)).toNat := by
          simp only [copies, ThreadedUpload.produce, hp, producerCopies]
          omega
        rw [hafter]
        exact hset

/-! ### What the threads know -/

section Knowing

variable (a planned) (E : CliError → Prop)

/-- An item for the channel: a part of the plan, sealed from its own bytes, or an error that occurred. -/
def ItemKnows : Item → Prop
  | .ok (n, url, envelope) => (n, url) ∈ planned ∧ sealedPart a n = .ok envelope
  | .error e => E e

def ProducerKnows : Producer → Prop
  | .next rest => rest ⊆ planned
  | .preparing part rest progress => part ∈ planned ∧ rest ⊆ planned ∧ PreparingKnows a part.1 progress
  | .sending item rest => ItemKnows a planned E item ∧ rest ⊆ planned
  | .opening | .exited => True

def RecordedIn (sent : List SentPart) (part : PartInput) : Prop :=
  ∃ p ∈ sent, p.partNumber = part.partNumber ∧ p.etag = part.etag

def UploadWorkerKnows (sent : List SentPart) : UploadWorker → Prop
  | .holding item => ItemKnows a planned E item
  | .putting n url envelope => (n, url) ∈ planned ∧ sealedPart a n = .ok envelope
  | .recording part => RecordedIn sent part
  | .failing e => E e
  | _ => True

/-- Everything that is somewhere is right, and every error is one that occurred. -/
structure ThreadsKnow (s : ThreadedUpload) : Prop where
  producer : ProducerKnows a planned E s.producer
  queue : ∀ item ∈ s.queue, ItemKnows a planned E item
  workers : ∀ w ∈ s.workers, UploadWorkerKnows a planned E s.sent w
  sent : ∀ p ∈ s.sent, (p.partNumber, p.url) ∈ planned ∧ sealedPart a p.partNumber = .ok p.envelope
  parts : ∀ part ∈ s.parts, RecordedIn s.sent part
  firstError : ∀ e, s.firstError = some e → E e

end Knowing

variable {E : CliError → Prop} (hE : ∀ e, eventError a event = some e → E e)
  (hsealed : ∀ part ∈ planned, ∀ e, sealedPart a part.1 = .error e → E e)

lemma UploadWorkerKnows.mono {sent sent' : List SentPart} (hsub : sent ⊆ sent')
    (h : UploadWorkerKnows a planned E sent w) : UploadWorkerKnows a planned E sent' w := by
  cases w with
  | recording part =>
    obtain ⟨p, hp, heq⟩ := h
    exact ⟨p, hsub hp, heq⟩
  | _ => exact h

lemma ThreadsKnow.setWorker (h : ThreadsKnow a planned E s) (hw : UploadWorkerKnows a planned E s.sent w) :
    ThreadsKnow a planned E (s.setWorker k w) := by
  refine ⟨h.producer, h.queue, ?_, h.sent, h.parts, h.firstError⟩
  intro v hv
  obtain hold | rfl := List.mem_or_eq_of_mem_set hv
  · exact h.workers v hold
  · exact hw

include hE in
lemma WorkerMoves.knows (hmoves : WorkerMoves s k w event t) (hw : s.workers[k]? = some w)
    (h : ThreadsKnow a planned E s) : ThreadsKnow a planned E t := by
  have hknows : UploadWorkerKnows a planned E s.sent w := h.workers w (List.mem_of_getElem? hw)
  cases hmoves with
  | locked | closed | drained => exact h.setWorker trivial
  | puts | refused => exact h.setWorker hknows
  | putFailed j partNumber url envelope e => exact h.setWorker (hE e rfl)
  | aborted j =>
    exact ThreadsKnow.setWorker (s := { s with abort := true })
      ⟨h.producer, h.queue, h.workers, h.sent, h.parts, h.firstError⟩ trivial
  | @received j item queue hqueue =>
    have hitems : ∀ x ∈ item :: queue, ItemKnows a planned E x := hqueue ▸ h.queue
    refine ThreadsKnow.setWorker (s := { s with queue := queue })
      ⟨h.producer, ?_, h.workers, h.sent, h.parts, h.firstError⟩ ?_
    · exact fun x hx => hitems x (List.mem_cons_of_mem item hx)
    · exact hitems item List.mem_cons_self
  | put j partNumber url envelope etag =>
    have hsub : s.sent ⊆ s.sent ++ [⟨partNumber, url, envelope, etag⟩] := List.subset_append_left _ _
    refine ThreadsKnow.setWorker (s := { s with sent := _ }) ⟨h.producer, h.queue, ?_, ?_, ?_, h.firstError⟩ ?_
    · exact fun v hv => (h.workers v hv).mono hsub
    · intro p hp
      obtain hold | rfl := List.mem_append.mp hp |>.imp_right List.mem_singleton.mp
      · exact h.sent p hold
      · exact hknows
    · intro part hpart
      obtain ⟨p, hp, heq⟩ := h.parts part hpart
      exact ⟨p, hsub hp, heq⟩
    · exact ⟨_, List.mem_append_right _ List.mem_cons_self, rfl, rfl⟩
  | recorded j part =>
    refine ThreadsKnow.setWorker (s := { s with parts := _ })
      ⟨h.producer, h.queue, h.workers, h.sent, ?_, h.firstError⟩ trivial
    intro p hp
    obtain hold | rfl := List.mem_append.mp hp |>.imp_right List.mem_singleton.mp
    · exact h.parts p hold
    · exact hknows
  | failed j e =>
    refine ThreadsKnow.setWorker (s := { s with firstError := _ })
      ⟨h.producer, h.queue, h.workers, h.sent, h.parts, ?_⟩ trivial
    intro e' he'
    cases hfirst : s.firstError with
    | none =>
      rw [hfirst] at he'
      exact Option.some.inj he' ▸ hknows
    | some first =>
      rw [hfirst] at he'
      exact h.firstError e' (hfirst.trans he')

lemma ThreadsKnow.produce {p : Producer} (h : ThreadsKnow a planned E s) (hp : ProducerKnows a planned E p) :
    ThreadsKnow a planned E (s.produce p) :=
  ⟨hp, h.queue, h.workers, h.sent, h.parts, h.firstError⟩

lemma afterSend_knows {item : Item} {rest : List (I32 × String)} (hrest : rest ⊆ planned) :
    ProducerKnows a planned E (afterSend item rest) := by
  cases item with
  | ok => exact hrest
  | error => trivial

include hE hsealed in
lemma ProducerMoves.knows (hmoves : ProducerMoves a planned s s.producer event t)
    (h : ThreadsKnow a planned E s) : ThreadsKnow a planned E t := by
  have hknows := h.producer
  generalize hp : s.producer = p at hmoves hknows
  cases hmoves with
  | opened => exact h.produce (List.Subset.refl planned)
  | openFailed e => exact h.produce ⟨hE _ rfl, List.nil_subset _⟩
  | aborts | done => exact h.produce trivial
  | takes part rest =>
    have hall : part ∈ planned ∧ rest ⊆ planned := List.cons_subset.mp hknows
    exact h.produce ⟨hall.1, hall.2, trivial⟩
  | @prepares part rest progress prepareEvent outcome hstep =>
    obtain ⟨hpart, hrest, hprogress⟩ := hknows
    have hprepared := preparing_step hprogress hstep
    apply h.produce
    match outcome with
    | .inl progress => exact ⟨hpart, hrest, hprepared.2⟩
    | .inr (.ok envelope) =>
      obtain ⟨-, hsealed⟩ | ⟨e, -, heq⟩ := hprepared
      · exact ⟨⟨hpart, hsealed.symm⟩, hrest⟩
      · cases heq
    | .inr (.error e) =>
      refine ⟨?_, hrest⟩
      obtain ⟨-, hsealed'⟩ | ⟨e', he', heq⟩ := hprepared
      · exact hsealed part hpart e hsealed'.symm
      · cases heq
        exact hE e he'
  | pushed item rest =>
    refine ⟨afterSend_knows hknows.2, ?_, h.workers, h.sent, h.parts, h.firstError⟩
    intro x hx
    obtain hold | rfl := List.mem_append.mp hx |>.imp_right List.mem_singleton.mp
    · exact h.queue x hold
    · exact hknows.1
  | met item rest hw => exact (h.produce (afterSend_knows hknows.2)).setWorker hknows.1

/-! ### No thread is left waiting -/

variable (a) in
/-- The workers exit after the producer, and the result is there when all have exited. -/
structure ThreadsEnd (s : ThreadedUpload) : Prop where
  exited : .exited ∈ s.workers → s.producer = .exited ∧ s.queue = []
  nonempty : s.workers ≠ []
  result : ∀ r, s.result = some r → r = s.outcome a ∧ s.producer = .exited ∧ ∀ w ∈ s.workers, w = .exited

lemma mem_of_mem_setWorker {v : UploadWorker} (hv : v ∈ (s.setWorker k w).workers) (hne : v ≠ w) :
    v ∈ s.workers := by
  obtain hold | heq := List.mem_or_eq_of_mem_set hv
  · exact hold
  · exact absurd heq hne

lemma WorkerMoves.ends (hmoves : WorkerMoves s k w event t) (hw : s.workers[k]? = some w) (h : ThreadsEnd a s) :
    ThreadsEnd a t := by
  have hmem := List.mem_of_getElem? hw
  have hrunning : w ≠ .exited → s.result = none := by
    intro hne
    cases hresult : s.result with
    | none => rfl
    | some r => exact absurd ((h.result r hresult).2.2 w hmem) hne
  have hnonempty : ∀ v, s.workers.set k v ≠ [] := fun v => by simpa using h.nonempty
  cases hmoves with
  | @received j item queue hqueue =>
    refine ⟨?_, hnonempty _, ?_⟩
    · intro hexited
      have hold := mem_of_mem_setWorker (s := { s with queue := queue }) hexited (by simp)
      simp [(h.exited hold).2] at hqueue
    · intro r hr
      exact absurd hr (by simp [setWorker, hrunning])
  | closed j hqueue hproducer =>
    refine ⟨fun _ => ⟨hproducer, hqueue⟩, hnonempty _, ?_⟩
    intro r hr
    exact absurd hr (by simp [setWorker, hrunning])
  | locked | drained | puts | refused | putFailed =>
    refine ⟨fun hexited => h.exited (mem_of_mem_setWorker hexited (by simp)), hnonempty _, ?_⟩
    intro r hr
    exact absurd hr (by simp [setWorker, hrunning])
  | put | recorded | failed | aborted =>
    refine ⟨?_, hnonempty _, ?_⟩
    · intro hexited
      obtain hold | heq := List.mem_or_eq_of_mem_set hexited
      · exact h.exited hold
      · cases heq
    · intro r hr
      exact absurd hr (by simp [setWorker, hrunning])

lemma ProducerMoves.ends (hmoves : ProducerMoves a planned s s.producer event t) (h : ThreadsEnd a s) :
    ThreadsEnd a t := by
  have hne : s.producer ≠ .exited := by
    intro heq
    rw [heq] at hmoves
    cases hmoves
  have hexited : .exited ∉ s.workers := fun hmem => hne (h.exited hmem).1
  have hresult : s.result = none := by
    cases hresult : s.result with
    | none => rfl
    | some r => exact absurd (h.result r hresult).2.1 hne
  generalize s.producer = p at hmoves
  cases hmoves with
  | @met item rest k hw =>
    refine ⟨?_, by simpa [setWorker, ThreadedUpload.produce] using h.nonempty, ?_⟩
    · intro hmem
      exact absurd (mem_of_mem_setWorker (s := s.produce _) hmem (by simp)) hexited
    · intro r hr
      exact absurd hr (by simp [setWorker, ThreadedUpload.produce, hresult])
  | opened | openFailed | aborts | done | takes | prepares | pushed =>
    refine ⟨fun hmem => absurd hmem hexited, h.nonempty, ?_⟩
    intro r hr
    exact absurd hr (by simp [ThreadedUpload.produce, hresult])

lemma exists_step_of_worker (hno : ∀ w ∈ s.workers, w ≠ .receiving) (hw : s.workers[k]? = some w)
    (hne : w ≠ .exited) : ∃ event, (s.step a planned event).isSome := by
  cases w with
  | receiving => exact absurd rfl (hno _ (List.mem_of_getElem? hw))
  | exited => exact absurd rfl hne
  | locking =>
    refine ⟨.locked k, ?_⟩
    simp only [ThreadedUpload.step, atWorker, hw, workerStep, Option.bind_some, Option.isSome_ite',
      List.any_eq_true]
    rintro ⟨v, hv, hreceives⟩
    cases v <;> simp only [Bool.false_eq_true] at hreceives
    exact hno _ hv rfl
  | holding item =>
    refine ⟨.workerLoads k false, ?_⟩
    cases item <;> simp [ThreadedUpload.step, atWorker, hw, workerStep]
  | putting => exact ⟨.put k (.ok ""), by simp [ThreadedUpload.step, atWorker, hw, workerStep]⟩
  | recording | failing => exact ⟨.recorded k, by simp [ThreadedUpload.step, atWorker, hw, workerStep]⟩
  | aborting => exact ⟨.abortStored k, by simp [ThreadedUpload.step, atWorker, hw, workerStep]⟩

lemma ThreadsEnd.not_stuck (h : ThreadsEnd a s) (planned : List (I32 × String)) (hresult : s.result = none) :
    ∃ event, (s.step a planned event).isSome := by
  -- a worker in `recv` takes an item as soon as one is there
  have hreceives : ∀ (k : ℕ) item queue, s.workers[k]? = some .receiving → s.queue = item :: queue →
      ∃ event, (s.step a planned event).isSome := by
    intro k item queue hw hqueue
    exact ⟨.received k, by simp [ThreadedUpload.step, atWorker, hw, workerStep, hqueue]⟩
  cases hp : s.producer with
  | opening => exact ⟨.opened none, by simp [ThreadedUpload.step, producerStep, hp]⟩
  | next rest =>
    refine ⟨.producerLoads false, ?_⟩
    cases rest <;> simp [ThreadedUpload.step, producerStep, hp]
  | preparing part rest progress =>
    cases progress with
    | seeking =>
      exact ⟨.prepare (.seeked none), by simp [ThreadedUpload.step, producerStep, hp, Preparing.step]⟩
    | reading buf =>
      exact ⟨.prepare (.read (.error "")), by simp [ThreadedUpload.step, producerStep, hp, Preparing.step]⟩
  | sending item rest =>
    by_cases hroom : s.queue.length < a.prepareAhead - 1
    · exact ⟨.pushed, by simp [ThreadedUpload.step, producerStep, hp, hroom]⟩
    by_cases hreceiver : ∃ k : ℕ, s.workers[k]? = some .receiving
    · obtain ⟨k, hw⟩ := hreceiver
      cases hqueue : s.queue with
      | cons item queue => exact hreceives k item queue hw hqueue
      | nil =>
        have hcap : a.prepareAhead - 1 = 0 := by
          simp only [hqueue, List.length_nil] at hroom
          omega
        exact ⟨.met k, by simp [ThreadedUpload.step, producerStep, hp, hw, hcap]⟩
    · obtain ⟨w, hw⟩ := List.exists_mem_of_ne_nil _ h.nonempty
      obtain ⟨k, hk⟩ := List.getElem?_of_mem hw
      have hne : w ≠ .exited := by
        rintro rfl
        simp [(h.exited hw).1] at hp
      refine exists_step_of_worker ?_ hk hne
      rintro v hv rfl
      exact hreceiver (List.getElem?_of_mem hv)
  | exited =>
    by_cases hreceiver : ∃ k : ℕ, s.workers[k]? = some .receiving
    · obtain ⟨k, hw⟩ := hreceiver
      cases hqueue : s.queue with
      | cons item queue => exact hreceives k item queue hw hqueue
      | nil => exact ⟨.received k, by simp [ThreadedUpload.step, atWorker, hw, workerStep, hqueue, hp]⟩
    · by_cases hall : ∀ w ∈ s.workers, w = .exited
      · refine ⟨.joined, ?_⟩
        simp only [ThreadedUpload.step, join, hp, hresult, Option.isSome_ite, List.all_eq_true]
        intro w hw
        rw [hall w hw]
      · push Not at hall
        obtain ⟨w, hw, hne⟩ := hall
        obtain ⟨k, hk⟩ := List.getElem?_of_mem hw
        refine exists_step_of_worker ?_ hk hne
        rintro v hv rfl
        exact hreceiver (List.getElem?_of_mem hv)

/-! ### Whole runs of the threads -/

variable (a planned E) in
structure ThreadedInvariant (s : ThreadedUpload) : Prop where
  know : ThreadsKnow a planned E s
  abort : AbortKnown s
  accounted : troubles s = 0 → ∀ n, copies planned s n = (planned.map Prod.fst).count n
  ends : ThreadsEnd a s

lemma ThreadedInvariant.start (hresult : (0 : ℕ) < max a.concurrency 1) :
    ThreadedInvariant a planned E ⟨.opening, [], List.replicate (max a.concurrency 1) .locking, none, false, [],
      [], none⟩ := by
  have hworkers : ∀ w ∈ List.replicate (max a.concurrency 1) UploadWorker.locking, w = .locking :=
    fun w hw => List.eq_of_mem_replicate hw
  refine ⟨⟨trivial, by simp, ?_, by simp, by simp, by simp⟩, ⟨by simp, ?_⟩, ?_, ⟨?_, ?_, by simp⟩⟩
  · intro w hw
    rw [hworkers w hw]
    trivial
  · intro hmem
    cases hworkers _ hmem
  · intro _ n
    simp [copies, producerCopies, workerHas]
  · intro hmem
    cases hworkers _ hmem
  · simp only [ne_eq, List.replicate_eq_nil_iff]
    omega

section

variable (h : ThreadedInvariant a planned E s)

include h

lemma ThreadedInvariant.of_accounts (hknow : ThreadsKnow a planned E t)
    (haccounts : StepAccounts a planned event s t) (hends : ThreadsEnd a t) :
    ThreadedInvariant a planned E t := by
  refine ⟨hknow, haccounts.abort, ?_, hends⟩
  intro hnone n
  have hbefore : troubles s = 0 := by
    by_contra hne
    exact absurd hnone (haccounts.troubled (.inl (Nat.pos_of_ne_zero hne))).ne'
  rw [haccounts.copies hnone n, h.accounted hbefore n]

lemma ThreadedInvariant.join (hstep : s.join a = some t) :
    ThreadedInvariant a planned E t ∧ StepAccounts a planned .joined s t := by
  unfold ThreadedUpload.join at hstep
  split at hstep
  case h_2 => cases hstep
  case h_1 hp hresult =>
    simp only [Option.ite_none_right_eq_some, Option.some.injEq, List.all_eq_true] at hstep
    obtain ⟨hall, rfl⟩ := hstep
    have hexited : ∀ w ∈ s.workers, w = .exited := by
      intro w hw
      have hended := hall w hw
      cases w <;> simp_all
    have haccounts : StepAccounts a planned .joined s { s with result := some (s.outcome a) } :=
      .of_eq ⟨h.abort.flag, h.abort.worker⟩ rfl rfl fun _ => rfl
    refine ⟨h.of_accounts ⟨h.know.producer, h.know.queue, h.know.workers, h.know.sent, h.know.parts,
      h.know.firstError⟩ haccounts ⟨h.ends.exited, h.ends.nonempty, ?_⟩, haccounts⟩
    intro r hr
    exact ⟨(Option.some.inj hr).symm, hp, hexited⟩

include hE hsealed in
lemma ThreadedInvariant.step (hstep : s.step a planned event = some t) :
    ThreadedInvariant a planned E t ∧ StepAccounts a planned event s t := by
  have hproducer : s.producerStep a planned event = some t →
      ThreadedInvariant a planned E t ∧ StepAccounts a planned event s t := by
    intro hmoves
    have hmoves := producerStep_moves hmoves
    have haccounts : StepAccounts a planned event s t := hmoves.accounts h.abort
    exact ⟨h.of_accounts (hmoves.knows hE hsealed h.know) haccounts (hmoves.ends h.ends), haccounts⟩
  have hworker : ∀ k, s.atWorker k event = some t →
      ThreadedInvariant a planned E t ∧ StepAccounts a planned event s t := by
    intro k hmoves
    obtain ⟨w, hw, hmoves⟩ := Option.bind_eq_some_iff.mp hmoves
    have hmoves := workerStep_moves hmoves
    have haccounts : StepAccounts a planned event s t := hmoves.accounts hw h.abort
    exact ⟨h.of_accounts (hmoves.knows hE hw h.know) haccounts (hmoves.ends hw h.ends), haccounts⟩
  cases event with
  | opened | prepare | producerLoads | pushed | met => exact hproducer hstep
  | locked k | received k | workerLoads k | put k | recorded k | abortStored k => exact hworker k hstep
  | joined => exact h.join hstep
  | next => cases hstep

lemma ThreadedInvariant.result (hplanned : planned.length = a.partUrls.length)
    {r : Except CliError (List PartInput)} (hr : s.result = some r) :
    (∃ e, r = .error e ∧ E e ∧ 0 < troubles s) ∨
      (r = .ok (sortParts s.parts) ∧ troubles s = 0 ∧ (s.parts.map PartInput.partNumber).Perm
        (planned.map Prod.fst)) := by
  obtain ⟨rfl, hproducer, hexited⟩ := h.ends.result r hr
  obtain ⟨w, hw⟩ := List.exists_mem_of_ne_nil _ h.ends.nonempty
  have hqueue : s.queue = [] := (h.ends.exited (hexited w hw ▸ hw)).2
  have hworkers : ∀ p : UploadWorker → Bool, p .exited = false → s.workers.countP p = 0 := by
    intro p hp
    rw [List.countP_eq_zero]
    intro w hw
    simp [hexited w hw, hp]
  cases hfirst : s.firstError with
  | some e =>
    have htrouble := troubles_pos_of_firstError (s := s) (by simp [hfirst])
    exact .inl ⟨e, by simp [outcome, hfirst], h.know.firstError e hfirst, htrouble⟩
  | none =>
    have hnone : troubles s = 0 :=
      by simp [troubles, hfirst, hproducer, producerFails, hqueue, hworkers workerFails rfl]
    have hperm : (s.parts.map PartInput.partNumber).Perm (planned.map Prod.fst) := by
      rw [List.perm_iff_count]
      intro n
      rw [← h.accounted hnone n]
      simp [copies, hproducer, producerCopies, hqueue, hworkers (workerHas n) rfl]
    have hlength : s.parts.length = a.partUrls.length := by
      have hlen := hperm.length_eq
      rw [List.length_map, List.length_map] at hlen
      exact hlen.trans hplanned
    exact .inr ⟨by simp [outcome, hfirst, hlength], hnone, hperm⟩

end

/-! ### The serial path -/

variable (a planned) in
/-- The plan is what is done and what is still to come. -/
def SerialPhaseKnows (done : List (I32 × String)) (E : CliError → Prop) (parts : List PartInput) :
    SerialPhase → Prop
  | .opening => done = []
  | .next rest => ∃ later, rest.mapM partFields = .ok later ∧ planned = done ++ later
  | .preparing part rest progress =>
    ∃ later, rest.mapM partFields = .ok later ∧ planned = done ++ part :: later ∧
      PreparingKnows a part.1 progress
  | .putting part envelope rest =>
    ∃ later, rest.mapM partFields = .ok later ∧ planned = done ++ part :: later ∧
      sealedPart a part.1 = .ok envelope
  | .finished r => (∃ e, r = .error e ∧ E e) ∨ (r = .ok (sortParts parts) ∧ planned = done)

variable (a planned E) in
structure SerialInvariant (s : SerialUpload) : Prop where
  sent : ∀ p ∈ s.sent, (p.partNumber, p.url) ∈ planned ∧ sealedPart a p.partNumber = .ok p.envelope
  parts : ∀ part ∈ s.parts, RecordedIn s.sent part
  phase : ∃ done, s.parts.map PartInput.partNumber = done.map Prod.fst ∧
    SerialPhaseKnows a planned done E s.parts s.phase

variable (hplanned : a.partUrls.mapM partFields = .ok planned)

include hE hsealed hplanned in
lemma SerialInvariant.step {s t : SerialUpload} (h : SerialInvariant a planned E s)
    (hstep : s.step a event = some t) :
    SerialInvariant a planned E t ∧ (eventError a event ≠ none → ∃ e, t.phase = .finished (.error e)) := by
  obtain ⟨hsent, hparts, done, hdone, hphase⟩ := h
  unfold SerialUpload.step at hstep
  split at hstep
  case h_1 hp =>
    cases hstep
    rw [hp] at hphase
    refine ⟨⟨hsent, hparts, done, hdone, planned, hplanned, ?_⟩, fun hne => absurd rfl hne⟩
    rw [show done = [] from hphase, List.nil_append]
  case h_2 e hp =>
    cases hstep
    exact ⟨⟨hsent, hparts, done, hdone, .inl ⟨_, rfl, hE _ rfl⟩⟩, fun _ => ⟨_, rfl⟩⟩
  case h_3 hp =>
    cases hstep
    rw [hp] at hphase
    obtain ⟨later, hlater, heq⟩ := hphase
    refine ⟨⟨hsent, hparts, done, hdone, .inr ⟨rfl, ?_⟩⟩, fun hne => absurd rfl hne⟩
    have hnil : [] = later := by simpa using hlater
    rw [heq, ← hnil, List.append_nil]
  case h_4 part rest hp =>
    rw [hp] at hphase
    obtain ⟨later, hlater, heq⟩ := hphase
    rw [mapM_ok] at hlater
    cases hlater with
    | cons hfields hrest =>
      rw [hfields] at hstep
      cases hstep
      exact ⟨⟨hsent, hparts, done, hdone, _, mapM_ok.mpr hrest, heq, trivial⟩, fun hne => absurd rfl hne⟩
  case h_5 part rest progress prepareEvent hp =>
    rw [hp] at hphase
    obtain ⟨later, hlater, heq, hprogress⟩ := hphase
    obtain ⟨outcome, hprepare, rfl⟩ := Option.map_eq_some_iff.mp hstep
    have hprepared := preparing_step hprogress hprepare
    have hpart : part ∈ planned := by simp [heq]
    match outcome with
    | .inl progress =>
      exact ⟨⟨hsent, hparts, done, hdone, later, hlater, heq, hprepared.2⟩, fun hne => absurd hprepared.1 hne⟩
    | .inr (.ok envelope) =>
      obtain ⟨hevent, hok⟩ | ⟨e, -, hbad⟩ := hprepared
      · exact ⟨⟨hsent, hparts, done, hdone, later, hlater, heq, hok.symm⟩, fun hne => absurd hevent hne⟩
      · cases hbad
    | .inr (.error e) =>
      have he : E e := by
        obtain ⟨-, hbad⟩ | ⟨e', he', hbad⟩ := hprepared
        · exact hsealed part hpart e hbad.symm
        · cases hbad
          exact hE e he'
      exact ⟨⟨hsent, hparts, done, hdone, .inl ⟨e, rfl, he⟩⟩, fun _ => ⟨e, rfl⟩⟩
  case h_6 part envelope rest etag hp =>
    cases hstep
    rw [hp] at hphase
    obtain ⟨later, hlater, heq, henvelope⟩ := hphase
    have hpart : part ∈ planned := by simp [heq]
    refine ⟨⟨?_, ?_, done ++ [part], ?_, later, hlater, ?_⟩, fun hne => absurd rfl hne⟩
    · intro p hmem
      obtain hold | rfl := List.mem_append.mp hmem |>.imp_right List.mem_singleton.mp
      · exact hsent p hold
      · exact ⟨hpart, henvelope⟩
    · intro p hmem
      obtain hold | rfl := List.mem_append.mp hmem |>.imp_right List.mem_singleton.mp
      · obtain ⟨q, hq, heq⟩ := hparts p hold
        exact ⟨q, List.mem_append_left _ hq, heq⟩
      · exact ⟨_, List.mem_append_right _ List.mem_cons_self, rfl, rfl⟩
    · simp [hdone]
    · simp [heq]
  case h_7 e hp =>
    cases hstep
    exact ⟨⟨hsent, hparts, done, hdone, .inl ⟨e, rfl, hE e rfl⟩⟩, fun _ => ⟨e, rfl⟩⟩
  case h_8 => cases hstep

lemma serial_not_stuck {s : SerialUpload} (hphase : ∀ r, s.phase ≠ .finished r) :
    ∃ event, (s.step a event).isSome := by
  cases hp : s.phase with
  | opening => exact ⟨.opened none, by simp [SerialUpload.step, hp]⟩
  | next rest =>
    refine ⟨.next, ?_⟩
    cases rest with
    | nil => simp [SerialUpload.step, hp]
    | cons part rest => cases hfields : partFields part <;> simp [SerialUpload.step, hp, hfields]
  | preparing part rest progress =>
    cases progress with
    | seeking => exact ⟨.prepare (.seeked none), by simp [SerialUpload.step, hp, Preparing.step]⟩
    | reading buf => exact ⟨.prepare (.read (.error "")), by simp [SerialUpload.step, hp, Preparing.step]⟩
  | putting part envelope rest => exact ⟨.put 0 (.ok ""), by simp [SerialUpload.step, hp]⟩
  | finished r => exact absurd hp (hphase r)

/-! ### Either path -/

variable (a planned E) in
def UploadInvariant : UploadParts → Prop
  | .serial s => SerialInvariant a planned E s
  | .threaded s => ThreadedInvariant a planned E s

def UploadFailed : UploadParts → Prop
  | .serial s => ∃ e, s.phase = .finished (.error e)
  | .threaded s => 0 < troubles s

section

variable {u v : UploadParts} {events : List UploadPartsEvent}

include hplanned in
lemma UploadInvariant.start : UploadInvariant a planned E (UploadParts.start a) := by
  unfold UploadParts.start
  split
  case isTrue => exact ⟨by simp, by simp, [], rfl, rfl⟩
  case isFalse =>
    rw [hplanned]
    exact ThreadedInvariant.start (by omega)

include hplanned in
lemma planned_eq : UploadParts.planned a = planned := by
  rw [UploadParts.planned, hplanned]
  rfl

section

variable (h : UploadInvariant a planned E u)

include h

include hE hsealed hplanned in
lemma UploadInvariant.step (hstep : u.step a event = some v) :
    UploadInvariant a planned E v ∧ (UploadFailed u ∨ eventError a event ≠ none → UploadFailed v) := by
  cases u with
  | serial s =>
    obtain ⟨t, hmoves, rfl⟩ := Option.map_eq_some_iff.mp hstep
    obtain ⟨hinv, hfails⟩ := SerialInvariant.step hE hsealed hplanned h hmoves
    refine ⟨hinv, ?_⟩
    rintro (⟨e, hp⟩ | hne)
    · simp [SerialUpload.step, hp] at hmoves
    · exact hfails hne
  | threaded s =>
    obtain ⟨t, hmoves, rfl⟩ := Option.map_eq_some_iff.mp hstep
    rw [planned_eq hplanned] at hmoves
    obtain ⟨hinv, haccounts⟩ := ThreadedInvariant.step hE hsealed h hmoves
    exact ⟨hinv, haccounts.troubled⟩

include hplanned in
lemma UploadInvariant.result {r : Except CliError (List PartInput)} (hr : u.result = some r) :
    (∃ e, r = .error e ∧ E e) ∨
      ¬ UploadFailed u ∧ ∃ parts, r = .ok (sortParts parts) ∧
        (parts.map PartInput.partNumber).Perm (planned.map Prod.fst) ∧
        ∀ part ∈ parts, RecordedIn u.sent part := by
  cases u with
  | serial s =>
    obtain ⟨-, hparts, done, hdone, hphase⟩ := h
    simp only [UploadParts.result] at hr
    cases hp : s.phase with
    | finished result =>
      rw [hp] at hr hphase
      cases hr
      refine hphase.imp id ?_
      rintro ⟨rfl, rfl⟩
      refine ⟨?_, s.parts, rfl, hdone ▸ .refl _, hparts⟩
      rintro ⟨e, he⟩
      rw [hp] at he
      cases he
    | opening | next | preparing | putting => simp [hp] at hr
  | threaded s =>
    have hlength : planned.length = a.partUrls.length := (mapM_ok.mp hplanned).length_eq.symm
    obtain ⟨e, he, hE, -⟩ | ⟨hok, hnone, hperm⟩ := ThreadedInvariant.result h hlength hr
    · exact .inl ⟨e, he, hE⟩
    · exact .inr ⟨fun hfailed => absurd hnone hfailed.ne', s.parts, hok, hperm, h.know.parts⟩

lemma UploadInvariant.sent :
    ∀ p ∈ u.sent, (p.partNumber, p.url) ∈ planned ∧ sealedPart a p.partNumber = .ok p.envelope := by
  cases u with
  | serial s => exact SerialInvariant.sent h
  | threaded s => exact h.know.sent

include hplanned in
lemma UploadInvariant.not_stuck (hresult : u.result = none) : ∃ event, (u.step a event).isSome := by
  cases u with
  | serial s =>
    have hphase : ∀ r, s.phase ≠ .finished r := by
      intro r hp
      simp [UploadParts.result, hp] at hresult
    obtain ⟨event, hsome⟩ := serial_not_stuck (a := a) hphase
    exact ⟨event, by simpa [UploadParts.step] using hsome⟩
  | threaded s =>
    obtain ⟨event, hsome⟩ := h.ends.not_stuck planned hresult
    exact ⟨event, by simpa [UploadParts.step, planned_eq hplanned] using hsome⟩

end

variable (a planned) in
/-- An error that one of the events brought, or the refusal of the cipher to seal a part. -/
def Occurred (events : List UploadPartsEvent) (e : CliError) : Prop :=
  (∃ event ∈ events, eventError a event = some e) ∨ ∃ part ∈ planned, sealedPart a part.1 = .error e

include hplanned in
lemma UploadInvariant.run (hrun : run (UploadParts.step a) (UploadParts.start a) events = some u) :
    UploadInvariant a planned (Occurred a planned events) u ∧
      ((∃ event ∈ events, eventError a event ≠ none) → UploadFailed u) := by
  have hstep : ∀ event ∈ events, ∀ x y, UploadInvariant a planned (Occurred a planned events) x →
      UploadParts.step a x event = some y → UploadInvariant a planned (Occurred a planned events) y ∧
        (UploadFailed x ∨ eventError a event ≠ none → UploadFailed y) := by
    intro event hevent x y hx hxy
    refine hx.step ?_ ?_ hplanned hxy
    · exact fun e he => .inl ⟨event, hevent, he⟩
    · exact fun part hpart e he => .inr ⟨part, hpart, he⟩
  have hreach : ∀ before x, before ⊆ events → Automaton.run (UploadParts.step a) (UploadParts.start a) before =
      some x → UploadInvariant a planned (Occurred a planned events) x :=
    fun before x hsub hbefore => Automaton.invariant _ (.start hplanned)
      (fun event hevent x y hx hxy => (hstep event (hsub hevent) x y hx hxy).1) hbefore
  refine ⟨hreach events u (List.Subset.refl _) hrun, ?_⟩
  rintro ⟨event, hevent, hne⟩
  obtain ⟨before, after, x, y, hsplit, hbefore, hxy, hafter⟩ := run_of_mem hevent hrun
  have hx := hreach before x (by simp [hsplit]) hbefore
  obtain ⟨hy, hfails⟩ := hstep event hevent x y hx hxy
  have hboth : UploadFailed u ∧ UploadInvariant a planned (Occurred a planned events) u := by
    refine Automaton.invariant
      (fun z => UploadFailed z ∧ UploadInvariant a planned (Occurred a planned events) z)
      ⟨hfails (.inr hne), hy⟩ ?_ hafter
    rintro later hlater z z' ⟨hz, hinv⟩ hzz
    obtain ⟨hinv', hkeeps⟩ := hstep later (by simp [hsplit, hlater]) z z' hinv hzz
    exact ⟨hkeeps (.inl hz), hinv'⟩
  exact hboth.1

/-! ### The sorted result -/

lemma sortParts_perm (parts : List PartInput) : (sortParts parts).Perm parts := List.mergeSort_perm _ _

lemma sortParts_pairwise {parts : List PartInput} (hnodup : (parts.map PartInput.partNumber).Nodup) :
    (sortParts parts).Pairwise fun p q => p.partNumber.1 < q.partNumber.1 := by
  have hsorted : (sortParts parts).Pairwise fun p q => decide (p.partNumber.1 ≤ q.partNumber.1) = true := by
    apply List.pairwise_mergeSort
    · intro p q r hpq hqr
      simp only [decide_eq_true_eq] at hpq hqr ⊢
      exact hpq.trans hqr
    · intro p q
      simp only [Bool.or_eq_true, decide_eq_true_eq]
      exact Int.le_total _ _
  have hdistinct : (sortParts parts).Pairwise fun p q => p.partNumber ≠ q.partNumber :=
    List.pairwise_map.mp (((sortParts_perm parts).map PartInput.partNumber).nodup_iff.mpr hnodup)
  refine (hsorted.and hdistinct).imp ?_
  rintro p q ⟨hle, hne⟩
  exact lt_of_le_of_ne (by simpa using hle) fun heq => hne (Subtype.ext heq)

lemma sortParts_congr {parts parts' : List PartInput} (hnodup : (parts.map PartInput.partNumber).Nodup)
    (hperm : parts.Perm parts') : sortParts parts = sortParts parts' := by
  have hnodup' : (parts'.map PartInput.partNumber).Nodup := (hperm.map _).nodup_iff.mp hnodup
  refine List.Perm.eq_of_pairwise ?_ (sortParts_pairwise hnodup) (sortParts_pairwise hnodup')
    ((sortParts_perm parts).trans (hperm.trans (sortParts_perm parts').symm))
  intro p q _ _ hpq hqp
  exact absurd hpq (not_lt_of_gt hqp)

lemma lookup_of_mem {url : String} (hdistinct : (planned.map Prod.fst).Nodup) (hpart : (n, url) ∈ planned) :
    planned.lookup n = some url := by
  induction planned with
  | nil => cases hpart
  | cons head tail ih =>
    obtain ⟨m, other⟩ := head
    rw [List.map_cons, List.nodup_cons] at hdistinct
    obtain heq | htail := List.mem_cons.mp hpart
    · simp only [Prod.mk.injEq] at heq
      simp [heq]
    · have hne : n ≠ m := fun heq => hdistinct.1 (List.mem_map.mpr ⟨_, htail, heq⟩)
      rw [List.lookup_cons, beq_eq_false_iff_ne.mpr hne]
      exact ih hdistinct.2 htail

variable (a planned) in
/-- The entry of a part when storage's ETag depends on the URL and the bytes only. -/
def plannedPart (etagOf : String → Bytes → String) (n : I32) : PartInput :=
  ⟨n, etagOf ((planned.lookup n).getD "") ((sealedPart a n).toOption.getD [])⟩

lemma UploadInvariant.result_eq (h : UploadInvariant a planned E u) (hdistinct : (planned.map Prod.fst).Nodup)
    {etagOf : String → Bytes → String} (hetag : ∀ p ∈ u.sent, p.etag = etagOf p.url p.envelope)
    {parts : List PartInput} (hperm : (parts.map PartInput.partNumber).Perm (planned.map Prod.fst))
    (hparts : ∀ part ∈ parts, RecordedIn u.sent part) :
    sortParts parts = sortParts ((planned.map Prod.fst).map (plannedPart a planned etagOf)) := by
  have hentry : ∀ part ∈ parts, plannedPart a planned etagOf part.partNumber = part := by
    intro part hpart
    obtain ⟨p, hp, hnumber, hpetag⟩ := hparts part hpart
    obtain ⟨hmem, hsealed⟩ := h.sent p hp
    obtain ⟨number, etag⟩ := part
    obtain rfl : p.partNumber = number := hnumber
    obtain rfl : p.etag = etag := hpetag
    simp [plannedPart, lookup_of_mem hdistinct hmem, hsealed, hetag p hp, Except.toOption]
  have heq : (parts.map PartInput.partNumber).map (plannedPart a planned etagOf) = parts := by
    rw [List.map_map]
    exact (List.map_congr_left hentry).trans (List.map_id' parts)
  apply sortParts_congr (hperm.nodup_iff.mpr hdistinct)
  nth_rewrite 1 [← heq]
  exact hperm.map _

end

variable (a n) in
/-- The envelope is sealed from the part's own chunk of the file, under its own index. -/
def OwnEnvelope (envelope : Bytes) : Prop :=
  ∃ index : U32, (index.val : ℤ) + 1 = n.1 ∧
    sealChunk a.crypto a.dek a.fileId index a.chunkCount
      ((a.file.drop (index.val * a.chunkSize)).take a.chunkSize) = .ok envelope

lemma ownEnvelope_of_sealedPart {envelope : Bytes} (hn : 1 ≤ n.1) (h : sealedPart a n = .ok envelope) :
    OwnEnvelope a n envelope := by
  refine ⟨partIndex n, ?_, ?_⟩
  · have hlt := n.2.2
    simp only [partIndex]
    omega
  · simpa [sealedPart, sealPart, unread] using h

/-! ### A sample upload -/

def samplePartUrl (n : U64) (url : String) : Json :=
  .object [("part_number", .number (.posInt n)), ("url", .string url)]

def sampleUpload (prepareAhead concurrency : ℕ) : UploadPartsArgs :=
  ⟨"in", [1, 2, 3, 4], sampleCrypto, .replicate 32 3, .replicate 16 4, 3, 2,
    [samplePartUrl 1 "u1", samplePartUrl 2 "u2"], prepareAhead, concurrency⟩

def samplePlan : List (I32 × String) := [(1, "u1"), (2, "u2")]

def sampleThreadedEvents : List UploadPartsEvent :=
  [.opened none, .producerLoads false, .prepare (.seeked none), .prepare (.read (.ok 3)), .locked 0, .met 0,
    .producerLoads false, .prepare (.seeked none), .prepare (.read (.ok 1)), .prepare (.read (.ok 0)),
    .locked 1, .met 1, .producerLoads false, .workerLoads 1 false, .put 1 (.ok "e2"), .recorded 1, .workerLoads
    0 false, .put 0 (.ok "e1"), .recorded 0, .locked 0, .received 0, .locked 1, .received 1, .joined]

def sampleSerialEvents : List UploadPartsEvent :=
  [.opened none, .next, .prepare (.seeked none), .prepare (.read (.ok 3)), .put 0 (.ok "e1"), .next,
    .prepare (.seeked none), .prepare (.read (.ok 1)), .prepare (.read (.ok 0)), .put 0 (.ok "e2"), .next]

lemma sample_not_occurred {prepareAhead concurrency : ℕ} {events : List UploadPartsEvent}
    (hevents : ∀ event ∈ events, eventError (sampleUpload prepareAhead concurrency) event = none)
    (e : CliError) : ¬ Occurred (sampleUpload prepareAhead concurrency) samplePlan events e := by
  rintro (⟨event, hevent, herror⟩ | ⟨part, hpart, hsealed⟩)
  · rw [hevents event hevent] at herror
    cases herror
  · obtain rfl | rfl : part = (1, "u1") ∨ part = (2, "u2") := by simpa [samplePlan] using hpart
    all_goals cases hsealed

/-- Whatever the threads' order, the disk and storage do: a result `Ok` has each planned part once,
in increasing order, with the ETag of its own envelope; after a failure the result is an error
that occurred; no state without a result is stuck; and two runs in which nothing fails, with any
two numbers of workers and of prepared parts, return the same parts from the same storage. -/
theorem upload_parts_delivers (a : UploadPartsArgs) (planned : List (I32 × String))
    (hplanned : a.partUrls.mapM partFields = .ok planned) (hdistinct : (planned.map Prod.fst).Nodup)
    (hrange : ∀ part ∈ planned, 1 ≤ part.1.1) (events : List UploadPartsEvent) (t : UploadParts)
    (hrun : run (UploadParts.step a) (UploadParts.start a) events = some t) :
    (∀ parts, t.result = some (.ok parts) →
      parts.Pairwise (fun p q => p.partNumber.1 < q.partNumber.1) ∧
      (parts.map PartInput.partNumber).Perm (planned.map Prod.fst) ∧
      ∀ part ∈ parts, ∃ p ∈ t.sent, p.partNumber = part.partNumber ∧ p.etag = part.etag ∧
        (p.partNumber, p.url) ∈ planned ∧ OwnEnvelope a p.partNumber p.envelope) ∧
    ((∃ event ∈ events, eventError a event ≠ none) → ∀ parts, t.result ≠ some (.ok parts)) ∧
    (∀ e, t.result = some (.error e) → Occurred a planned events e) ∧
    (t.result = none → ∃ event, (t.step a event).isSome) ∧
    ∀ (prepareAhead concurrency : ℕ) (events' : List UploadPartsEvent) (t' : UploadParts)
      (etagOf : String → Bytes → String),
      let a' := { a with prepareAhead := prepareAhead, concurrency := concurrency }
      run (UploadParts.step a') (UploadParts.start a') events' = some t' →
      (∀ e, ¬ Occurred a planned events e) → (∀ e, ¬ Occurred a' planned events' e) →
      (∀ p ∈ t.sent ++ t'.sent, p.etag = etagOf p.url p.envelope) → t.result ≠ none → t'.result ≠ none →
      ∃ parts, t.result = some (.ok parts) ∧ t'.result = some (.ok parts) := by
  obtain ⟨hinv, hfailed⟩ := UploadInvariant.run hplanned hrun
  refine ⟨?_, ?_, ?_, hinv.not_stuck hplanned, ?_⟩
  · intro parts hresult
    obtain ⟨e, he, -⟩ | ⟨-, recorded, hparts, hperm, hrecorded⟩ := hinv.result hplanned hresult
    · cases he
    · obtain rfl : parts = sortParts recorded := Except.ok.inj hparts
      have hsorted := sortParts_perm recorded
      refine ⟨sortParts_pairwise (hperm.nodup_iff.mpr hdistinct), (hsorted.map _).trans hperm, ?_⟩
      intro part hpart
      obtain ⟨p, hp, hnumber, hetag⟩ := hrecorded part (hsorted.mem_iff.mp hpart)
      obtain ⟨hmem, hsealed⟩ := hinv.sent p hp
      exact ⟨p, hp, hnumber, hetag, hmem, ownEnvelope_of_sealedPart (hrange _ hmem) hsealed⟩
  · intro herror parts hresult
    obtain ⟨e, he, -⟩ | ⟨hnot, -⟩ := hinv.result hplanned hresult
    · cases he
    · exact hnot (hfailed herror)
  · intro e hresult
    obtain ⟨e', he, hoccurred⟩ | ⟨-, recorded, hparts, -⟩ := hinv.result hplanned hresult
    · cases he
      exact hoccurred
    · cases hparts
  · intro prepareAhead concurrency events' t' etagOf a' hrun' hclean hclean' hetag hdone hdone'
    have hplanned' : a'.partUrls.mapM partFields = .ok planned := hplanned
    obtain ⟨hinv', -⟩ := UploadInvariant.run hplanned' hrun'
    obtain ⟨r, hr⟩ := Option.ne_none_iff_exists'.mp hdone
    obtain ⟨r', hr'⟩ := Option.ne_none_iff_exists'.mp hdone'
    obtain ⟨e, -, he⟩ | ⟨-, recorded, rfl, hperm, hrecorded⟩ := hinv.result hplanned hr
    · exact absurd he (hclean e)
    obtain ⟨e, -, he⟩ | ⟨-, recorded', rfl, hperm', hrecorded'⟩ := hinv'.result hplanned' hr'
    · exact absurd he (hclean' e)
    refine ⟨_, hr, ?_⟩
    rw [hr', hinv.result_eq hdistinct (fun p hp => hetag p (List.mem_append_left _ hp)) hperm hrecorded,
      hinv'.result_eq hdistinct (fun p hp => hetag p (List.mem_append_right _ hp)) hperm' hrecorded']
    rfl

theorem upload_parts_delivers_two_parts :
    ∃ t t' parts, run (UploadParts.step (sampleUpload 1 2)) (UploadParts.start (sampleUpload 1 2))
      sampleThreadedEvents = some t ∧
      run (UploadParts.step (sampleUpload 0 1)) (UploadParts.start (sampleUpload 0 1)) sampleSerialEvents =
      some t' ∧ t.result = some (.ok parts) ∧ t'.result = some (.ok parts) ∧
      parts.Pairwise (fun p q => p.partNumber.1 < q.partNumber.1) ∧
      (parts.map PartInput.partNumber).Perm (samplePlan.map Prod.fst) := by
  obtain ⟨t, hrun, hresult, hsent⟩ : ∃ t, run (UploadParts.step (sampleUpload 1 2))
      (UploadParts.start (sampleUpload 1 2)) sampleThreadedEvents = some t ∧ t.result.isSome ∧
      ∀ p ∈ t.sent, p.etag = if p.url = "u1" then "e1" else "e2" :=
    ⟨_, rfl, rfl, by decide⟩
  obtain ⟨t', hrun', hresult', hsent'⟩ : ∃ t, run (UploadParts.step (sampleUpload 0 1))
      (UploadParts.start (sampleUpload 0 1)) sampleSerialEvents = some t ∧ t.result.isSome ∧
      ∀ p ∈ t.sent, p.etag = if p.url = "u1" then "e1" else "e2" :=
    ⟨_, rfl, rfl, by decide⟩
  obtain ⟨hok, -, -, -, hsame⟩ := upload_parts_delivers (sampleUpload 1 2) samplePlan rfl
    (by decide) (by decide) sampleThreadedEvents t hrun
  obtain ⟨parts, hparts, hparts'⟩ :=
    hsame 0 1 sampleSerialEvents t' (fun url _ => if url = "u1" then "e1" else "e2") hrun'
      (sample_not_occurred (by simp [sampleThreadedEvents, eventError, PrepareEvent.error]))
    (sample_not_occurred (by simp [sampleSerialEvents, eventError, PrepareEvent.error]))
    (by
      intro p hp
      obtain hp | hp := List.mem_append.mp hp
      · exact hsent p hp
      · exact hsent' p hp)
    (Option.isSome_iff_ne_none.mp hresult) (Option.isSome_iff_ne_none.mp hresult')
  obtain ⟨hsorted, hperm, -⟩ := hok parts hparts
  exact ⟨t, t', parts, hrun, hrun', hparts, hparts', hsorted, hperm⟩

end SignetDrive.Proofs
