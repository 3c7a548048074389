import SignetDrive.Model.Download
import SignetDrive.Proofs.Chunks
import SignetDrive.Proofs.Envelope

/-!
# What a finished download has written
-/

namespace SignetDrive.Proofs
open Client PositionedWrite Automaton Download

section

variable (a : DownloadArgs) (n : U32) (parts : ℕ → Bytes)

/-- The chunk is one of the file's, and is opened as the last exactly if it is. -/
def Opened (i : ℕ) : Prop :=
  i < a.plan.chunkCount.val ∧ i < n.val ∧ (i + 1 = a.plan.chunkCount.val ↔ i + 1 = n.val)

def IsPiece (w : ℕ × Bytes) : Prop :=
  ∃ i offset k, Opened a n i ∧ chunkOffset a.profile a.plan.plainStride i = some offset ∧ w.1 = offset.val + k ∧
    w.2 ≠ [] ∧ w.2 <+: (parts i).drop k ∧ w.1 + w.2.length < 2 ^ 63

def WrittenTo (writes : List (ℕ × Bytes)) (i len : ℕ) : Prop :=
  Opened a n i ∧ ∃ offset, chunkOffset a.profile a.plan.plainStride i = some offset ∧
    ∀ j < len, Covered writes (offset.val + j)

def WorkerKnows (writes : List (ℕ × Bytes)) : DownloadWorker → Prop
  | .fetching index _ => index < a.plan.chunkCount.val
  | .writing index _ offset rest =>
    ∃ k start, chunkOffset a.profile a.plan.plainStride index = some start ∧ offset = start.val + k ∧
      rest = (parts index).drop k ∧ k ≤ (parts index).length ∧ WrittenTo a n writes index k
  | _ => True

def PhaseKnows (writes : List (ℕ × Bytes)) (completed : ℕ → Bool) : DownloadPhase → Prop
  | .running g =>
    (∀ r ∈ g.pending, r.1 < a.plan.chunkCount.val) ∧ ∀ w ∈ g.workers, WorkerKnows a n parts writes w
  | .assembled => ∀ i < a.plan.chunkCount.val, completed i = true
  | .renaming => ∀ i < a.plan.chunkCount.val, completed i = true
  | _ => True

/-- The file is made of pieces, and a completed chunk is there whole. -/
structure DownloadInvariant (writes : List (ℕ × Bytes)) (s : Download) : Prop where
  file : s.file = writeAll writes []
  pieces : ∀ w ∈ writes, IsPiece a n parts w
  completed : ∀ i, s.completed i = true → WrittenTo a n writes i (parts i).length
  phase : PhaseKnows a n parts writes s.completed s.phase
  out : ∀ bytes, s.out = some bytes → (∃ result, s.phase = .finished result) ∧ bytes = s.file ∧
    ∀ i < a.plan.chunkCount.val, s.completed i = true

end

variable {a : DownloadArgs} {n : U32} {parts : ℕ → Bytes} {writes writes' : List (ℕ × Bytes)} {s : Download}
  {g : Generation} {k : ℕ}

/-! ### More writes -/

variable {i : ℕ} {w : DownloadWorker} {s' : Download} {range : U64 × U64} {profile : Profile}

lemma WrittenTo.mono {len : ℕ} (h : WrittenTo a n writes i len) (hsub : writes ⊆ writes') :
    WrittenTo a n writes' i len := by
  obtain ⟨hopened, offset, hoffset, hcovered⟩ := h
  refine ⟨hopened, offset, hoffset, ?_⟩
  intro j hj
  obtain ⟨w, hw, hmem⟩ := hcovered j hj
  exact ⟨w, hsub hw, hmem⟩

lemma WorkerKnows.mono (h : WorkerKnows a n parts writes w) (hsub : writes ⊆ writes') :
    WorkerKnows a n parts writes' w := by
  cases w with
  | writing index len offset rest =>
    obtain ⟨k, start, hstart, hoffset, hrest, hk, hwritten⟩ := h
    exact ⟨k, start, hstart, hoffset, hrest, hk, hwritten.mono hsub⟩
  | _ => exact h

/-! ### One step -/

namespace DownloadInvariant

section

variable (h : DownloadInvariant a n parts writes s)

include h

lemma out_eq_none (hphase : ∀ result, s.phase ≠ .finished result) :
    s.out = none := by
  cases hout : s.out with
  | none => rfl
  | some bytes =>
    obtain ⟨⟨result, hresult⟩, -⟩ := h.out bytes hout
    exact absurd hresult (hphase result)

lemma withPhase (hphase : ∀ result, s.phase ≠ .finished result) (hfile : s'.file = s.file)
    (hcompleted : s'.completed = s.completed) (hout : s'.out = s.out)
    (hknows : PhaseKnows a n parts writes s.completed s'.phase) :
    DownloadInvariant a n parts writes s' where
  file := by rw [hfile, h.file]
  pieces := h.pieces
  completed := by rw [hcompleted]; exact h.completed
  phase := by rw [hcompleted]; exact hknows
  out := by
    intro bytes hbytes
    rw [hout, h.out_eq_none hphase] at hbytes
    cases hbytes

lemma setWorker (hphase : s.phase = .running g) (hw : WorkerKnows a n parts writes w)
    (doneBefore cursor : ℕ) (abort : Bool) (firstErr : Option CliError) :
    DownloadInvariant a n parts writes
      (s.running ⟨g.pending, doneBefore, cursor, abort, firstErr, g.workers.set k w⟩) := by
  have hknows := h.phase
  rw [hphase] at hknows
  refine h.withPhase (by simp [hphase]) rfl rfl rfl ⟨hknows.1, ?_⟩
  intro v hv
  rcases List.mem_or_eq_of_mem_set hv with hv | rfl
  · exact hknows.2 v hv
  · exact hw

end

end DownloadInvariant

lemma openFetched_knows {envelope : Bytes} (hi : i < a.plan.chunkCount.val)
    (hunforged : ∀ j, EnvelopeUnforged a.crypto a.dek a.fileId
      (chunkSeals a.crypto a.dek a.fileId n fun j => parts j.val) j envelope) :
    WorkerKnows a n parts writes (openFetched a i envelope) := by
  have hindex : (indexAsU32 i).val = i := val_indexAsU32 (hi.trans a.plan.chunkCount.isLt)
  unfold openFetched
  generalize hopen : openChunk a.crypto a.dek a.fileId (indexAsU32 i) a.plan.chunkCount envelope = opened
  generalize hoffset : chunkOffset a.profile a.plan.plainStride i = place
  match opened, place with
  | .error e, _ => trivial
  | .ok plaintext, none => trivial
  | .ok plaintext, some offset =>
    obtain ⟨hlt, hlast, hplaintext⟩ := openChunk_unforged (hunforged _) hopen
    rw [Fin.lt_def, hindex] at hlt
    rw [hindex] at hlast hplaintext
    have hwritten : WrittenTo a n writes i 0 :=
      ⟨⟨hi, hlt, hlast⟩, offset, hoffset, fun j hj => absurd hj j.not_lt_zero⟩
    exact ⟨0, offset, hoffset, (Nat.add_zero _).symm, hplaintext, Nat.zero_le _, hwritten⟩

lemma mem_indexed (h : (i, range) ∈ indexed a) : i < a.plan.ranges.length := by
  obtain ⟨r, hr, heq⟩ := List.mem_map.mp h
  obtain ⟨-, hlt, -⟩ := List.mem_zipIdx hr
  rw [Nat.zero_add] at hlt
  rw [Prod.mk.injEq] at heq
  omega

lemma exists_mem_indexed (h : i < a.plan.ranges.length) : ∃ range, (i, range) ∈ indexed a := by
  refine ⟨a.plan.ranges[i], List.mem_map.mpr ⟨(a.plan.ranges[i], i), ?_, rfl⟩⟩
  rw [List.mk_mem_zipIdx_iff_getElem?, List.getElem?_eq_getElem h]

namespace DownloadInvariant

variable (h : DownloadInvariant a n parts writes s)

include h

lemma nextGeneration (hranges : a.plan.ranges.length = a.plan.chunkCount.val) (hphase : s.phase = .planning) :
    DownloadInvariant a n parts writes (s.nextGeneration a) := by
  have hnot : ∀ result, s.phase ≠ .finished result := by simp [hphase]
  unfold Download.nextGeneration
  simp only
  split
  case isTrue hempty =>
    refine h.withPhase hnot rfl rfl rfl ?_
    intro i hi
    obtain ⟨range, hmem⟩ := exists_mem_indexed (a := a) (by rw [hranges]; exact hi)
    have hdone := List.filter_eq_nil_iff.mp (List.isEmpty_iff.mp hempty) _ hmem
    simpa using hdone
  case isFalse hsome =>
    refine h.withPhase hnot rfl rfl rfl ⟨?_, ?_⟩
    · rintro ⟨i, range⟩ hr
      rw [← hranges]
      exact mem_indexed (List.mem_filter.mp hr).1
    · intro w hw
      rw [List.eq_of_mem_replicate hw]
      trivial

variable {s' : Download} {w : DownloadWorker}

lemma join (hphase : s.phase = .running g) (hjoin : s.join g = some s') :
    DownloadInvariant a n parts writes s' := by
  have hnot : ∀ result, s.phase ≠ .finished result := by simp [hphase]
  unfold Download.join at hjoin
  split at hjoin
  case isFalse => cases hjoin
  case isTrue =>
    split at hjoin
    case h_1 =>
      cases hjoin
      exact h.withPhase hnot rfl rfl rfl trivial
    case h_2 e he =>
      simp only at hjoin
      split at hjoin
      · split at hjoin
        · cases hjoin
          exact h.withPhase hnot rfl rfl rfl trivial
        · cases hjoin
          exact h.withPhase hnot rfl rfl rfl trivial
      · cases hjoin
        exact h.withPhase hnot rfl rfl rfl trivial

lemma assertComplete (hphase : s.phase = .assembled) :
    DownloadInvariant a n parts writes (s.assertComplete a) := by
  have hnot : ∀ result, s.phase ≠ .finished result := by simp [hphase]
  have hall := h.phase
  rw [hphase] at hall
  unfold Download.assertComplete
  split
  · exact h.withPhase hnot rfl rfl rfl hall
  · exact h.withPhase hnot rfl rfl rfl trivial

lemma refresh (hphase : s.phase = .refreshing) (answer : Except CliError Json) :
    DownloadInvariant a n parts writes (s.refresh answer) := by
  have hnot : ∀ result, s.phase ≠ .finished result := by simp [hphase]
  unfold Download.refresh
  split
  · exact h.withPhase hnot rfl rfl rfl trivial
  · split
    · exact h.withPhase hnot rfl rfl rfl trivial
    · exact h.withPhase hnot rfl rfl rfl trivial

lemma rename (hphase : s.phase = .renaming) (error : Option String) :
    DownloadInvariant a n parts writes (s.rename a error) := by
  have hall := h.phase
  rw [hphase] at hall
  cases error with
  | some e => exact h.withPhase (by simp [hphase]) rfl rfl rfl trivial
  | none =>
    refine ⟨h.file, h.pieces, h.completed, trivial, ?_⟩
    intro bytes hbytes
    exact ⟨⟨_, rfl⟩, (Option.some.inj hbytes).symm, hall⟩

section

variable (hphase : s.phase = .running g)

include hphase

lemma complete {len offset : ℕ} (hw : .writing i len offset [] ∈ g.workers) (written done : ℕ) :
    DownloadInvariant a n parts writes (running { s with
      completed := Function.update s.completed i true, written := written, done := done }
          (g.setWorker k .checking)) := by
  have hknows := h.phase
  rw [hphase] at hknows
  obtain ⟨k', start, hstart, -, hrest, hle, hwritten⟩ := hknows.2 _ hw
  have hk : k' = (parts i).length := hle.antisymm (List.drop_eq_nil_iff.mp hrest.symm)
  rw [hk] at hwritten
  have hout : s.out = none := h.out_eq_none (by simp [hphase])
  refine ⟨h.file, h.pieces, ?_, ⟨hknows.1, ?_⟩, ?_⟩
  · intro j hj
    by_cases hij : j = i
    · rw [hij]
      exact hwritten
    · have hj : Function.update s.completed i true j = true := hj
      rw [Function.update_of_ne hij] at hj
      exact h.completed j hj
  · intro v hv
    rcases List.mem_or_eq_of_mem_set hv with hv | rfl
    · exact hknows.2 v hv
    · trivial
  · intro bytes hbytes
    rw [running, hout] at hbytes
    cases hbytes

lemma advance (hw : w ∈ g.workers)
    (hadvance : s.advance g k w = some s') : DownloadInvariant a n parts writes s' := by
  have hknows := h.phase
  rw [hphase] at hknows
  cases w with
  | checking =>
    cases hadvance
    refine h.setWorker hphase ?_ _ _ _ _
    split <;> trivial
  | taking =>
    simp only [advance] at hadvance
    split at hadvance
    case h_1 i range hget =>
      cases hadvance
      refine h.setWorker hphase ?_ _ _ _ _
      exact hknows.1 _ (List.mem_of_getElem? hget)
    case h_2 =>
      cases hadvance
      refine h.setWorker hphase ?_ _ _ _ _
      trivial
  | fetching i range => cases hadvance
  | writing i len offset rest =>
    cases rest with
    | nil =>
      cases hadvance
      exact h.complete hphase hw _ _
    | cons b rest => cases hadvance
  | failing | aborting =>
    cases hadvance
    refine h.setWorker hphase ?_ _ _ _ _
    trivial
  | exited => cases hadvance

lemma fetched {answer : Option (Except CliError Bytes)}
    (hw : w ∈ g.workers)
    (hunforged : ∀ envelope, answer = some (.ok envelope) → ∀ j, EnvelopeUnforged a.crypto a.dek a.fileId
      (chunkSeals a.crypto a.dek a.fileId n fun j => parts j.val) j envelope)
    (hfetched : s.fetched a g k answer w = some s') : DownloadInvariant a n parts writes s' := by
  have hknows := h.phase
  rw [hphase] at hknows
  cases w with
  | fetching i range =>
    cases hfetched
    refine h.setWorker hphase ?_ _ _ _ _
    match answer with
    | none => trivial
    | some (.error e) => trivial
    | some (.ok envelope) => exact openFetched_knows (hknows.2 _ hw) (hunforged envelope rfl)
  | _ => cases hfetched

lemma writeFailed {message : String}
    (hfailed : s.writeFailed g k message w = some s') : DownloadInvariant a n parts writes s' := by
  cases w with
  | writing i len offset rest =>
    cases hfailed
    refine h.setWorker hphase ?_ _ _ _ _
    trivial
  | _ => cases hfailed

lemma wrote {count : ℕ} (hw : w ∈ g.workers)
    (hwrote : s.wrote g k count w = some s') : ∃ writes', DownloadInvariant a n parts writes' s' := by
  have hknows := h.phase
  rw [hphase] at hknows
  cases w with
  | writing i len offset rest =>
    obtain ⟨done, start, hstart, rfl, rfl, hdone, hopened, start', hstart', hcovered⟩ := hknows.2 _ hw
    rw [hstart, Option.some.injEq] at hstart'
    subst hstart'
    simp only [wrote] at hwrote
    split at hwrote
    case isFalse => cases hwrote
    case isTrue hcount =>
      obtain ⟨hpos, hle, hlt⟩ := hcount
      rw [List.length_drop] at hle
      have hlength : (((parts i).drop done).take count).length = count := by
        rw [List.length_take, List.length_drop]
        omega
      have hsub : writes ⊆ writes ++ [(start.val + done, ((parts i).drop done).take count)] :=
        List.subset_append_left _ _
      have hout : s.out = none := h.out_eq_none (by simp [hphase])
      cases hwrote
      refine ⟨writes ++ [(start.val + done, ((parts i).drop done).take count)], ?_, ?_, ?_, ⟨hknows.1, ?_⟩, ?_⟩
      · rw [writeAll_concat, ← h.file]
        rfl
      · intro w hw
        rcases List.mem_append.mp hw with hw | hw
        · exact h.pieces w hw
        · rw [List.mem_singleton] at hw
          subst hw
          refine ⟨i, start, done, hopened, hstart, rfl, ?_, List.take_prefix _ _, ?_⟩
          · rw [← List.length_pos_iff, hlength]
            exact hpos
          · simp only [hlength]
            exact hlt
      · intro j hj
        exact (h.completed j hj).mono hsub
      · intro v hv
        rcases List.mem_or_eq_of_mem_set hv with hv | rfl
        · exact (hknows.2 v hv).mono hsub
        · refine ⟨done + count, start, hstart, Nat.add_assoc _ _ _, List.drop_drop.trans (by rfl),
            by omega, hopened, start, hstart, ?_⟩
          intro j hj
          by_cases hbefore : j < done
          · obtain ⟨w, hw, hmem⟩ := hcovered j hbefore
            exact ⟨w, hsub hw, hmem⟩
          · refine ⟨_, List.mem_append_right _ (List.mem_singleton_self _), ?_⟩
            simp only [hlength]
            omega
      · intro bytes hbytes
        rw [running, hout] at hbytes
        cases hbytes
  | _ => cases hwrote

end

end DownloadInvariant

lemma atWorker_eq_some {f : Generation → DownloadWorker → Option Download} (h : s.atWorker k f = some s') :
    ∃ g w, s.phase = .running g ∧ g.workers[k]? = some w ∧ f g w = some s' := by
  unfold atWorker at h
  split at h
  case h_1 g hphase =>
    obtain ⟨w, hw, hf⟩ := Option.bind_eq_some_iff.mp h
    exact ⟨g, w, hphase, hw, hf⟩
  case h_2 => cases h

/-- What the storage answers is no forgery under the key of the file. -/
def EventUnforged (a : DownloadArgs) (n : U32) (parts : ℕ → Bytes) (e : DownloadEvent) : Prop :=
  ∀ k envelope, e = .storage k (some (.ok envelope)) → ∀ j, EnvelopeUnforged a.crypto a.dek a.fileId
    (chunkSeals a.crypto a.dek a.fileId n fun j => parts j.val) j envelope

theorem DownloadInvariant.step (h : DownloadInvariant a n parts writes s) {e : DownloadEvent}
    (hranges : a.plan.ranges.length = a.plan.chunkCount.val) (hunforged : EventUnforged a n parts e)
    (hstep : s.step a e = some s') : ∃ writes', DownloadInvariant a n parts writes' s' := by
  cases e with
  | main =>
    simp only [Download.step] at hstep
    split at hstep
    case h_1 hphase =>
      cases hstep
      exact ⟨writes, h.nextGeneration hranges hphase⟩
    case h_2 g hphase => exact ⟨writes, h.join hphase hstep⟩
    case h_3 hphase =>
      cases hstep
      exact ⟨writes, h.assertComplete hphase⟩
    case h_4 => cases hstep
  | worker k =>
    obtain ⟨g, w, hphase, hw, hadvance⟩ := atWorker_eq_some hstep
    exact ⟨writes, h.advance hphase (List.mem_of_getElem? hw) hadvance⟩
  | storage k answer =>
    obtain ⟨g, w, hphase, hw, hfetched⟩ := atWorker_eq_some hstep
    exact ⟨writes, h.fetched hphase (List.mem_of_getElem? hw)
      (fun envelope hanswer => hunforged k envelope (by rw [hanswer])) hfetched⟩
  | wrote k count =>
    obtain ⟨g, w, hphase, hw, hwrote⟩ := atWorker_eq_some hstep
    exact h.wrote hphase (List.mem_of_getElem? hw) hwrote
  | writeFailed k message =>
    obtain ⟨g, w, hphase, -, hfailed⟩ := atWorker_eq_some hstep
    exact ⟨writes, h.writeFailed hphase hfailed⟩
  | refreshed answer =>
    simp only [Download.step] at hstep
    split at hstep
    case h_1 hphase =>
      cases hstep
      exact ⟨writes, h.refresh hphase answer⟩
    case h_2 => cases hstep
  | renamed error =>
    simp only [Download.step] at hstep
    split at hstep
    case h_1 hphase =>
      cases hstep
      exact ⟨writes, h.rename hphase error⟩
    case h_2 => cases hstep

/-- What a finished download has written: pieces of the file's chunks, and every chunk of the
count whole. -/
theorem download_writes {url : String} {events : List DownloadEvent} {output : Bytes}
    (hranges : a.plan.ranges.length = a.plan.chunkCount.val)
    (hunforged : ∀ e ∈ events, EventUnforged a n parts e)
    (hrun : run (Download.step a) (start url) events = some s) (hout : s.out = some output) :
    ∃ writes, output = writeAll writes [] ∧ (∀ w ∈ writes, IsPiece a n parts w) ∧
      ∀ i < a.plan.chunkCount.val, WrittenTo a n writes i (parts i).length := by
  have hstart : ∃ writes, DownloadInvariant a n parts writes (start url) := by
    refine ⟨[], rfl, ?_, ?_, trivial, ?_⟩
    · intro w hw
      cases hw
    · intro i hi
      cases hi
    · intro bytes hbytes
      cases hbytes
  obtain ⟨writes, h⟩ := invariant (fun s => ∃ writes, DownloadInvariant a n parts writes s) hstart
    (fun e he u v ⟨writes, h⟩ hstep => h.step hranges (hunforged e he) hstep) hrun
  obtain ⟨-, hfile, hall⟩ := h.out output hout
  exact ⟨writes, hfile.trans h.file, h.pieces, fun i hi => h.completed i (hall i hi)⟩

/-! ### Where the chunks are -/

lemma chunkOffset_exact {stride offset : U64} (hlt : i * stride.val < 2 ^ 64)
    (h : chunkOffset profile stride i = some offset) : offset.val = i * stride.val := by
  obtain ⟨exact, hexact, hval⟩ := profile.exists_u64 hlt
  rw [chunkOffset, hexact, Option.some.injEq] at h
  rw [← h, hval]

lemma chunkOffset_of_all {stride : U64} {count : ℕ} (hstride : stride.val < 2 ^ 63)
    (hall : ∀ i < count, ∃ offset, chunkOffset profile stride i = some offset ∧ offset.val < 2 ^ 63) :
    ∀ i < count, i * stride.val < 2 ^ 63 := by
  intro i hi
  induction i with
  | zero => simp
  | succ i ih =>
    have hbefore := ih (by omega)
    obtain ⟨offset, hoffset, hlt⟩ := hall (i + 1) hi
    have hexact := chunkOffset_exact (by rw [Nat.succ_mul]; omega) hoffset
    omega

section

variable {plaintext : Bytes} {c : ℕ}

lemma WrittenTo.offset_lt {len : ℕ} (h : WrittenTo a n writes i len) (hlen : 0 < len)
    (hpieces : ∀ w ∈ writes, IsPiece a n parts w) :
    ∃ offset, chunkOffset a.profile a.plan.plainStride i = some offset ∧ offset.val < 2 ^ 63 := by
  obtain ⟨-, offset, hoffset, hcovered⟩ := h
  obtain ⟨w, hw, hlow, hhigh⟩ := hcovered 0 hlen
  obtain ⟨-, -, -, -, -, -, -, -, hlt⟩ := hpieces w hw
  exact ⟨offset, hoffset, by omega⟩

lemma length_block_pos (hc : 0 < c) (hi : i < chunkCount plaintext.length c) (hsome : 0 < plaintext.length) :
    0 < (block c plaintext i).length := by
  have hlt := chunkCount_pred_mul_lt hc hsome
  have hle := Nat.mul_le_mul_right c (show i ≤ chunkCount plaintext.length c - 1 by omega)
  rw [length_block]
  omega

lemma writeAll_pieces_eq (hc : 0 < c) (hn : n.val = chunkCount plaintext.length c)
    (hplace : ∀ i < n.val, ∀ offset, chunkOffset a.profile a.plan.plainStride i = some offset →
    offset.val = i * c) (hpieces : ∀ w ∈ writes, IsPiece a n (block c plaintext) w)
    (hall : ∀ i < n.val, WrittenTo a n writes i (block c plaintext i).length) :
    writeAll writes [] = plaintext := by
  apply writeAll_eq
  · intro w hw
    obtain ⟨i, offset, k, hopened, hoffset, hw1, -, hprefix, -⟩ := hpieces w hw
    rw [hw1, hplace i hopened.2.1 offset hoffset, ← List.drop_drop]
    rw [block, List.drop_take] at hprefix
    exact hprefix.trans (List.take_prefix _ _)
  · intro k hk
    obtain ⟨hlow, hhigh⟩ := mem_block_div hc hk
    have hi : k / c < n.val := by
      rw [hn]
      exact div_lt_chunkCount hc hk
    obtain ⟨-, offset, hoffset, hcovered⟩ := hall (k / c) hi
    have hk := hcovered (k - k / c * c) (by omega)
    rw [hplace (k / c) hi offset hoffset, Nat.add_sub_cancel' hlow] at hk
    exact hk

lemma IsPiece.end_le {w : ℕ × Bytes} (h : IsPiece a n parts w) :
    ∃ i offset, i < n.val ∧ chunkOffset a.profile a.plan.plainStride i = some offset ∧
      w.1 + w.2.length ≤ offset.val + (parts i).length := by
  obtain ⟨i, offset, k, hopened, hoffset, hw1, hsome, hprefix, -⟩ := h
  have hle := add_length_le_of_prefix_drop hprefix hsome
  exact ⟨i, offset, hopened.2.1, hoffset, by omega⟩

lemma length_writeAll_pieces_ne (hc : 0 < c) (hn : n.val = chunkCount plaintext.length c) (hmany : 2 ≤ n.val)
    (hstride : a.plan.plainStride.val ≠ c) (hsmall : ∀ i < n.val, i * a.plan.plainStride.val < 2 ^ 63)
    (hpieces : ∀ w ∈ writes, IsPiece a n (block c plaintext) w)
    (hall : ∀ i < n.val, WrittenTo a n writes i (block c plaintext i).length) :
    (writeAll writes []).length ≠ plaintext.length := by
  have hsome : 0 < plaintext.length := by
    by_contra hnone
    rw [hn, chunkCount, if_pos (by omega)] at hmany
    omega
  have hlow := chunkCount_pred_mul_lt hc hsome
  have hhigh := (chunkCount_bounds (s := plaintext.length) hc).2
  have hlastPos := length_block_pos hc (show n.val - 1 < chunkCount plaintext.length c by omega) hsome
  rw [← hn] at hlow hhigh
  have hfull : n.val * c = (n.val - 1) * c + c := by
    rw [← Nat.succ_mul, Nat.succ_eq_add_one, Nat.sub_add_cancel (by omega)]
  have hlast : (block c plaintext (n.val - 1)).length = plaintext.length - (n.val - 1) * c := by
    rw [length_block]
    omega
  rcases Nat.lt_or_gt_of_ne hstride with hless | hmore
  · -- every chunk ends before the end of the file
    have hgap := Nat.mul_le_mul_left (n.val - 1) (Nat.succ_le_of_lt hless)
    rw [Nat.succ_eq_add_one, Nat.mul_add] at hgap
    have hle : (writeAll writes []).length ≤ plaintext.length - 1 := by
      apply length_writeAll_le (Nat.zero_le _)
      intro w hw _
      obtain ⟨i, offset, hi, hoffset, hend⟩ := (hpieces w hw).end_le
      rw [chunkOffset_exact ((hsmall i hi).trans (by norm_num)) hoffset] at hend
      by_cases hilast : i = n.val - 1
      · rw [hilast, hlast] at hend
        omega
      · have hnext := Nat.mul_le_mul_right c (show i + 1 ≤ n.val - 1 by omega)
        have hplace := Nat.mul_le_mul_left i hless.le
        rw [Nat.succ_mul] at hnext
        rw [length_block] at hend
        omega
    omega
  · -- the last chunk ends beyond the end of the file
    have hgap := Nat.mul_le_mul_left (n.val - 1) (Nat.succ_le_of_lt hmore)
    rw [Nat.succ_eq_add_one, Nat.mul_add] at hgap
    obtain ⟨-, offset, hoffset, hcovered⟩ := hall (n.val - 1) (by omega)
    obtain ⟨w, hw, -, hend⟩ := hcovered ((block c plaintext (n.val - 1)).length - 1) (by omega)
    obtain ⟨-, -, -, -, -, -, hw2, -⟩ := hpieces w hw
    have hle : w.1 + w.2.length ≤ (writeAll writes []).length := end_le_length_writeAll hw hw2
    rw [chunkOffset_exact ((hsmall _ (by omega)).trans (by norm_num)) hoffset] at hend
    omega

end

/-! ### The plan of a download -/

lemma length_of_mapM {α β : Type} {f : α → Option β} {xs : List α} {ys : List β} (h : xs.mapM f = some ys) :
    ys.length = xs.length := by
  induction xs generalizing ys with
  | nil =>
    cases h
    rfl
  | cons x xs ih =>
    rw [List.mapM_cons, option_bind_eq_some] at h
    obtain ⟨y, -, h⟩ := h
    obtain ⟨rest, hrest, h⟩ := option_bind_eq_some.mp h
    cases h
    rw [List.length_cons, List.length_cons, ih hrest]

lemma planDownload_ok {du : Json} {url : String} {plan : DownloadPlan}
    (h : planDownload profile du = some (.ok (url, plan))) :
    ∃ chunks csize, du.getI64 "multipart_chunks" = some chunks ∧ du.getI64 "chunk_size" = some csize ∧
      plan.chunkCount = chunks.max0.asU32 ∧ plan.plainStride = csize.max0.asU64 ∧
      plan.ranges.length = plan.chunkCount.val := by
  unfold planDownload at h
  split at h
  case h_1 => cases h
  case h_2 =>
    split at h
    case h_1 => cases h
    case h_2 =>
      split at h
      case h_1 chunks csize hchunks hcsize =>
        obtain ⟨ranges, hranges, h⟩ := Option.map_eq_some_iff.mp h
        cases h
        refine ⟨chunks, csize, hchunks, hcsize, rfl, rfl, ?_⟩
        obtain ⟨onDisk, -, hranges⟩ := option_bind_eq_some.mp hranges
        rw [length_of_mapM hranges, List.length_range]
      case h_2 => cases h

/-! ### Downloads of a file of two chunks -/

section

def sampleArgs (stride : U64) (r r' : U64 × U64) : DownloadArgs :=
  ⟨.release, sampleCrypto, .replicate 32 3, .replicate 16 4, "out.part", "out", ⟨2, stride, [r, r'], 1⟩⟩

def chunkEvents (e : Bytes) (len : ℕ) : List DownloadEvent :=
  [.worker 0, .worker 0, .storage 0 (some (.ok e)), .wrote 0 len, .worker 0]

def sampleEvents (e e' : Bytes) (len len' : ℕ) : List DownloadEvent :=
  .main :: (chunkEvents e len ++
    (chunkEvents e' len' ++ [.worker 0, .worker 0, .main, .main, .main, .renamed none]))

def sampleGeneration (r r' : U64 × U64) (cursor : ℕ) (w : DownloadWorker) : Generation :=
  ⟨[(0, r), (1, r')], 0, cursor, false, none, [w]⟩

def sampleState (file : Bytes) (completed : ℕ → Bool) (done written : ℕ) (g : Generation) : Download :=
  ⟨"url", file, completed, done, written, 0, .running g, none⟩

variable {stride : U64} {r r' : U64 × U64} {file e e' p p' : Bytes} {completed : ℕ → Bool}
  {done written cursor : ℕ}

lemma sample_storage (h : openFetched (sampleArgs stride r r') i e = w) :
    (sampleState file completed done written (sampleGeneration r r' cursor (.fetching i range))).step
      (sampleArgs stride r r') (.storage 0 (some (.ok e))) =
      some (sampleState file completed done written (sampleGeneration r r' cursor w)) := by
  subst h
  rfl

lemma sample_wrote {offset : ℕ} (hlen : 0 < p.length) (hlt : offset + p.length < 2 ^ 63) :
    (sampleState file completed done written (sampleGeneration r r' cursor (.writing i p.length offset p))).step
      (sampleArgs stride r r') (.wrote 0 p.length) =
      some (sampleState (writeAt file offset p) completed done written
        (sampleGeneration r r' cursor (.writing i p.length (offset + p.length) []))) := by
  have hstep : (sampleState file completed done written
      (sampleGeneration r r' cursor (.writing i p.length offset p))).step (sampleArgs stride r r')
      (.wrote 0 p.length) =
      wrote (sampleState file completed done written
          (sampleGeneration r r' cursor (.writing i p.length offset p)))
        (sampleGeneration r r' cursor (.writing i p.length offset p)) 0 p.length
        (.writing i p.length offset p) := rfl
  rw [hstep, wrote, if_pos ⟨hlen, le_rfl, hlt⟩, List.take_length, List.drop_length]
  rfl

lemma sample_chunk {offset : ℕ} (hget : [(0, r), (1, r')][i]? = some (i, range))
    (h : openFetched (sampleArgs stride r r') i e = .writing i p.length offset p) (hlen : 0 < p.length)
    (hlt : offset + p.length < 2 ^ 63) :
    run (Download.step (sampleArgs stride r r'))
      (sampleState file completed done written (sampleGeneration r r' i .checking))
      (chunkEvents e p.length) =
      some (sampleState (writeAt file offset p) (Function.update completed i true) (done + 1)
        (written + p.length) (sampleGeneration r r' (i + 1) .checking)) := by
  have htake : (sampleState file completed done written (sampleGeneration r r' i .taking)).step
      (sampleArgs stride r r') (.worker 0) =
      some (sampleState file completed done written (sampleGeneration r r' (i + 1) (.fetching i range))) := by
    show advance _ (sampleGeneration r r' i .taking) 0 .taking = _
    unfold advance
    simp only [sampleGeneration, hget]
    rfl
  simp only [chunkEvents, run_cons]
  exact ⟨sampleState file completed done written (sampleGeneration r r' i .taking), rfl, _, htake, _,
    sample_storage h, _, sample_wrote hlen hlt, _, rfl, rfl⟩

lemma sample_run {offset : ℕ} (h : openFetched (sampleArgs stride r r') 0 e = .writing 0 p.length 0 p)
    (h' : openFetched (sampleArgs stride r r') 1 e' = .writing 1 p'.length offset p') (hlen : 0 < p.length)
    (hlt : 0 + p.length < 2 ^ 63) (hlen' : 0 < p'.length) (hlt' : offset + p'.length < 2 ^ 63) :
    ∃ s, run (Download.step (sampleArgs stride r r')) (start "url")
      (sampleEvents e e' p.length p'.length) = some s ∧
      s.out = some (writeAt (writeAt [] 0 p) offset p') := by
  simp only [sampleEvents, run_cons, run_append]
  let file := writeAt (writeAt [] 0 p) offset p'
  let completed := Function.update (Function.update (fun _ => false) 0 true) 1 true
  refine ⟨⟨"url", file, completed, 2, 0 + p.length + p'.length, 0, .finished (.ok (0 + p.length + p'.length)),
    some file⟩, ?_, rfl⟩
  exact ⟨sampleState [] (fun _ => false) 0 0 (sampleGeneration r r' 0 .checking), rfl, _, sample_chunk rfl h
    hlen hlt, _, sample_chunk rfl h' hlen' hlt', _, rfl, _, rfl, _, rfl, _, rfl, _, rfl, _, rfl, rfl⟩

def sampleChunk (i : ℕ) (p : Bytes) : Bytes :=
  sampleEnvelope (.replicate 32 3) (.replicate 16 4) 2 (indexAsU32 i) p

lemma sample_openFetched (stride : U64) (r r' : U64 × U64) (p : Bytes) (hi : i < 2)
    (hlt : i * stride.val < 2 ^ 64) :
    openFetched (sampleArgs stride r r') i (sampleChunk i p) = .writing i p.length (i * stride.val) p := by
  obtain ⟨offset, hoffset, hval⟩ := Profile.release.exists_u64 hlt
  have hlt : indexAsU32 i < 2 := by
    rw [Fin.lt_def, val_indexAsU32 (by omega)]
    exact hi
  have hopen := openChunk_sealChunk (sampleCrypto_sealChunk (.replicate 32 3) (.replicate 16 4) p hlt)
  unfold openFetched
  simp only [sampleArgs, sampleChunk, hopen, chunkOffset, hoffset, hval]

lemma sample_run_stride (stride : U64) (r r' : U64 × U64) (p p' : Bytes) (hlen : 0 < p.length)
    (hlt : p.length < 2 ^ 63) (hlen' : 0 < p'.length) (hlt' : stride.val + p'.length < 2 ^ 63) :
    ∃ s, run (Download.step (sampleArgs stride r r')) (start "url")
        (sampleEvents (sampleChunk 0 p) (sampleChunk 1 p') p.length p'.length) = some s ∧
      s.out = some (writeAt (writeAt [] 0 p) stride.val p') := by
  have hfirst := sample_openFetched stride r r' p (show 0 < 2 by norm_num) (by omega)
  have hsecond := sample_openFetched stride r r' p' (show 1 < 2 by norm_num) (by omega)
  rw [Nat.zero_mul] at hfirst
  rw [Nat.one_mul] at hsecond
  exact sample_run hfirst hsecond hlen (by omega) hlen' hlt'

def sampleDownloadUrl (chunks chunkSize : U64) : Json :=
  .object [("chunk_size", .number (.posInt chunkSize)), ("download_url", .string "url"),
    ("multipart_chunks", .number (.posInt chunks)), ("size_bytes", .number (.posInt 72))]

lemma sampleEvents_unforged (plaintext : Bytes) (chunkSize len len' : ℕ) :
    ∀ ev ∈ sampleEvents (sampleChunk 0 (block chunkSize plaintext 0))
      (sampleChunk 1 (block chunkSize plaintext 1)) len len',
      EventUnforged (sampleArgs stride r r') 2 (block chunkSize plaintext) ev := by
  intro ev hev k envelope heq j
  subst heq
  have hsealed : ∀ i < 2, EnvelopeUnforged sampleCrypto (.replicate 32 3) (.replicate 16 4)
      (chunkSeals sampleCrypto (.replicate 32 3) (.replicate 16 4) 2 fun j => block chunkSize plaintext j.val) j
      (sampleChunk i (block chunkSize plaintext i)) := by
    intro i hi
    have hval : (indexAsU32 i).val = i := val_indexAsU32 (by omega)
    have hlt : indexAsU32 i < 2 := by
      rw [Fin.lt_def, hval]
      exact hi
    have hsealed := sampleCrypto_sealChunk (.replicate 32 3) (.replicate 16 4)
      (block chunkSize plaintext (indexAsU32 i).val) hlt
    have hunforged := sampleCrypto_unforged (fun j => block chunkSize plaintext j.val) hsealed j
    rw [hval] at hunforged
    exact hunforged
  simp only [sampleEvents, chunkEvents, List.mem_cons, List.mem_append, List.not_mem_nil, or_false,
    reduceCtorEq, false_or, DownloadEvent.storage.injEq, Option.some.injEq, Except.ok.injEq] at hev
  rcases hev with ⟨-, rfl⟩ | ⟨-, rfl⟩
  · exact hsealed 0 (by norm_num)
  · exact hsealed 1 (by norm_num)

end

/-! ### The output of a download -/

lemma max0_asU64_lt (x : I64) : x.max0.asU64.val < 2 ^ 63 := by
  have hlt := x.2.2
  unfold I64.max0 I64.asU64
  simp only
  omega

lemma writes_eq_nil (hzero : a.plan.chunkCount = 0) (hpieces : ∀ w ∈ writes, IsPiece a n parts w) :
    writes = [] := by
  apply List.eq_nil_iff_forall_not_mem.mpr
  intro w hw
  obtain ⟨i, -, -, hopened, -⟩ := hpieces w hw
  have hlt := hopened.1
  rw [hzero] at hlt
  exact absurd hlt (Nat.not_lt_zero i)

lemma count_eq_of_written (hzero : a.plan.chunkCount ≠ 0)
    (hall : ∀ i < a.plan.chunkCount.val, WrittenTo a n writes i (parts i).length) :
    a.plan.chunkCount.val = n.val := by
  have hpos : 0 < a.plan.chunkCount.val := Nat.pos_of_ne_zero fun h => hzero (Fin.ext h)
  apply Aead.count_eq_of_last hpos
  intro i hi
  exact (hall i hi).1.2

lemma writeAll_pieces_eq_iff {plaintext : Bytes} {chunkSize : ℕ} (hchunk : 0 < chunkSize)
    (hn : n.val = chunkCount plaintext.length chunkSize) (hstride : a.plan.plainStride.val < 2 ^ 63)
    (hpieces : ∀ w ∈ writes, IsPiece a n (block chunkSize plaintext) w)
    (hall : ∀ i < n.val, WrittenTo a n writes i (block chunkSize plaintext i).length) :
    writeAll writes [] = plaintext ↔ n = 1 ∨ a.plan.plainStride.val = chunkSize := by
  by_cases hone : n = 1
  · have hplace : ∀ i < n.val, ∀ offset, chunkOffset a.profile a.plan.plainStride i = some offset →
        offset.val = i * chunkSize := by
      intro i hi offset hoffset
      have hi : i = 0 := by
        rw [hone] at hi
        exact Nat.lt_one_iff.mp hi
      subst hi
      rw [chunkOffset_exact (by simp) hoffset, Nat.zero_mul, Nat.zero_mul]
    exact iff_of_true (writeAll_pieces_eq hchunk hn hplace hpieces hall) (.inl hone)
  · have hpos := chunkCount_pos (s := plaintext.length) hchunk
    have hmany : 2 ≤ n.val := by
      have hne : n.val ≠ 1 := fun h => hone (Fin.ext h)
      omega
    have hsome : 0 < plaintext.length := by
      by_contra hnone
      rw [hn, chunkCount, if_pos (by omega)] at hmany
      omega
    have hsmall : ∀ i < n.val, i * a.plan.plainStride.val < 2 ^ 63 := by
      apply chunkOffset_of_all hstride
      intro i hi
      exact (hall i hi).offset_lt (length_block_pos hchunk (by rw [← hn]; exact hi) hsome) hpieces
    rw [or_iff_right hone]
    constructor
    · intro heq
      by_contra hsize
      exact length_writeAll_pieces_ne hchunk hn hmany hsize hsmall hpieces hall (by rw [heq])
    · intro hsize
      apply writeAll_pieces_eq hchunk hn _ hpieces hall
      intro i hi offset hoffset
      rw [chunkOffset_exact ((hsmall i hi).trans (by norm_num)) hoffset, hsize]

/-- The output of a finished download is the file exactly if the server stated no chunks of an
empty file, or some chunks, and either the file has one chunk or the server stated the chunk
size of the upload. -/
theorem download_output_eq_iff (a : DownloadArgs) (du : Json) (url : String) (chunks csize : I64)
    (hchunks : du.getI64 "multipart_chunks" = some chunks) (hcsize : du.getI64 "chunk_size" = some csize)
    (hplan : planDownload a.profile du = some (.ok (url, a.plan))) (plaintext : Bytes) (chunkSize : ℕ)
    (n : U32) (hchunk : 0 < chunkSize) (hn : n.val = chunkCount plaintext.length chunkSize)
    (events : List DownloadEvent)
    (hunforged : ∀ e ∈ events, EventUnforged a n (block chunkSize plaintext) e) (s : Download)
    (hrun : run (Download.step a) (start url) events = some s) (output : Bytes) (hout : s.out = some output) :
    output = plaintext ↔ chunks.max0.asU32 = 0 ∧ plaintext = [] ∨
      chunks.max0.asU32 ≠ 0 ∧ (n = 1 ∨ csize.max0.asU64.val = chunkSize) := by
  obtain ⟨chunks', csize', hchunks', hcsize', hcount, hstride, hranges⟩ := planDownload_ok hplan
  rw [hchunks, Option.some.injEq] at hchunks'
  rw [hcsize, Option.some.injEq] at hcsize'
  subst hchunks' hcsize'
  obtain ⟨writes, rfl, hpieces, hall⟩ := download_writes hranges hunforged hrun hout
  rw [← hcount, ← hstride]
  by_cases hzero : a.plan.chunkCount = 0
  · -- no chunk is opened, so nothing is written
    rw [writes_eq_nil hzero hpieces, or_iff_left (fun h => h.1 hzero), and_iff_right hzero]
    exact eq_comm
  · rw [count_eq_of_written hzero hall] at hall
    rw [or_iff_right (fun h => hzero h.1), and_iff_right hzero]
    exact writeAll_pieces_eq_iff hchunk hn (by rw [hstride]; exact max0_asU64_lt csize) hpieces hall

/-- Four bytes in chunks of three, as the server states them. -/
theorem download_output_eq_iff_two_chunks :
    ∃ s, run (Download.step (sampleArgs 3 (0, 36) (37, 71))) (start "url")
        (sampleEvents (sampleChunk 0 [1, 2, 3]) (sampleChunk 1 [4]) 3 1) = some s ∧
      ∃ output, s.out = some output ∧ output = [1, 2, 3, 4] := by
  obtain ⟨s, hrun, hout⟩ := sample_run_stride 3 (0, 36) (37, 71) [1, 2, 3] [4]
    (by decide) (by decide) (by decide) (by decide)
  refine ⟨s, hrun, _, hout, ?_⟩
  apply (download_output_eq_iff (sampleArgs 3 (0, 36) (37, 71)) (sampleDownloadUrl 2 3) "url" 2 3
    rfl rfl rfl [1, 2, 3, 4] 3 2 (by norm_num) rfl _ (sampleEvents_unforged [1, 2, 3, 4] 3 3 1) s
      hrun _ hout).mpr
  exact .inr ⟨by decide, .inr rfl⟩

/-- The server states no chunks, or another chunk size: the download finishes, and the output
is empty, or has a hole. -/
theorem download_wrong_output :
    (∃ s, planDownload .release (sampleDownloadUrl 0 3) = some (.ok ("url", ⟨0, 3, [], 1⟩)) ∧
      run (Download.step { sampleArgs 3 (0, 36) (37, 71) with plan := ⟨0, 3, [], 1⟩ }) (start "url")
        [.main, .main, .renamed none] = some s ∧ s.out = some []) ∧
    ∃ s, planDownload .release (sampleDownloadUrl 2 5) = some (.ok ("url", ⟨2, 5, [(0, 38), (39, 71)], 1⟩)) ∧
      (∀ ev ∈ sampleEvents (sampleChunk 0 [1, 2, 3]) (sampleChunk 1 [4]) 3 1,
        EventUnforged (sampleArgs 5 (0, 38) (39, 71)) 2 (block 3 [1, 2, 3, 4]) ev) ∧
      run (Download.step (sampleArgs 5 (0, 38) (39, 71))) (start "url")
        (sampleEvents (sampleChunk 0 [1, 2, 3]) (sampleChunk 1 [4]) 3 1) = some s ∧
        s.out = some [1, 2, 3, 0, 0, 4] := by
  constructor
  · exact ⟨_, rfl, rfl, rfl⟩
  · obtain ⟨s, hrun, hout⟩ := sample_run_stride 5 (0, 38) (39, 71) [1, 2, 3] [4]
      (by decide) (by decide) (by decide) (by decide)
    exact ⟨s, rfl, sampleEvents_unforged [1, 2, 3, 4] 3 3 1, hrun, hout⟩

end SignetDrive.Proofs
