import SignetDrive.Model.AnchorCommands
import SignetDrive.Proofs.Anchored

/-!
# Interleaved commands and the ratchet

Nothing in the program keeps the commands apart: two that overlap can take the ratchet back.
-/

namespace SignetDrive.Proofs
open Client Program Run Machine

abbrev MachineStep := Step Machine MachineEvent (Option Anchoring)

/-! ### What is asked of a schedule -/

/-- After its read of the file, no other command writes or renames. -/
def SaveAlone (c : ℕ) (a b : MachineEvent) : Prop :=
  a = .read c → ∀ c' ≠ c, b ≠ .write c' ∧ b ≠ .rename c'

/-- After its load, no other command of its origin renames. -/
def OriginAlone (past : List MachineEvent) (c : ℕ) (a b : MachineEvent) : Prop :=
  ∀ cmd, a = .load c cmd → ∀ c' ≠ c, b = .rename c' → ∀ cmd', .load c' cmd' ∈ past → cmd'.origin ≠ cmd.origin

/-- From the read of its save on no other command wrote or renamed, and from its load on no other
command of its origin renamed. -/
structure Undisturbed (past : List MachineEvent) (c : ℕ) : Prop where
  save : past.Pairwise (SaveAlone c)
  origin : past.Pairwise (OriginAlone past c)

/-- The step puts a state in place after an anchoring in the epoch. -/
def SavesEpoch (y : MachineStep) (origin : String) (e : U16) : Prop :=
  ∃ c cmd anchoring st all mode, y.input = .rename c ∧ y.before.commands c = .written cmd anchoring st all ∧
    y.before.tmp.isSome ∧ cmd.origin = origin ∧ anchoring.verdict = .anchored mode ∧ mode.epoch = e

/-- The command is loaded in the step `start`, right after `earlier`. -/
def StartsAt (past earlier : List MachineStep) (start : MachineStep) (c : ℕ) (cmd : AnchorCommand) : Prop :=
  (∃ later, past = earlier ++ start :: later) ∧ start.input = .load c cmd ∧ start.before.commands c = .idle

/-! ### One anchoring -/

section

variable {p : Primitives} {fromStr : String → Except String Json} {E : Type} {server : HttpServer}
  {env : AnchorEnv} {st st' : OriginState} {serverUrl : String} {served : ServedEpoch} {repo : Option String}
  {useCache : Bool} {s s' : Session String E} {anchoring : Anchoring}

lemma updateState_highest (st : OriginState) (e : U16) (verdict : EpochVerdict) (now : U64) :
    st.highestEpoch ≤ (updateState st e verdict now).highestEpoch := by
  cases verdict with
  | anchored mode => exact le_max_left _ _
  | unanchored why => exact le_rfl
  | violation why => exact le_rfl

section

variable
  (h : anchorLoaded p fromStr server env st serverUrl served repo useCache s = .ok ((anchoring, st'), s'))

include h

lemma anchorLoaded_highest : st.highestEpoch ≤ st'.highestEpoch := by
  obtain ⟨-, -, -, st₁, hst₁, rfl⟩ := anchorLoaded_ok h
  rw [← hst₁]
  exact updateState_highest st₁ _ _ _

lemma anchorLoaded_anchored {mode : LogMode} (hverdict : anchoring.verdict = .anchored mode) :
    mode.epoch ≤ st'.highestEpoch := by
  obtain ⟨-, -, -, st₁, -, rfl⟩ := anchorLoaded_ok h
  rw [hverdict]
  exact le_max_right _ _

end

lemma judgeEpoch_below {highest : U16} (h : served.epoch < highest) (anchors : Option Anchors)
    (age : Option Duration) : (judgeEpoch served anchors highest age).isViolation := by
  unfold judgeEpoch
  rw [if_pos h]
  rfl

lemma cachedAnswer_below {now : U64} (h : served.epoch < st.highestEpoch) :
    cachedAnswer p fromStr st served repo now useCache = none := by
  cases hanswer : cachedAnswer p fromStr st served repo now useCache with
  | none => rfl
  | some answer =>
    unfold cachedAnswer at hanswer
    split at hanswer
    · obtain ⟨r, -, hcached⟩ := Option.bind_eq_some_iff.mp hanswer
      obtain ⟨cache, mode, -, -, -, -, hjudge, -⟩ := cachedVerdict_eq_some hcached
      have hviolation := judgeEpoch_below h (some answer.2) (st.age served.epoch now)
      rw [hjudge] at hviolation
      cases hviolation
    · cases hanswer

lemma anchorLoaded_below (h : served.epoch < st.highestEpoch) : ∃ anchoring st',
    anchorLoaded p fromStr server env st serverUrl served repo useCache s = .ok ((anchoring, st'), s) ∧
      anchoring.verdict.isViolation := by
  have hviolation : (readAndJudge p fromStr env repo fun anchors =>
      judgeEpoch served anchors st.highestEpoch (st.age served.epoch env.now)).2.isViolation := by
    rw [(readAndJudge_spec p fromStr env repo _).2]
    exact judgeEpoch_below h _ _
  rw [anchorLoaded, cachedAnswer_below h]
  simp only [anchorFresh]
  generalize readAndJudge p fromStr env repo _ = read at hviolation ⊢
  obtain ⟨fresh, _ | _ | why⟩ := read
  · cases hviolation
  · cases hviolation
  · exact ⟨_, _, rfl, rfl⟩

end

/-! ### One step of a machine -/

def pending : Phase → Option (AnchorCommand × OriginState)
  | .loaded cmd st => some (cmd, st)
  | .judged cmd _ st => some (cmd, st)
  | .saving cmd _ st _ => some (cmd, st)
  | .written cmd _ st _ => some (cmd, st)
  | _ => none

def content : Phase → Option (AnchorCommand × OriginState × Json)
  | .saving cmd _ st all => some (cmd, st, all)
  | .written cmd _ st all => some (cmd, st, all)
  | _ => none

/-- The outcome of a command that has judged. -/
def anchored : Phase → Option (Anchoring × OriginState)
  | .judged _ anchoring st => some (anchoring, st)
  | .saving _ anchoring st _ => some (anchoring, st)
  | .written _ anchoring st _ => some (anchoring, st)
  | _ => none

inductive Effect (p : Primitives) (fromStr : String → Except String Json) (m : Machine) :
    MachineEvent → Machine → Option Anchoring → Prop
  | nothing (e : MachineEvent) : Effect p fromStr m e m none
  | load (c : ℕ) (cmd : AnchorCommand) (hphase : m.commands c = .idle) :
      Effect p fromStr m (.load c cmd) (m.setPhase c (.loaded cmd (loadState m.file cmd.origin))) none
  | judge (c : ℕ) (cmd : AnchorCommand) (st st' : OriginState) (anchoring : Anchoring)
      (t : Session String Unit) (hphase : m.commands c = .loaded cmd st)
      (hok : anchorLoaded p fromStr cmd.server cmd.env st cmd.serverUrl cmd.served cmd.repo cmd.useCache
        ⟨[], []⟩ = .ok ((anchoring, st'), t)) :
      Effect p fromStr m (.judge c) (m.setPhase c (.judged cmd anchoring st')) (some anchoring)
  | fail (c : ℕ) (cmd : AnchorCommand) (st : OriginState) (hphase : m.commands c = .loaded cmd st) :
      Effect p fromStr m (.judge c) (m.setPhase c .done) none
  | read (c : ℕ) (cmd : AnchorCommand) (anchoring : Anchoring) (st : OriginState)
      (hphase : m.commands c = .judged cmd anchoring st) :
      Effect p fromStr m (.read c)
        (m.setPhase c (.saving cmd anchoring st (saveState m.file cmd.origin st))) none
  | write (c : ℕ) (cmd : AnchorCommand) (anchoring : Anchoring) (st : OriginState) (all : Json)
      (hphase : m.commands c = .saving cmd anchoring st all) :
      Effect p fromStr m (.write c) { m.setPhase c (.written cmd anchoring st all) with tmp := some all } none
  | rename (c : ℕ) (cmd : AnchorCommand) (anchoring : Anchoring) (st : OriginState) (all new : Json)
      (hphase : m.commands c = .written cmd anchoring st all) (htmp : m.tmp = some new) :
      Effect p fromStr m (.rename c) { m.setPhase c .done with file := some new, tmp := none } none
  | lost (c : ℕ) (cmd : AnchorCommand) (anchoring : Anchoring) (st : OriginState) (all : Json)
      (hphase : m.commands c = .written cmd anchoring st all) (htmp : m.tmp = none) :
      Effect p fromStr m (.rename c) (m.setPhase c .done) none

section

variable {p : Primitives} {fromStr : String → Except String Json} {m m' : Machine} {e : MachineEvent}
  {out : Option Anchoring} {past : List MachineEvent} {c : ℕ}

lemma effect_step (p : Primitives) (fromStr : String → Except String Json) (m : Machine) (e : MachineEvent) :
    Effect p fromStr m e (m.step p fromStr e).1 (m.step p fromStr e).2 := by
  cases e with
  | load c cmd =>
    simp only [step]
    split
    next hphase => exact .load c cmd hphase
    next => exact .nothing _
  | judge c =>
    simp only [step]
    split
    next cmd st hphase =>
      split
      next anchoring st' t hok => exact .judge c cmd st st' anchoring t hphase hok
      next => exact .fail c cmd st hphase
    next => exact .nothing _
  | read c =>
    simp only [step]
    split
    next cmd anchoring st hphase => exact .read c cmd anchoring st hphase
    next => exact .nothing _
  | write c =>
    simp only [step]
    split
    next cmd anchoring st all hphase => exact .write c cmd anchoring st all hphase
    next => exact .nothing _
  | rename c =>
    simp only [step]
    split
    next cmd anchoring st all hphase =>
      split
      next new htmp => exact .rename c cmd anchoring st all new hphase htmp
      next htmp => exact .lost c cmd anchoring st all hphase htmp
    next => exact .nothing _

/-! ### What holds of a command -/

/-- As long as nobody disturbs a command, the state it holds is not behind the file, and what it will
write is the file with its origin changed. -/
structure CommandInv (past : List MachineEvent) (file tmp : Option Json) (c : ℕ) (phase : Phase) : Prop where
  ratchet : ∀ cmd st, pending phase = some (cmd, st) → .load c cmd ∈ past ∧
    (past.Pairwise (OriginAlone past c) → (loadState file cmd.origin).highestEpoch ≤ st.highestEpoch)
  save : ∀ cmd st all, content phase = some (cmd, st, all) → .read c ∈ past ∧
    (past.Pairwise (SaveAlone c) → all = saveState file cmd.origin st)
  temporary : ∀ cmd anchoring st all, phase = .written cmd anchoring st all →
    past.Pairwise (SaveAlone c) → tmp = some all
  verdict : ∀ anchoring st mode, anchored phase = some (anchoring, st) →
    anchoring.verdict = .anchored mode → mode.epoch ≤ st.highestEpoch

lemma saveAlone_concat (h : (past ++ [e]).Pairwise (SaveAlone c)) :
    past.Pairwise (SaveAlone c) ∧ ∀ a ∈ past, SaveAlone c a e := by
  rw [List.pairwise_append] at h
  exact ⟨h.1, fun a ha => h.2.2 a ha e (List.mem_singleton_self e)⟩

lemma originAlone_concat (h : (past ++ [e]).Pairwise (OriginAlone (past ++ [e]) c)) :
    past.Pairwise (OriginAlone past c) ∧ ∀ a ∈ past, OriginAlone past c a e := by
  have hmono {a b : MachineEvent} (hab : OriginAlone (past ++ [e]) c a b) : OriginAlone past c a b :=
    fun cmd ha c' hc' hb cmd' hcmd' => hab cmd ha c' hc' hb cmd' (List.mem_append_left _ hcmd')
  rw [List.pairwise_append] at h
  exact ⟨h.1.imp hmono, fun a ha => hmono (h.2.2 a ha e (List.mem_singleton_self e))⟩

variable {file file' tmp tmp' : Option Json} {phase : Phase}

section

variable (h : CommandInv past file tmp c phase)

include h

lemma CommandInv.same_files (e : MachineEvent) :
    CommandInv (past ++ [e]) file tmp c phase where
  ratchet := by
    intro cmd st hpending
    obtain ⟨hload, hle⟩ := h.ratchet cmd st hpending
    exact ⟨List.mem_append_left _ hload, fun halone => hle (originAlone_concat halone).1⟩
  save := by
    intro cmd st all hcontent
    obtain ⟨hread, hall⟩ := h.save cmd st all hcontent
    exact ⟨List.mem_append_left _ hread, fun halone => hall (saveAlone_concat halone).1⟩
  temporary := fun cmd anchoring st all hphase halone =>
    h.temporary cmd anchoring st all hphase (saveAlone_concat halone).1
  verdict := h.verdict

lemma CommandInv.other_write {c' : ℕ} (hc : c' ≠ c) :
    CommandInv (past ++ [.write c']) file tmp' c phase where
  ratchet := (h.same_files _).ratchet
  save := (h.same_files _).save
  temporary := by
    rintro cmd anchoring st all rfl halone
    have hread := (h.save cmd st all rfl).1
    exact absurd rfl ((saveAlone_concat halone).2 _ hread rfl c' hc).1
  verdict := h.verdict

lemma CommandInv.other_rename {c' : ℕ} (hc : c' ≠ c)
    {cmd' : AnchorCommand} (hload : .load c' cmd' ∈ past)
    (hothers : ∀ origin, origin ≠ cmd'.origin → loadState file' origin = loadState file origin) :
    CommandInv (past ++ [.rename c']) file' tmp' c phase where
  ratchet := by
    intro cmd st hpending
    obtain ⟨hmine, hle⟩ := h.ratchet cmd st hpending
    refine ⟨List.mem_append_left _ hmine, fun halone => ?_⟩
    obtain ⟨hpast, hnow⟩ := originAlone_concat halone
    have horigin := hnow _ hmine cmd rfl c' hc rfl cmd' hload
    rw [hothers cmd.origin horigin.symm]
    exact hle hpast
  save := by
    intro cmd st all hcontent
    obtain ⟨hread, -⟩ := h.save cmd st all hcontent
    refine ⟨List.mem_append_left _ hread, fun halone => ?_⟩
    exact absurd rfl ((saveAlone_concat halone).2 _ hread rfl c' hc).2
  temporary := by
    rintro cmd anchoring st all rfl halone
    have hread := (h.save cmd st all rfl).1
    exact absurd rfl ((saveAlone_concat halone).2 _ hread rfl c' hc).2
  verdict := h.verdict

end

lemma commandInv_idle : CommandInv past file tmp c .idle :=
  ⟨by simp [pending], by simp [content], by simp, by simp [anchored]⟩

lemma commandInv_done : CommandInv past file tmp c .done :=
  ⟨by simp [pending], by simp [content], by simp, by simp [anchored]⟩

/-! #### The command's own steps -/

variable {cmd : AnchorCommand} {anchoring : Anchoring} {st st' : OriginState} {all : Json}

lemma commandInv_load : CommandInv (past ++ [.load c cmd]) file tmp c
    (.loaded cmd (loadState file cmd.origin)) where
  ratchet := by
    rintro _ _ ⟨⟩
    exact ⟨by simp, fun _ => le_rfl⟩
  save := by simp [content]
  temporary := by simp
  verdict := by simp [anchored]

lemma CommandInv.judge {t : Session String Unit} (h : CommandInv past file tmp c (.loaded cmd st))
    (hok : anchorLoaded p fromStr cmd.server cmd.env st cmd.serverUrl cmd.served cmd.repo cmd.useCache
      ⟨[], []⟩ = .ok ((anchoring, st'), t)) :
    CommandInv (past ++ [.judge c]) file tmp c (.judged cmd anchoring st') where
  ratchet := by
    rintro _ _ ⟨⟩
    obtain ⟨hload, hle⟩ := (h.same_files (.judge c)).ratchet cmd st rfl
    exact ⟨hload, fun halone => (hle halone).trans (anchorLoaded_highest hok)⟩
  save := by simp [content]
  temporary := by simp
  verdict := by
    rintro _ _ mode ⟨⟩ hverdict
    exact anchorLoaded_anchored hok hverdict

lemma CommandInv.read (h : CommandInv past file tmp c (.judged cmd anchoring st)) :
    CommandInv (past ++ [.read c]) file tmp c (.saving cmd anchoring st (saveState file cmd.origin st)) where
  ratchet := (h.same_files (.read c)).ratchet
  save := by
    rintro _ _ _ ⟨⟩
    exact ⟨by simp, fun _ => rfl⟩
  temporary := by simp
  verdict := h.verdict

lemma CommandInv.write (h : CommandInv past file tmp c (.saving cmd anchoring st all)) :
    CommandInv (past ++ [.write c]) file (some all) c (.written cmd anchoring st all) where
  ratchet := (h.same_files (.write c)).ratchet
  save := (h.same_files (.write c)).save
  temporary := by
    rintro _ _ _ _ ⟨⟩ -
    rfl
  verdict := h.verdict

/-! ### What holds of a machine -/

def MachineInv (past : List MachineEvent) (m : Machine) : Prop :=
  ∀ c, CommandInv past m.file m.tmp c (m.commands c)

lemma MachineInv.written (h : MachineInv past m) (hphase : m.commands c = .written cmd anchoring st all)
    (halone : Undisturbed past c) : m.tmp = some (saveState m.file cmd.origin st) ∧
      (loadState m.file cmd.origin).highestEpoch ≤ st.highestEpoch := by
  have hc := h c
  rw [hphase] at hc
  obtain ⟨-, hall⟩ := hc.save cmd st all rfl
  rw [← hall halone.save]
  exact ⟨hc.temporary cmd anchoring st all rfl halone.save, (hc.ratchet cmd st rfl).2 halone.origin⟩

lemma forall_setPhase {c₀ : ℕ} (hown : CommandInv past file tmp c₀ phase)
    (hothers : ∀ c, c ≠ c₀ → CommandInv past file tmp c (m.commands c)) :
    ∀ c, CommandInv past file tmp c ((m.setPhase c₀ phase).commands c) := by
  intro c
  by_cases hc : c = c₀
  · subst hc
    simp only [setPhase, Function.update_self]
    exact hown
  · simp only [setPhase, Function.update_of_ne hc]
    exact hothers c hc

section

variable (h : MachineInv past m) (halone : ∀ c, e = .rename c → Undisturbed past c)
  (heffect : Effect p fromStr m e m' out)

include h halone heffect

lemma MachineInv.effect     : MachineInv (past ++ [e]) m' := by
  have hsame : ∀ c, CommandInv (past ++ [e]) m.file m.tmp c (m.commands c) := fun c => (h c).same_files e
  cases heffect with
  | nothing => exact hsame
  | load c cmd hphase => exact forall_setPhase commandInv_load fun c _ => hsame c
  | judge c cmd st st' anchoring t hphase hok =>
    have hc := h c
    rw [hphase] at hc
    exact forall_setPhase (hc.judge hok) fun c _ => hsame c
  | fail c cmd st hphase => exact forall_setPhase commandInv_done fun c _ => hsame c
  | read c cmd anchoring st hphase =>
    have hc := h c
    rw [hphase] at hc
    exact forall_setPhase hc.read fun c _ => hsame c
  | write c cmd anchoring st all hphase =>
    have hc := h c
    rw [hphase] at hc
    exact forall_setPhase hc.write fun c' hc' => (h c').other_write hc'.symm
  | rename c cmd anchoring st all new hphase htmp =>
    obtain ⟨hwritten, -⟩ := h.written hphase (halone c rfl)
    obtain rfl := Option.some.inj (htmp.symm.trans hwritten)
    have hc := h c
    rw [hphase] at hc
    have hload := (hc.ratchet cmd st rfl).1
    exact forall_setPhase commandInv_done fun c' hc' => (h c').other_rename hc'.symm hload
      fun origin horigin => loadState_saveState_of_ne _ _ _ horigin
  | lost c cmd anchoring st all hphase htmp => exact forall_setPhase commandInv_done fun c _ => hsame c

/-- An undisturbed step keeps the file, or stores the state of one origin, with a ratchet that is
not behind. -/
lemma MachineInv.file_cases     : m'.file = m.file ∨
      ∃ c cmd anchoring st all, e = .rename c ∧ m.commands c = .written cmd anchoring st all ∧
        m'.file = some (saveState m.file cmd.origin st) ∧
        (loadState m.file cmd.origin).highestEpoch ≤ st.highestEpoch := by
  cases heffect with
  | rename c cmd anchoring st all new hphase htmp =>
    obtain ⟨hwritten, hle⟩ := h.written hphase (halone c rfl)
    exact Or.inr ⟨c, cmd, anchoring, st, all, rfl, hphase, htmp.symm.trans hwritten, hle⟩
  | _ => exact Or.inl rfl

lemma MachineInv.highest_mono (origin : String) :
    (loadState m.file origin).highestEpoch ≤ (loadState m'.file origin).highestEpoch := by
  rcases h.file_cases halone heffect with hfile | ⟨c, cmd, anchoring, st, all, -, -, hfile, hle⟩
  · rw [hfile]
  · rw [hfile]
    by_cases horigin : origin = cmd.origin
    · subst horigin
      rw [loadState_saveState_self]
      exact hle
    · rw [loadState_saveState_of_ne _ _ _ horigin]

end

/-! ### Runs -/

variable {events : List MachineEvent}

lemma machineInv_run (file tmp : Option Json)
    (halone : Always (fun past e => ∀ c, e = .rename c → Undisturbed past c) events) :
    Always (fun past x => MachineInv (past.map Step.input) x.before ∧
      (∀ c, x.input = .rename c → Undisturbed (past.map Step.input) c) ∧
      Effect p fromStr x.before x.input x.after x.output)
      (steps (step p fromStr) ⟨file, tmp, fun _ => .idle⟩ events) := by
  rw [always_input (step p fromStr) ⟨file, tmp, fun _ => .idle⟩] at halone
  have heffect : Always (fun _ x => Effect p fromStr x.before x.input x.after x.output)
      (steps (step p fromStr) ⟨file, tmp, fun _ => .idle⟩ events) := by
    intro past x rest hsteps
    have hstep := effect_step p fromStr x.before x.input
    rwa [step_of_eq_append hsteps] at hstep
  have hinv := invariant (fun (past : List MachineStep) (m : Machine) => MachineInv (past.map Step.input) m)
    (fun c => commandInv_idle) (by
      intro past x rest hsteps ih
      rw [List.map_append]
      exact ih.effect (halone past x rest hsteps) (heffect past x rest hsteps))
  exact fun past x rest hsteps => ⟨hinv past x rest hsteps, halone past x rest hsteps,
    heffect past x rest hsteps⟩

lemma saved_epoch_le (file tmp : Option Json)
    (halone : Always (fun past e => ∀ c, e = .rename c → Undisturbed past c) events) :
    Always (fun past x => ∀ y ∈ past, ∀ origin e, SavesEpoch y origin e →
      e ≤ (loadState x.before.file origin).highestEpoch)
      (steps (step p fromStr) ⟨file, tmp, fun _ => .idle⟩ events) := by
  apply invariant (fun (past : List MachineStep) (m : Machine) => ∀ y ∈ past, ∀ origin e,
    SavesEpoch y origin e → e ≤ (loadState m.file origin).highestEpoch)
  · intro y hy
    cases hy
  · intro past x rest hsteps ih y hy origin e hsaves
    obtain ⟨hinv, hrename, heffect⟩ := machineInv_run file tmp halone past x rest hsteps
    rcases List.mem_append.mp hy with hy | hy
    · exact (ih y hy origin e hsaves).trans (hinv.highest_mono hrename heffect origin)
    · obtain rfl := List.mem_singleton.mp hy
      obtain ⟨c, cmd, anchoring, st, all, mode, hinput, hphase, htmp, rfl, hverdict, rfl⟩ := hsaves
      have hle := (hinv c).verdict anchoring st mode (by rw [hphase]; rfl) hverdict
      have hwritten := (hinv.written hphase (hrename c hinput)).1
      have hafter : y.after.file = some (saveState y.before.file cmd.origin st) := by
        have hstep := step_of_eq_append hsteps
        rw [hinput, step] at hstep
        simp only [hphase, hwritten] at hstep
        rw [← (Prod.mk.inj hstep).1]
      rw [hafter, loadState_saveState_self]
      exact hle

lemma setPhase_commands {c₀ : ℕ} {phase' : Phase} (h : (m.setPhase c₀ phase).commands c = phase') :
    c = c₀ ∧ phase = phase' ∨ m.commands c = phase' := by
  by_cases hc : c = c₀
  · subst hc
    simp only [setPhase, Function.update_self] at h
    exact Or.inl ⟨rfl, h⟩
  · simp only [setPhase, Function.update_of_ne hc] at h
    exact Or.inr h

lemma Effect.loaded (h : Effect p fromStr m e m' out) (hphase : m'.commands c = .loaded cmd st) :
    m.commands c = .loaded cmd st ∨
      e = .load c cmd ∧ m.commands c = .idle ∧ st = loadState m.file cmd.origin := by
  cases h with
  | nothing => exact Or.inl hphase
  | load c₀ cmd₀ hidle =>
    rcases setPhase_commands hphase with ⟨rfl, heq⟩ | hbefore
    · obtain ⟨rfl, rfl⟩ := Phase.loaded.inj heq
      exact Or.inr ⟨rfl, hidle, rfl⟩
    · exact Or.inl hbefore
  | _ =>
    rcases setPhase_commands hphase with ⟨-, heq⟩ | hbefore
    · cases heq
    · exact Or.inl hbefore

lemma exists_start (start : Machine) (hidle : ∀ c, start.commands c = .idle) :
    Always (fun past x => ∀ c cmd st, x.before.commands c = .loaded cmd st →
      ∃ earlier y, StartsAt past earlier y c cmd ∧ st = loadState y.before.file cmd.origin)
      (steps (step p fromStr) start events) := by
  apply invariant (fun (past : List MachineStep) (m : Machine) => ∀ c cmd st, m.commands c = .loaded cmd st →
    ∃ earlier y, StartsAt past earlier y c cmd ∧ st = loadState y.before.file cmd.origin)
  · intro c cmd st hphase
    rw [hidle c] at hphase
    cases hphase
  · intro past x rest hsteps ih c cmd st hphase
    have heffect := effect_step p fromStr x.before x.input
    rw [step_of_eq_append hsteps] at heffect
    rcases heffect.loaded hphase with hbefore | ⟨hinput, hstart, rfl⟩
    · obtain ⟨earlier, y, ⟨⟨later, rfl⟩, hy⟩, hst⟩ := ih c cmd st hbefore
      exact ⟨earlier, y, ⟨⟨later ++ [x], by simp⟩, hy⟩, hst⟩
    · exact ⟨past, x, ⟨⟨[], rfl⟩, hinput, hstart⟩, rfl⟩

lemma step_judge_below (hphase : m.commands c = .loaded cmd st) (hbelow : cmd.served.epoch < st.highestEpoch) :
    ∃ anchoring, (m.step p fromStr (.judge c)).2 = some anchoring ∧ anchoring.verdict.isViolation := by
  obtain ⟨anchoring, st', hok, hviolation⟩ : ∃ anchoring st', anchorLoaded p fromStr cmd.server cmd.env st
      cmd.serverUrl cmd.served cmd.repo cmd.useCache (⟨[], []⟩ : Session String Unit) =
        .ok ((anchoring, st'), ⟨[], []⟩) ∧ anchoring.verdict.isViolation := anchorLoaded_below hbelow
  refine ⟨anchoring, ?_, hviolation⟩
  simp only [step, hphase, hok]

/-- As long as no save is disturbed, the epoch stored for an origin never goes down, a save leaves
the other origins alone, and a command that starts after an epoch was saved and is served a lower
one gets a violation. -/
theorem ratchet_of_undisturbed (p : Primitives) (fromStr : String → Except String Json)
    (file tmp : Option Json) (events : List MachineEvent)
    (halone : Always (fun past e => ∀ c, e = .rename c → Undisturbed past c) events) :
    Always (fun past x =>
      (∀ origin, (loadState x.before.file origin).highestEpoch ≤ (loadState x.after.file origin).highestEpoch) ∧
      (∀ c cmd anchoring st all, x.input = .rename c → x.before.commands c = .written cmd anchoring st all →
        ∀ origin, origin ≠ cmd.origin → loadState x.after.file origin = loadState x.before.file origin) ∧
      ∀ c cmd st, x.input = .judge c → x.before.commands c = .loaded cmd st →
        ∃ earlier start, StartsAt past earlier start c cmd ∧
          ∀ y ∈ earlier, ∀ e, SavesEpoch y cmd.origin e → cmd.served.epoch < e →
            ∃ anchoring, x.output = some anchoring ∧ anchoring.verdict.isViolation)
      (steps (step p fromStr) ⟨file, tmp, fun _ => .idle⟩ events) := by
  intro past x rest hsteps
  obtain ⟨hinv, hrename, heffect⟩ := machineInv_run file tmp halone past x rest hsteps
  refine ⟨hinv.highest_mono hrename heffect, ?_, ?_⟩
  · intro c cmd anchoring st all hinput hphase origin horigin
    rcases hinv.file_cases hrename heffect with hfile | ⟨c', cmd', _, st', _, hinput', hphase', hfile, -⟩
    · rw [hfile]
    · obtain rfl := MachineEvent.rename.inj (hinput.symm.trans hinput')
      obtain ⟨rfl, -, -, -⟩ := Phase.written.inj (hphase.symm.trans hphase')
      rw [hfile, loadState_saveState_of_ne _ _ _ horigin]
  · intro c cmd st hinput hphase
    obtain ⟨earlier, start, hstart, rfl⟩ := exists_start _ (fun _ => rfl) past x rest hsteps c cmd st hphase
    refine ⟨earlier, start, hstart, ?_⟩
    intro y hy e hsaves hbelow
    obtain ⟨later, rfl⟩ := hstart.1
    rw [List.append_assoc, List.cons_append] at hsteps
    have hstored := saved_epoch_le file tmp halone earlier start _ hsteps y hy cmd.origin e hsaves
    obtain ⟨anchoring, hout, hviolation⟩ := step_judge_below hphase (hbelow.trans_le hstored)
    refine ⟨anchoring, ?_, hviolation⟩
    have hx : x ∈ earlier ++ start :: (later ++ x :: rest) := by simp
    rw [← output_of_mem (hsteps ▸ hx), hinput, hout]

end

/-! ### Two commands of one origin -/

def cutCommand : AnchorCommand where
  server := cutServer
  env := cutEnv 2000
  serverUrl := "https://drive.example"
  served := cutServed
  repo := some cutRepo
  useCache := true

def blindCommand : AnchorCommand where
  server := fun _ => .error (.generic "offline")
  env := ⟨none, 2000, fun _ _ => .error (.generic "offline")⟩
  serverUrl := "https://drive.example"
  served := ⟨1, none, epochOne_pos⟩
  repo := some cutRepo
  useCache := true

lemma blindCommand_anchored (st : OriginState) (hhighest : st.highestEpoch ≤ 1)
    (hcache : st.anchorCache = none) :
    ∃ anchoring t, anchorLoaded cutPrimitives cutFromStr blindCommand.server blindCommand.env st
      blindCommand.serverUrl blindCommand.served blindCommand.repo blindCommand.useCache
      (⟨[], []⟩ : Session String Unit) =
        .ok ((anchoring, updateState st 1 (.anchored .legacy) 2000), t) ∧
        anchoring.verdict = .anchored .legacy := by
  have hcached : cachedAnswer cutPrimitives cutFromStr st blindCommand.served blindCommand.repo
      blindCommand.env.now blindCommand.useCache = none := by
    simp [cachedAnswer, blindCommand, cachedVerdict, hcache]
  exact ⟨_, _, anchorLoaded_unread hcached (fun _ => rfl) rfl hhighest, rfl⟩

lemma cutCommand_anchored (st : OriginState) (hhighest : st.highestEpoch ≤ 2) (hcache : st.anchorCache = none) :
    ∃ anchoring st' t, anchorLoaded cutPrimitives cutFromStr cutCommand.server cutCommand.env st
      cutCommand.serverUrl cutCommand.served cutCommand.repo cutCommand.useCache
      (⟨[], []⟩ : Session String Unit) =
        .ok ((anchoring, st'), t) ∧ anchoring.verdict = .anchored cutMode ∧
      st'.highestEpoch = 2 := by
  have hcached : cachedAnswer cutPrimitives cutFromStr st cutCommand.served cutCommand.repo cutCommand.env.now
      cutCommand.useCache = none := by
    simp [cachedAnswer, cutCommand, cachedVerdict, hcache]
  obtain ⟨cache, -, hfresh⟩ :=
    anchorFresh_cut 2000 hhighest (⟨[], []⟩ : Session String Unit) cutCommand.serverUrl cutServer rfl rfl
  rw [anchorLoaded, hcached]
  exact ⟨_, _, _, hfresh, rfl, max_eq_right hhighest⟩

section

variable {p : Primitives} {fromStr : String → Except String Json} {m : Machine} {c : ℕ} {cmd : AnchorCommand}
  {anchoring : Anchoring} {st st' : OriginState} {all : Json} {t : Session String Unit}

lemma step_load (h : m.commands c = .idle) : m.step p fromStr (.load c cmd) =
    (m.setPhase c (.loaded cmd (loadState m.file cmd.origin)), none) := by
  simp only [step, h]

lemma step_judge (h : m.commands c = .loaded cmd st)
    (hok : anchorLoaded p fromStr cmd.server cmd.env st cmd.serverUrl cmd.served cmd.repo cmd.useCache
      ⟨[], []⟩ = .ok ((anchoring, st'), t)) :
    m.step p fromStr (.judge c) = (m.setPhase c (.judged cmd anchoring st'), some anchoring) := by
  simp only [step, h, hok]

lemma step_read (h : m.commands c = .judged cmd anchoring st) : m.step p fromStr (.read c) =
    (m.setPhase c (.saving cmd anchoring st (saveState m.file cmd.origin st)), none) := by
  simp only [step, h]

lemma step_write (h : m.commands c = .saving cmd anchoring st all) : m.step p fromStr (.write c) =
    ({ m.setPhase c (.written cmd anchoring st all) with tmp := some all }, none) := by
  simp only [step, h]

lemma step_rename {new : Json} (h : m.commands c = .written cmd anchoring st all) (htmp : m.tmp = some new) :
    m.step p fromStr (.rename c) = ({ m.setPhase c .done with file := some new, tmp := none }, none) := by
  simp only [step, h, htmp]

end

/-- Two commands of one origin overlap: the one that was served epoch 1 saves last, and takes the
ratchet back. -/
theorem ratchet_lost_on_overlap :
    let run := steps (step cutPrimitives cutFromStr) ⟨none, none, fun _ => .idle⟩
      [.load 0 cutCommand, .load 1 blindCommand, .judge 0, .read 0, .write 0, .rename 0, .judge 1, .read 1,
        .write 1, .rename 1, .load 2 blindCommand, .judge 2]
    (∃ x ∈ run, (loadState x.before.file cutCommand.origin).highestEpoch = 2 ∧
      (loadState x.after.file cutCommand.origin).highestEpoch = 1) ∧
    ∃ x ∈ run, x.input = .judge 2 ∧ ∃ anchoring, x.output = some anchoring ∧
      anchoring.verdict = .anchored .legacy := by
  have horigin : blindCommand.origin = cutCommand.origin := rfl
  obtain ⟨a₀, st₀, t₀, hcut, -, hhighest⟩ :=
    cutCommand_anchored (loadState none cutCommand.origin) (Fin.zero_le 2) rfl
  obtain ⟨a₁, t₁, hblind, -⟩ := blindCommand_anchored (loadState none blindCommand.origin) (Fin.zero_le 1) rfl
  obtain ⟨a₂, t₂, hlast, hlegacy⟩ := blindCommand_anchored
    (updateState (loadState none blindCommand.origin) 1 (.anchored .legacy) 2000) (by decide) rfl
  dsimp only
  rw [steps, step_load (by rfl), steps, step_load (by rfl), steps, step_judge (by rfl) hcut, steps,
    step_read (by rfl), steps, step_write (by rfl), steps, step_rename (by rfl) (by rfl), steps,
    step_judge (by rfl) hblind, steps, step_read (by rfl), steps, step_write (by rfl), steps,
    step_rename (by rfl) (by rfl), steps, step_load (by rfl), loadState_saveState_self, steps,
    step_judge (by rfl) hlast]
  refine ⟨⟨_, List.mem_of_getElem? (i := 9) rfl, ?_, ?_⟩, _, List.mem_of_getElem? (i := 11) rfl, rfl, a₂,
    rfl, hlegacy⟩
  · exact (congrArg OriginState.highestEpoch (loadState_saveState_self _ _ st₀)).trans hhighest
  · exact congrArg OriginState.highestEpoch (loadState_saveState_self _ blindCommand.origin _)

lemma eq_of_concat_eq {α : Type} (xs : List α) {earlier later : List α} {last start : α}
    (h : xs ++ [last] = earlier ++ start :: later) (hstart : start ∉ xs) : earlier = xs := by
  rcases List.eq_nil_or_concat later with rfl | ⟨later, last', rfl⟩
  · exact (List.append_inj' h rfl).1.symm
  · rw [List.concat_eq_append, ← List.cons_append, ← List.append_assoc] at h
    have hxs := (List.append_inj' h rfl).1
    exact absurd (by simp [hxs]) hstart

/-- The same commands one after the other: the second gets a violation. -/
theorem ratchet_of_undisturbed_in_turn :
    ∃ x ∈ steps (step cutPrimitives cutFromStr) ⟨none, none, fun _ => .idle⟩
      [.load 0 cutCommand, .judge 0, .read 0, .write 0, .rename 0, .load 1 blindCommand, .judge 1],
      x.input = .judge 1 ∧ ∃ anchoring, x.output = some anchoring ∧ anchoring.verdict.isViolation := by
  obtain ⟨a₀, st₀, t₀, hcut, hverdict, -⟩ :=
    cutCommand_anchored (loadState none cutCommand.origin) (Fin.zero_le 2) rfl
  have halone : Always (fun past e => ∀ c, e = .rename c → Undisturbed past c)
      [.load 0 cutCommand, .judge 0, .read 0, .write 0, .rename 0, .load 1 blindCommand, .judge 1] := by
    simp only [always_cons, MachineEvent.rename.injEq, reduceCtorEq, false_imp_iff, implies_true, true_and,
      always_nil, and_true]
    rintro c rfl
    constructor <;> simp [SaveAlone, OriginAlone, eq_comm]
  have hrun := ratchet_of_undisturbed cutPrimitives cutFromStr none none _ halone
  rw [steps, step_load (by rfl), steps, step_judge (by rfl) hcut, steps, step_read (by rfl), steps,
    step_write (by rfl), steps, step_rename (by rfl) (by rfl), steps, step_load (by rfl), steps,
    steps] at hrun ⊢
  obtain ⟨-, -, hjudge⟩ := hrun [_, _, _, _, _, _] _ [] rfl
  obtain ⟨earlier, start, ⟨⟨later, hpast⟩, hload, -⟩, hearlier⟩ := hjudge 1 blindCommand _ rfl rfl
  have hsplit := eq_of_concat_eq [_, _, _, _, _] hpast ?_
  · have hsaved : SavesEpoch (earlier.getLast?.getD start) blindCommand.origin 2 := by
      rw [hsplit]
      exact ⟨0, cutCommand, a₀, st₀, _, cutMode, rfl, rfl, rfl, rfl, hverdict, rfl⟩
    refine ⟨_, List.mem_of_getElem? (i := 6) rfl, rfl, hearlier _ ?_ 2 hsaved (by decide)⟩
    rw [hsplit]
    exact List.mem_of_getElem? (i := 4) rfl
  · -- none of the first five steps loads command 1
    simp only [List.mem_cons, List.not_mem_nil, or_false]
    rintro (rfl | rfl | rfl | rfl | rfl) <;> cases hload

end SignetDrive.Proofs
