import SignetDrive.Proofs.AnchorJudge

namespace SignetDrive.Proofs
open Run

/-- The server always serves `e`, and whenever the files can be read they show a later epoch. -/
structure StaysBehind (e : U16) (st : OriginState) (inputs : List Judgement) : Prop where
  served : ∀ j ∈ inputs, j.served.epoch = e
  time : inputs.Pairwise fun i j => i.now ≤ j.now
  files : ∀ j ∈ inputs, ∀ a ∈ j.anchors, e < a.maxEpoch
  sighted : ∀ t ∈ st.firstUnanchored e, ∀ j ∈ inputs, t ≤ j.now

/-- The files can be read, and could be read once at least fifteen minutes before. -/
def Late (past : List Judgement) (j : Judgement) : Prop :=
  j.anchors.isSome ∧ ∃ f ∈ past, f.anchors.isSome ∧ f.now.val + 900 ≤ j.now.val

instance (past : List Judgement) (j : Judgement) : Decidable (Late past j) := by
  unfold Late
  infer_instance

/-- The files could be read at least fifteen minutes before, and every time since. -/
def ReadSince (past : List Judgement) (j : Judgement) : Prop :=
  ∃ y, Since (fun z => z.anchors.isSome) y past ∧ y.anchors.isSome ∧ y.now.val + 900 ≤ j.now.val

section

variable {e : U16} {st : OriginState} {inputs : List Judgement} {x : JudgeStep}

section

variable (h : StaysBehind e st inputs)

include h

lemma StaysBehind.violation_of_ratchet (hbelow : e < st.highestEpoch)
    (hx : x ∈ steps judgeAndUpdate st inputs) : x.output.isViolation := by
  have hratchet : Always (fun _ x => e < x.before.highestEpoch) (steps judgeAndUpdate st inputs) := by
    apply invariant (fun _ (st : OriginState) => e < st.highestEpoch) hbelow
    intro past x rest hsteps hlt
    have hstep := step_of_eq_append hsteps
    have hrise := (judgeAndUpdate_highest x.before x.input).1
    rw [hstep] at hrise
    exact lt_of_lt_of_le hlt hrise
  have hlt := hratchet.of_mem hx
  rw [← h.served _ (input_mem hx)] at hlt
  rw [← output_of_mem hx]
  exact (judgeAndUpdate_below hlt).1

variable (hle : st.highestEpoch ≤ e)

include hle

section

variable (hx : x ∈ steps judgeAndUpdate st inputs)

include hx

lemma StaysBehind.ratchet_le : x.before.highestEpoch ≤ e := by
  have hratchet : Always (fun _ x => x.before.highestEpoch ≤ e) (steps judgeAndUpdate st inputs) := by
    apply invariant (fun _ (st : OriginState) => st.highestEpoch ≤ e) hle
    intro past x rest hsteps hle
    have hx : x ∈ steps judgeAndUpdate st inputs := by rw [hsteps]; simp
    have hrise := (judgeAndUpdate_highest x.before x.input).2
    rw [step_of_mem hx, h.served _ (input_mem hx)] at hrise
    exact hrise.trans (max_le hle le_rfl)
  exact hratchet.of_mem hx

lemma StaysBehind.output_read (hread : x.input.anchors.isSome) :
    ∃ why, x.output = softOrHard (x.before.age e x.input.now) why := by
  obtain ⟨a, ha⟩ := Option.isSome_iff_exists.mp hread
  have hserved := h.served _ (input_mem hx)
  have hbelow : ¬ e < x.before.highestEpoch := not_lt.mpr (h.ratchet_le hle hx)
  have hfiles := h.files _ (input_mem hx) a ha
  have hstep := output_of_mem hx
  simp only [judgeAndUpdate, judgeEpoch, hserved, if_neg hbelow, ha, if_pos hfiles] at hstep
  exact ⟨_, hstep.symm⟩

lemma StaysBehind.output_unread (hread : x.input.anchors.isSome = false) :
    if e = 1 then x.output = .anchored .legacy else ∃ why, x.output = .unanchored why := by
  have ha := Option.isSome_eq_false_iff.mp hread
  rw [Option.isNone_iff_eq_none] at ha
  have hserved := h.served _ (input_mem hx)
  have hpos : 1 ≤ e := hserved ▸ x.input.served.pos
  have hbelow : ¬ e < x.before.highestEpoch := not_lt.mpr (h.ratchet_le hle hx)
  have hstep := output_of_mem hx
  simp only [judgeAndUpdate, judgeEpoch, hserved, if_neg hbelow, ha] at hstep
  split
  next hone =>
    rw [if_pos hone.le] at hstep
    exact hstep.symm
  next hne =>
    have hgt : ¬ e ≤ 1 := fun hle => hne (le_antisymm hle hpos)
    rw [if_neg hgt] at hstep
    exact ⟨_, hstep.symm⟩

lemma StaysBehind.sighted_after (hread : x.input.anchors.isSome ∨ e ≠ 1) :
    ∃ t, x.after.firstUnanchored e = some t ∧ t ≤ x.input.now := by
  have hserved := h.served _ (input_mem hx)
  cases hanchors : x.input.anchors.isSome with
  | false =>
    have hout := h.output_unread hle hx hanchors
    simp [hanchors] at hread
    rw [if_neg hread] at hout
    obtain ⟨why, hwhy⟩ := hout
    exact sighted_of_unanchored h.time h.sighted hx hserved hwhy
  | true =>
    obtain ⟨why, hout⟩ := h.output_read hle hx hanchors
    cases hv : x.output with
    | anchored mode => exact absurd (hout.symm.trans hv) softOrHard_ne_anchored
    | unanchored why' => exact sighted_of_unanchored h.time h.sighted hx hserved hv
    | violation why' =>
      have hviolation : (softOrHard (x.before.age e x.input.now) why).isViolation := by
        rw [← hout, hv]
        rfl
      obtain ⟨t, ht, -⟩ := softOrHard_isViolation.mp hviolation
      have hlatch := sighting_latch e x hx
      rw [sightingEffect, hv] at hlatch
      exact ⟨t, hlatch.trans ht, sighting_le_now h.time h.sighted hx ht⟩

lemma StaysBehind.not_clear_iff :
    sightingEffect e x ≠ .clear ↔ x.input.anchors.isSome ∨ e ≠ 1 := by
  have hserved := h.served _ (input_mem hx)
  constructor
  · intro hkeep
    by_contra! hunread
    have hout := h.output_unread hle hx (by simpa using hunread.1)
    rw [if_pos hunread.2] at hout
    exact hkeep (sightingEffect_anchored hout hserved.ge)
  · intro hread hclear
    obtain ⟨⟨mode, hmode⟩, -⟩ := sightingEffect_clear hclear
    cases hanchors : x.input.anchors.isSome with
    | false =>
      have hout := h.output_unread hle hx hanchors
      simp [hanchors] at hread
      rw [if_neg hread] at hout
      obtain ⟨why, hwhy⟩ := hout
      cases hwhy.symm.trans hmode
    | true =>
      obtain ⟨why, hwhy⟩ := h.output_read hle hx hanchors
      exact softOrHard_ne_anchored (hwhy.symm.trans hmode)

end

lemma StaysBehind.violation_of_since {past rest : List JudgeStep}
    (hsteps : steps judgeAndUpdate st inputs = past ++ x :: rest) (hread : x.input.anchors.isSome)
    {y : JudgeStep}
    (hy : Since (fun z => z.input.anchors.isSome ∨ e ≠ 1) y past)
    (hyread : y.input.anchors.isSome ∨ e ≠ 1) (hold : y.input.now.val + 900 ≤ x.input.now.val) :
    x.output.isViolation := by
  have hx : x ∈ steps judgeAndUpdate st inputs := by rw [hsteps]; simp
  have hpast : ∀ z ∈ past, z ∈ steps judgeAndUpdate st inputs := by
    intro z hz
    rw [hsteps]
    simp [hz]
  obtain ⟨t, ht, htnow⟩ := h.sighted_after hle (hpast y hy.mem) hyread
  have hstays := sighting_stays st inputs e past x rest hsteps y t
    (hy.mono fun z hz hkeep => (h.not_clear_iff hle (hpast z hz)).mpr hkeep) ht
  obtain ⟨why, hout⟩ := h.output_read hle hx hread
  rw [hout, softOrHard_isViolation]
  exact ⟨t, hstays, (Nat.add_le_add_right htnow 900).trans hold⟩

/-- While epoch 1 is served: a late reading is a violation exactly when the files could be read
fifteen minutes before and ever since. -/
lemma StaysBehind.late_iff (hone : e = 1)
    {past rest : List JudgeStep}
    (hsteps : steps judgeAndUpdate st inputs = past ++ x :: rest)
    (hlate : Late (past.map Step.input) x.input) :
    x.output.isViolation ↔ ReadSince (past.map Step.input) x.input := by
  have hx : x ∈ steps judgeAndUpdate st inputs := by rw [hsteps]; simp
  have hkeeps : ∀ z ∈ past, sightingEffect e z ≠ .clear → z.input.anchors.isSome := by
    intro z hz hkeep
    have hread := (h.not_clear_iff hle (by rw [hsteps]; simp [hz])).mp hkeep
    simpa [hone] using hread
  constructor
  · intro hviolation
    obtain ⟨why, hout⟩ := h.output_read hle hx hlate.1
    rw [hout, softOrHard_isViolation] at hviolation
    obtain ⟨t, ht, hold⟩ := hviolation
    rcases sighting_origin st inputs e past x rest hsteps t ht with ⟨y, hy, hrecord⟩ | ⟨-, hpast⟩
    · have hyread : y.input.anchors.isSome := hkeeps y hy.mem (by simp [hrecord])
      rw [← (sightingEffect_record hrecord).2.2] at hold
      exact ⟨y.input, since_map.mpr ⟨y, rfl, hy.mono hkeeps⟩, hyread, hold⟩
    · -- the sighting is older than the run, and the files could be read all along
      obtain ⟨f, hf, hfread, hfold⟩ := hlate.2
      obtain ⟨y, hy, rfl⟩ := List.mem_map.mp hf
      have hall : ∀ z ∈ past, z.input.anchors.isSome := fun z hz => hkeeps z hz (hpast z hz)
      exact ⟨y.input, since_map.mpr ⟨y, rfl, since_of_forall hy hall⟩, hfread, hfold⟩
  · rintro ⟨j, hj, hread, hold⟩
    obtain ⟨y, rfl, hy⟩ := since_map.mp hj
    exact h.violation_of_since hle hsteps hlate.1 (hy.mono fun z _ hz => Or.inl hz) (Or.inl hread) hold

end

/-- The bound holds a server that stays behind the files exactly if it serves a later epoch than
1, or an epoch below the ratchet, or each late reading ends fifteen minutes without a failed one. -/
theorem late_violation_iff (e : U16) (st : OriginState) (inputs : List Judgement)
    (h : StaysBehind e st inputs) :
    Always (fun past x => Late (past.map Step.input) x.input → x.output.isViolation)
        (steps judgeAndUpdate st inputs) ↔
      (st.highestEpoch ≤ e → e = 1 → Always (fun past j => Late past j → ReadSince past j) inputs) := by
  by_cases hle : st.highestEpoch ≤ e
  · by_cases hone : e = 1
    · rw [forall_prop_of_true hle, forall_prop_of_true hone, always_input judgeAndUpdate st]
      apply Always.congr
      intro past x rest hsteps
      exact ⟨fun hv hlate => (h.late_iff hle hone hsteps hlate).mp (hv hlate),
        fun hr hlate => (h.late_iff hle hone hsteps hlate).mpr (hr hlate)⟩
    · refine iff_of_true ?_ (fun _ hone' => absurd hone' hone)
      intro past x rest hsteps hlate
      obtain ⟨hread, f, hf, hfread, hold⟩ := hlate
      obtain ⟨y, hy, rfl⟩ := List.mem_map.mp hf
      exact h.violation_of_since hle hsteps hread (since_of_forall hy fun _ _ => Or.inr hone)
        (Or.inr hone) hold
  · refine iff_of_true ?_ (fun hle' => absurd hle' hle)
    intro past x rest hsteps _
    exact h.violation_of_ratchet (not_le.mp hle) (by rw [hsteps]; simp)

end

def cutFiles : Anchors := ⟨[⟨1, 11, .replicate 32 0xa4, true⟩], []⟩

def servedOne : ServedEpoch := ⟨1, none, epochOne_pos⟩

def readings (times : List (U64 × Bool)) : List Judgement :=
  times.map fun t => ⟨servedOne, if t.2 then some cutFiles else none, t.1⟩

lemma readings_staysBehind {times : List (U64 × Bool)} (h : times.Pairwise fun s t => s.1 ≤ t.1) :
    StaysBehind 1 .default (readings times) where
  served := by
    intro j hj
    obtain ⟨t, -, rfl⟩ := List.mem_map.mp hj
    rfl
  time := List.pairwise_map.mpr h
  files := by
    intro j hj a ha
    obtain ⟨⟨t, read⟩, -, rfl⟩ := List.mem_map.mp hj
    cases read with
    | false => cases ha
    | true =>
      obtain rfl : cutFiles = a := Option.some.inj ha
      decide
  sighted := by
    intro t ht
    cases ht

/-- The files are withheld once, ten minutes after they were first read: fifteen minutes after
that first reading, the server is still only unanchored. -/
theorem late_violation_withheld :
    StaysBehind 1 .default (readings [(0, true), (600, false), (1000, true)]) ∧
      ¬ Always (fun past x => Late (past.map Step.input) x.input → x.output.isViolation)
        (steps judgeAndUpdate .default (readings [(0, true), (600, false), (1000, true)])) := by
  exact ⟨readings_staysBehind (by decide), by decide⟩

theorem late_violation_iff_read :
    Always (fun past x => Late (past.map Step.input) x.input → x.output.isViolation)
      (steps judgeAndUpdate .default (readings [(0, true), (300, true), (1000, true)])) := by
  refine (late_violation_iff 1 _ _ (readings_staysBehind (by decide))).mpr ?_
  intro _ _ past j rest hinputs hlate
  have hread : ∀ z ∈ past, z.anchors.isSome := by
    intro z hz
    have hmem : z ∈ readings [(0, true), (300, true), (1000, true)] := by rw [hinputs]; simp [hz]
    simp only [readings, List.map_cons, List.map_nil, List.mem_cons, List.not_mem_nil, or_false] at hmem
    rcases hmem with rfl | rfl | rfl <;> rfl
  obtain ⟨f, hf, hfread, hold⟩ := hlate.2
  exact ⟨f, since_of_forall hf hread, hfread, hold⟩

end SignetDrive.Proofs
