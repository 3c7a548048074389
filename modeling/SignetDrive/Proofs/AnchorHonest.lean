import SignetDrive.Proofs.AnchorJudge

/-!
# An honest server and the bound

A sighting is the age of the disagreement at hand only if the epoch was anchored since every earlier
one.
-/

namespace SignetDrive.Proofs
open Run

/-- The cuts of an honest server: from when on the files carry each epoch and the server serves it, in
unix seconds. Epoch 1 needs no cut. -/
structure CutHistory where
  filesAt : U16 → ℕ
  servedAt : U16 → ℕ
  vrfKey : U16 → List.Vector UInt8 32
  genesis : U16 → Hash
  close : ∀ n, 1 < n → filesAt n < servedAt n + 900 ∧ servedAt n < filesAt n + 900

/-- The files at a time: one key line for each epoch that is cut, and the end of the epoch
before it. -/
structure HonestFiles (h : CutHistory) (now : U64) (a : Anchors) : Prop where
  keys : ∀ n, a.keys.filter (fun k => k.epoch = n) =
    if 1 < n ∧ h.filesAt n ≤ now.val then [⟨n, h.vrfKey n, h.genesis n⟩] else []
  ends : ∀ n, 1 < n → ((a.endLine (n - 1)).isSome ↔ h.filesAt n ≤ now.val)
  roots : ∀ r ∈ a.roots, r.epoch ≤ 1 ∨ h.filesAt r.epoch ≤ now.val

/-- The server serves the epoch it is in under that epoch's key, and the files that are read are
its own. -/
structure HonestStep (h : CutHistory) (j : Judgement) : Prop where
  serves : 1 < j.served.epoch → h.servedAt j.served.epoch ≤ j.now.val
  served_last : ∀ n, j.served.epoch < n → j.now.val < h.servedAt n
  key : 1 < j.served.epoch → j.served.vrfPublicKey = some (h.vrfKey j.served.epoch)
  files : ∀ a ∈ j.anchors, HonestFiles h j.now a

/-- Files are read that carry the served epoch and none after it. -/
def Agrees (j : Judgement) : Prop :=
  ∃ a ∈ j.anchors, a.maxEpoch ≤ j.served.epoch ∧ a.carries j.served.epoch = .ok true

/-- The epoch was served at least fifteen minutes before without agreeing files, and not with
agreeing ones since. -/
def Unsettled (past : List Judgement) (j : Judgement) : Prop :=
  ∃ y, Since (fun z => Agrees z → z.served.epoch ≠ j.served.epoch) y past ∧ ¬ Agrees y ∧
    y.served.epoch = j.served.epoch ∧ y.now.val + 900 ≤ j.now.val

section

variable {h : CutHistory} {now : U64} {a : Anchors} {e : U16} {j : Judgement} {st : OriginState}

lemma HonestFiles.key (hfiles : HonestFiles h now a) (n : U16) :
    a.key n = .ok (if 1 < n ∧ h.filesAt n ≤ now.val then some ⟨n, h.vrfKey n, h.genesis n⟩ else none) := by
  rw [Anchors.key, hfiles.keys n]
  split_ifs <;> rfl

lemma HonestFiles.carries (hfiles : HonestFiles h now a) (n : U16) :
    a.carries n = .ok (decide (n ≤ 1 ∨ h.filesAt n ≤ now.val)) := by
  by_cases hn : n ≤ 1
  · simp [Anchors.carries, hn]
  · have hcut := hfiles.ends n (not_le.mp hn)
    simp only [Anchors.carries, hn, if_false, hfiles.key, not_le.mp hn, true_and]
    by_cases hat : h.filesAt n ≤ now.val
    · have hend := hcut.mpr hat
      simp only [hat, if_true]
      rw [hend]
      rfl
    · simp only [hat, if_false]
      rfl

lemma HonestFiles.exists_of_lt (hfiles : HonestFiles h now a) (he : 1 ≤ e) (hlt : e < a.maxEpoch) :
    ∃ n, e < n ∧ h.filesAt n ≤ now.val := by
  by_contra! hnone
  refine absurd ((maxEpoch_le_iff he).mpr ⟨?_, ?_, ?_⟩) (not_le.mpr hlt)
  · intro k hk
    by_contra! hek
    have hmem : k ∈ a.keys.filter (fun k' => k'.epoch = k.epoch) := by simp [hk]
    rw [hfiles.keys, if_neg (fun hcut => not_lt.mpr hcut.2 (hnone k.epoch hek))] at hmem
    cases hmem
  · intro r hr hend
    by_contra! her
    -- an end line of the last epoch that fits is no lower than a root of it
    by_cases hlast : r.epoch.val + 1 < 2 ^ 16
    · have hsucc : r.epoch.saturatingSucc - 1 = r.epoch := by
        apply Fin.ext
        simp only [U16.saturatingSucc, Fin.sub_def]
        have h1 : ((1 : U16) : ℕ) = 1 := rfl
        rw [h1]
        omega
      have hfound : (a.endLine (r.epoch.saturatingSucc - 1)).isSome := by
        rw [hsucc, Anchors.endLine, List.find?_isSome]
        exact ⟨r, hr, by simp [hend]⟩
      have hat := (hfiles.ends _ (lt_of_le_of_lt he her)).mp hfound
      exact not_lt.mpr hat (hnone _ her)
    · have hsame : r.epoch.saturatingSucc = r.epoch := by
        apply Fin.ext
        have hr' := r.epoch.isLt
        simp only [U16.saturatingSucc]
        omega
      rw [hsame] at her
      rcases hfiles.roots r hr with hone | hat
      · exact absurd (lt_of_le_of_lt he her) (not_lt.mpr hone)
      · exact not_lt.mpr hat (hnone _ her)
  · intro r hr
    by_contra! her
    rcases hfiles.roots r hr with hone | hat
    · exact absurd (lt_of_le_of_lt he her) (not_lt.mpr hone)
    · exact not_lt.mpr hat (hnone _ her)

lemma HonestStep.anchored (hstep : HonestStep h j) (hle : st.highestEpoch ≤ j.served.epoch)
    (hagrees : Agrees j) : ∃ mode, (judgeAndUpdate st j).2 = .anchored mode := by
  obtain ⟨a, ha, hmax, hcarries⟩ := hagrees
  have hfiles := hstep.files a ha
  simp only [judgeAndUpdate, judgeEpoch, if_neg (not_lt.mpr hle), Option.mem_def.mp ha,
    if_neg (not_lt.mpr hmax), judgeCarried, hcarries]
  by_cases hone : j.served.epoch = 1
  · exact ⟨.legacy, by rw [if_pos hone]⟩
  · have hgt : 1 < j.served.epoch := lt_of_le_of_ne j.served.pos (Ne.symm hone)
    rw [hfiles.carries, Except.ok.injEq, decide_eq_true_eq, or_iff_right (not_le.mpr hgt)] at hcarries
    rw [if_neg hone, hfiles.key, if_pos ⟨hgt, hcarries⟩]
    simp only [judgeKey, hstep.key hgt]
    exact ⟨_, rfl⟩

lemma HonestStep.disagrees (hstep : HonestStep h j) (hle : st.highestEpoch ≤ j.served.epoch)
    (hread : j.anchors.isSome) (hagrees : ¬ Agrees j) :
    ∃ why, (judgeAndUpdate st j).2 = softOrHard (st.age j.served.epoch j.now) why := by
  obtain ⟨a, ha⟩ := Option.isSome_iff_exists.mp hread
  have hfiles := hstep.files a ha
  simp only [judgeAndUpdate, judgeEpoch, if_neg (not_lt.mpr hle), ha]
  by_cases hlt : j.served.epoch < a.maxEpoch
  · exact ⟨_, if_pos hlt⟩
  · have hcarries : a.carries j.served.epoch = .ok false := by
      have hne : a.carries j.served.epoch ≠ .ok true := fun hok => hagrees ⟨a, ha, not_lt.mp hlt, hok⟩
      rw [hfiles.carries] at hne ⊢
      simpa using hne
    have hone : j.served.epoch ≠ 1 := by
      intro hone
      rw [hfiles.carries, hone] at hcarries
      simp at hcarries
    rw [if_neg hlt, judgeCarried, if_neg hone, hcarries]
    exact ⟨_, rfl⟩

lemma judge_unread (hle : st.highestEpoch ≤ j.served.epoch) (hread : j.anchors = none) :
    (judgeAndUpdate st j).2.isViolation = false ∧
      (1 < j.served.epoch → ∃ why, (judgeAndUpdate st j).2 = .unanchored why) ∧
      (j.served.epoch = 1 → ∃ mode, (judgeAndUpdate st j).2 = .anchored mode) := by
  simp only [judgeAndUpdate, judgeEpoch, if_neg (not_lt.mpr hle), hread]
  by_cases hone : j.served.epoch ≤ 1
  · rw [if_pos hone]
    exact ⟨rfl, fun hgt => absurd hone (not_le.mpr hgt), fun _ => ⟨_, rfl⟩⟩
  · rw [if_neg hone]
    exact ⟨rfl, fun _ => ⟨_, rfl⟩, fun heq => absurd heq.le hone⟩

end

section

variable {h : CutHistory} {inputs : List Judgement} {x : JudgeStep}

lemma HonestStep.served_mono {i j : Judgement} (hi : HonestStep h i) (hj : HonestStep h j)
    (htime : i.now ≤ j.now) : i.served.epoch ≤ j.served.epoch := by
  by_contra! hlt
  have hserved := hi.serves (lt_of_le_of_lt j.served.pos hlt)
  have hlater := hj.served_last _ hlt
  exact absurd (hserved.trans htime) (not_le.mpr hlater)

variable (htime : inputs.Pairwise fun i j => i.now ≤ j.now) (hhonest : ∀ j ∈ inputs, HonestStep h j)

include htime hhonest in
lemma honest_served_mono : Always (fun past x => ∀ y ∈ past, y.input.served.epoch ≤ x.input.served.epoch)
    (steps judgeAndUpdate .default inputs) := by
  have hpast : Always (fun past x => ∀ y ∈ past, y.input.now ≤ x.input.now)
      (steps judgeAndUpdate .default inputs) := always_pairwise_input htime
  intro past x rest hsteps y hy
  have hmem : ∀ z ∈ past ++ x :: rest, z.input ∈ inputs := fun z hz => input_mem (hsteps ▸ hz)
  exact (hhonest _ (hmem y (by simp [hy]))).served_mono (hhonest _ (hmem x (by simp)))
    (hpast past x rest hsteps y hy)

include htime hhonest in
lemma honest_ratchet (hx : x ∈ steps judgeAndUpdate .default inputs) :
    x.before.highestEpoch ≤ x.input.served.epoch := by
  have hratchet : Always (fun past x => x.before.highestEpoch = 0 ∨
      ∃ y ∈ past, x.before.highestEpoch ≤ y.input.served.epoch) (steps judgeAndUpdate .default inputs) := by
    apply invariant (fun (past : List JudgeStep) st => st.highestEpoch = 0 ∨
      ∃ y ∈ past, st.highestEpoch ≤ y.input.served.epoch) (Or.inl rfl)
    intro past x rest hsteps ih
    have hrise := (judgeAndUpdate_highest x.before x.input).2
    rw [step_of_eq_append hsteps, le_max_iff] at hrise
    rcases hrise with hsame | hserved
    · rcases ih with hzero | ⟨y, hy, hle⟩
      · rw [hzero] at hsame
        exact Or.inl (le_antisymm hsame (Fin.zero_le _))
      · exact Or.inr ⟨y, by simp [hy], hsame.trans hle⟩
    · exact Or.inr ⟨x, by simp, hserved⟩
  obtain ⟨past, rest, hsteps⟩ := List.append_of_mem hx
  rcases hratchet past x rest hsteps with hzero | ⟨y, hy, hle⟩
  · rw [hzero]
    exact Fin.zero_le _
  · exact hle.trans (honest_served_mono htime hhonest past x rest hsteps y hy)

include htime hhonest in
lemma honest_anchored_iff (hx : x ∈ steps judgeAndUpdate .default inputs) (hgt : 1 < x.input.served.epoch) :
    (∃ mode, x.output = .anchored mode) ↔ Agrees x.input := by
  have hstep := hhonest _ (input_mem hx)
  have hle := honest_ratchet htime hhonest hx
  rw [← output_of_mem hx]
  constructor
  · rintro ⟨mode, hmode⟩
    by_contra hdis
    cases hread : x.input.anchors with
    | none =>
      obtain ⟨why, hwhy⟩ := (judge_unread hle hread).2.1 hgt
      cases hwhy.symm.trans hmode
    | some a =>
      obtain ⟨why, hwhy⟩ := hstep.disagrees hle (by rw [hread]; rfl) hdis
      exact softOrHard_ne_anchored (hwhy.symm.trans hmode)
  · exact hstep.anchored hle

include htime hhonest in
lemma honest_violation_iff (hx : x ∈ steps judgeAndUpdate .default inputs) :
    x.output.isViolation ↔ x.input.anchors.isSome ∧ ¬ Agrees x.input ∧
      ∃ t ∈ x.before.firstUnanchored x.input.served.epoch, t.val + 900 ≤ x.input.now.val := by
  have hstep := hhonest _ (input_mem hx)
  have hle := honest_ratchet htime hhonest hx
  rw [← output_of_mem hx]
  cases hread : x.input.anchors with
  | none => simp [(judge_unread hle hread).1]
  | some a =>
    by_cases hagrees : Agrees x.input
    · obtain ⟨mode, hmode⟩ := hstep.anchored hle hagrees
      simp [hmode, hagrees, EpochVerdict.isViolation]
    · obtain ⟨why, hwhy⟩ := hstep.disagrees hle (by rw [hread]; rfl) hagrees
      rw [hwhy, softOrHard_isViolation]
      simp [hagrees]

/-- While epoch 1 is served, two disagreements are less than fifteen minutes apart: the first cut
is served by then. -/
lemma HonestStep.first_window {i j : Judgement} (hi : HonestStep h i) (hj : HonestStep h j)
    (hread : i.anchors.isSome) (hdis : ¬ Agrees i) (hione : i.served.epoch = 1)
    (hjone : j.served.epoch = 1) : j.now.val < i.now.val + 900 := by
  obtain ⟨a, ha⟩ := Option.isSome_iff_exists.mp hread
  have hfiles := hi.files a ha
  have hmax : 1 < a.maxEpoch := by
    by_contra! hle
    refine hdis ⟨a, ha, hione ▸ hle, ?_⟩
    rw [hione, hfiles.carries]
    rfl
  obtain ⟨n, hn, hat⟩ := hfiles.exists_of_lt le_rfl hmax
  have hclose := (h.close n hn).2
  have hlater := hj.served_last n (hjone ▸ hn)
  omega

lemma default_not_sighted (inputs : List Judgement) (k : U16) :
    ∀ t ∈ OriginState.default.firstUnanchored k, ∀ j ∈ inputs, t ≤ j.now := by
  intro t ht
  cases ht

include htime hhonest in
lemma violation_of_unsettled {past rest : List JudgeStep}
    (hsteps : steps judgeAndUpdate .default inputs = past ++ x :: rest)
    (hnone : ∀ y ∈ past, ¬ y.output.isViolation) (hread : x.input.anchors.isSome)
    (hdis : ¬ Agrees x.input) (hgt : 1 < x.input.served.epoch)
    (hunsettled : Unsettled (past.map Step.input) x.input) : x.output.isViolation := by
  have hpast : ∀ z ∈ past, z ∈ steps judgeAndUpdate .default inputs := by
    intro z hz
    rw [hsteps]
    simp [hz]
  obtain ⟨j, hj, hydis, hepoch, hold⟩ := hunsettled
  obtain ⟨y, rfl, hy⟩ := since_map.mp hj
  have hymem := hpast y hy.mem
  have hywhy : ∃ why, y.output = .unanchored why := by
    cases hout : y.output with
    | anchored mode =>
      exact absurd ((honest_anchored_iff htime hhonest hymem (hepoch ▸ hgt)).mp ⟨mode, hout⟩) hydis
    | unanchored why => exact ⟨why, rfl⟩
    | violation why => exact absurd (by rw [hout]; rfl) (hnone y hy.mem)
  obtain ⟨why, hwhy⟩ := hywhy
  obtain ⟨t, ht, htnow⟩ := sighted_of_unanchored htime (default_not_sighted inputs _) hymem hepoch hwhy
  -- a step that clears the sighting serves the same epoch, between two that do
  have hkeep : Since (fun z => sightingEffect x.input.served.epoch z ≠ .clear) y past := by
    refine hy.mono fun z hz hzkeep hclear => ?_
    obtain ⟨hanchored, hle⟩ := sightingEffect_clear hclear
    have hzepoch := le_antisymm (honest_served_mono htime hhonest past x rest hsteps z hz) hle
    exact hzkeep ((honest_anchored_iff htime hhonest (hpast z hz) (hzepoch ▸ hgt)).mp hanchored) hzepoch
  have hstays := sighting_stays .default inputs _ past x rest hsteps y t hkeep ht
  rw [honest_violation_iff htime hhonest (by rw [hsteps]; simp)]
  exact ⟨hread, hdis, t, hstays, (Nat.add_le_add_right htnow 900).trans hold⟩

include htime hhonest in
lemma exists_unanchored_of_violation {past rest : List JudgeStep}
    (hsteps : steps judgeAndUpdate .default inputs = past ++ x :: rest) (hviolation : x.output.isViolation) :
    ∃ y, Since (fun z => sightingEffect x.input.served.epoch z ≠ .clear) y past ∧
      (∃ why, y.output = .unanchored why) ∧ y.input.served.epoch = x.input.served.epoch ∧
      y.input.now.val + 900 ≤ x.input.now.val := by
  have hx : x ∈ steps judgeAndUpdate .default inputs := by rw [hsteps]; simp
  obtain ⟨-, -, t, ht, hold⟩ := (honest_violation_iff htime hhonest hx).mp hviolation
  rcases sighting_origin .default inputs _ past x rest hsteps t ht with ⟨y, hy, hrecord⟩ | ⟨hstart, -⟩
  · obtain ⟨hwhy, hepoch, rfl⟩ := sightingEffect_record hrecord
    exact ⟨y, hy, hwhy, hepoch, hold⟩
  · cases hstart

include htime hhonest in
lemma disagrees_of_unanchored (hx : x ∈ steps judgeAndUpdate .default inputs)
    (hone : x.input.served.epoch = 1) {why : String} (hwhy : x.output = .unanchored why) :
    x.input.anchors.isSome ∧ ¬ Agrees x.input := by
  have hle := honest_ratchet htime hhonest hx
  rw [← output_of_mem hx] at hwhy
  constructor
  · by_contra hunread
    rw [Bool.not_eq_true, Option.isSome_eq_false_iff, Option.isNone_iff_eq_none] at hunread
    obtain ⟨mode, hmode⟩ := (judge_unread hle hunread).2.2 hone
    cases hmode.symm.trans hwhy
  · intro hagrees
    obtain ⟨mode, hmode⟩ := (hhonest _ (input_mem hx)).anchored hle hagrees
    cases hmode.symm.trans hwhy

end

/-- An honest server is never accused exactly if no disagreement about a later epoch than 1 finds
that epoch unsettled. -/
theorem honest_no_violation_iff (h : CutHistory) (inputs : List Judgement)
    (htime : inputs.Pairwise fun i j => i.now ≤ j.now) (hhonest : ∀ j ∈ inputs, HonestStep h j) :
    (∀ x ∈ steps judgeAndUpdate .default inputs, ¬ x.output.isViolation) ↔
      Always (fun past j => j.anchors.isSome → ¬ Agrees j → 1 < j.served.epoch → ¬ Unsettled past j)
        inputs := by
  rw [always_input judgeAndUpdate .default]
  constructor
  · intro hnone past x rest hsteps hread hdis hgt hunsettled
    have hmem : ∀ z ∈ past ++ x :: rest, ¬ z.output.isViolation := fun z hz => hnone z (hsteps ▸ hz)
    exact hmem x (by simp) (violation_of_unsettled htime hhonest hsteps (fun y hy => hmem y (by simp [hy]))
      hread hdis hgt hunsettled)
  · intro hsettled x hx hviolation
    obtain ⟨hread, hdis, -⟩ := (honest_violation_iff htime hhonest hx).mp hviolation
    obtain ⟨past, rest, hsteps⟩ := List.append_of_mem hx
    obtain ⟨y, hy, ⟨why, hwhy⟩, hepoch, hold⟩ := exists_unanchored_of_violation htime hhonest hsteps hviolation
    have hpast : ∀ z ∈ past, z ∈ steps judgeAndUpdate .default inputs := by
      intro z hz
      rw [hsteps]
      simp [hz]
    have hymem := hpast y hy.mem
    rcases lt_or_eq_of_le x.input.served.pos with hgt | hone
    · refine hsettled past x rest hsteps hread hdis hgt ⟨y.input, since_map.mpr ⟨y, rfl, ?_⟩, ?_, hepoch, hold⟩
      · refine hy.mono fun z hz hzkeep hagrees hzepoch => hzkeep ?_
        obtain ⟨mode, hmode⟩ := (honest_anchored_iff htime hhonest (hpast z hz) (hzepoch ▸ hgt)).mpr hagrees
        exact sightingEffect_anchored hmode hzepoch.ge
      · intro hagrees
        obtain ⟨mode, hmode⟩ := (honest_anchored_iff htime hhonest hymem (hepoch ▸ hgt)).mpr hagrees
        cases hmode.symm.trans hwhy
    · have hyone : y.input.served.epoch = 1 := hepoch.trans hone.symm
      obtain ⟨hyread, hydis⟩ := disagrees_of_unanchored htime hhonest hymem hyone hwhy
      have hwindow := (hhonest _ (input_mem hymem)).first_window (hhonest _ (input_mem hx)) hyread hydis
        hyone hone.symm
      exact absurd hold (not_le.mpr hwindow)

def twoCuts : CutHistory where
  filesAt n := if n = 2 then 1000 else if n = 3 then 100000 else 2 ^ 64
  servedAt n := if n = 2 then 1300 else if n = 3 then 100300 else 2 ^ 64
  vrfKey _ := .replicate 32 7
  genesis _ := .replicate 32 9
  close := by
    intro n _
    split_ifs <;> omega

def filesAfter (cuts : List U16) : Anchors where
  roots := cuts.map fun c => ⟨c - 1, 11, .replicate 32 0xa4, true⟩
  keys := cuts.map fun c => ⟨c, .replicate 32 7, .replicate 32 9⟩

lemma filesAfter_honest {now : U64} {cuts : List U16} (hnodup : cuts.Nodup)
    (hcuts : ∀ n, n ∈ cuts ↔ 1 < n ∧ twoCuts.filesAt n ≤ now.val)
    (hpred : ∀ c ∈ cuts, c - 1 ≤ 1 ∨ c - 1 ∈ cuts) : HonestFiles twoCuts now (filesAfter cuts) where
  keys := by
    intro n
    have hfilter : cuts.filter (fun c => c = n) = if n ∈ cuts then [n] else [] := by
      simp only [← beq_eq_decide, List.filter_beq, hnodup.count]
      split_ifs <;> rfl
    simp only [filesAfter, List.filter_map, Function.comp_def, hfilter, hcuts]
    split_ifs <;> rfl
  ends := by
    intro n hn
    simp only [Anchors.endLine, filesAfter, List.find?_isSome, List.mem_map, exists_exists_and_eq_and,
      and_true, sub_left_inj, decide_eq_true_eq, exists_eq_right, hcuts, hn, true_and]
  roots := by
    intro r hr
    obtain ⟨c, hc, rfl⟩ := List.mem_map.mp hr
    rcases hpred c hc with hone | hmem
    · exact Or.inl hone
    · exact Or.inr ((hcuts _).mp hmem).2

def servedTwo : ServedEpoch := ⟨2, some (.replicate 32 7), epochTwo_pos⟩

lemma filesAt_twoCuts_iff {now : U64} {n : U16} : 1 < n ∧ twoCuts.filesAt n ≤ now.val ↔
    n = 2 ∧ 1000 ≤ now.val ∨ n = 3 ∧ 100000 ≤ now.val := by
  have hnow := now.isLt
  by_cases h2 : n = 2
  · subst h2
    simp [twoCuts]
  · by_cases h3 : n = 3
    · subst h3
      simp [twoCuts]
    · simp [twoCuts, h2, h3]

lemma servedTwo_honest {now : U64} (hlo : 1300 ≤ now.val) (hhi : now.val < 100300)
    {anchors : Option Anchors} (hfiles : ∀ a ∈ anchors, HonestFiles twoCuts now a) :
    HonestStep twoCuts ⟨servedTwo, anchors, now⟩ where
  serves := fun _ => hlo
  served_last := by
    intro n hn
    have hne : n ≠ 2 := hn.ne'
    have hnow := now.isLt
    simp only [twoCuts, if_neg hne]
    split_ifs <;> omega
  key := fun _ => rfl
  files := hfiles

lemma firstCut_honest {now : U64} (hlo : 1000 ≤ now.val) (hhi : now.val < 100000) :
    HonestFiles twoCuts now (filesAfter [2]) := by
  apply filesAfter_honest (List.nodup_singleton 2)
  · intro n
    rw [filesAt_twoCuts_iff]
    simp [hlo, not_le.mpr hhi]
  · rintro c hc
    obtain rfl := List.mem_singleton.mp hc
    exact Or.inl le_rfl

lemma secondCut_honest {now : U64} (hlo : 100000 ≤ now.val) :
    HonestFiles twoCuts now (filesAfter [2, 3]) := by
  apply filesAfter_honest (by decide)
  · intro n
    have hfirst : 1000 ≤ now.val := by omega
    rw [filesAt_twoCuts_iff]
    simp [hlo, hfirst]
  · intro c hc
    rcases List.mem_pair.mp hc with rfl | rfl
    · exact Or.inl le_rfl
    · exact Or.inr List.mem_cons_self

/-- The files cannot be read just after the first cut, and a day later the second cut's own window
is taken for that old sighting. -/
theorem honest_violation_later_cut :
    let inputs : List Judgement :=
      [⟨servedTwo, none, 1310⟩, ⟨servedTwo, some (filesAfter [2, 3]), 100010⟩]
    (inputs.Pairwise fun i j => i.now ≤ j.now) ∧ (∀ j ∈ inputs, HonestStep twoCuts j) ∧
      ∃ x ∈ steps judgeAndUpdate .default inputs, x.output.isViolation := by
  refine ⟨by decide, ?_, ?_⟩
  · simp only [List.forall_mem_cons, List.not_mem_nil, false_imp_iff, implies_true, and_true]
    refine ⟨servedTwo_honest (by decide) (by decide) (by simp),
      servedTwo_honest (by decide) (by decide) ?_⟩
    intro a ha
    obtain rfl : filesAfter [2, 3] = a := Option.some.inj ha
    exact secondCut_honest (by decide)
  · exact ⟨_, List.mem_cons_of_mem _ List.mem_cons_self, by decide⟩

def readBetweenCuts : List Judgement :=
  [⟨servedTwo, some (filesAfter [2]), 2000⟩, ⟨servedTwo, some (filesAfter [2, 3]), 100010⟩]

theorem honest_no_violation_two_cuts :
    readBetweenCuts.Pairwise (fun i j => i.now ≤ j.now) ∧
      ∀ x ∈ steps judgeAndUpdate .default readBetweenCuts, ¬ x.output.isViolation := by
  have hagrees : Agrees ⟨servedTwo, some (filesAfter [2]), 2000⟩ :=
    ⟨filesAfter [2], rfl, by decide, by decide⟩
  have htime : readBetweenCuts.Pairwise (fun i j => i.now ≤ j.now) := by decide
  refine ⟨htime, (honest_no_violation_iff twoCuts _ htime ?_).mpr ?_⟩
  · simp only [readBetweenCuts, List.forall_mem_cons, List.not_mem_nil, false_imp_iff, implies_true, and_true]
    refine ⟨servedTwo_honest (by decide) (by decide) ?_, servedTwo_honest (by decide) (by decide) ?_⟩
    · intro a ha
      obtain rfl : filesAfter [2] = a := Option.some.inj ha
      exact firstCut_honest (by decide) (by decide)
    · intro a ha
      obtain rfl : filesAfter [2, 3] = a := Option.some.inj ha
      exact secondCut_honest (by decide)
  · rintro past j rest heq hread hdis - ⟨y, hsince, hnot, -⟩
    match past, heq with
    | [], _ => exact absurd hsince.mem List.not_mem_nil
    | [i], heq =>
      obtain ⟨rfl, -⟩ := List.cons.inj heq
      obtain rfl := List.mem_singleton.mp hsince.mem
      exact hnot hagrees
    | _ :: _ :: _, heq => simp [readBetweenCuts] at heq

end SignetDrive.Proofs
