import SignetDrive.Lib.Latch
import SignetDrive.Model.AnchorState

namespace SignetDrive.Proofs
open Run

lemma epochOne_pos : (1 : U16) ≤ 1 := le_refl _

lemma epochTwo_pos : (1 : U16) ≤ 2 := by decide

abbrev JudgeStep := Step OriginState Judgement EpochVerdict

lemma max_getD_le_iff {e : U16} (he : 1 ≤ e) (xs : List U16) :
    xs.max?.getD 1 ≤ e ↔ ∀ x ∈ xs, x ≤ e := by
  cases hmax : xs.max? with
  | none =>
    rw [List.max?_eq_none_iff] at hmax
    simp [hmax, he]
  | some m => exact List.max?_le_iff hmax

lemma maxEpoch_le_iff {a : Anchors} {e : U16} (he : 1 ≤ e) : a.maxEpoch ≤ e ↔
    (∀ k ∈ a.keys, k.epoch ≤ e) ∧ (∀ r ∈ a.roots, r.epochEnd → r.epoch.saturatingSucc ≤ e) ∧
      ∀ r ∈ a.roots, r.epoch ≤ e := by
  simp only [Anchors.maxEpoch, max_le_iff, max_getD_le_iff he, List.forall_mem_map, List.mem_filter,
    and_imp, and_assoc]

variable {st : OriginState} {j : Judgement} {k : U16}

lemma age_past_bound {now : U64} :
    ((st.age k now).any fun age => TRANSITION_BOUND.nanos ≤ age.nanos) ↔
      ∃ t ∈ st.firstUnanchored k, t.val + 900 ≤ now.val := by
  cases ht : st.firstUnanchored k with
  | none => simp [OriginState.age, ht]
  | some t =>
    have hbound : TRANSITION_BOUND.nanos = 900 * 10 ^ 9 := rfl
    have hage : (st.age k now).any (fun age => TRANSITION_BOUND.nanos ≤ age.nanos) =
        decide (900 * 10 ^ 9 ≤ (now.val - t.val) * 10 ^ 9) := by
      rw [OriginState.age, ht, Option.map_some, Option.any_some, hbound]
      rfl
    rw [hage, decide_eq_true_eq]
    simp only [Option.mem_def, Option.some.injEq, exists_eq_left']
    omega

variable {why : String} {anchors : Option Anchors} {e : JudgeStep}

lemma softOrHard_isViolation {now : U64} :
    (softOrHard (st.age k now) why).isViolation ↔
      ∃ t ∈ st.firstUnanchored k, t.val + 900 ≤ now.val := by
  rw [← age_past_bound]
  unfold softOrHard
  split
  next h => exact iff_of_true rfl h
  next h => exact iff_of_false (by simp [EpochVerdict.isViolation]) h

variable {mode : LogMode} {age : Option Duration} {served : ServedEpoch}

lemma softOrHard_ne_anchored :
    softOrHard age why ≠ .anchored mode := by
  unfold softOrHard
  split <;> simp

lemma judgeKey_anchored {key : EpochKey}
    (h : judgeKey served key = .anchored mode) : served.vrfPublicKey = some key.vrfPublicKey ∧
      mode = .v3 served.epoch key.vrfPublicKey key.genesisEntryHash := by
  unfold judgeKey at h
  split at h
  next servedKey hkey =>
    split at h
    next heq =>
      cases h
      exact ⟨by rw [hkey, heq], rfl⟩
    next => cases h
  next => cases h

lemma judgeCarried_anchored {a : Anchors}
    (h : judgeCarried served a age = .anchored mode) :
    served.epoch = 1 ∧ mode = .legacy ∨
      1 < served.epoch ∧ ∃ key, a.key served.epoch = .ok (some key) ∧
        served.vrfPublicKey = some key.vrfPublicKey ∧
        mode = .v3 served.epoch key.vrfPublicKey key.genesisEntryHash := by
  unfold judgeCarried at h
  split at h
  next hone =>
    cases h
    exact Or.inl ⟨hone, rfl⟩
  next hone =>
  have hlater : 1 < served.epoch := lt_of_le_of_ne served.pos (Ne.symm hone)
  split at h
  · cases h
  · exact absurd h softOrHard_ne_anchored
  split at h
  next key hkey => exact Or.inr ⟨hlater, key, hkey, judgeKey_anchored h⟩
  · cases h
  · cases h

lemma judgeEpoch_anchored_cases {highest : U16} (h : judgeEpoch served anchors highest age = .anchored mode) :
    served.epoch = 1 ∧ mode = .legacy ∨
      1 < served.epoch ∧ ∃ a ∈ anchors, ∃ key, a.key served.epoch = .ok (some key) ∧
        served.vrfPublicKey = some key.vrfPublicKey ∧
        mode = .v3 served.epoch key.vrfPublicKey key.genesisEntryHash := by
  unfold judgeEpoch at h
  split at h
  · cases h
  split at h
  · split at h
    next hle =>
      cases h
      exact Or.inl ⟨le_antisymm hle served.pos, rfl⟩
    next => cases h
  split at h
  · exact absurd h softOrHard_ne_anchored
  rcases judgeCarried_anchored h with hone | ⟨hlater, hkey⟩
  · exact Or.inl hone
  · exact Or.inr ⟨hlater, _, rfl, hkey⟩

lemma judgeEpoch_anchored {highest : U16} (h : judgeEpoch served anchors highest age = .anchored mode) :
    mode.epoch = served.epoch := by
  rcases judgeEpoch_anchored_cases h with ⟨hone, rfl⟩ | ⟨-, a, -, key, -, -, rfl⟩
  · exact hone.symm
  · rfl

lemma judgeAndUpdate_below (h : j.served.epoch < st.highestEpoch) :
    (judgeAndUpdate st j).2.isViolation ∧ (judgeAndUpdate st j).1 = st := by
  simp [judgeAndUpdate, judgeEpoch, h, updateState, EpochVerdict.isViolation]

lemma judgeAndUpdate_highest (st : OriginState) (j : Judgement) :
    st.highestEpoch ≤ (judgeAndUpdate st j).1.highestEpoch ∧
    (judgeAndUpdate st j).1.highestEpoch ≤ max st.highestEpoch j.served.epoch := by
  simp only [judgeAndUpdate]
  cases hv : judgeEpoch j.served j.anchors st.highestEpoch (st.age j.served.epoch j.now) with
  | anchored mode =>
    rw [updateState, judgeEpoch_anchored hv]
    exact ⟨le_max_left _ _, le_refl _⟩
  | unanchored | violation => exact ⟨le_refl _, le_max_left _ _⟩

def sightingEffect (k : U16) (e : JudgeStep) : Latch U64 :=
  match e.output with
  | .anchored _ => if k ≤ e.input.served.epoch then .clear else .keep
  | .unanchored _ => if k = e.input.served.epoch then .record e.input.now else .keep
  | .violation _ => .keep

lemma sightingEffect_anchored (he : e.output = .anchored mode) (hk : k ≤ e.input.served.epoch) :
    sightingEffect k e = .clear := by
  rw [sightingEffect, he, if_pos hk]

lemma sightingEffect_clear (he : sightingEffect k e = .clear) :
    (∃ mode, e.output = .anchored mode) ∧ k ≤ e.input.served.epoch := by
  unfold sightingEffect at he
  split at he
  next mode hmode =>
    split at he
    next hk => exact ⟨⟨mode, hmode⟩, hk⟩
    next => cases he
  next => split at he <;> cases he
  next => cases he

lemma sightingEffect_record {t : U64} (he : sightingEffect k e = .record t) :
    (∃ why, e.output = .unanchored why) ∧ e.input.served.epoch = k ∧ e.input.now = t := by
  unfold sightingEffect at he
  split at he
  next => split at he <;> cases he
  next why hwhy =>
    split at he
    next hk => exact ⟨⟨why, hwhy⟩, hk.symm, Latch.record.inj he⟩
    next => cases he
  next => cases he

lemma sighting_latch {inputs : List Judgement} (k : U16) :
    ∀ e ∈ steps judgeAndUpdate st inputs, e.after.firstUnanchored k =
      (sightingEffect k e).apply (e.before.firstUnanchored k) := by
  intro e he
  have hstep := step_of_mem he
  simp only [judgeAndUpdate, Prod.mk.injEq] at hstep
  obtain ⟨hafter, hverdict⟩ := hstep
  rw [hverdict] at hafter
  rw [← hafter]
  unfold sightingEffect
  cases hout : e.output with
  | anchored mode =>
    rw [hout] at hverdict
    simp only [updateState, judgeEpoch_anchored hverdict, ← not_le]
    by_cases hk : k ≤ e.input.served.epoch <;> simp [hk, Latch.apply]
  | unanchored why =>
    by_cases hk : k = e.input.served.epoch <;> simp [updateState, hk, Latch.apply]
  | violation why => simp [updateState, Latch.apply]

lemma sighting_stays (st : OriginState) (inputs : List Judgement) (k : U16) :
    Always (fun past e => ∀ y t, Since (fun z => sightingEffect k z ≠ .clear) y past →
      y.after.firstUnanchored k = some t → e.before.firstUnanchored k = some t)
      (steps judgeAndUpdate st inputs) :=
  latch_stays (fun st : OriginState => st.firstUnanchored k) (sightingEffect k) (sighting_latch k)

/-- A sighting was made by an unanchored verdict, or was there at the start, and its epoch has not
been anchored since. -/
lemma sighting_origin (st : OriginState) (inputs : List Judgement) (k : U16) :
    Always (fun past e => ∀ t, e.before.firstUnanchored k = some t →
      (∃ y, Since (fun z => sightingEffect k z ≠ .clear) y past ∧ sightingEffect k y = .record t) ∨
        st.firstUnanchored k = some t ∧ ∀ z ∈ past, sightingEffect k z ≠ .clear)
      (steps judgeAndUpdate st inputs) :=
  latch_origin (fun st : OriginState => st.firstUnanchored k) (sightingEffect k) (sighting_latch k)

section

variable {inputs : List Judgement} {x : JudgeStep}

lemma sighting_le_now (htime : inputs.Pairwise fun i j => i.now ≤ j.now)
    (hstart : ∀ t ∈ st.firstUnanchored k, ∀ j ∈ inputs, t ≤ j.now)
    (hx : x ∈ steps judgeAndUpdate st inputs) {t : U64} (ht : x.before.firstUnanchored k = some t) :
    t ≤ x.input.now := by
  have hpast : Always (fun past x => ∀ y ∈ past, y.input.now ≤ x.input.now)
      (steps judgeAndUpdate st inputs) := always_pairwise_input htime
  obtain ⟨past, rest, hsteps⟩ := List.append_of_mem hx
  rcases sighting_origin st inputs k past x rest hsteps t ht with ⟨y, hy, hrecord⟩ | ⟨hstarted, -⟩
  · rw [← (sightingEffect_record hrecord).2.2]
    exact hpast past x rest hsteps y hy.mem
  · exact hstart t hstarted _ (input_mem hx)

lemma sighted_of_unanchored (htime : inputs.Pairwise fun i j => i.now ≤ j.now)
    (hstart : ∀ t ∈ st.firstUnanchored k, ∀ j ∈ inputs, t ≤ j.now) (hx : x ∈ steps judgeAndUpdate st inputs)
    (hserved : x.input.served.epoch = k) (hout : x.output = .unanchored why) :
    ∃ t, x.after.firstUnanchored k = some t ∧ t ≤ x.input.now := by
  have hlatch := sighting_latch k x hx
  rw [sightingEffect, hout] at hlatch
  simp only [hserved, if_true, Latch.apply] at hlatch
  refine ⟨_, hlatch, ?_⟩
  cases ht : x.before.firstUnanchored k with
  | none => exact le_refl _
  | some t => exact sighting_le_now htime hstart hx ht

end

end SignetDrive.Proofs
