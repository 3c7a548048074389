import SignetDrive.Model.TransferRetry

namespace SignetDrive.Proofs

variable {α : Type} (r : Rounding) (outcomes : ℕ → Except TransferError α)

/-- The time waited for a busy relay, with a further wait of one second to one minute. -/
def busyTotal (busy seconds : ℚ) : ℚ := r.round (busy + r.round (max 1 (min seconds 60) * 1000))

/-- The time waited before a call, in milliseconds. A wait is taken if all of them stay within ten
minutes. -/
def busyBefore : ℕ → ℚ
  | 0 => 0
  | i + 1 =>
    match outcomes i with
    | .error (.relayBusy seconds) =>
      let total := busyTotal r (busyBefore i) seconds
      if total ≤ 600000 then total else busyBefore i
    | _ => busyBefore i

/-- The call fails, and not with a busy answer whose wait is taken. -/
def counts (i : ℕ) : Bool :=
  match outcomes i with
  | .ok _ => false
  | .error (.relayBusy seconds) => 600000 < busyTotal r (busyBefore r outcomes i) seconds
  | .error _ => true

/-- The counted failures before a call. -/
def countedBefore : ℕ → ℕ
  | 0 => 0
  | i + 1 => countedBefore i + (counts r outcomes i).toNat

def lastCounted : ℕ → Option TransferError
  | 0 => none
  | i + 1 =>
    match outcomes i with
    | .ok _ => lastCounted i
    | .error e => if counts r outcomes i then some e else lastCounted i

def retryStateAt (i : ℕ) : RetryState :=
  ⟨countedBefore r outcomes i, busyBefore r outcomes i, lastCounted r outcomes i,
    (List.range i).map fun j => countedBefore r outcomes j + 1⟩

variable {r outcomes} {attempts : ℕ} {direction : TransferDirection}

lemma busyWait_of_error {i : ℕ} {e : TransferError} (he : outcomes i = .error e) :
    busyBefore r outcomes (i + 1) = (busyWait r (busyBefore r outcomes i) e).getD (busyBefore r outcomes i) ∧
      counts r outcomes i = (busyWait r (busyBefore r outcomes i) e).isNone := by
  have hcap : MAX_BUSY_WAIT_MS = 600000 := by norm_num [MAX_BUSY_WAIT_MS]
  cases e with
  | relayBusy seconds =>
    simp only [busyBefore, counts, he, busyWait, hcap, ← busyTotal.eq_1]
    by_cases hroom : busyTotal r (busyBefore r outcomes i) seconds ≤ 600000
    · simp [hroom]
    · simp [hroom, not_le.mp hroom]
  | cancelled | stall | withStatus | other => simp [busyBefore, counts, he, busyWait]

lemma busyWait_bounds {busy waited : ℚ} {e : TransferError} (h : busyWait r busy e = some waited) {k : ℕ}
    (hk : (k : ℚ) * 1000 ≤ busy) (hcap : busy ≤ MAX_BUSY_WAIT_MS) :
    ((k + 1 : ℕ) : ℚ) * 1000 ≤ waited ∧ waited ≤ MAX_BUSY_WAIT_MS := by
  cases e with
  | relayBusy seconds =>
    simp only [busyWait, Option.ite_none_right_eq_some, Option.some.injEq] at h
    obtain ⟨hle, rfl⟩ := h
    refine ⟨?_, hle⟩
    have hsecond : (1000 : ℚ) ≤ r.round (max 1 (min seconds 60) * 1000) := by
      have hone : (1 : ℚ) ≤ max 1 (min seconds 60) := le_max_left _ _
      have hround := r.monotone (show ((1000 : ℕ) : ℚ) ≤ max 1 (min seconds 60) * 1000 by push_cast; linarith)
      rw [r.exact 1000 (by norm_num)] at hround
      exact_mod_cast hround
    have hsmall : (k + 1) * 1000 ≤ 2 ^ 53 := by
      have hle : (k : ℚ) * 1000 ≤ 600000 := by
        rw [MAX_BUSY_WAIT_MS] at hcap
        linarith
      have hle : k * 1000 ≤ 600000 := by exact_mod_cast hle
      linarith
    have hround := r.monotone (show (((k + 1) * 1000 : ℕ) : ℚ) ≤ busy + _ by push_cast; linarith)
    rw [r.exact _ hsmall] at hround
    exact_mod_cast hround
  | cancelled | stall | withStatus | other => simp [busyWait] at h

lemma busyWait_eq_none {e : TransferError} (h : ¬isRetryable e) (busy : ℚ) : busyWait r busy e = none := by
  cases e <;> simp_all [busyWait, isRetryable]

lemma busyBefore_bounds {i : ℕ} (h : ∀ j < i, ∃ e, outcomes j = .error e) :
    ∃ k : ℕ, i = countedBefore r outcomes i + k ∧ (k : ℚ) * 1000 ≤ busyBefore r outcomes i ∧
      busyBefore r outcomes i ≤ MAX_BUSY_WAIT_MS := by
  induction i with
  | zero => exact ⟨0, rfl, by simp [busyBefore], by norm_num [busyBefore, MAX_BUSY_WAIT_MS]⟩
  | succ i ih =>
    obtain ⟨k, hk, hbusy, hcap⟩ := ih fun j hj => h j (by omega)
    obtain ⟨e, he⟩ := h i (by omega)
    obtain ⟨hbefore, hcounts⟩ := busyWait_of_error (r := r) he
    cases hwait : busyWait r (busyBefore r outcomes i) e with
    | none =>
      simp only [hbefore, countedBefore, hcounts, hwait, Option.getD_none, Option.isNone_none, Bool.toNat_true]
      exact ⟨k, by omega, hbusy, hcap⟩
    | some waited =>
      obtain ⟨hmore, hle⟩ := busyWait_bounds hwait hbusy hcap
      simp only [hbefore, countedBefore, hcounts, hwait, Option.getD_some, Option.isNone_some, Bool.toNat_false]
      exact ⟨k + 1, by omega, hmore, hle⟩

lemma retryLoop_stateAt {i : ℕ} (hfails : ∀ j < i, ∃ e, outcomes j = .error e ∧ isRetryable e)
    (hcounted : ∀ j < i, countedBefore r outcomes j < attempts) (rounds : ℕ) :
    transferWithRetry r attempts direction outcomes (i + rounds) =
      retryLoop r attempts direction outcomes rounds (retryStateAt r outcomes i) := by
  induction i generalizing rounds with
  | zero => rw [Nat.zero_add]; rfl
  | succ i ih =>
    obtain ⟨e, he, hretry⟩ := hfails i (by omega)
    rw [show i + 1 + rounds = i + (rounds + 1) by omega,
      ih (fun j hj => hfails j (by omega)) fun j hj => hcounted j (by omega), retryLoop]
    have hturn := hcounted i (by omega)
    obtain ⟨hbefore, hcounts⟩ := busyWait_of_error (r := r) he
    cases hwait : busyWait r (busyBefore r outcomes i) e <;>
      simp [retryStateAt, hturn, hwait, hretry, hbefore, countedBefore, lastCounted, hcounts, he,
        List.range_succ]

variable (r outcomes) in
/-- A call that is not followed by another one comes within the bound. -/
lemma exists_last_call (attempts : ℕ) : ∃ i, i < attempts + 600 ∧
    ((∃ e, outcomes i = .error e ∧ isRetryable e) → attempts ≤ countedBefore r outcomes (i + 1)) := by
  by_contra hall
  push Not at hall
  obtain ⟨k, hk, hbusy, hcap⟩ := busyBefore_bounds (r := r) (i := attempts + 600) fun j hj => by
    obtain ⟨⟨e, he, -⟩, -⟩ := hall j hj
    exact ⟨e, he⟩
  obtain ⟨-, hcounted⟩ := hall (attempts + 599) (by omega)
  have hwaits : (k : ℚ) * 1000 ≤ 600000 := by
    rw [MAX_BUSY_WAIT_MS] at hcap
    linarith
  have hwaits : k * 1000 ≤ 600000 := by exact_mod_cast hwaits
  rw [show attempts + 599 + 1 = attempts + 600 by omega] at hcounted
  omega

def busyOnce : ℕ → Except TransferError Unit
  | 0 => .error (.relayBusy (-1))
  | _ => .ok ()

end SignetDrive.Proofs
