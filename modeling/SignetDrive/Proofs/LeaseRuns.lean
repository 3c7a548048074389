import SignetDrive.Proofs.Lease

namespace SignetDrive.Proofs
open Run

/-- The calls to a new lease. -/
def leaseRun (cfg : LeaseConfig) (calls : List LeaseCall) :
    List (Step GrantLease LeaseCall (Option Decision)) :=
  steps (GrantLease.call cfg) GrantLease.new calls

variable {cfg : LeaseConfig}

lemma leaseRun_clock {calls : List LeaseCall}
    (h : calls.Pairwise fun a b => a.now ≤ b.now) :
    Always (fun past e => ∀ x ∈ past, x.input.now ≤ e.input.now) (leaseRun cfg calls) :=
  always_pairwise_input h

def BudgetKept (cfg : LeaseConfig) (self : GrantLease) : Prop :=
  (self.effective cfg).lease.nanos + (self.effective cfg).outageGrace.nanos ≤
      cfg.lease.nanos + cfg.outageGrace.nanos ∧
    (self.effective cfg).tokenSkew = cfg.tokenSkew

lemma adoptSla_budgetKept {self self' : GrantLease} {sla : Option ServerSla}
    (h : self.adoptSla sla cfg = some self') (hself : BudgetKept cfg self) : BudgetKept cfg self' := by
  cases sla with
  | none =>
    cases h
    exact hself
  | some sla =>
    simp only [GrantLease.adoptSla, Option.bind_eq_bind, Option.bind_eq_some_iff, Option.pure_def,
      Option.some.injEq] at h
    obtain ⟨adopted, hadopted, rfl⟩ := h
    exact withServerValues_bound hadopted

lemma call_budgetKept {self self' : GrantLease} {c : LeaseCall}
    {out : Option Decision} (h : self.call cfg c = (self', out)) (hself : BudgetKept cfg self) :
    BudgetKept cfg self' := by
  obtain ⟨rfl, -⟩ | ⟨serverTime, sla, adopted, -, hadopted, rfl, -⟩ := call_cases h
  · exact hself
  · have hkept := adoptSla_budgetKept hadopted hself
    exact hkept

lemma leaseRun_budgetKept (cfg : LeaseConfig) (calls : List LeaseCall) :
    Always (fun _ e => BudgetKept cfg e.before) (leaseRun cfg calls) := by
  apply invariant (fun _ self => BudgetKept cfg self)
  · exact ⟨le_rfl, rfl⟩
  · intro past e rest hrun hself
    exact call_budgetKept (step_of_eq_append hrun) hself

lemma leaseRun_budgetKept_after (cfg : LeaseConfig) (calls : List LeaseCall) :
    Always (fun _ e => BudgetKept cfg e.after) (leaseRun cfg calls) := by
  intro past e rest hrun
  exact call_budgetKept (step_of_eq_append hrun) (leaseRun_budgetKept cfg calls past e rest hrun)

def Confirmed (past : List (Step GrantLease LeaseCall (Option Decision))) (self : GrantLease) : Prop :=
  ∀ confirm ∈ self.lastConfirm, ∃ x ∈ past, x.input.isLive ∧ x.output.isSome ∧
    x.input.now = confirm.receivedAt

lemma Confirmed.mono {past past' : List (Step GrantLease LeaseCall (Option Decision))}
    {self : GrantLease} (h : Confirmed past self) (hsub : past ⊆ past') : Confirmed past' self := by
  intro confirm hconfirm
  obtain ⟨x, hx, hlive⟩ := h confirm hconfirm
  exact ⟨x, hsub hx, hlive⟩

lemma leaseRun_confirmed (cfg : LeaseConfig) (calls : List LeaseCall) :
    Always (fun past e => Confirmed past e.before) (leaseRun cfg calls) := by
  apply invariant Confirmed
  · intro confirm hconfirm
    simp [GrantLease.new] at hconfirm
  · intro past e rest hrun hself
    obtain ⟨hafter, -⟩ | ⟨serverTime, sla, adopted, hinput, -, hafter, hout⟩ :=
      call_cases (step_of_eq_append hrun)
    · rw [hafter]
      exact hself.mono (List.subset_append_left past [e])
    · intro confirm hconfirm
      rw [hafter] at hconfirm
      cases hconfirm
      refine ⟨e, by simp, ?_, ?_, rfl⟩
      · rw [hinput]
        trivial
      · rw [hout]
        rfl

/-- Every step that serves has just received a live answer, or comes within the compiled
budget of an earlier one. -/
lemma leaseRun_serve_confirmed (cfg : LeaseConfig) {calls : List LeaseCall}
    (hclock : calls.Pairwise fun a b => a.now ≤ b.now) :
    Always (fun past e => e.output = some .serve → e.input.isLive ∨
      ∃ x ∈ past, x.input.isLive ∧ x.output.isSome ∧ x.input.now ≤ e.input.now ∧
        e.input.now.nanos - x.input.now.nanos < cfg.lease.nanos + cfg.outageGrace.nanos)
      (leaseRun cfg calls) := by
  intro past e rest hrun hserve
  have hstep := step_of_eq_append hrun
  rw [hserve] at hstep
  obtain ⟨confirm, hconfirm, -, hlive | hage⟩ := call_tokenChecked hstep (.inl rfl)
  · exact .inl hlive
  · have hbudget := (leaseRun_budgetKept_after cfg calls past e rest hrun).1
    obtain ⟨hafter, -⟩ | ⟨serverTime, sla, adopted, hinput, -⟩ := call_cases hstep
    · rw [hafter] at hconfirm
      obtain ⟨x, hx, hxlive, hxout, hxnow⟩ :=
        leaseRun_confirmed cfg calls past e rest hrun confirm hconfirm
      refine .inr ⟨x, hx, hxlive, hxout, leaseRun_clock hclock past e rest hrun x hx, ?_⟩
      rw [hxnow]
      exact lt_of_lt_of_le hage hbudget
    · left
      rw [hinput]
      trivial

/-- The lease serves only within the compiled budget. The skew is the compiled one throughout,
and the clamping of the server's values neither wraps nor overflows. -/
theorem leaseRun_serve_within_budget (cfg : LeaseConfig) (calls : List LeaseCall)
    (hclock : calls.Pairwise fun a b => a.now ≤ b.now) :
    Always (fun past e => e.output = some .serve → e.input.isLive ∨
      ∃ x ∈ past, x.input.isLive ∧ x.output.isSome ∧ x.input.now ≤ e.input.now ∧
        e.input.now.nanos - x.input.now.nanos < cfg.lease.nanos + cfg.outageGrace.nanos)
      (leaseRun cfg calls) ∧
    Always (fun _ e => (e.before.effective cfg).tokenSkew = cfg.tokenSkew ∧
      (e.after.effective cfg).tokenSkew = cfg.tokenSkew) (leaseRun cfg calls) ∧
    ∀ x y : I64,
      ((LeaseConfig.clampedLease x).nanos : ℤ) = max 5 (min (max x.1 0) 120) * 10 ^ 9 ∧
      ((LeaseConfig.clampedOutageGrace y).nanos : ℤ) = max 0 (min (max y.1 0) 600) * 10 ^ 9 ∧
      ∃ total, (LeaseConfig.clampedLease x).add (LeaseConfig.clampedOutageGrace y) = some total := by
  refine ⟨leaseRun_serve_confirmed cfg hclock, ?_, ?_⟩
  · intro past e rest hrun
    exact ⟨(leaseRun_budgetKept cfg calls past e rest hrun).2,
      (leaseRun_budgetKept_after cfg calls past e rest hrun).2⟩
  · intro x y
    exact ⟨clampedLease_nanos x, clampedOutageGrace_nanos y, clamped_add x y⟩

instance neZeroSecs : NeZero (2 ^ 63) := ⟨by norm_num⟩

def clockAt (secs : Fin (2 ^ 63)) : Instant := ⟨secs.val * 10 ^ 9, by omega⟩

def unixTime (secs : Fin (2 ^ 63)) : I64 := ⟨secs.val, by omega⟩

def graceCalls : List LeaseCall :=
  [.onGrantStatus (.live (unixTime 1000) none) (clockAt 0) (unixTime 2000),
    .onGrantStatus .unreachable (clockAt 100) (unixTime 2000)]

theorem leaseRun_serve_within_budget_grace :
    (leaseRun defaultLeaseConfig graceCalls).map Step.output = [some .serve, some .serve] ∧
    Always (fun past e => e.output = some .serve → e.input.isLive ∨
      ∃ x ∈ past, x.input.isLive ∧ x.output.isSome ∧ x.input.now ≤ e.input.now ∧
        e.input.now.nanos - x.input.now.nanos < 120 * 10 ^ 9)
      (leaseRun defaultLeaseConfig graceCalls) :=
  ⟨by decide,
    (leaseRun_serve_within_budget defaultLeaseConfig graceCalls (by decide)).1⟩

/-- With nothing to spend, a live answer is still served, at age zero. -/
theorem leaseRun_serve_zero_budget :
    ¬ Always (fun past e => e.output = some .serve →
      ∃ x ∈ past ++ [e], x.input.isLive ∧
        e.input.now.nanos - x.input.now.nanos < Duration.ZERO.nanos + Duration.ZERO.nanos)
      (leaseRun ⟨Duration.ZERO, Duration.ZERO, Duration.ZERO⟩
        [.onGrantStatus (.live (unixTime 1000) none) (clockAt 0) (unixTime 2000)]) := by
  decide

/-- A live answer is not behind the trusted time that the lease has reached. -/
def liveNotBehind (self : GrantLease) : LeaseCall → Prop
  | .onGrantStatus (.live serverTime _) now _ =>
    ∀ t ∈ trustedTime self now, t.1 ≤ max serverTime.1 self.trustedFloor.1
  | _ => True

instance (self : GrantLease) : DecidablePred (liveNotBehind self) := by
  intro c
  cases c with
  | decide => exact isTrue trivial
  | onGrantStatus outcome =>
    cases outcome with
    | live => unfold liveNotBehind; infer_instance
    | revoked | unreachable => exact isTrue trivial

lemma trustedTime_mono {self : GrantLease} {now now' : Instant} {t : I64} (h : now ≤ now')
    (ht : t ∈ trustedTime self now) : ∃ t' ∈ trustedTime self now', t ≤ t' := by
  simp only [trustedTime, Option.mem_map] at ht ⊢
  obtain ⟨confirm, hconfirm, rfl⟩ := ht
  exact ⟨_, ⟨confirm, hconfirm, rfl⟩, trustedNow_mono self confirm h⟩

lemma trustedTime_refresh (self : GrantLease) (serverTime : I64) (now now' : Instant) :
    ∃ t ∈ trustedTime (self.refresh serverTime now) now', max serverTime self.trustedFloor ≤ t :=
  ⟨_, rfl, le_max_right _ _⟩

def TrustedTimeKept (past : List (Step GrantLease LeaseCall (Option Decision)))
    (self : GrantLease) : Prop :=
  ∀ x ∈ past, ∀ t ∈ trustedTime x.after x.input.now, ∀ now, x.input.now ≤ now →
    ∃ t' ∈ trustedTime self now, t ≤ t'

lemma call_trustedTimeKept
    {past : List (Step GrantLease LeaseCall (Option Decision))}
    {e : Step GrantLease LeaseCall (Option Decision)}
    (hstep : e.before.call cfg e.input = (e.after, e.output))
    (hclock : ∀ x ∈ past, x.input.now ≤ e.input.now) (hlive : liveNotBehind e.before e.input)
    (hpast : TrustedTimeKept past e.before) : TrustedTimeKept (past ++ [e]) e.after := by
  intro x hx t ht now hnow
  rw [List.mem_append, List.mem_singleton] at hx
  rcases hx with hx | rfl
  · obtain ⟨hafter, -⟩ | ⟨serverTime, sla, adopted, hinput, hadopted, hafter, -⟩ := call_cases hstep
    · rw [hafter]
      exact hpast x hx t ht now hnow
    · rw [hinput] at hlive
      obtain ⟨reached, hreached, hle⟩ := hpast x hx t ht e.input.now (hclock x hx)
      obtain ⟨t', ht', hanchor⟩ := trustedTime_refresh adopted serverTime e.input.now now
      rw [adoptSla_trustedFloor hadopted] at hanchor
      rw [hafter]
      exact ⟨t', ht', hle.trans (le_trans (hlive reached hreached) hanchor)⟩
  · exact trustedTime_mono hnow ht

/-- If no live answer is behind the trusted time then reached, trusted time never decreases
along a run and a token once refused as expired is never served again, nor is one that expires
no later. -/
theorem leaseRun_token_stays_expired (cfg : LeaseConfig) (calls : List LeaseCall)
    (hclock : calls.Pairwise fun a b => a.now ≤ b.now)
    (hlive : Always (fun _ e => liveNotBehind e.before e.input) (leaseRun cfg calls)) :
    Always (fun past e => ∀ x ∈ past, x.output = some (.failClosed .tokenExpired) →
      e.input.tokenExp ≤ x.input.tokenExp → e.output ≠ some .serve) (leaseRun cfg calls) ∧
    Always (fun past e => ∀ x ∈ past, ∀ t ∈ trustedTime x.after x.input.now,
      ∃ t' ∈ trustedTime e.after e.input.now, t ≤ t') (leaseRun cfg calls) := by
  have hkept : Always (fun past e => TrustedTimeKept past e.before) (leaseRun cfg calls) := by
    apply invariant TrustedTimeKept
    · intro x hx
      simp at hx
    · intro past e rest hrun hpast
      exact call_trustedTimeKept (step_of_eq_append hrun) (leaseRun_clock hclock past e rest hrun)
        (hlive past e rest hrun) hpast
  have hmono : Always (fun past e => ∀ x ∈ past, ∀ t ∈ trustedTime x.after x.input.now,
      ∃ t' ∈ trustedTime e.after e.input.now, t ≤ t') (leaseRun cfg calls) := by
    intro past e rest hrun x hx t ht
    have hclock' := leaseRun_clock hclock past e rest hrun
    have hafter := call_trustedTimeKept (step_of_eq_append hrun) hclock' (hlive past e rest hrun)
      (hkept past e rest hrun)
    exact hafter x (List.mem_append_left [e] hx) t ht e.input.now (hclock' x hx)
  refine ⟨?_, hmono⟩
  intro past e rest hrun x hx hexpired htoken hserve
  have hmem : ∀ y, y = e ∨ y ∈ past → y ∈ leaseRun cfg calls := by
    intro y hy
    rw [hrun, List.mem_append, List.mem_cons]
    tauto
  have hskew := fun y hy => ((leaseRun_budgetKept_after cfg calls).of_mem (hmem y hy)).2
  have hstepx := step_of_mem (hmem x (.inr hx))
  have hstep := step_of_mem (hmem e (.inl rfl))
  rw [hexpired] at hstepx
  rw [hserve] at hstep
  obtain ⟨t, ht, hlt⟩ := call_tokenExpired hstepx
  obtain ⟨t', ht', hle⟩ := call_serve hstep
  rw [hskew x (.inr hx)] at hlt
  rw [hskew e (.inl rfl)] at hle
  obtain ⟨reached, hreached, hpassed⟩ := hmono past e rest hrun x hx t ht
  cases Option.mem_unique hreached ht'
  have hexp : e.input.tokenExp.saturatingAdd cfg.tokenSkew.asSecs.asI64 ≤
      x.input.tokenExp.saturatingAdd cfg.tokenSkew.asSecs.asI64 := by
    have hval : e.input.tokenExp.1 ≤ x.input.tokenExp.1 := htoken
    apply saturatingAdd_le
    omega
  exact absurd (hlt.trans_le (hpassed.trans hle)) (not_lt.mpr hexp)

def expiredCalls (secondServerTime : I64) : List LeaseCall :=
  [.onGrantStatus (.live (unixTime 1000) none) (clockAt 0) (unixTime 2000),
    .decide (clockAt 20) (unixTime 980),
    .onGrantStatus (.live secondServerTime none) (clockAt 40) (unixTime 980)]

theorem leaseRun_token_stays_expired_on_time :
    (leaseRun defaultLeaseConfig (expiredCalls (unixTime 1040))).map Step.output =
      [some .serve, some (.failClosed .tokenExpired), some (.failClosed .tokenExpired)] ∧
    Always (fun past e => ∀ x ∈ past, x.output = some (.failClosed .tokenExpired) →
      e.input.tokenExp ≤ x.input.tokenExp → e.output ≠ some .serve)
      (leaseRun defaultLeaseConfig (expiredCalls (unixTime 1040))) :=
  ⟨by decide,
    (leaseRun_token_stays_expired defaultLeaseConfig (expiredCalls (unixTime 1040))
      (by decide) (by decide)).1⟩

/-- The server's clock stands still: trusted time falls from 1020 to 1000 and the token that
expired at 980, refused before, is served. -/
theorem leaseRun_token_revived :
    (leaseRun defaultLeaseConfig (expiredCalls (unixTime 1000))).map
        (fun e => (e.output, trustedTime e.after e.input.now)) =
      [(some .serve, some (unixTime 1000)),
        (some (.failClosed .tokenExpired), some (unixTime 1020)),
        (some .serve, some (unixTime 1000))] ∧
    ¬ Always (fun past e => ∀ x ∈ past, x.output = some (.failClosed .tokenExpired) →
      e.input.tokenExp ≤ x.input.tokenExp → e.output ≠ some .serve)
      (leaseRun defaultLeaseConfig (expiredCalls (unixTime 1000))) := by
  decide

end SignetDrive.Proofs
