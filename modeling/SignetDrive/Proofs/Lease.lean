import SignetDrive.Lib.Run
import SignetDrive.Model.Lease

namespace SignetDrive.Proofs
open Run

lemma saturatingAdd_le {a b c d : I64} (h : a.1 + b.1 ≤ c.1 + d.1) :
    a.saturatingAdd b ≤ c.saturatingAdd d :=
  max_le_max le_rfl (min_le_min h le_rfl)

lemma asI64_val {n : U64} (h : n.val < 2 ^ 63) : n.asI64.1 = n.val :=
  if_pos h

lemma saturatingDurationSince_self (now : Instant) :
    now.saturatingDurationSince now = Duration.ZERO := by
  simp [Instant.saturatingDurationSince, Duration.ZERO]

lemma asI64_asSecs_since (now earlier : Instant) :
    (now.saturatingDurationSince earlier).asSecs.asI64.1 = ((now.nanos - earlier.nanos) / 10 ^ 9 : ℕ) := by
  have hlt : (now.nanos - earlier.nanos) / 10 ^ 9 < 2 ^ 63 := by
    have hnow := now.lt
    omega
  exact asI64_val hlt

lemma duration_add_eq_some {a b d : Duration} (h : a.add b = some d) :
    d.nanos = a.nanos + b.nanos := by
  unfold Duration.add at h
  split at h
  · cases h
    rfl
  · cases h

lemma duration_add_eq {a b : Duration} (h : a.nanos + b.nanos < 2 ^ 64 * 10 ^ 9) :
    a.add b = some ⟨a.nanos + b.nanos, h⟩ := by
  rw [Duration.add, dif_pos h]

lemma duration_add_eq_none {a b : Duration} (h : ¬ a.nanos + b.nanos < 2 ^ 64 * 10 ^ 9) :
    a.add b = none := by
  rw [Duration.add, dif_neg h]

lemma asU64_max_zero (x : I64) :
    ((max x ⟨0, by omega⟩ : I64).asU64.val : ℤ) = max x.1 0 := by
  have hx := x.2
  rcases le_total x ⟨0, by omega⟩ with h | h
  · have hx0 : x.1 ≤ 0 := h
    rw [max_eq_right h, max_eq_right hx0]
    rfl
  · have hx0 : 0 ≤ x.1 := h
    rw [max_eq_left h, max_eq_left hx0]
    simp only [I64.asU64]
    omega

lemma clamp_val (n lo hi : U64) (h : lo ≤ hi) :
    (n.clamp lo hi).val = max lo.val (min n.val hi.val) := by
  have hle : lo.val ≤ hi.val := h
  unfold U64.clamp
  simp only [Fin.lt_def]
  split
  · omega
  · split <;> omega

lemma clampedLease_nanos (x : I64) :
    ((LeaseConfig.clampedLease x).nanos : ℤ) = max 5 (min (max x.1 0) 120) * 10 ^ 9 := by
  have hx := asU64_max_zero x
  simp only [LeaseConfig.clampedLease, Duration.fromSecs]
  rw [clamp_val _ _ _ (by decide)]
  push_cast
  rw [hx]
  rfl

lemma clampedOutageGrace_nanos (x : I64) :
    ((LeaseConfig.clampedOutageGrace x).nanos : ℤ) = max 0 (min (max x.1 0) 600) * 10 ^ 9 := by
  have hx := asU64_max_zero x
  simp only [LeaseConfig.clampedOutageGrace, Duration.fromSecs]
  rw [clamp_val _ _ _ (by decide)]
  push_cast
  rw [hx]
  rfl

lemma clamped_add (x y : I64) :
    ∃ total, (LeaseConfig.clampedLease x).add (LeaseConfig.clampedOutageGrace y) = some total := by
  have hx := clampedLease_nanos x
  have hy := clampedOutageGrace_nanos y
  exact ⟨_, duration_add_eq (by omega)⟩

lemma withServerValues_bound {cfg cfg' : LeaseConfig} {x y : I64}
    (h : cfg.withServerValues x y = some cfg') :
    cfg'.lease.nanos + cfg'.outageGrace.nanos ≤ cfg.lease.nanos + cfg.outageGrace.nanos ∧
      cfg'.tokenSkew = cfg.tokenSkew := by
  unfold LeaseConfig.withServerValues at h
  simp only [Option.bind_eq_bind, Option.bind_eq_some_iff] at h
  obtain ⟨budget, hbudget, total, htotal, h⟩ := h
  have hb := duration_add_eq_some hbudget
  have ht := duration_add_eq_some htotal
  split at h
  · cases h
    exact ⟨le_rfl, rfl⟩
  · cases h
    refine ⟨?_, rfl⟩
    dsimp only
    omega

variable {now : Instant} {decision : Decision} {c : LeaseCall}

lemma trustedNow_mono (self : GrantLease) (confirm : Confirm) {now' : Instant} (h : now ≤ now') :
    self.trustedNow confirm (now.saturatingDurationSince confirm.receivedAt) ≤
      self.trustedNow confirm (now'.saturatingDurationSince confirm.receivedAt) := by
  have hle : now.nanos ≤ now'.nanos := h
  have hsecs := asI64_asSecs_since now confirm.receivedAt
  have hsecs' := asI64_asSecs_since now' confirm.receivedAt
  have hadd : (confirm.serverTime.saturatingAdd
      (now.saturatingDurationSince confirm.receivedAt).asSecs.asI64) ≤
      confirm.serverTime.saturatingAdd
        (now'.saturatingDurationSince confirm.receivedAt).asSecs.asI64 := by
    apply saturatingAdd_le
    rw [hsecs, hsecs']
    omega
  exact max_le_max hadd le_rfl

/-- The time that the lease trusts. -/
def trustedTime (self : GrantLease) (now : Instant) : Option I64 :=
  self.lastConfirm.map fun confirm =>
    self.trustedNow confirm (now.saturatingDurationSince confirm.receivedAt)

variable {cfg : LeaseConfig} {self self' : GrantLease} {tokenExp : I64}

lemma tokenExpDecision_eq_serve {self : GrantLease} {confirm : Confirm} {age : Duration} :
    self.tokenExpDecision confirm age tokenExp cfg = .serve ↔
      self.trustedNow confirm age ≤ tokenExp.saturatingAdd cfg.tokenSkew.asSecs.asI64 := by
  simp only [GrantLease.tokenExpDecision]
  rw [← not_lt, ite_eq_right_iff]
  constructor
  · intro h hlt
    cases h hlt
  · intro h hlt
    exact absurd hlt h

lemma tokenExpDecision_eq_tokenExpired {self : GrantLease} {confirm : Confirm} {age : Duration} :
    self.tokenExpDecision confirm age tokenExp cfg = .failClosed .tokenExpired ↔
      tokenExp.saturatingAdd cfg.tokenSkew.asSecs.asI64 < self.trustedNow confirm age := by
  simp only [GrantLease.tokenExpDecision]
  rw [ite_eq_left_iff]
  constructor
  · intro h
    by_contra hlt
    cases h hlt
  · intro h hlt
    exact absurd h hlt

lemma onGrantStatus_live {serverTime : I64} {sla : Option ServerSla}
    (h : self.onGrantStatus (.live serverTime sla) now tokenExp cfg = some (decision, self')) :
    ∃ adopted, self.adoptSla sla cfg = some adopted ∧ self' = adopted.refresh serverTime now ∧
      decision = self'.tokenExpDecision ⟨max serverTime adopted.trustedFloor, now⟩ Duration.ZERO
        tokenExp (self'.effective cfg) := by
  simp only [GrantLease.onGrantStatus, Option.bind_eq_bind, Option.bind_eq_some_iff, Option.pure_def,
    Option.some.injEq, Prod.mk.injEq] at h
  obtain ⟨adopted, hadopted, hdecision, rfl⟩ := h
  exact ⟨adopted, hadopted, rfl, hdecision.symm⟩

lemma adoptSla_trustedFloor {sla : Option ServerSla}
    (h : self.adoptSla sla cfg = some self') : self'.trustedFloor = self.trustedFloor := by
  cases sla with
  | none =>
    cases h
    rfl
  | some sla =>
    simp only [GrantLease.adoptSla, Option.bind_eq_bind, Option.bind_eq_some_iff, Option.pure_def,
      Option.some.injEq] at h
    obtain ⟨adopted, -, rfl⟩ := h
    rfl

lemma onGrantStatus_unreachable
    (h : self.onGrantStatus .unreachable now tokenExp cfg = some (decision, self')) :
    self' = self ∧ (decision = .failClosed .unreachable ∨
      ∃ confirm window, self.lastConfirm = some confirm ∧
        (self.effective cfg).lease.add (self.effective cfg).outageGrace = some window ∧
        (now.saturatingDurationSince confirm.receivedAt).nanos < window.nanos ∧
        decision = self.tokenExpDecision confirm (now.saturatingDurationSince confirm.receivedAt)
          tokenExp (self.effective cfg)) := by
  simp only [GrantLease.onGrantStatus, Option.bind_eq_bind, Option.pure_def] at h
  cases hconfirm : self.lastConfirm with
  | none =>
    simp only [hconfirm] at h
    cases h
    exact ⟨rfl, .inl rfl⟩
  | some confirm =>
    simp only [hconfirm, Option.bind_eq_some_iff] at h
    obtain ⟨window, hwindow, h⟩ := h
    split at h
    · rename_i hage
      cases h
      exact ⟨rfl, .inr ⟨confirm, window, rfl, hwindow, hage, rfl⟩⟩
    · cases h
      exact ⟨rfl, .inl rfl⟩

lemma call_cases {out : Option Decision} (h : self.call cfg c = (self', out)) :
    (self' = self ∧ (c.isLive → out = none)) ∨
      ∃ serverTime sla adopted, c = .onGrantStatus (.live serverTime sla) c.now c.tokenExp ∧
        self.adoptSla sla cfg = some adopted ∧ self' = adopted.refresh serverTime c.now ∧
        out = some (self'.tokenExpDecision ⟨max serverTime adopted.trustedFloor, c.now⟩ Duration.ZERO
          c.tokenExp (self'.effective cfg)) := by
  cases c with
  | decide now tokenExp =>
    cases h
    exact .inl ⟨rfl, False.elim⟩
  | onGrantStatus outcome now tokenExp =>
    cases hstatus : self.onGrantStatus outcome now tokenExp cfg with
    | none =>
      simp only [GrantLease.call, hstatus] at h
      cases h
      exact .inl ⟨rfl, fun _ => rfl⟩
    | some result =>
      obtain ⟨decision, after⟩ := result
      simp only [GrantLease.call, hstatus] at h
      cases h
      cases outcome with
      | live serverTime sla =>
        obtain ⟨adopted, hadopted, hafter, hdecision⟩ := onGrantStatus_live hstatus
        exact .inr ⟨serverTime, sla, adopted, rfl, hadopted, hafter, congrArg some hdecision⟩
      | revoked =>
        cases hstatus
        exact .inl ⟨rfl, False.elim⟩
      | unreachable => exact .inl ⟨(onGrantStatus_unreachable hstatus).1, False.elim⟩

def tokenChecked (decision : Decision) : Prop :=
  decision = .serve ∨ decision = .failClosed .tokenExpired

lemma decide_tokenChecked {self : GrantLease} (h : tokenChecked (self.decide now tokenExp cfg)) :
    ∃ confirm, self.lastConfirm = some confirm ∧
      (now.saturatingDurationSince confirm.receivedAt).nanos < (self.effective cfg).lease.nanos ∧
      self.decide now tokenExp cfg = self.tokenExpDecision confirm
        (now.saturatingDurationSince confirm.receivedAt) tokenExp (self.effective cfg) := by
  simp only [GrantLease.decide] at h ⊢
  cases hconfirm : self.lastConfirm with
  | none => simp [hconfirm, tokenChecked] at h
  | some confirm =>
    simp only [hconfirm] at h ⊢
    refine ⟨confirm, rfl, ?_⟩
    split at h
    · simp [tokenChecked] at h
    · rename_i hage
      rw [if_neg hage]
      exact ⟨not_le.mp hage, rfl⟩

/-- A call checks the token against the confirmation the lease then holds, which this very call brought
or which is younger than lease and grace together. -/
lemma call_tokenChecked (h : self.call cfg c = (self', some decision)) (hchecked : tokenChecked decision) :
    ∃ confirm, self'.lastConfirm = some confirm ∧
      decision = self'.tokenExpDecision confirm (c.now.saturatingDurationSince confirm.receivedAt)
        c.tokenExp (self'.effective cfg) ∧
      (c.isLive ∨ (c.now.saturatingDurationSince confirm.receivedAt).nanos <
        (self'.effective cfg).lease.nanos + (self'.effective cfg).outageGrace.nanos) := by
  cases c with
  | decide now tokenExp =>
    cases h
    obtain ⟨confirm, hconfirm, hage, hdecide⟩ := decide_tokenChecked hchecked
    exact ⟨confirm, hconfirm, hdecide, .inr (by dsimp only [LeaseCall.now]; omega)⟩
  | onGrantStatus outcome now tokenExp =>
    cases hstatus : self.onGrantStatus outcome now tokenExp cfg with
    | none => simp [GrantLease.call, hstatus] at h
    | some result =>
      obtain ⟨d, after⟩ := result
      simp only [GrantLease.call, hstatus] at h
      cases h
      cases outcome with
      | live serverTime sla =>
        obtain ⟨adopted, -, hafter, hdecision⟩ := onGrantStatus_live hstatus
        refine ⟨⟨max serverTime adopted.trustedFloor, now⟩, by rw [hafter]; rfl, ?_, .inl trivial⟩
        dsimp only [LeaseCall.now]
        rw [saturatingDurationSince_self]
        exact hdecision
      | revoked =>
        cases hstatus
        simp [tokenChecked] at hchecked
      | unreachable =>
        obtain ⟨rfl, hrefused | ⟨confirm, window, hconfirm, hwindow, hage, hdecision⟩⟩ :=
          onGrantStatus_unreachable hstatus
        · simp [tokenChecked, hrefused] at hchecked
        · rw [duration_add_eq_some hwindow] at hage
          exact ⟨confirm, hconfirm, hdecision, .inr hage⟩

lemma call_serve (h : self.call cfg c = (self', some .serve)) :
    ∃ t ∈ trustedTime self' c.now,
      t ≤ c.tokenExp.saturatingAdd (self'.effective cfg).tokenSkew.asSecs.asI64 := by
  obtain ⟨confirm, hconfirm, hdecision, -⟩ := call_tokenChecked h (.inl rfl)
  refine ⟨_, ?_, tokenExpDecision_eq_serve.mp hdecision.symm⟩
  rw [trustedTime, hconfirm]
  rfl

lemma call_tokenExpired (h : self.call cfg c = (self', some (.failClosed .tokenExpired))) :
    ∃ t ∈ trustedTime self' c.now,
      c.tokenExp.saturatingAdd (self'.effective cfg).tokenSkew.asSecs.asI64 < t := by
  obtain ⟨confirm, hconfirm, hdecision, -⟩ := call_tokenChecked h (.inr rfl)
  refine ⟨_, ?_, tokenExpDecision_eq_tokenExpired.mp hdecision.symm⟩
  rw [trustedTime, hconfirm]
  rfl

end SignetDrive.Proofs
