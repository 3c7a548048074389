import SignetDrive.Proofs.LeaseRuns

namespace SignetDrive.Proofs
open Run

variable {cfg : LeaseConfig}

variable {self : GrantLease} {e : Step GrantLease LeaseRequest (Option Decision)}

lemma decide_eq_reconfirmRequired {now : Instant} {tokenExp : I64} :
    self.decide now tokenExp cfg = .reconfirmRequired ↔ ∀ confirm ∈ self.lastConfirm,
      (self.effective cfg).lease.nanos ≤ (now.saturatingDurationSince confirm.receivedAt).nanos := by
  simp only [GrantLease.decide]
  cases hconfirm : self.lastConfirm with
  | none => simp
  | some confirm =>
    simp only [Option.mem_def, Option.some.injEq, forall_eq']
    split
    · rename_i hage
      exact ⟨fun _ => hage, fun _ => rfl⟩
    · rename_i hage
      refine ⟨fun h => ?_, fun h => absurd h hage⟩
      simp only [GrantLease.tokenExpDecision] at h
      split at h <;> cases h

lemma queries_mono {r r' : LeaseRequest} (h : self.queries cfg r) (hle : r.decideAt ≤ r'.decideAt) :
    self.queries cfg r' := by
  unfold GrantLease.queries at h ⊢
  rw [decide_eq_reconfirmRequired] at h ⊢
  intro confirm hconfirm
  have hage := h confirm hconfirm
  have hnanos : r.decideAt.nanos ≤ r'.decideAt.nanos := hle
  simp only [Instant.saturatingDurationSince] at hage ⊢
  omega

lemma handle_eq_call (cfg : LeaseConfig) (self : GrantLease) (r : LeaseRequest) :
    self.handle cfg r = self.call cfg (if self.queries cfg r
      then .onGrantStatus r.outcome r.answerAt r.tokenExp else .decide r.decideAt r.tokenExp) := by
  by_cases hquery : self.queries cfg r
  · rw [if_pos hquery]
    unfold GrantLease.queries at hquery
    simp only [GrantLease.handle, hquery, GrantLease.call]
  · rw [if_neg hquery]
    unfold GrantLease.queries at hquery
    unfold GrantLease.handle
    split
    · contradiction
    · rfl

/-- Served while the server cannot be reached: the confirmation is younger than lease and grace in
force, and the token not expired against trusted time. -/
def inGrace (self : GrantLease) (cfg : LeaseConfig) (now : Instant) (tokenExp : I64) : Prop :=
  match self.lastConfirm with
  | none => False
  | some confirm =>
    let cfg := self.effective cfg
    let age := now.saturatingDurationSince confirm.receivedAt
    cfg.lease.nanos + cfg.outageGrace.nanos < 2 ^ 64 * 10 ^ 9 ∧
      age.nanos < cfg.lease.nanos + cfg.outageGrace.nanos ∧
      (self.trustedNow confirm age).1 ≤ (tokenExp.saturatingAdd cfg.tokenSkew.asSecs.asI64).1

instance (self : GrantLease) (cfg : LeaseConfig) (now : Instant) (tokenExp : I64) :
    Decidable (inGrace self cfg now tokenExp) := by
  unfold inGrace
  split <;> infer_instance

lemma call_unreachable_serve {now : Instant} {tokenExp : I64} :
    (self.call cfg (.onGrantStatus .unreachable now tokenExp)).2 = some .serve ↔
      inGrace self cfg now tokenExp := by
  simp only [GrantLease.call, GrantLease.onGrantStatus, inGrace]
  cases hconfirm : self.lastConfirm with
  | none => simp
  | some confirm =>
    by_cases hsum : (self.effective cfg).lease.nanos + (self.effective cfg).outageGrace.nanos <
        2 ^ 64 * 10 ^ 9
    · simp only [duration_add_eq hsum, Option.bind_eq_bind, Option.bind_some, hsum, true_and]
      split_ifs with hage
      · simp only [Option.pure_def, Option.some.injEq, hage, true_and]
        exact tokenExpDecision_eq_serve
      · simp [hage]
    · simp only [duration_add_eq_none hsum, hsum, false_and, iff_false]
      intro h
      cases h

/-- The requests to a new lease. -/
def requestRun (cfg : LeaseConfig) (requests : List LeaseRequest) :
    List (Step GrantLease LeaseRequest (Option Decision)) :=
  steps (GrantLease.handle cfg) GrantLease.new requests

/-- The requests follow each other on the clock. -/
def ClockOrdered (requests : List LeaseRequest) : Prop :=
  (∀ r ∈ requests, r.decideAt ≤ r.answerAt) ∧
    requests.Pairwise fun a b => a.answerAt ≤ b.decideAt

instance : DecidablePred ClockOrdered := fun _ => instDecidableAnd

/-- What the server was asked and answered, if it was. -/
def answer (cfg : LeaseConfig) (e : Step GrantLease LeaseRequest (Option Decision)) :
    Option GrantStatusOutcome :=
  if e.before.queries cfg e.input then some e.input.outcome else none

/-- The server answered that the grant is live. -/
def answeredLive (cfg : LeaseConfig) (e : Step GrantLease LeaseRequest (Option Decision)) : Bool :=
  match answer cfg e with
  | some (.live _ _) => true
  | _ => false

/-- The server answered a revocation, and not that the grant is live since. -/
def revokedStands (cfg : LeaseConfig)
    (past : List (Step GrantLease LeaseRequest (Option Decision))) : Bool :=
  past.foldl (fun stands e => answer cfg e = some .revoked ∨ (stands ∧ ¬ answeredLive cfg e)) false

lemma revokedStands_append (cfg : LeaseConfig)
    (past : List (Step GrantLease LeaseRequest (Option Decision)))
    (e : Step GrantLease LeaseRequest (Option Decision)) :
    revokedStands cfg (past ++ [e]) ↔
      answer cfg e = some .revoked ∨ (revokedStands cfg past ∧ ¬ answeredLive cfg e) := by
  rw [revokedStands, List.foldl_append]
  simp only [List.foldl_cons, List.foldl_nil, decide_eq_true_eq]
  rfl

lemma handle_frame (h : e.before.handle cfg e.input = (e.after, e.output)) (hlive : ¬ answeredLive cfg e) :
    e.after = e.before := by
  rw [handle_eq_call] at h
  obtain ⟨hafter, -⟩ | ⟨serverTime, sla, adopted, hcall, -⟩ := call_cases h
  · exact hafter
  · by_cases hquery : e.before.queries cfg e.input
    · simp only [if_pos hquery, LeaseCall.onGrantStatus.injEq] at hcall
      simp [answeredLive, answer, hquery, hcall.1] at hlive
    · simp [if_neg hquery] at hcall

lemma requestRun_revoked_queries {requests : List LeaseRequest}
    (hclock : ClockOrdered requests) :
    Always (fun past e => revokedStands cfg past → e.before.queries cfg e.input)
      (requestRun cfg requests) := by
  have hlapsed : Always (fun past e => revokedStands cfg past → ∃ x ∈ past,
      e.before.queries cfg x.input) (requestRun cfg requests) := by
    apply invariant (fun past self => revokedStands cfg past → ∃ x ∈ past, self.queries cfg x.input)
    · intro h
      cases h
    · intro past e rest hrun hpast hstands
      have hstep : e.before.handle cfg e.input = (e.after, e.output) := step_of_eq_append hrun
      rcases (revokedStands_append cfg past e).mp hstands with hrevoked | ⟨hstands, hlive⟩
      · have hlive : ¬ answeredLive cfg e := by simp [answeredLive, hrevoked]
        refine ⟨e, by simp, ?_⟩
        rw [handle_frame hstep hlive]
        by_contra hquery
        simp [answer, hquery] at hrevoked
      · obtain ⟨x, hx, hquery⟩ := hpast hstands
        rw [handle_frame hstep hlive]
        exact ⟨x, List.mem_append_left [e] hx, hquery⟩
  intro past e rest hrun hstands
  obtain ⟨x, hx, hquery⟩ := hlapsed past e rest hrun hstands
  have hmem : x ∈ requestRun cfg requests := by
    rw [hrun]
    exact List.mem_append_left _ hx
  have hanswer : x.input.decideAt ≤ x.input.answerAt := (always_forall_input hclock.1).of_mem hmem
  have hnext := always_pairwise_input hclock.2 past e rest hrun x hx
  exact queries_mono hquery (Nat.le_trans hanswer hnext)

/-- While a revocation stands, a request is served without a live answer only if its query finds the
server unreachable within the old grace. -/
lemma handle_serve_of_queries (h : e.before.handle cfg e.input = (e.after, e.output))
    (hquery : e.before.queries cfg e.input) (hlive : ¬ answeredLive cfg e) :
    e.output = some .serve ↔ e.input.outcome = .unreachable ∧
      inGrace e.before cfg e.input.answerAt e.input.tokenExp := by
  rw [handle_eq_call, if_pos hquery] at h
  have hout : (e.before.call cfg
      (.onGrantStatus e.input.outcome e.input.answerAt e.input.tokenExp)).2 = e.output := by rw [h]
  cases houtcome : e.input.outcome with
  | live serverTime sla => simp [answeredLive, answer, hquery, houtcome] at hlive
  | revoked =>
    rw [houtcome] at hout
    simp only [reduceCtorEq, false_and, iff_false]
    intro hserve
    rw [hserve] at hout
    cases hout
  | unreachable =>
    rw [houtcome] at hout
    rw [← hout, call_unreachable_serve]
    simp

/-- After a query has answered "revoked", no request is served before a live answer, in
exactly the runs where no request meets an unreachable server within the grace of the last
live answer before the revocation. -/
theorem requestRun_revoked_final_iff (cfg : LeaseConfig) (requests : List LeaseRequest)
    (hclock : ClockOrdered requests) :
    Always (fun past e => revokedStands cfg past → ¬ answeredLive cfg e → e.output ≠ some .serve)
      (requestRun cfg requests) ↔
    Always (fun past e => revokedStands cfg past → e.input.outcome = .unreachable →
      ¬ inGrace e.before cfg e.input.answerAt e.input.tokenExp) (requestRun cfg requests) := by
  apply Always.congr
  intro past e rest hrun
  have hstep : e.before.handle cfg e.input = (e.after, e.output) := step_of_eq_append hrun
  have hqueries := requestRun_revoked_queries hclock past e rest hrun
  constructor
  · intro h hstands houtcome hgrace
    have hlive : ¬ answeredLive cfg e := by simp [answeredLive, answer, hqueries hstands, houtcome]
    exact h hstands hlive ((handle_serve_of_queries hstep (hqueries hstands) hlive).mpr
      ⟨houtcome, hgrace⟩)
  · intro h hstands hlive hserve
    obtain ⟨houtcome, hgrace⟩ :=
      (handle_serve_of_queries hstep (hqueries hstands) hlive).mp hserve
    exact h hstands houtcome hgrace

def revokedRequests (unreachableAt : Instant) : List LeaseRequest :=
  [⟨clockAt 0, unixTime 2000, .live (unixTime 1000) none, clockAt 0⟩,
    ⟨clockAt 40, unixTime 2000, .revoked, clockAt 40⟩,
    ⟨unreachableAt, unixTime 2000, .unreachable, unreachableAt⟩]

theorem requestRun_revoked_final_iff_late :
    Always (fun past e => revokedStands defaultLeaseConfig past →
      ¬ answeredLive defaultLeaseConfig e → e.output ≠ some .serve)
      (requestRun defaultLeaseConfig (revokedRequests (clockAt 120))) :=
  (requestRun_revoked_final_iff defaultLeaseConfig (revokedRequests (clockAt 120))
    (by decide)).mpr (by decide)

theorem requestRun_revoked_then_served :
    (requestRun defaultLeaseConfig (revokedRequests (clockAt 50))).map Step.output =
      [some .serve, some (.failClosed .revoked), some .serve] ∧
    ¬ Always (fun past e => revokedStands defaultLeaseConfig past →
      ¬ answeredLive defaultLeaseConfig e → e.output ≠ some .serve)
      (requestRun defaultLeaseConfig (revokedRequests (clockAt 50))) := by
  decide

end SignetDrive.Proofs
