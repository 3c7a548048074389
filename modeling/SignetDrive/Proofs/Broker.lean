import SignetDrive.Model.Broker
import SignetDrive.Proofs.HostSigner
import SignetDrive.Proofs.LeaseRuns

/-!
# Runs of the broker

Seen from one grant, every run of the broker is a run of that grant's lease.
-/

namespace SignetDrive.Proofs
open Run

variable {Key Rand : Type} {ctx : BrokerContext Key Rand} {s : Broker Key} {e : BrokerEvent Rand}
  {grantId : Uuid}

/-- The steps of a broker from its start. -/
def brokerRun (ctx : BrokerContext Key Rand) (keystore : Keystore Key)
    (events : List (BrokerEvent Rand)) : List (Step (Broker Key) (BrokerEvent Rand) BrokerOutput) :=
  steps (Broker.step ctx) (Broker.start keystore) events

def leaseCall (ctx : BrokerContext Key Rand) (grantId : Uuid) (s : Broker Key)
    (e : BrokerEvent Rand) : Option LeaseCall :=
  match e.action with
  | .request r =>
    match ctx.verifySkippingTime r.token r.handle r.cnf with
    | none => none
    | some verified =>
      if verified.grantId = grantId ∧ s.querying grantId = none then
        some (.decide e.now verified.exp)
      else none
  | .answer grantId' outcome =>
    if grantId' = grantId then
      (s.querying grantId).map fun q => .onGrantStatus outcome e.now q.exp
    else none
  | .perform _ _ => none

lemma resolve_leases (s : Broker Key) (g : Uuid) (r : BrokerRequest) (decision : Decision) :
    (s.resolve g r decision).1.leases = s.leases := by
  unfold Broker.resolve
  split <;> rfl

lemma resolve_serve {g : Uuid} {r r' : BrokerRequest} {decision : Decision}
    (h : (s.resolve g r decision).2 = .serve grantId r') :
    decision = .serve ∧ g = grantId ∧ r = r' := by
  unfold Broker.resolve at h
  split at h
  · cases h
    exact ⟨rfl, rfl, rfl⟩
  all_goals cases h

lemma request_leases (now : Instant) (r : BrokerRequest) :
    (s.request ctx now r).1.leases = s.leases := by
  unfold Broker.request
  split
  · rfl
  · split
    · rfl
    · split
      · rfl
      · exact resolve_leases s _ r _

variable {q : Querying} {c : LeaseCall}

lemma answer_leases (ctx : BrokerContext Key Rand) (now : Instant) (outcome : GrantStatusOutcome)
    (hq : s.querying grantId = some q) :
    (s.answer ctx now grantId outcome).1.leases = Function.update s.leases grantId
      ((s.leases grantId).call ctx.leaseCfg (.onGrantStatus outcome now q.exp)).1 := by
  simp only [Broker.answer, hq, GrantLease.call]
  cases hstatus : (s.leases grantId).onGrantStatus outcome now q.exp ctx.leaseCfg with
  | none => simp
  | some result => exact resolve_leases _ _ _ _

lemma perform_leases (index : ℕ) (rand : Rand) : (s.perform ctx index rand).1.leases = s.leases := by
  unfold Broker.perform
  split <;> rfl

lemma step_leaseCall (h : leaseCall ctx grantId s e = some c) :
    (s.step ctx e).1.leases grantId = ((s.leases grantId).call ctx.leaseCfg c).1 := by
  obtain ⟨now, action⟩ := e
  cases action with
  | request r =>
    simp only [leaseCall] at h
    split at h
    · cases h
    · split at h
      · cases h
        exact congrFun (request_leases now r) grantId
      · cases h
  | answer grantId' outcome =>
    simp only [leaseCall] at h
    split at h
    · rename_i hgrant
      subst hgrant
      rw [Option.map_eq_some_iff] at h
      obtain ⟨q, hq, rfl⟩ := h
      have hleases := congrFun (answer_leases ctx now outcome hq) grantId'
      rw [Function.update_self] at hleases
      exact hleases
    · cases h
  | perform index rand => cases h

lemma step_frame (h : leaseCall ctx grantId s e = none) :
    (s.step ctx e).1.leases grantId = s.leases grantId := by
  obtain ⟨now, action⟩ := e
  cases action with
  | request r => exact congrFun (request_leases now r) grantId
  | answer grantId' outcome =>
    cases hq : s.querying grantId' with
    | none => simp [Broker.step, Broker.answer, hq]
    | some q =>
      have hne : grantId ≠ grantId' := by
        rintro rfl
        simp [leaseCall, hq] at h
      have hleases := congrFun (answer_leases ctx now outcome hq) grantId
      rw [Function.update_of_ne hne] at hleases
      exact hleases
  | perform index rand => exact congrFun (perform_leases index rand) grantId

theorem brokerRun_project (ctx : BrokerContext Key Rand) (keystore : Keystore Key)
    (events : List (BrokerEvent Rand)) (grantId : Uuid) :
    (brokerRun ctx keystore events).filterMap
        (project (fun s => s.leases grantId) (GrantLease.call ctx.leaseCfg) (leaseCall ctx grantId)) =
      leaseRun ctx.leaseCfg
        ((brokerRun ctx keystore events).filterMap (callOf (leaseCall ctx grantId))) := by
  apply steps_project
  · intro s e c h
    exact step_leaseCall h
  · intro s e h
    exact step_frame h

/-- The grant and the request that a step serves. -/
def servedRequest (e : Step (Broker Key) (BrokerEvent Rand) BrokerOutput) :
    Option (Uuid × BrokerRequest) :=
  match e.output with
  | .serve grantId r => some (grantId, r)
  | _ => none

/-- The request whose query the step answers "live". The query named the grant, and the
handle and thumbprint of that request. -/
def liveQuery (e : Step (Broker Key) (BrokerEvent Rand) BrokerOutput) :
    Option (Uuid × BrokerRequest) :=
  match e.input.action with
  | .answer grantId (.live _ _) => (e.before.querying grantId).map fun q => (grantId, q.request)
  | _ => none

/-- A query in flight was made for a request whose token is for that grant. -/
def QueryingVerified (ctx : BrokerContext Key Rand) (s : Broker Key) : Prop :=
  ∀ grantId q, s.querying grantId = some q →
    ctx.verifySkippingTime q.request.token q.request.handle q.request.cnf = some ⟨grantId, q.exp⟩

lemma resolve_querying (s : Broker Key) (g : Uuid) (r : BrokerRequest) (decision : Decision) :
    (s.resolve g r decision).1.querying = s.querying := by
  unfold Broker.resolve
  split <;> rfl

lemma request_querying {now : Instant} {r : BrokerRequest}
    (h : (s.request ctx now r).1.querying grantId = some q) :
    s.querying grantId = some q ∨ q.request = r ∧
      ctx.verifySkippingTime r.token r.handle r.cnf = some ⟨grantId, q.exp⟩ := by
  unfold Broker.request at h
  split at h
  · exact .inl h
  · rename_i verified hverified
    split at h
    · exact .inl h
    · split at h
      · by_cases hgrant : grantId = verified.grantId
        · subst hgrant
          simp only [Function.update_self, Option.some.injEq] at h
          subst h
          exact .inr ⟨rfl, hverified⟩
        · simp only [Function.update_of_ne hgrant] at h
          exact .inl h
      · rw [resolve_querying] at h
        exact .inl h

lemma answer_querying {now : Instant} {g : Uuid} {outcome : GrantStatusOutcome}
    (h : (s.answer ctx now g outcome).1.querying grantId = some q) : s.querying grantId = some q := by
  have hupdate : Function.update s.querying g none grantId = some q → s.querying grantId = some q := by
    by_cases hgrant : grantId = g
    · subst hgrant
      simp
    · rw [Function.update_of_ne hgrant]
      exact id
  unfold Broker.answer at h
  split at h
  · exact h
  · split at h
    · exact hupdate h
    · rw [resolve_querying] at h
      exact hupdate h

lemma step_queryingVerified (hs : QueryingVerified ctx s) : QueryingVerified ctx (s.step ctx e).1 := by
  intro grantId q h
  obtain ⟨now, action⟩ := e
  cases action with
  | request r =>
    obtain hold | ⟨rfl, hverified⟩ := request_querying h
    · exact hs grantId q hold
    · exact hverified
  | answer g outcome => exact hs grantId q (answer_querying h)
  | perform index rand =>
    apply hs
    simp only [Broker.step, Broker.perform] at h
    split at h <;> exact h

variable {x : Step (Broker Key) (BrokerEvent Rand) BrokerOutput}

/-- A request is served when the call of its step on the lease of its grant says so; if that
call brings a live answer, the query was the request's own. -/
lemma step_serve {r : BrokerRequest}
    (hstep : x.before.step ctx x.input = (x.after, x.output)) (h : x.output = .serve grantId r) :
    ∃ c, leaseCall ctx grantId x.before x.input = some c ∧
      ((x.before.leases grantId).call ctx.leaseCfg c).2 = some .serve ∧
      (c.isLive → liveQuery x = some (grantId, r)) := by
  have hout : (x.before.step ctx x.input).2 = .serve grantId r := by rw [hstep, h]
  obtain ⟨s, ⟨now, action⟩, output, after⟩ := x
  cases action with
  | request r' =>
    simp only [Broker.step, Broker.request] at hout
    split at hout
    · cases hout
    · rename_i verified hverified
      split at hout
      · cases hout
      · rename_i hquerying
        split at hout
        · cases hout
        · obtain ⟨hdecision, rfl, rfl⟩ := resolve_serve hout
          refine ⟨.decide now verified.exp, ?_, ?_, False.elim⟩
          · simp [leaseCall, hverified, hquerying]
          · simp only [GrantLease.call, hdecision]
  | answer g outcome =>
    simp only [Broker.step, Broker.answer] at hout
    split at hout
    · cases hout
    · rename_i q hq
      split at hout
      · cases hout
      · rename_i decision lease hstatus
        obtain ⟨rfl, rfl, rfl⟩ := resolve_serve hout
        refine ⟨.onGrantStatus outcome now q.exp, ?_, ?_, ?_⟩
        · simp [leaseCall, hq]
        · simp only [GrantLease.call, hstatus]
        · intro hlive
          cases outcome with
          | live serverTime sla => simp [liveQuery, hq]
          | revoked => cases hlive
          | unreachable => cases hlive
  | perform index rand =>
    simp only [Broker.step, Broker.perform] at hout
    split at hout <;> cases hout

lemma liveQuery_of_isLive (hc : leaseCall ctx grantId x.before x.input = some c) (hlive : c.isLive) :
    ∃ r, liveQuery x = some (grantId, r) := by
  obtain ⟨s, ⟨now, action⟩, output, after⟩ := x
  cases action with
  | request r =>
    simp only [leaseCall] at hc
    split at hc
    · cases hc
    · split at hc
      · cases hc
        cases hlive
      · cases hc
  | answer g outcome =>
    simp only [leaseCall] at hc
    split at hc
    · rename_i hg
      subst hg
      rw [Option.map_eq_some_iff] at hc
      obtain ⟨q, hq, rfl⟩ := hc
      cases outcome with
      | live serverTime sla => exact ⟨q.request, by simp [liveQuery, hq]⟩
      | revoked => cases hlive
      | unreachable => cases hlive
    · cases hc
  | perform index rand => cases hc

lemma leaseCall_now (h : leaseCall ctx grantId s e = some c) : c.now = e.now := by
  unfold leaseCall at h
  split at h
  · split at h
    · cases h
    · split at h
      · cases h
        rfl
      · cases h
  · split at h
    · rw [Option.map_eq_some_iff] at h
      obtain ⟨q, -, rfl⟩ := h
      rfl
    · cases h
  · cases h

lemma brokerRun_calls_clock (ctx : BrokerContext Key Rand) (keystore : Keystore Key)
    {events : List (BrokerEvent Rand)} (hclock : events.Pairwise fun a b => a.now ≤ b.now) (grantId : Uuid) :
    ((brokerRun ctx keystore events).filterMap (callOf (leaseCall ctx grantId))).Pairwise
      fun a b => a.now ≤ b.now := by
  have hsteps : (brokerRun ctx keystore events).Pairwise fun a b => a.input.now ≤ b.input.now := by
    have hmap : (brokerRun ctx keystore events).map Step.input = events := steps_input
    rw [← hmap, List.pairwise_map] at hclock
    exact hclock
  rw [List.pairwise_filterMap]
  apply hsteps.imp
  intro a b hab c hc c' hc'
  rw [leaseCall_now hc, leaseCall_now hc']
  exact hab

lemma brokerRun_queryingVerified (ctx : BrokerContext Key Rand) (keystore : Keystore Key)
    (events : List (BrokerEvent Rand)) :
    Always (fun _ e => QueryingVerified ctx e.before) (brokerRun ctx keystore events) := by
  apply invariant (fun _ s => QueryingVerified ctx s)
  · intro grantId q h
    cases h
  · intro past e rest hrun hpast
    have hstep : e.before.step ctx e.input = (e.after, e.output) := step_of_eq_append hrun
    have hafter := step_queryingVerified (e := e.input) hpast
    rw [hstep] at hafter
    exact hafter

lemma liveQuery_verified
    {q : Uuid × BrokerRequest} (hq : liveQuery x = some q) (hx : QueryingVerified ctx x.before) :
    (ctx.verifySkippingTime q.2.token q.2.handle q.2.cnf).map VerifiedToken.grantId = some q.1 := by
  unfold liveQuery at hq
  split at hq
  · rw [Option.map_eq_some_iff] at hq
    obtain ⟨q', hq', rfl⟩ := hq
    simp [hx _ q' hq']
  · cases hq

/-- In every interleaving, a served request has just had its own query answered "live", or
comes within the compiled budget of a live answer to a query that named its grant and was made
for a request with a token for that grant. -/
theorem brokerRun_serve_confirmed (ctx : BrokerContext Key Rand) (keystore : Keystore Key)
    (events : List (BrokerEvent Rand)) (hclock : events.Pairwise fun a b => a.now ≤ b.now) :
    Always (fun past e => ∀ p ∈ servedRequest e, liveQuery e = some p ∨
      ∃ x ∈ past, ∃ q ∈ liveQuery x, q.1 = p.1 ∧
        (ctx.verifySkippingTime q.2.token q.2.handle q.2.cnf).map VerifiedToken.grantId = some p.1 ∧
        x.input.now ≤ e.input.now ∧ e.input.now.nanos - x.input.now.nanos <
          ctx.leaseCfg.lease.nanos + ctx.leaseCfg.outageGrace.nanos)
      (brokerRun ctx keystore events) := by
  intro past e rest hrun p hp
  obtain ⟨grantId, r⟩ := p
  have hout : e.output = .serve grantId r := by
    simp only [servedRequest] at hp
    split at hp
    · cases hp
      assumption
    · cases hp
  obtain ⟨c, hc, hserve, hown⟩ := step_serve (step_of_eq_append hrun) hout
  have hlease := leaseRun_serve_confirmed ctx.leaseCfg
    (brokerRun_calls_clock ctx keystore hclock grantId)
  rw [← brokerRun_project] at hlease
  have hproject : project (fun s => s.leases grantId) (GrantLease.call ctx.leaseCfg)
      (leaseCall ctx grantId) e = some ⟨e.before.leases grantId, c, some .serve,
        e.after.leases grantId⟩ := by
    rw [project, callOf, hc, Option.map_some, hserve]
  obtain hlive | ⟨x, hx, hlive, -, hle, hage⟩ :=
    always_of_filterMap hlease past e rest hrun _ hproject rfl
  · exact .inl (hown hlive)
  · rw [List.mem_filterMap] at hx
    obtain ⟨x', hx', hproject'⟩ := hx
    rw [project, Option.map_eq_some_iff] at hproject'
    obtain ⟨k, hk, rfl⟩ := hproject'
    have hmem : x' ∈ brokerRun ctx keystore events := by
      rw [hrun]
      exact List.mem_append_left _ hx'
    obtain ⟨r', hr'⟩ := liveQuery_of_isLive hk hlive
    have hverified := liveQuery_verified hr'
      ((brokerRun_queryingVerified ctx keystore events).of_mem hmem)
    rw [leaseCall_now hk, leaseCall_now hc] at hle hage
    exact .inr ⟨x', hx', (grantId, r'), hr', rfl, hverified, hle, hage⟩

def twoCertContext : BrokerContext StoredKey Unit where
  verifySkippingTime token handle cnf :=
    if handle = "hlin-ai" ∧ ((token = "token-1" ∧ cnf = "cert-1") ∨ (token = "token-2" ∧ cnf = "cert-2"))
    then some ⟨7, unixTime 2000⟩ else none
  leaseCfg := defaultLeaseConfig
  backend := SoftwareKeystore.backend keystoreCrypto

def twoCertEvents : List (BrokerEvent Unit) :=
  [⟨clockAt 0, .request ⟨"hlin-ai", "cert-1", "token-1", .list⟩⟩,
    ⟨clockAt 1, .answer 7 (.live (unixTime 1000) none)⟩,
    ⟨clockAt 11, .request ⟨"hlin-ai", "cert-2", "token-2", .list⟩⟩,
    ⟨clockAt 12, .perform 1 ()⟩]

theorem brokerRun_serve_confirmed_two_certs :
    (brokerRun twoCertContext hlinOnly twoCertEvents).map servedRequest =
      [none, some (7, ⟨"hlin-ai", "cert-1", "token-1", .list⟩),
        some (7, ⟨"hlin-ai", "cert-2", "token-2", .list⟩), none] ∧
    Always (fun past e => ∀ p ∈ servedRequest e, liveQuery e = some p ∨
      ∃ x ∈ past, ∃ q ∈ liveQuery x, q.1 = p.1 ∧
        (twoCertContext.verifySkippingTime q.2.token q.2.handle q.2.cnf).map VerifiedToken.grantId =
          some p.1 ∧
        x.input.now ≤ e.input.now ∧ e.input.now.nanos - x.input.now.nanos <
          twoCertContext.leaseCfg.lease.nanos + twoCertContext.leaseCfg.outageGrace.nanos)
      (brokerRun twoCertContext hlinOnly twoCertEvents) :=
  ⟨by decide, brokerRun_serve_confirmed twoCertContext hlinOnly twoCertEvents (by decide)⟩

/-- The second certificate is served although no query ever named it. -/
theorem brokerRun_serve_unqueried_cert :
    ¬ Always (fun past e => ∀ p ∈ servedRequest e, ∃ x ∈ past ++ [e], ∃ q ∈ liveQuery x,
        q.1 = p.1 ∧ q.2.handle = p.2.handle ∧ q.2.cnf = p.2.cnf ∧
        e.input.now.nanos - x.input.now.nanos <
          twoCertContext.leaseCfg.lease.nanos + twoCertContext.leaseCfg.outageGrace.nanos)
      (brokerRun twoCertContext hlinOnly twoCertEvents) := by
  decide

end SignetDrive.Proofs
