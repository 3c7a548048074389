import SignetDrive.Model.PageStores

/-!
# What a disposed store still does

The teardown of a store clears what is armed at that moment; a call that is suspended then can arm a
timer or add the listener later.
-/

namespace SignetDrive.Proofs

open EventLoop CanBecomeLoud Automaton

section Garnet

open GarnetStore

variable {p q : GarnetPage}

def KeepsPollTimer (p : GarnetPage) : Prop := p.timers = p.store.pollTimer.toList.map (·, GarnetTick.poll)

lemma KeepsPollTimer.length_le_one (hp : KeepsPollTimer p) : p.timers.length ≤ 1 := by
  rw [hp, List.length_map]
  exact Option.length_toList_le

lemma KeepsPollTimer.schedulePoll (hp : KeepsPollTimer p) : KeepsPollTimer (schedulePoll p) := by
  unfold GarnetStore.schedulePoll
  split_ifs with htimer
  · exact hp
  · exact hp
  · exact hp
  · rw [KeepsPollTimer, not_not.mp htimer] at hp
    rw [KeepsPollTimer, Page.setTimeout, hp]
    rfl

lemma schedulePoll_running (p : GarnetPage) : (schedulePoll p).running = p.running := by
  unfold schedulePoll
  split_ifs <;> rfl

lemma schedulePoll_listener (p : GarnetPage) : (schedulePoll p).listener = p.listener := by
  unfold schedulePoll
  split_ifs <;> rfl

lemma schedulePoll_loud (hp : p.Loud) : (schedulePoll p).Loud := by
  unfold schedulePoll
  split_ifs
  · exact hp
  · exact hp
  · exact hp
  · exact .inl (List.append_ne_nil_of_right_ne_nil _ (List.cons_ne_nil _ _))

lemma schedulePoll_arms (htimer : p.store.pollTimer = none)
    (hhot : hasHotGrant p.store.grants = true ∨ p.store.hasBroker = false) (hvisible : p.visible = true) :
    (schedulePoll p).Loud := by
  have hnotQuiet : ¬ (!hasHotGrant p.store.grants && p.store.hasBroker) = true := by
    rcases hhot with hhot | hbroker
    · simp [hhot]
    · simp [hbroker]
  rw [schedulePoll, if_neg (not_not.mpr htimer), if_neg hnotQuiet, if_neg (by simp [hvisible])]
  exact .inl (List.append_ne_nil_of_right_ne_nil _ (List.cons_ne_nil _ _))

lemma garnet_initialized_loud (p : GarnetPage) : (initialized p).Loud :=
  .inr (schedulePoll_listener _)

lemma KeepsPollTimer.resume (hp : KeepsPollTimer p) (id : ℕ) (call : GarnetCall) (answer : GarnetAnswer call) :
    KeepsPollTimer (resume id call answer p) := by
  cases call with
  | init | quietRefresh =>
    cases answer with
    | error | ok => exact KeepsPollTimer.schedulePoll hp
  | ceremonyBegin | ceremonyComplete => cases answer <;> exact hp
  | loadGrants =>
    cases answer with
    | error e => exact hp
    | ok grants =>
      have hloaded : KeepsPollTimer (p.update fun s => { s with grants }) := hp
      exact hloaded.schedulePoll

lemma KeepsPollTimer.step {e : Event GarnetTick GarnetCall GarnetEntry GarnetAnswer} (hp : KeepsPollTimer p)
    (he : e ≠ .dispose) (hstep : step script p e = some q) : KeepsPollTimer q := by
  cases e with
  | dispose => exact absurd rfl he
  | enter entry =>
    rw [← Option.some_inj.mp hstep]
    cases entry <;> exact hp
  | settle id call answer =>
    rw [EventLoop.step] at hstep
    split_ifs at hstep
    rw [← Option.some_inj.mp hstep]
    have hrest : KeepsPollTimer { p with running := p.running.erase (id, call) } := hp
    exact hrest.resume id call answer
  | fire handle tick =>
    rw [EventLoop.step] at hstep
    split_ifs at hstep with hmem
    rw [← Option.some_inj.mp hstep]
    -- the timer that fires is the only one
    rw [hp] at hmem ⊢
    obtain ⟨h, hh, htimer⟩ := List.mem_map.mp hmem
    rw [Option.mem_toList] at hh
    rw [hh, ← htimer]
    cases tick
    exact List.erase_cons_head _ []
  | visibility visible =>
    rw [EventLoop.step] at hstep
    split_ifs at hstep <;> rw [← Option.some_inj.mp hstep]
    · change KeepsPollTimer (onVisibilityChange _)
      unfold onVisibilityChange
      split_ifs <;> exact hp
    · exact hp

lemma garnet_canEnd : Script.CanEnd script := by
  intro call
  cases call with
  | init =>
    exact ⟨.error "", fun id p => ⟨schedulePoll_running _, fun _ => garnet_initialized_loud _⟩⟩
  | quietRefresh => exact ⟨.error "", fun id p => ⟨schedulePoll_running p, schedulePoll_loud⟩⟩
  | ceremonyBegin | ceremonyComplete | loadGrants => exact ⟨.error "", fun id p => ⟨rfl, fun hp => hp⟩⟩

lemma garnet_canBecomeLoud (htimer : p.store.pollTimer = none) (hvisible : p.visible = true) {id : ℕ}
    {call : GarnetCall} (hmem : (id, call) ∈ p.running) : CanBecomeLoud script p := by
  have hload : ∀ {p : GarnetPage}, p.store.pollTimer = none → p.visible = true →
      (id, GarnetCall.loadGrants) ∈ p.running → CanBecomeLoud script p := by
    intro p htimer hvisible hmem
    apply of_settle (.ok [⟨"active", false, false, false⟩]) hmem
    exact Page.Loud.canBecomeLoud (schedulePoll_arms htimer (.inl rfl) hvisible)
  have hcomplete : ∀ {p : GarnetPage}, p.store.pollTimer = none → p.visible = true →
      (id, GarnetCall.ceremonyComplete) ∈ p.running → CanBecomeLoud script p := by
    intro p htimer hvisible hmem
    apply of_settle (.ok ()) hmem
    exact hload htimer hvisible (List.mem_append_right _ (List.mem_singleton_self _))
  cases call with
  | init =>
    apply of_settle (.error "") hmem
    exact (garnet_initialized_loud _).canBecomeLoud
  | quietRefresh =>
    apply of_settle (.ok ⟨[], []⟩) hmem
    exact Page.Loud.canBecomeLoud (schedulePoll_arms htimer (.inr rfl) hvisible)
  | ceremonyBegin operation =>
    apply of_settle (.ok ()) hmem
    exact hcomplete htimer hvisible (List.mem_append_right _ (List.mem_singleton_self _))
  | ceremonyComplete => exact hcomplete htimer hvisible hmem
  | loadGrants => exact hload htimer hvisible hmem

lemma garnet_dispose_pollTimer (p : GarnetPage) : (dispose p).store.pollTimer = none := by
  unfold dispose
  split_ifs with htimer
  · rfl
  · exact not_not.mp htimer

lemma garnet_dispose_running (p : GarnetPage) : (dispose p).running = p.running := by
  unfold dispose
  split_ifs <;> rfl

lemma KeepsPollTimer.dispose_timers (hp : KeepsPollTimer p) : (dispose p).timers = [] := by
  cases htimer : p.store.pollTimer with
  | none =>
    rw [KeepsPollTimer, htimer] at hp
    rw [dispose, if_neg (not_not.mpr htimer)]
    exact hp
  | some handle =>
    rw [KeepsPollTimer, htimer] at hp
    rw [dispose, if_pos (by simp [htimer])]
    change p.timers.filter _ = []
    rw [hp]
    simp [htimer]

lemma garnet_silentAfter_iff (hp : KeepsPollTimer p) : SilentAfter script p ↔ p.running = [] := by
  constructor
  · intro hsilent
    by_contra hne
    obtain ⟨⟨id, call⟩, hmem⟩ := List.exists_mem_of_ne_nil _ hne
    refine not_silentAfter garnet_canEnd ?_ hsilent
    -- the document is shown again, and the call goes on
    have hstep : step script (dispose p) (.visibility true) = some { dispose p with visible := true } := rfl
    apply of_step (e := .visibility true) trivial hstep
    exact garnet_canBecomeLoud (garnet_dispose_pollTimer p) rfl ((garnet_dispose_running p).symm ▸ hmem)
  · intro hnone
    have hharmless : Script.Harmless script fun _ => False := fun _ _ _ _ h => h.elim
    apply silentAfter_of_windsDown hharmless
    refine ⟨hp.dispose_timers, rfl, fun c hc => ?_⟩
    rw [show (script.dispose p).running = p.running from garnet_dispose_running p, hnone] at hc
    exact absurd hc List.not_mem_nil

end Garnet

/-- The calls that may arm the poll timer. -/
def armsTimer : EnrollmentCall → Bool
  | .resume | .confirm | .poll => true
  | .approveBegin | .approveComplete => false

section Enrollment

open EnrollmentStore

variable {code : String} {trim toLowerCase : String → String} {p q : EnrollmentPage}

lemma pollLater_loud (p : EnrollmentPage) : (pollLater p).Loud :=
  .inl (List.append_ne_nil_of_right_ne_nil _ (List.cons_ne_nil _ _))

lemma enrollment_canEnd : Script.CanEnd (script code trim toLowerCase) := by
  intro call
  cases call with
  | poll => exact ⟨.error ⟨none, ""⟩, fun id p => ⟨rfl, fun _ => pollLater_loud p⟩⟩
  | resume | confirm | approveBegin | approveComplete =>
    exact ⟨.error ⟨none, ""⟩, fun id p => ⟨rfl, fun hp => hp⟩⟩

lemma enrollment_canBecomeLoud {id : ℕ} {call : EnrollmentCall} (harms : armsTimer call = true)
    (hmem : (id, call) ∈ p.running) : CanBecomeLoud (script code trim toLowerCase) p := by
  cases call with
  | approveBegin => cases harms
  | approveComplete => cases harms
  | resume =>
    apply of_settle (.ok ⟨"confirmed", none⟩) hmem
    exact (pollLater_loud _).canBecomeLoud
  | confirm =>
    apply of_settle (.ok ()) hmem
    exact Page.Loud.canBecomeLoud (.inl (List.append_ne_nil_of_right_ne_nil _ (List.cons_ne_nil _ _)))
  | poll =>
    apply of_settle (.error ⟨none, ""⟩) hmem
    exact (pollLater_loud _).canBecomeLoud

lemma enrollment_harmless :
    Script.Harmless (script code trim toLowerCase) fun call => armsTimer call = false := by
  intro id call answer p hcall
  cases call with
  | resume | confirm | poll => cases hcall
  | approveBegin =>
    cases answer with
    | error e => exact ⟨rfl, rfl, fun c hc => .inl hc⟩
    | ok =>
      refine ⟨rfl, rfl, fun c hc => ?_⟩
      rcases List.mem_append.mp hc with hc | hc
      · exact .inl hc
      · rw [List.mem_singleton.mp hc]
        exact .inr ⟨rfl, rfl⟩
  | approveComplete => cases answer <;> exact ⟨rfl, rfl, fun c hc => .inl hc⟩

lemma enrollment_dispose_timers (p : EnrollmentPage) : (dispose p).timers = [] ↔
    ∀ timer ∈ p.timers, p.store.timer = some timer.1 ∨ p.store.slowTimer = some timer.1 := by
  change (p.timers.filter _).filter _ = [] ↔ _
  rw [List.filter_filter, List.filter_eq_nil_iff]
  apply forall₂_congr
  intro timer _
  change ¬ (decide (some timer.1 ≠ p.store.slowTimer) && decide (some timer.1 ≠ p.store.timer)) = true ↔ _
  grind

lemma enrollment_step_listener {e : Event EnrollmentTick EnrollmentCall EnrollmentEntry EnrollmentAnswer}
    (hp : p.listener = false) (hstep : step (script code trim toLowerCase) p e = some q) :
    q.listener = false := by
  cases e with
  | dispose =>
    rw [← Option.some_inj.mp hstep]
    exact hp
  | enter entry =>
    rw [← Option.some_inj.mp hstep]
    cases entry with
    | confirm =>
      change (confirm code trim toLowerCase p).listener = false
      unfold confirm
      dsimp only
      split_ifs <;> exact hp
    | resume | edit | approve => exact hp
  | settle id call answer =>
    rw [EventLoop.step] at hstep
    split_ifs at hstep
    rw [← Option.some_inj.mp hstep]
    change (resume code id call answer _).listener = false
    unfold resume
    split
    · unfold resumed
      dsimp only
      split_ifs <;> exact hp
    all_goals try exact hp
    unfold polled
    dsimp only
    split_ifs <;> exact hp
  | fire handle tick =>
    rw [EventLoop.step] at hstep
    split_ifs at hstep
    rw [← Option.some_inj.mp hstep]
    cases tick <;> exact hp
  | visibility visible =>
    rw [EventLoop.step] at hstep
    split_ifs at hstep <;> rw [← Option.some_inj.mp hstep] <;> exact hp

lemma enrollment_silentAfter_iff (hp : p.listener = false) : SilentAfter (script code trim toLowerCase) p ↔
    (∀ c ∈ p.running, armsTimer c.2 = false) ∧
      ∀ timer ∈ p.timers, p.store.timer = some timer.1 ∨ p.store.slowTimer = some timer.1 := by
  rw [← enrollment_dispose_timers]
  constructor
  · intro hsilent
    constructor
    · intro c hc
      by_contra harms
      exact not_silentAfter enrollment_canEnd
        (enrollment_canBecomeLoud (Bool.eq_true_of_not_eq_false harms) hc) hsilent
    · by_contra htimers
      have hloud : (dispose p).Loud := .inl htimers
      exact not_silentAfter enrollment_canEnd hloud.canBecomeLoud hsilent
  · rintro ⟨hcalls, htimers⟩
    apply silentAfter_of_windsDown enrollment_harmless
    exact ⟨htimers, hp, fun c hc => ⟨hcalls c hc, c, hc, rfl⟩⟩

end Enrollment

/-- The calls that may add the listener. -/
def addsListener : AccountCall → Bool
  | .initMe | .initPrsns _ | .initTiers => true
  | .refreshMe | .refreshPrsns => false

section Account

open AccountStore

variable {p : AccountPage}

lemma account_canEnd : Script.CanEnd script := by
  intro call
  cases call with
  | initMe | initPrsns | initTiers => exact ⟨.error "", fun id p => ⟨rfl, fun _ => .inr rfl⟩⟩
  | refreshMe | refreshPrsns => exact ⟨.error "", fun id p => ⟨rfl, fun hp => hp⟩⟩

lemma account_canBecomeLoud {id : ℕ} {call : AccountCall} (hlistens : addsListener call = true)
    (hmem : (id, call) ∈ p.running) : CanBecomeLoud script p := by
  have hloud : ∀ {p : AccountPage} {error : String}, CanBecomeLoud script (initFailed error p) :=
    Page.Loud.canBecomeLoud (.inr rfl)
  cases call with
  | initMe | initPrsns | initTiers =>
    apply of_settle (.error "") hmem
    exact hloud
  | refreshMe => cases hlistens
  | refreshPrsns => cases hlistens

lemma account_harmless : Script.Harmless script fun call => addsListener call = false := by
  intro id call answer p hcall
  cases call with
  | initMe | initPrsns | initTiers => cases hcall
  | refreshPrsns => exact ⟨rfl, rfl, fun c hc => .inl hc⟩
  | refreshMe =>
    cases answer with
    | error e => exact ⟨rfl, rfl, fun c hc => .inl hc⟩
    | ok me =>
      change (resume id .refreshMe (.ok me) p).timers = _ ∧ (resume id .refreshMe (.ok me) p).listener = _ ∧
        ∀ c ∈ (resume id .refreshMe (.ok me) p).running, _
      rw [resume]
      split_ifs
      · refine ⟨rfl, rfl, fun c hc => ?_⟩
        rcases List.mem_append.mp hc with hc | hc
        · exact .inl hc
        · rw [List.mem_singleton.mp hc]
          exact .inr ⟨rfl, rfl⟩
      · exact ⟨rfl, rfl, fun c hc => .inl hc⟩

lemma account_timers (p : AccountPage) : p.timers = [] :=
  List.eq_nil_iff_forall_not_mem.mpr fun timer _ => timer.2.elim

lemma account_silentAfter_iff (p : AccountPage) :
    SilentAfter script p ↔ ∀ c ∈ p.running, addsListener c.2 = false := by
  constructor
  · intro hsilent c hc
    by_contra hlistens
    exact not_silentAfter account_canEnd
      (account_canBecomeLoud (Bool.eq_true_of_not_eq_false hlistens) hc) hsilent
  · intro hcalls
    apply silentAfter_of_windsDown account_harmless
    exact ⟨account_timers _, rfl, fun c hc => ⟨hcalls c hc, c, hc, rfl⟩⟩

end Account

/-- A store that was loaded into a page and is disposed after some events is silent from then on
exactly if no call is suspended that arms a timer or adds the listener when it goes on, and no
timer is armed whose handle was overwritten. Until it is disposed, the grants arm one timer at
most. -/
theorem disposed_stores_silent_iff (visible : Bool) (code : String) (trim toLowerCase : String → String) :
    (∀ events p, (∀ e ∈ events, e ≠ Event.dispose) →
      run (step GarnetStore.script) (Page.load GarnetStore.new visible) events = some p →
      p.timers.length ≤ 1 ∧ (SilentAfter GarnetStore.script p ↔ p.running = [])) ∧
    (∀ events p, (∀ e ∈ events, e ≠ Event.dispose) →
      run (step (EnrollmentStore.script code trim toLowerCase)) (Page.load EnrollmentStore.new visible)
        events = some p →
      (SilentAfter (EnrollmentStore.script code trim toLowerCase) p ↔
        (∀ c ∈ p.running, armsTimer c.2 = false) ∧
          ∀ timer ∈ p.timers, p.store.timer = some timer.1 ∨ p.store.slowTimer = some timer.1)) ∧
    (∀ events p, (∀ e ∈ events, e ≠ Event.dispose) →
      run (step AccountStore.script) (Page.load AccountStore.new visible) events = some p →
      (SilentAfter AccountStore.script p ↔ ∀ c ∈ p.running, addsListener c.2 = false)) := by
  refine ⟨?_, ?_, ?_⟩
  · intro events p hevents hrun
    have hload : KeepsPollTimer (Page.load GarnetStore.new visible) := rfl
    have hp := invariant KeepsPollTimer hload (fun e he u v hu hstep => hu.step (hevents e he) hstep) hrun
    exact ⟨hp.length_le_one, garnet_silentAfter_iff hp⟩
  · intro events p _ hrun
    have hp := invariant (fun u : EnrollmentPage => u.listener = false) rfl
      (fun e _ u v hu hstep => enrollment_step_listener hu hstep) hrun
    exact enrollment_silentAfter_iff hp
  · intro events p _ _
    exact account_silentAfter_iff p

/-- Stores that were initialised before they are disposed, one of them with its poll armed. -/
theorem disposed_stores_silent_after_init :
    (∃ p, run (step GarnetStore.script) (Page.load GarnetStore.new true)
        [.enter .init, .settle 0 .init (.ok ⟨[], []⟩)] = some p ∧
      p.timers = [(0, .poll)] ∧ p.listener = true ∧ SilentAfter GarnetStore.script p) ∧
    (∃ p, run (step (EnrollmentStore.script "K7QM" id id)) (Page.load EnrollmentStore.new true)
        [.enter .resume, .settle 0 .resume (.ok ⟨"confirmed", none⟩)] = some p ∧
      p.timers = [(0, .slow), (1, .poll)] ∧ SilentAfter (EnrollmentStore.script "K7QM" id id) p) ∧
    (∃ p, run (step AccountStore.script) (Page.load AccountStore.new true)
        [.enter .init, .settle 0 .initMe (.ok ⟨"prsn", false⟩)] = some p ∧
      p.listener = true ∧ SilentAfter AccountStore.script p) := by
  obtain ⟨hgarnet, henrollment, haccount⟩ := disposed_stores_silent_iff true "K7QM" id id
  refine ⟨⟨_, rfl, rfl, rfl, ?_⟩, ⟨_, rfl, rfl, ?_⟩, ⟨_, rfl, rfl, ?_⟩⟩
  · exact ((hgarnet [.enter .init, .settle 0 .init (.ok ⟨[], []⟩)] _ (by simp) rfl).2).mpr rfl
  · exact (henrollment [.enter .resume, .settle 0 .resume (.ok ⟨"confirmed", none⟩)] _
      (by simp) rfl).mpr (by decide)
  · exact (haccount [.enter .init, .settle 0 .initMe (.ok ⟨"prsn", false⟩)] _ (by simp) rfl).mpr (by decide)

/-- The panel is left while `init` waits. When the answer comes, the disposed store adds its
listener and arms its poll; it polls again and again. A left account page listens in the same way,
and a left enrollment goes on polling. -/
theorem disposed_store_polls_on :
    (∃ p q r, run (step GarnetStore.script) (Page.load GarnetStore.new true) [.enter .init] = some p ∧
      run (step GarnetStore.script) p [.dispose, .settle 0 .init (.ok ⟨[], []⟩)] = some q ∧
      q.running = [] ∧ q.timers = [(0, .poll)] ∧ q.listener = true ∧
      run (step GarnetStore.script) q [.fire 0 .poll, .settle 1 .quietRefresh (.error "")] = some r ∧
      r.requests = q.requests ++ GarnetStore.readPanel ∧ r.timers = [(1, .poll)]) ∧
    (∃ p q r, run (step (EnrollmentStore.script "K7QM" id id)) (Page.load EnrollmentStore.new true)
        [.enter .resume] = some p ∧
      run (step (EnrollmentStore.script "K7QM" id id)) p
        [.dispose, .settle 0 .resume (.ok ⟨"confirmed", none⟩)] = some q ∧
      q.running = [] ∧ q.timers = [(0, .slow), (1, .poll)] ∧
      run (step (EnrollmentStore.script "K7QM" id id)) q [.fire 1 .poll] = some r ∧
      r.requests = q.requests ++ [.pollEnrollment "K7QM"]) ∧
    (∃ p q, run (step AccountStore.script) (Page.load AccountStore.new true) [.enter .init] = some p ∧
      run (step AccountStore.script) p [.dispose, .settle 0 .initMe (.error "")] = some q ∧
      q.running = [] ∧ q.listener = true) :=
  ⟨⟨_, _, _, rfl, rfl, rfl, rfl, rfl, rfl, rfl, rfl⟩, ⟨_, _, _, rfl, rfl, rfl, rfl, rfl, rfl⟩,
    ⟨_, _, rfl, rfl, rfl, rfl⟩⟩

end SignetDrive.Proofs
