import SignetDrive.Lib.Automaton

/-!
# The script of a page

A page runs its script one event at a time. A call of the script runs until it awaits the answer
of a request; it goes on when the answer is there.
-/

namespace EventLoop

/-- A page with the object of its script. Timers and suspended calls carry the number of their
creation; `requests` lists all that were started. -/
structure Page (Store Tick Call Request : Type) where
  store : Store
  timers : List (ℕ × Tick)
  nextTimer : ℕ
  listener : Bool
  visible : Bool
  running : List (ℕ × Call)
  nextCall : ℕ
  requests : List Request
  deriving DecidableEq

namespace Page

variable {Store Tick Call Request : Type}

def load (store : Store) (visible : Bool) : Page Store Tick Call Request :=
  ⟨store, [], 0, false, visible, [], 0, []⟩

variable (p : Page Store Tick Call Request)

def update (f : Store → Store) : Page Store Tick Call Request :=
  { p with store := f p.store }

def setTimeout (tick : Tick) (keep : ℕ → Store → Store) : Page Store Tick Call Request :=
  { p with
    store := keep p.nextTimer p.store
    timers := p.timers ++ [(p.nextTimer, tick)]
    nextTimer := p.nextTimer + 1 }

def clearTimeout (handle : Option ℕ) : Page Store Tick Call Request :=
  { p with timers := p.timers.filter fun timer => some timer.1 ≠ handle }

def addEventListener : Page Store Tick Call Request :=
  { p with listener := true }

def removeEventListener : Page Store Tick Call Request :=
  { p with listener := false }

/-- A new call starts its first requests and awaits their answer. -/
def await (call : Call) (requests : List Request) : Page Store Tick Call Request :=
  { p with
    running := p.running ++ [(p.nextCall, call)]
    nextCall := p.nextCall + 1
    requests := p.requests ++ requests }

/-- A call that went on starts further requests and awaits their answer. -/
def awaitAgain (id : ℕ) (call : Call) (requests : List Request) : Page Store Tick Call Request :=
  { p with
    running := p.running ++ [(id, call)]
    requests := p.requests ++ requests }

structure Idle (p : Page Store Tick Call Request) : Prop where
  timers : p.timers = []
  listener : p.listener = false
  running : p.running = []

end Page

/-- `enter` is a call from outside, `resume` goes on with a call when its await is answered, and `fire`
is the body of a timer. -/
structure Script (Store Tick Call Request Entry : Type) (Answer : Call → Type) where
  enter : Entry → Page Store Tick Call Request → Page Store Tick Call Request
  resume : ℕ → (call : Call) → Answer call → Page Store Tick Call Request → Page Store Tick Call Request
  fire : Tick → Page Store Tick Call Request → Page Store Tick Call Request
  visibilityChange : Page Store Tick Call Request → Page Store Tick Call Request
  dispose : Page Store Tick Call Request → Page Store Tick Call Request

inductive Event (Tick Call Entry : Type) (Answer : Call → Type) where
  | enter (entry : Entry)
  | settle (id : ℕ) (call : Call) (answer : Answer call)
  | fire (handle : ℕ) (tick : Tick)
  | visibility (visible : Bool)
  | dispose

variable {Store Tick Call Request Entry : Type} {Answer : Call → Type} [DecidableEq Tick] [DecidableEq Call]

/-- An event that is not a call from outside. -/
def Event.Reaction : Event Tick Call Entry Answer → Prop
  | .enter _ | .dispose => False
  | _ => True

variable (script : Script Store Tick Call Request Entry Answer)

def step (p : Page Store Tick Call Request) :
    Event Tick Call Entry Answer → Option (Page Store Tick Call Request)
  | .enter entry => some (script.enter entry p)
  | .settle id call answer =>
    if (id, call) ∈ p.running then
      some (script.resume id call answer { p with running := p.running.erase (id, call) })
    else none
  | .fire handle tick =>
    if (handle, tick) ∈ p.timers then
      some (script.fire tick { p with timers := p.timers.erase (handle, tick) })
    else none
  | .visibility visible =>
    if p.listener then some (script.visibilityChange { p with visible }) else some { p with visible }
  | .dispose => some (script.dispose p)

/-- Torn down now, the page arms no timer, has no listener and starts no request any more, once the
calls that are suspended are over. -/
def SilentAfter (p : Page Store Tick Call Request) : Prop :=
  ∀ events q, (∀ e ∈ events, e.Reaction) → Automaton.run (step script) (script.dispose p) events = some q →
    (∀ c ∈ p.running, ∀ d ∈ q.running, d.1 ≠ c.1) →
    q.timers = [] ∧ q.listener = false ∧
      ∀ later r, (∀ e ∈ later, e.Reaction) → Automaton.run (step script) q later = some r →
        r.requests = q.requests

variable {script}
variable {p q : Page Store Tick Call Request}

variable {e : Event Tick Call Entry Answer}

lemma Page.Idle.step (hp : p.Idle) (he : e.Reaction)
    (hstep : step script p e = some q) : q.Idle ∧ q.requests = p.requests := by
  cases e with
  | enter => exact he.elim
  | dispose => exact he.elim
  | settle id call answer =>
    rw [EventLoop.step, hp.running, if_neg List.not_mem_nil] at hstep
    cases hstep
  | fire handle tick =>
    rw [EventLoop.step, hp.timers, if_neg List.not_mem_nil] at hstep
    cases hstep
  | visibility visible =>
    rw [EventLoop.step, hp.listener, if_neg Bool.false_ne_true] at hstep
    rw [← Option.some_inj.mp hstep]
    exact ⟨⟨hp.timers, rfl, hp.running⟩, rfl⟩

lemma Page.Idle.run {events : List (Event Tick Call Entry Answer)} (hp : p.Idle)
    (hevents : ∀ e ∈ events, e.Reaction) (hrun : Automaton.run (EventLoop.step script) p events = some q) :
    q.requests = p.requests := by
  have hkeep := Automaton.invariant (fun u => u.Idle ∧ u.requests = p.requests) ⟨hp, rfl⟩
    (fun e he u v hu hstep => by
      have hv := hu.1.step (hevents e he) hstep
      exact ⟨hv.1, hv.2.trans hu.2⟩) hrun
  exact hkeep.2

/-- Nothing is armed or listened for, and all suspended calls are from a list and of a harmless
kind. -/
structure Page.WindsDown (harmless : Call → Prop) (calls : List (ℕ × Call))
    (p : Page Store Tick Call Request) : Prop where
  timers : p.timers = []
  listener : p.listener = false
  running : ∀ c ∈ p.running, harmless c.2 ∧ ∃ d ∈ calls, c.1 = d.1

/-- A call of a harmless kind arms nothing and does not listen when it goes on, and it is harmless
wherever it stops next. -/
def Script.Harmless (script : Script Store Tick Call Request Entry Answer) (harmless : Call → Prop) : Prop :=
  ∀ id call answer p, harmless call →
    (script.resume id call answer p).timers = p.timers ∧
    (script.resume id call answer p).listener = p.listener ∧
      ∀ c ∈ (script.resume id call answer p).running, c ∈ p.running ∨ c.1 = id ∧ harmless c.2

lemma Page.WindsDown.step {harmless : Call → Prop} (hscript : script.Harmless harmless)
    {calls : List (ℕ × Call)} (hp : p.WindsDown harmless calls) (he : e.Reaction)
    (hstep : step script p e = some q) : q.WindsDown harmless calls := by
  cases e with
  | enter => exact he.elim
  | dispose => exact he.elim
  | settle id call answer =>
    rw [EventLoop.step] at hstep
    split_ifs at hstep with hmem
    rw [← Option.some_inj.mp hstep]
    obtain ⟨hcall, hid⟩ := hp.running _ hmem
    have hresume := hscript id call answer { p with running := p.running.erase (id, call) } hcall
    refine ⟨hresume.1.trans hp.timers, hresume.2.1.trans hp.listener, fun c hc => ?_⟩
    rcases hresume.2.2 c hc with hc | ⟨hc, hharmless⟩
    · exact hp.running c (List.mem_of_mem_erase hc)
    · rw [hc]
      exact ⟨hharmless, hid⟩
  | fire handle tick =>
    rw [EventLoop.step, hp.timers, if_neg List.not_mem_nil] at hstep
    cases hstep
  | visibility visible =>
    rw [EventLoop.step, hp.listener, if_neg Bool.false_ne_true] at hstep
    rw [← Option.some_inj.mp hstep]
    exact ⟨hp.timers, rfl, hp.running⟩

theorem silentAfter_of_windsDown {harmless : Call → Prop} (hscript : script.Harmless harmless)
    (hp : (script.dispose p).WindsDown harmless p.running) : SilentAfter script p := by
  intro events q hevents hrun hover
  have hq := Automaton.invariant (fun u => u.WindsDown harmless p.running) hp
    (fun e he u v hu hstep => hu.step hscript (hevents e he) hstep) hrun
  have hnone : q.running = [] := by
    apply List.eq_nil_iff_forall_not_mem.mpr
    intro d hd
    obtain ⟨-, c, hc, hdc⟩ := hq.running d hd
    exact hover c hc d hd hdc
  exact ⟨hq.timers, hq.listener, fun later r hlater hrun => Page.Idle.run
    ⟨hq.timers, hq.listener, hnone⟩ hlater hrun⟩

def Page.Loud (p : Page Store Tick Call Request) : Prop := p.timers ≠ [] ∨ p.listener = true

/-- Every call can come to an answer that ends it and disarms nothing. -/
def Script.CanEnd (script : Script Store Tick Call Request Entry Answer) : Prop :=
  ∀ call, ∃ answer, ∀ id p, (script.resume id call answer p).running = p.running ∧
    (p.Loud → (script.resume id call answer p).Loud)

lemma Page.Loud.exists_over (hscript : script.CanEnd) (hp : p.Loud) :
    ∃ (events : List (Event Tick Call Entry Answer)) (q : Page Store Tick Call Request),
      (∀ e ∈ events, e.Reaction) ∧ Automaton.run (EventLoop.step script) p events = some q ∧ q.Loud ∧
        q.running = [] := by
  -- by induction on the calls that are still suspended
  generalize hcalls : p.running = calls
  induction calls generalizing p with
  | nil => exact ⟨[], p, nofun, rfl, hp, hcalls⟩
  | cons c calls ih =>
    obtain ⟨answer, hanswer⟩ := hscript c.2
    obtain ⟨hrunning, hloud⟩ := hanswer c.1 { p with running := calls }
    obtain ⟨events, q, hevents, hrun, hq⟩ := ih (hloud hp) hrunning
    refine ⟨.settle c.1 c.2 answer :: events, q, List.forall_mem_cons.mpr ⟨trivial, hevents⟩, ?_, hq⟩
    apply Automaton.run_cons.mpr
    refine ⟨_, ?_, hrun⟩
    rw [EventLoop.step, hcalls, if_pos List.mem_cons_self, List.erase_cons_head]

variable (script) in
/-- Some answers and timers make the page loud. -/
def CanBecomeLoud (p : Page Store Tick Call Request) : Prop :=
  ∃ (events : List (Event Tick Call Entry Answer)) (q : Page Store Tick Call Request),
    (∀ e ∈ events, e.Reaction) ∧ Automaton.run (step script) p events = some q ∧ q.Loud

lemma Page.Loud.canBecomeLoud (hp : p.Loud) : CanBecomeLoud script p := ⟨[], p, nofun, rfl, hp⟩

lemma CanBecomeLoud.of_step (he : e.Reaction) (hstep : step script p e = some q)
    (hq : CanBecomeLoud script q) : CanBecomeLoud script p := by
  obtain ⟨events, r, hevents, hrun, hr⟩ := hq
  exact ⟨e :: events, r, List.forall_mem_cons.mpr ⟨he, hevents⟩, Automaton.run_cons.mpr ⟨q, hstep, hrun⟩, hr⟩

lemma CanBecomeLoud.of_settle {id : ℕ} {call : Call} (answer : Answer call) (hmem : (id, call) ∈ p.running)
    (h : CanBecomeLoud script (script.resume id call answer { p with running := p.running.erase (id, call) })) :
    CanBecomeLoud script p :=
  CanBecomeLoud.of_step (e := .settle id call answer) trivial (if_pos hmem) h

theorem not_silentAfter (hscript : script.CanEnd) (hp : CanBecomeLoud script (script.dispose p)) :
    ¬ SilentAfter script p := by
  intro hsilent
  obtain ⟨events, q, hevents, hrun, hq⟩ := hp
  obtain ⟨more, r, hmore, hover, hr, hnone⟩ := hq.exists_over hscript
  have hall : ∀ e ∈ events ++ more, e.Reaction := List.forall_mem_append.mpr ⟨hevents, hmore⟩
  have hquiet := hsilent (events ++ more) r hall (Automaton.run_append.mpr ⟨q, hrun, hover⟩)
    (fun c _ d hd => by rw [hnone] at hd; exact absurd hd List.not_mem_nil)
  rcases hr with htimers | hlistener
  · exact htimers hquiet.1
  · exact Bool.false_ne_true (hquiet.2.1.symm.trans hlistener)

end EventLoop
