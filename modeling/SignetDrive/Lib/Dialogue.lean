import Mathlib.Tactic

/-!
# Programs that ask

A program asks questions of its surroundings, goes on with the answers, and ends with a result or
an error. A run against given surroundings leaves the transcript of all exchanges, also when it
fails.
-/

inductive Dialogue {Question : Type} (Answer : Question → Type) (ε α : Type) where
  | done (result : Except ε α)
  | ask (question : Question) (next : Answer question → Dialogue Answer ε α)

namespace Dialogue

variable {Question : Type} {Answer : Question → Type} {ε α β : Type}

def bind : Dialogue Answer ε α → (α → Dialogue Answer ε β) → Dialogue Answer ε β
  | done (.ok a), f => f a
  | done (.error e), _ => done (.error e)
  | ask question next, f => ask question fun answer => (next answer).bind f

instance : Monad (Dialogue Answer ε) where
  pure a := done (.ok a)
  bind := bind

instance : LawfulMonad (Dialogue Answer ε) := by
  refine LawfulMonad.mk' _ ?_ ?_ ?_
  · intro α d
    change d.bind (fun a => done (.ok a)) = d
    induction d with
    | done result => cases result <;> rfl
    | ask question next ih =>
      simp only [bind]
      congr 1
      funext answer
      exact ih answer
  · intro α β a f
    rfl
  · intro α β γ d f g
    change (d.bind f).bind g = d.bind fun a => (f a).bind g
    induction d with
    | done result => cases result <;> rfl
    | ask question next ih =>
      simp only [bind]
      congr 1
      funext answer
      exact ih answer

def question (q : Question) : Dialogue Answer ε (Answer q) := ask q fun answer => done (.ok answer)

def check (x : Except ε α) : Dialogue Answer ε α := done x

def attempt : Dialogue Answer ε α → Dialogue Answer ε (Except ε α)
  | done result => done (.ok result)
  | ask question next => ask question fun answer => (next answer).attempt

abbrev Exchange (Answer : Question → Type) := (q : Question) × Answer q

/-- Surroundings answer in view of all exchanges so far. -/
abbrev Surroundings (Answer : Question → Type) := List (Exchange Answer) → (q : Question) → Answer q

/-- The result of the program and the exchanges, behind those that were made before. -/
def run (answer : Surroundings Answer) : List (Exchange Answer) → Dialogue Answer ε α →
    Except ε α × List (Exchange Answer)
  | before, done result => (result, before)
  | before, ask q next => run answer (before ++ [⟨q, answer before q⟩]) (next (answer before q))

section Run

variable {answer : Surroundings Answer} {before after : List (Exchange Answer)} {d : Dialogue Answer ε α}
  {f : α → Dialogue Answer ε β}

lemma run_bind (before : List (Exchange Answer)) (d : Dialogue Answer ε α) (f : α → Dialogue Answer ε β) :
    run answer before (d >>= f) =
      match run answer before d with
      | (.ok a, middle) => run answer middle (f a)
      | (.error e, middle) => (.error e, middle) := by
  change run answer before (d.bind f) = _
  induction d generalizing before with
  | done result =>
    cases result with
    | error e => rfl
    | ok a => rfl
  | ask q next ih => exact ih (answer before q) (before ++ [⟨q, answer before q⟩])

lemma run_bind_ok {b : β} : run answer before (d >>= f) = (.ok b, after) ↔
    ∃ a middle, run answer before d = (.ok a, middle) ∧ run answer middle (f a) = (.ok b, after) := by
  rw [run_bind]
  constructor
  · intro h
    split at h
    · rename_i a middle hd
      exact ⟨a, middle, hd, h⟩
    · cases h
  · rintro ⟨a, middle, hd, hf⟩
    rw [hd]
    exact hf

@[simp] lemma run_pure_ok {a b : α} :
    run answer before (pure a : Dialogue Answer ε α) = (.ok b, after) ↔ a = b ∧ before = after := by
  change ((Except.ok a : Except ε α), before) = _ ↔ _
  rw [Prod.mk.injEq, Except.ok.injEq]

@[simp] lemma run_check_ok {x : Except ε α} {a : α} :
    run answer before (check x : Dialogue Answer ε α) = (.ok a, after) ↔ x = .ok a ∧ before = after := by
  rw [check, run, Prod.mk.injEq]

lemma run_check_bind_ok {x : Except ε α} {b : β} : run answer before (check x >>= f) = (.ok b, after) ↔
    ∃ a, x = .ok a ∧ run answer before (f a) = (.ok b, after) := by
  simp only [run_bind_ok, run_check_ok]
  constructor
  · rintro ⟨a, _, ⟨hx, rfl⟩, hf⟩
    exact ⟨a, hx, hf⟩
  · rintro ⟨a, hx, hf⟩
    exact ⟨a, before, ⟨hx, rfl⟩, hf⟩

lemma run_question_bind_ok {q : Question} {f : Answer q → Dialogue Answer ε β} {b : β} :
    run answer before (question q >>= f) = (.ok b, after) ↔
      run answer (before ++ [⟨q, answer before q⟩]) (f (answer before q)) = (.ok b, after) :=
  Iff.rfl

lemma run_attempt (before : List (Exchange Answer)) (d : Dialogue Answer ε α) :
    run answer before d.attempt = (.ok (run answer before d).1, (run answer before d).2) := by
  induction d generalizing before with
  | done result => rfl
  | ask q next ih => exact ih (answer before q) (before ++ [⟨q, answer before q⟩])

lemma run_attempt_ok {x : Except ε α} :
    run answer before d.attempt = (.ok x, after) ↔ run answer before d = (x, after) := by
  rw [run_attempt, Prod.mk.injEq, Except.ok.injEq, Prod.ext_iff]

lemma isPrefix_run (answer : Surroundings Answer) (before : List (Exchange Answer)) (d : Dialogue Answer ε α) :
    before <+: (run answer before d).2 := by
  induction d generalizing before with
  | done result => exact List.prefix_rfl
  | ask q next ih => exact (List.prefix_append before _).trans (ih _ _)

lemma isPrefix_of_run {x : Except ε α} (h : run answer before d = (x, after)) : before <+: after := by
  have hfront := isPrefix_run answer before d
  rwa [h] at hfront

lemma getElem?_run_ask {q : Question} {next : Answer q → Dialogue Answer ε α} :
    (run answer before (.ask q next)).2[before.length]? = some ⟨q, answer before q⟩ := by
  obtain ⟨later, hlater⟩ := isPrefix_run answer (before ++ [⟨q, answer before q⟩]) (next (answer before q))
  rw [run, ← hlater, List.append_assoc, List.getElem?_append_right le_rfl, Nat.sub_self]
  rfl

end Run

/-- All questions of the program, whatever the answers, are of a kind. -/
inductive AsksOnly (P : Question → Prop) : Dialogue Answer ε α → Prop where
  | done (result : Except ε α) : AsksOnly P (done result)
  | ask {q : Question} {next : Answer q → Dialogue Answer ε α} (hq : P q) (hnext : ∀ a, AsksOnly P (next a)) :
    AsksOnly P (ask q next)

section AsksOnly

variable {P : Question → Prop} {d : Dialogue Answer ε α}

lemma AsksOnly.bind {f : α → Dialogue Answer ε β} (hd : AsksOnly P d) (hf : ∀ a, AsksOnly P (f a)) :
    AsksOnly P (d >>= f) := by
  induction hd with
  | done result =>
    cases result with
    | error e => exact .done _
    | ok a => exact hf a
  | ask hq _ ih => exact .ask hq ih

lemma AsksOnly.pure (a : α) : AsksOnly P (Pure.pure a : Dialogue Answer ε α) := .done _

lemma AsksOnly.check (x : Except ε α) : AsksOnly P (Dialogue.check x : Dialogue Answer ε α) := .done _

lemma AsksOnly.question {q : Question} (hq : P q) :
    AsksOnly P (Dialogue.question q : Dialogue Answer ε (Answer q)) := .ask hq fun _ => .done _

lemma AsksOnly.attempt (hd : AsksOnly P d) : AsksOnly P d.attempt := by
  induction hd with
  | done result => exact .done _
  | ask hq _ ih => exact .ask hq ih

theorem AsksOnly.run (hd : AsksOnly P d) (answer : Surroundings Answer) (before : List (Exchange Answer)) :
    ∃ added, (Dialogue.run answer before d).2 = before ++ added ∧ ∀ x ∈ added, P x.1 := by
  induction hd generalizing before with
  | done result => exact ⟨[], (List.append_nil before).symm, fun _ hx => (by cases hx)⟩
  | @ask q next hq _ ih =>
    obtain ⟨added, hadded, hall⟩ := ih (answer before q) (before ++ [⟨q, answer before q⟩])
    refine ⟨⟨q, answer before q⟩ :: added, ?_, List.forall_mem_cons.mpr ⟨hq, hall⟩⟩
    rw [Dialogue.run, hadded, List.append_assoc, List.singleton_append]

end AsksOnly

variable (Asks : Question → Question → Prop) (Hears : (q r : Question) → Answer q → Answer r → Prop)

/-- The programs ask related questions, and with related answers they go on so; they end both with an
error, or both with related results. -/
inductive Alike (Results : α → β → Prop) : Dialogue Answer ε α → Dialogue Answer ε β → Prop where
  | ok {a : α} {b : β} (h : Results a b) : Alike Results (done (.ok a)) (done (.ok b))
  | error (e e' : ε) : Alike Results (done (.error e)) (done (.error e'))
  | ask {q r : Question} {next : Answer q → Dialogue Answer ε α} {next' : Answer r → Dialogue Answer ε β}
    (hasks : Asks q r) (hnext : ∀ a b, Hears q r a b → Alike Results (next a) (next' b)) :
    Alike Results (ask q next) (ask r next')

variable {Asks Hears}

variable {Results : α → β → Prop} {d : Dialogue Answer ε α} {d' : Dialogue Answer ε β}

lemma Alike.bind {γ δ : Type} {Results' : γ → δ → Prop}
    {f : α → Dialogue Answer ε γ} {f' : β → Dialogue Answer ε δ}
    (hd : Alike Asks Hears Results d d') (hf : ∀ a b, Results a b → Alike Asks Hears Results' (f a) (f' b)) :
    Alike Asks Hears Results' (d >>= f) (d' >>= f') := by
  induction hd with
  | ok h => exact hf _ _ h
  | error e e' => exact .error e e'
  | ask hasks _ ih => exact .ask hasks fun a b hab => ih a b hab

lemma Alike.pure {a : α} {b : β} (h : Results a b) :
    Alike Asks Hears Results (Pure.pure a : Dialogue Answer ε α) (Pure.pure b) := .ok h

lemma Alike.question {q r : Question} (hasks : Asks q r) :
    Alike Asks Hears (Hears q r) (Dialogue.question q : Dialogue Answer ε (Answer q)) (Dialogue.question r) :=
  .ask hasks fun _ _ h => .ok h

lemma Alike.check (x : Except ε α) :
    Alike Asks Hears Eq (Dialogue.check x : Dialogue Answer ε α) (Dialogue.check x) := by
  cases x with
  | error e => exact .error e e
  | ok a => exact .ok rfl

lemma Alike.bind_eq {γ δ : Type} {Results : γ → δ → Prop} {d d' : Dialogue Answer ε α}
    {f : α → Dialogue Answer ε γ} {f' : α → Dialogue Answer ε δ} (hd : Alike Asks Hears Eq d d')
    (hf : ∀ a, Alike Asks Hears Results (f a) (f' a)) : Alike Asks Hears Results (d >>= f) (d' >>= f') := by
  refine hd.bind ?_
  rintro a _ rfl
  exact hf a

lemma Alike.bind_check {γ δ : Type} {Results : γ → δ → Prop} (x : Except ε α) {f : α → Dialogue Answer ε γ}
    {f' : α → Dialogue Answer ε δ} (hf : ∀ a, Alike Asks Hears Results (f a) (f' a)) :
    Alike Asks Hears Results (Dialogue.check x >>= f) (Dialogue.check x >>= f') := (Alike.check x).bind_eq hf

lemma Alike.attempt
    (hd : Alike Asks Hears Results d d') :
    Alike Asks Hears (fun x y => (∃ a b, x = .ok a ∧ y = .ok b ∧ Results a b) ∨
      ∃ e e', x = .error e ∧ y = .error e')
      d.attempt d'.attempt := by
  induction hd with
  | ok h => exact .ok (.inl ⟨_, _, rfl, rfl, h⟩)
  | error e e' => exact .ok (.inr ⟨e, e', rfl, rfl⟩)
  | ask hasks _ ih => exact .ask hasks fun a b hab => ih a b hab

variable (Asks Hears) in
def Match (x y : Exchange Answer) : Prop := Asks x.1 y.1 ∧ Hears x.1 y.1 x.2 y.2

/-- Programs that are alike have transcripts that match, if the surroundings give related answers
behind matching transcripts of which something may be known place by place. -/
theorem Alike.transcripts
    (hd : Alike Asks Hears Results d d') {answer answer' : Surroundings Answer}
    (Known : Exchange Answer → Exchange Answer → Prop)
    (hanswer : ∀ before before', List.Forall₂ (Match Asks Hears) before before' → ∀ q r, Asks q r →
      Known ⟨q, answer before q⟩ ⟨r, answer' before' r⟩ → Hears q r (answer before q) (answer' before' r))
    {before before' : List (Exchange Answer)} (hbefore : List.Forall₂ (Match Asks Hears) before before')
    (hknown : ∀ (i : ℕ) x y, (run answer before d).2[i]? = some x → (run answer' before' d').2[i]? = some y →
    Known x y) : List.Forall₂ (Match Asks Hears) (run answer before d).2 (run answer' before' d').2 := by
  induction hd generalizing before before' with
  | ok h => exact hbefore
  | error e e' => exact hbefore
  | @ask q r next next' hasks _ ih =>
    have hfirst : (run answer before (.ask q next)).2[before.length]? = some ⟨q, answer before q⟩ :=
      getElem?_run_ask
    have hsecond : (run answer' before' (.ask r next')).2[before.length]? = some ⟨r, answer' before' r⟩ := by
      rw [hbefore.length_eq]
      exact getElem?_run_ask
    have hhears := hanswer before before' hbefore q r hasks (hknown before.length _ _ hfirst hsecond)
    exact ih _ _ hhears (List.rel_append hbefore (.cons ⟨hasks, hhears⟩ .nil)) hknown

end Dialogue
