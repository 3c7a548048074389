import Mathlib.Tactic

/-!
# Clients of an untrusted server

A client sends requests, may fail, and notes events. The server answers each request as it likes,
in view of all requests so far.
-/

namespace Client

variable {ε α β Req Ans Event : Type}

def okOr (o : Option α) (e : ε) : Except ε α :=
  match o with
  | some a => .ok a
  | none => .error e

def ensure (c : Prop) [Decidable c] (e : ε) : Except ε Unit := if c then .ok () else .error e

variable {a : α} {b : β} {f : α → Except ε β} {x : Except ε α}

@[simp] lemma okOr_ok {o : Option α} {e : ε} : okOr o e = .ok a ↔ o = some a := by
  cases o <;> simp [okOr]

@[simp] lemma ensure_ok {c : Prop} [Decidable c] {e : ε} {u : Unit} :
    ensure c e = .ok u ↔ c := by
  unfold ensure
  split <;> simp_all

@[simp] lemma except_bind_ok :
    (x >>= f) = .ok b ↔ ∃ a, x = .ok a ∧ f a = .ok b := by
  constructor
  · intro h
    cases x with
    | error e => cases h
    | ok a => exact ⟨a, rfl, h⟩
  · rintro ⟨a, rfl, h⟩
    exact h

lemma option_bind_eq_some {x : Option α} {f : α → Option β} :
    (x >>= f) = some b ↔ ∃ a, x = some a ∧ f a = some b := Option.bind_eq_some_iff

lemma option_pure_eq_some {b : α} : (pure a : Option α) = some b ↔ a = b := Option.some_inj

@[simp] lemma except_pure_ok {b : α} : (pure a : Except ε α) = .ok b ↔ a = b := by
  simp [pure, Except.pure]

@[simp] lemma except_mapError_ok {ε' : Type} {f : ε → ε'} : x.mapError f = .ok a ↔ x = .ok a := by
  cases x <;> simp [Except.mapError]

@[simp] lemma except_map_ok {f : α → β} : x.map f = .ok b ↔ ∃ a, x = .ok a ∧ f a = b := by
  cases x <;> simp [Except.map]

@[simp] lemma toOption_eq_some : x.toOption = some a ↔ x = .ok a := by
  cases x <;> simp [Except.toOption]

lemma mapM_ok {xs : List α} {ys : List β} :
    xs.mapM f = .ok ys ↔ List.Forall₂ (fun x y => f x = .ok y) xs ys := by
  induction xs generalizing ys with
  | nil => cases ys <;> simp
  | cons x xs ih =>
    simp only [List.mapM_cons, except_bind_ok, except_pure_ok, ih, List.forall₂_cons_left_iff]
    constructor
    · rintro ⟨y, hy, rest, hrest, rfl⟩
      exact ⟨y, rest, hy, hrest, rfl⟩
    · rintro ⟨y, rest, hy, hrest, rfl⟩
      exact ⟨y, hy, rest, hrest, rfl⟩

structure Session (Req Event : Type) where
  sent : List Req
  noted : List Event

/-- What a server does: its answer to the last of the given requests. -/
abbrev Server (Req Ans ε : Type) := List Req → Except ε Ans

def Program (Req Event ε α : Type) := Session Req Event → Except ε (α × Session Req Event)

namespace Program

instance : Monad (Program Req Event ε) where
  pure a := fun s => .ok (a, s)
  bind x f := fun s =>
    match x s with
    | .ok (a, s') => f a s'
    | .error e => .error e

def check (x : Except ε α) : Program Req Event ε α := fun s =>
  match x with
  | .ok a => .ok (a, s)
  | .error e => .error e

def request (server : Server Req Ans ε) (r : Req) : Program Req Event ε Ans := fun s =>
  match server (s.sent ++ [r]) with
  | .ok a => .ok (a, { s with sent := s.sent ++ [r] })
  | .error e => .error e

def note (event : Event) : Program Req Event ε Unit := fun s =>
  .ok ((), { s with noted := s.noted ++ [event] })

def mapError (f : ε → ε) (x : Program Req Event ε α) : Program Req Event ε α := fun s =>
  match x s with
  | .ok result => .ok result
  | .error e => .error (f e)

variable {s s' : Session Req Event}

@[simp] lemma bind_ok {x : Program Req Event ε α} {f : α → Program Req Event ε β} :
    (x >>= f) s = .ok (b, s') ↔ ∃ a t, x s = .ok (a, t) ∧ f a t = .ok (b, s') := by
  cases hx : x s with
  | error e => simp [bind, hx]
  | ok result =>
    obtain ⟨a, t⟩ := result
    simp [bind, hx]

@[simp] lemma pure_ok {b : α} : (pure a : Program Req Event ε α) s = .ok (b, s') ↔ a = b ∧ s = s' := by
  simp [pure]

@[simp] lemma check_ok :
    (check x : Program Req Event ε α) s = .ok (a, s') ↔ x = .ok a ∧ s = s' := by
  cases x <;> simp [check]

lemma check_bind_ok {f : α → Program Req Event ε β} :
    (check x >>= f) s = .ok (b, s') ↔ ∃ a, x = .ok a ∧ f a s = .ok (b, s') := by
  cases x <;> simp

@[simp] lemma request_ok {server : Server Req Ans ε} {r : Req} {a : Ans} :
    (request server r : Program Req Event ε Ans) s = .ok (a, s') ↔
      server (s.sent ++ [r]) = .ok a ∧ { s with sent := s.sent ++ [r] } = s' := by
  cases h : server (s.sent ++ [r]) <;> simp [request, h]

@[simp] lemma note_ok {event : Event} {u : Unit} :
    (note event : Program Req Event ε Unit) s = .ok (u, s') ↔
      { s with noted := s.noted ++ [event] } = s' := by
  simp [note]

@[simp] lemma mapError_ok {f : ε → ε} {x : Program Req Event ε α} :
    mapError f x s = .ok (a, s') ↔ x s = .ok (a, s') := by
  cases h : x s <;> simp [mapError, h]

end Program

end Client
