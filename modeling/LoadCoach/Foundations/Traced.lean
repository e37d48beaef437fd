import Mathlib.Data.List.Basic

/-! # Programs with a trace

A program that acts on the world is a function into `Traced`: what it did, in order, and how it
ended.  A loop is given fuel, and `running` is the end of a program whose fuel ran out.

`Meets` is a rule of pre- and postconditions for such programs.  A policy says which events may
follow a history; a program that starts with a history meets it where each of its events may follow
the history and the events before it, and where it returns what the postcondition says.
`Finishes` is termination. -/

namespace Foundations

variable {E ε α β : Type}

/-- How a program ends. -/
inductive Outcome (ε α : Type) where
  | returned (value : α)
  | raised (error : ε)
  | running

/-- A run of a program: what it did, oldest first, and how it ended. -/
structure Traced (E ε α : Type) where
  events : List E
  outcome : Outcome ε α

namespace Traced

/-! ### Programs -/

/-- One event. -/
def emit (e : E) : Traced E ε Unit := ⟨[e], .returned ()⟩

def raise (error : ε) : Traced E ε α := ⟨[], .raised error⟩

/-- A loop without fuel. -/
def unfinished : Traced E ε α := ⟨[], .running⟩

/-- One program, and then another with what it returned. -/
protected def bind (p : Traced E ε α) (f : α → Traced E ε β) : Traced E ε β :=
  match p.outcome with
  | .returned a => ⟨p.events ++ (f a).events, (f a).outcome⟩
  | .raised error => ⟨p.events, .raised error⟩
  | .running => ⟨p.events, .running⟩

instance : Monad (Traced E ε) where
  pure a := ⟨[], .returned a⟩
  bind := Traced.bind

/-- A computation that only may raise. -/
def lift : Except ε α → Traced E ε α
  | .ok a => pure a
  | .error error => raise error

/-- `finally` with one event. -/
def finallyEmit (p : Traced E ε α) (e : E) : Traced E ε α :=
  match p.outcome with
  | .running => p
  | outcome => ⟨p.events ++ [e], outcome⟩

/-! ### Policies -/

/-- Each event may follow the history and the events before it. -/
def Permitted (permits : List E → E → Prop) : List E → List E → Prop
  | _, [] => True
  | h, e :: events => permits h e ∧ Permitted permits (h ++ [e]) events

variable {permits : List E → E → Prop} {h events events' : List E} {e : E}

@[simp] theorem permitted_nil : Permitted permits h [] := trivial

@[simp] theorem permitted_cons :
    Permitted permits h (e :: events) ↔ permits h e ∧ Permitted permits (h ++ [e]) events :=
  Iff.rfl

theorem permitted_append :
    Permitted permits h (events ++ events') ↔
      Permitted permits h events ∧ Permitted permits (h ++ events) events' := by
  induction events generalizing h with
  | nil => simp
  | cons e events ih => simp [ih, and_assoc]

/-- **An event is permitted after what came before it.** -/
theorem Permitted.split {before after : List E} (hevents : Permitted permits h events)
    (heq : events = before ++ e :: after) : permits (h ++ before) e := by
  rw [heq, permitted_append] at hevents
  exact hevents.2.1

/-- A quantity of the history that each event keeps within a bound stays within it. -/
theorem Permitted.bounded {size : List E → ℕ} {bound : ℕ}
    (hstep : ∀ h e, size h ≤ bound → permits h e → size (h ++ [e]) ≤ bound)
    (hh : size h ≤ bound) (hevents : Permitted permits h events) : size (h ++ events) ≤ bound := by
  induction events generalizing h with
  | nil => rwa [List.append_nil]
  | cons e events ih =>
      have hnext := ih (hstep h e hh hevents.1) hevents.2
      rwa [List.append_assoc] at hnext

/-! ### Pre- and postconditions -/

/-- From a history, a program keeps to the policy, and what it returns is as it should be. -/
structure Meets (permits : List E → E → Prop) (h : List E) (p : Traced E ε α)
    (post : List E → α → Prop) : Prop where
  permitted : Permitted permits h p.events
  returns : ∀ a, p.outcome = .returned a → post (h ++ p.events) a

variable {p : Traced E ε α} {f : α → Traced E ε β} {post : List E → α → Prop}
  {post' : List E → β → Prop}

theorem meets_pure {a : α} (hpost : post h a) :
    Meets permits h (pure a : Traced E ε α) post := by
  refine ⟨trivial, ?_⟩
  rintro _ ⟨⟩
  simpa [pure] using hpost

theorem meets_raise {error : ε} : Meets permits h (raise error : Traced E ε α) post :=
  ⟨trivial, nofun⟩

theorem meets_unfinished : Meets permits h (unfinished : Traced E ε α) post := ⟨trivial, nofun⟩

theorem Meets.bind (hp : Meets permits h p post)
    (hf : ∀ h' a, post h' a → Meets permits h' (f a) post') :
    Meets permits h (p >>= f) post' := by
  obtain ⟨events, outcome⟩ := p
  cases outcome with
  | returned a =>
      obtain ⟨hpermitted, hreturns⟩ := hf _ a (hp.returns a rfl)
      refine ⟨permitted_append.2 ⟨hp.permitted, hpermitted⟩, fun b hb => ?_⟩
      have hpost := hreturns b hb
      rwa [List.append_assoc] at hpost
  | raised error => exact ⟨hp.permitted, nofun⟩
  | running => exact ⟨hp.permitted, nofun⟩

theorem Meets.emit {q : Traced E ε β} (he : permits h e) (hq : Meets permits (h ++ [e]) q post') :
    Meets permits h (Traced.emit e >>= fun _ => q) post' := by
  have hevent : Meets permits h (Traced.emit e : Traced E ε Unit) fun h' _ => h' = h ++ [e] :=
    ⟨⟨he, trivial⟩, fun _ _ => rfl⟩
  refine hevent.bind ?_
  rintro _ _ rfl
  exact hq

theorem Meets.lift {x : Except ε α} (hf : ∀ a, x = .ok a → Meets permits h (f a) post') :
    Meets permits h (Traced.lift x >>= f) post' := by
  cases x with
  | ok a => exact hf a rfl
  | error error => exact ⟨trivial, nofun⟩

theorem Meets.finallyEmit (hp : Meets permits h p post) (he : ∀ h, permits h e)
    (hpost : ∀ h a, post h a → post (h ++ [e]) a) : Meets permits h (p.finallyEmit e) post := by
  obtain ⟨events, outcome⟩ := p
  cases outcome with
  | returned a =>
      refine ⟨permitted_append.2 ⟨hp.permitted, he _, trivial⟩, fun b hb => ?_⟩
      have hkept := hpost _ b (hp.returns b hb)
      rwa [List.append_assoc] at hkept
  | raised error => exact ⟨permitted_append.2 ⟨hp.permitted, he _, trivial⟩, nofun⟩
  | running => exact hp

/-! ### Termination -/

/-- A program that ends with the fuel it has. -/
def Finishes (p : Traced E ε α) : Prop := p.outcome ≠ .running

theorem Finishes.bind (hp : p.Finishes) (hf : ∀ a, p.outcome = .returned a → (f a).Finishes) :
    (p >>= f).Finishes := by
  obtain ⟨events, outcome⟩ := p
  cases outcome with
  | returned a => exact hf a rfl
  | raised error => exact nofun
  | running => exact absurd rfl hp

theorem Finishes.emit {q : Traced E ε β} (hq : q.Finishes) :
    (Traced.emit e >>= fun _ => q).Finishes := hq

theorem Finishes.of_bind (h : (p >>= f).Finishes) : p.Finishes := by
  obtain ⟨events, outcome⟩ := p
  cases outcome with
  | running => exact absurd rfl h
  | _ => exact nofun

theorem Finishes.lift {x : Except ε α} (hf : ∀ a, x = .ok a → (f a).Finishes) :
    (Traced.lift x >>= f).Finishes := by
  cases x with
  | ok a => exact hf a rfl
  | error error => exact nofun

theorem finishes_finallyEmit_iff : (p.finallyEmit e).Finishes ↔ p.Finishes := by
  obtain ⟨events, outcome⟩ := p
  cases outcome with
  | running => exact Iff.rfl
  | _ => exact iff_of_true nofun nofun

end Traced

end Foundations
