import Mathlib.Data.List.Basic

/-!
# Scripts of an evaluation

What an evaluation does to names, one event after the other: a name is loaded at a point, or
bound, in some scope. Scopes are numbered in the order in which they are opened, so a script
depends on the number of the next scope.
-/

namespace VirtTestTools

/-- A name is loaded at a point or bound. -/
inductive Event (α : Type)
  | load (point : Nat) (name : α) (scope : Nat)
  | bind (name : α) (scope : Nat)
deriving DecidableEq

namespace Event

variable {α : Type}

/-- The scope of an event. -/
def scope : Event α → Nat
  | .load _ _ scope | .bind _ scope => scope

/-- The event is a load at the point. -/
def LoadsAt (point : Nat) (event : Event α) : Prop := ∃ name scope, event = .load point name scope

end Event

/-- From the number of the next scope, the events and the number of the next scope behind
them. -/
abbrev Script (α : Type) := Nat → List (Event α) × Nat

namespace Script

variable {α : Type}

/-- Events that open no scope. -/
def emit (events : List (Event α)) : Script α := fun next => (events, next)

/-- The script without events. -/
def done : Script α := emit []

/-- One script behind the other; the second one opens its scopes behind those of the first. -/
def seq (first second : Script α) : Script α := fun next =>
  ((first next).1 ++ (second (first next).2).1, (second (first next).2).2)

/-- A scope is opened for what follows. -/
def opened (rest : Nat → Script α) : Script α := fun next => rest next (next + 1)

/-- The events that are emitted. -/
@[simp]
theorem events_emit (events : List (Event α)) (next : Nat) : (emit events next).1 = events := rfl

/-- Emitted events open no scope. -/
@[simp]
theorem next_emit (events : List (Event α)) (next : Nat) : (emit events next).2 = next := rfl

/-- The events of two scripts, one behind the other. -/
@[simp]
theorem events_seq (first second : Script α) (next : Nat) :
    (first.seq second next).1 = (first next).1 ++ (second (first next).2).1 := rfl

/-- The scopes that two scripts open. -/
@[simp]
theorem next_seq (first second : Script α) (next : Nat) :
    (first.seq second next).2 = (second (first next).2).2 := rfl

/-- Three scripts in turn may be put together either way. -/
@[simp]
theorem seq_assoc (first second third : Script α) :
    (first.seq second).seq third = first.seq (second.seq third) := by
  funext next
  exact Prod.ext (List.append_assoc _ _ _) rfl

/-- Nothing in front of a script changes nothing. -/
@[simp]
theorem done_seq (script : Script α) : done.seq script = script := rfl

/-- Nothing behind a script changes nothing. -/
@[simp]
theorem seq_done (script : Script α) : script.seq done = script := by
  funext next
  exact Prod.ext (List.append_nil _) rfl

end Script

section

variable {α : Type} {events more before after : List (Event α)} {event : Event α} {point : Nat}

/-- An event in two stretches is in one of them. -/
theorem split_append (split : events ++ more = before ++ event :: after) :
    (∃ between, before = events ++ between ∧ more = between ++ event :: after) ∨
      ∃ between, events = before ++ event :: between ∧ after = between ++ more := by
  obtain ⟨between, rfl, behind⟩ | ⟨between, rfl, behind⟩ := List.append_eq_append_iff.mp split
  · exact .inl ⟨between, rfl, behind⟩
  · cases between with
    | nil => exact .inl ⟨[], by simp, behind.symm⟩
    | cons first rest =>
      obtain ⟨rfl, rfl⟩ := List.cons.inj behind
      exact .inr ⟨rest, rfl, rfl⟩

/-- A point that is loaded at is loaded at for a last time. -/
theorem exists_last_load (loaded : ∃ event ∈ events, event.LoadsAt point) :
    ∃ before name scope after, events = before ++ .load point name scope :: after ∧
      ∀ event ∈ after, ¬event.LoadsAt point := by
  induction events with
  | nil =>
    obtain ⟨event, inside, -⟩ := loaded
    cases inside
  | cons first rest inductionHypothesis =>
    by_cases later : ∃ event ∈ rest, event.LoadsAt point
    · obtain ⟨before, name, scope, after, rfl, last⟩ := inductionHypothesis later
      exact ⟨first :: before, name, scope, after, rfl, last⟩
    · obtain ⟨event, inside, loads⟩ := loaded
      obtain rfl | inside := List.mem_cons.mp inside
      · obtain ⟨name, scope, rfl⟩ := loads
        exact ⟨[], name, scope, rest, rfl, fun other below again => later ⟨other, below, again⟩⟩
      · exact absurd ⟨event, inside, loads⟩ later

end

end VirtTestTools
