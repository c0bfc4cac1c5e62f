import Mathlib.Data.List.Basic

/-!
# Runs whose events meet a condition

A run applies a step for each event. A condition may be asked of every event, at the state at which
it happens. What such steps keep, such runs keep.
-/

namespace VirtTestTools

universe u v

namespace GuardedRuns

variable {S : Type u} {ε : Type v} (step : S → ε → S)

/-- The state after some events. -/
def run (state : S) (events : List ε) : S := events.foldl step state

/-- A run without events stays. -/
@[simp]
theorem run_nil (state : S) : run step state [] = state := rfl

/-- The first event comes before the rest. -/
theorem run_cons (state : S) (event : ε) (rest : List ε) :
    run step state (event :: rest) = run step (step state event) rest := rfl

/-- Two runs, one behind the other. -/
theorem run_append (state : S) (first second : List ε) :
    run step state (first ++ second) = run step (run step state first) second :=
  List.foldl_append

/-- Every event is allowed where it happens. -/
def Guarded (allowed : S → ε → Prop) : S → List ε → Prop
  | _, [] => True
  | state, event :: rest => allowed state event ∧ Guarded allowed (step state event) rest

/-- Whether a run is guarded is decided along it. -/
instance decidableGuarded (allowed : S → ε → Prop)
    [∀ state event, Decidable (allowed state event)] :
    (state : S) → (events : List ε) → Decidable (Guarded step allowed state events)
  | _, [] => inferInstanceAs (Decidable True)
  | state, event :: rest =>
    have := decidableGuarded allowed (step state event) rest
    inferInstanceAs (Decidable (_ ∧ _))

variable {step} {allowed : S → ε → Prop}

/-- A run whose events are allowed in every state is guarded. -/
theorem guarded_of_forall (state : S) (events : List ε)
    (all : ∀ event ∈ events, ∀ state, allowed state event) : Guarded step allowed state events := by
  induction events generalizing state with
  | nil => trivial
  | cons event rest inductionHypothesis =>
    exact ⟨all event List.mem_cons_self state,
      inductionHypothesis _ fun other inside => all other (List.mem_cons_of_mem _ inside)⟩

/-- What allowed steps keep holds after every run of allowed events. -/
theorem Guarded.keeps {holds : S → Prop}
    (kept : ∀ state event, holds state → allowed state event → holds (step state event))
    {state : S} {events : List ε} (guarded : Guarded step allowed state events)
    (starts : holds state) : holds (run step state events) := by
  induction events generalizing state with
  | nil => exact starts
  | cons event rest inductionHypothesis =>
    exact inductionHypothesis guarded.2 (kept state event starts guarded.1)

end GuardedRuns

end VirtTestTools
