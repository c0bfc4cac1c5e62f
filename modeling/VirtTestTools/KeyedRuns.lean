import Mathlib.Data.List.Basic

/-!
# Runs with a state for each key

A machine takes items one by one and answers each. Every item has a key; a step reads
and writes what the state holds for the key of its item, and nothing of other keys. The
items of one key are then answered as if they were alone, in whatever way the items of
other keys are mixed with them.
-/

namespace VirtTestTools

universe u v w x y

namespace KeyedRuns

section Runs

variable {S : Type u} {ι : Type v} {ω : Type w} (step : S → ι → S × ω)

/-- The state after a list of items, and each item with its answer. -/
def run : S → List ι → S × List (ι × ω)
  | state, [] => (state, [])
  | state, item :: rest =>
    let (next, answer) := step state item
    let (final, answers) := run next rest
    (final, (item, answer) :: answers)

/-- A run without items stays. -/
@[simp]
theorem run_nil (state : S) : run step state [] = (state, []) := rfl

/-- The first item runs before the rest. -/
theorem run_cons (state : S) (item : ι) (rest : List ι) :
    run step state (item :: rest) =
      ((run step (step state item).1 rest).1,
        (item, (step state item).2) :: (run step (step state item).1 rest).2) := rfl

/-- Two runs, one behind the other. -/
theorem run_append (state : S) (first second : List ι) :
    run step state (first ++ second) =
      ((run step (run step state first).1 second).1,
        (run step state first).2 ++ (run step (run step state first).1 second).2) := by
  induction first generalizing state with
  | nil => rfl
  | cons item rest inductionHypothesis =>
    rw [List.cons_append, run_cons, run_cons, inductionHypothesis, List.cons_append]

/-- Every item is answered once, in order. -/
theorem map_fst_run (state : S) (items : List ι) :
    (run step state items).2.map Prod.fst = items := by
  induction items generalizing state with
  | nil => rfl
  | cons item rest inductionHypothesis =>
    rw [run_cons, List.map_cons, inductionHypothesis]

end Runs

variable {S : Type u} {ι : Type v} {ω : Type w} {κ : Type x} {σ : Type y}

/-- What a step does for the key of its item is done by a machine for one key, and nothing else is
touched. -/
structure Keyed (step : S → ι → S × ω) (key : ι → κ) (view : S → κ → σ) (own : σ → ι → σ × ω) :
    Prop where
  steps : ∀ state item, own (view state (key item)) item =
    (view (step state item).1 (key item), (step state item).2)
  frame : ∀ state item other, other ≠ key item → view (step state item).1 other = view state other

variable {step : S → ι → S × ω} {key : ι → κ} {view : S → κ → σ} {own : σ → ι → σ × ω}
  [DecidableEq κ]

/-- The items of a key are answered as if there were no others. -/
theorem Keyed.run_alone (keyed : Keyed step key view own) (chosen : κ) (state : S)
    (items : List ι) :
    run own (view state chosen) (items.filter fun item => decide (key item = chosen)) =
      (view (run step state items).1 chosen,
        (run step state items).2.filter fun answered => decide (key answered.1 = chosen)) := by
  induction items generalizing state with
  | nil => rfl
  | cons item rest inductionHypothesis =>
    rw [run_cons]
    by_cases same : key item = chosen
    · subst same
      simp only [List.filter_cons, decide_true, ↓reduceIte, run_cons, keyed.steps,
        inductionHypothesis]
    · simp only [List.filter_cons, same, decide_false, Bool.false_eq_true, ↓reduceIte]
      rw [← inductionHypothesis, keyed.frame state item chosen (Ne.symm same)]

end KeyedRuns

end VirtTestTools
