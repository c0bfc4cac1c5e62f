import Mathlib.Data.List.Perm.Subperm
import Mathlib.Logic.Function.Iterate

/-!
# Passes until nothing changes

A loop repeats a pass over a collection that only grows, until a pass changes
nothing. Where what can be collected is bounded, a bounded number of passes ends in a
collection that is closed under the pass.
-/

namespace VirtTestTools.Closure

variable {α : Type} [DecidableEq α]

/-- Passes while something changes, with a bound on their number. -/
def close (pass : List α → List α) : Nat → List α → List α
  | 0, known => known
  | fuel + 1, known =>
    let next := pass known
    if next = known then known else close pass fuel next

/-- The loop is the pass iterated, since further passes over a closed collection change nothing. -/
theorem close_eq_iterate (pass : List α → List α) (fuel : Nat) (known : List α) :
    close pass fuel known = pass^[fuel] known := by
  induction fuel generalizing known with
  | zero => rfl
  | succ fuel inductionHypothesis =>
    unfold close
    dsimp only
    split
    · rename_i closed
      rw [Function.iterate_fixed closed]
    · rw [inductionHypothesis, Function.iterate_succ_apply]

/-- A loop whose passes find more ends with more. -/
theorem close_subset {pass wider : List α → List α}
    (more : ∀ known found, known ⊆ found → pass known ⊆ wider found) (fuel : Nat)
    {known found : List α} (start : known ⊆ found) :
    close pass fuel known ⊆ close wider fuel found := by
  rw [close_eq_iterate, close_eq_iterate]
  induction fuel generalizing known found with
  | zero => exact start
  | succ fuel inductionHypothesis =>
    rw [Function.iterate_succ_apply, Function.iterate_succ_apply]
    exact inductionHypothesis (more known found start)

/-- The loop ends with a closed collection if the bound on the passes covers the room that is left.

Proof: by induction on the bound. A pass that changes something leaves less room. -/
theorem pass_close {pass : List α → List α} {holds : List α → Prop} {room : Nat}
    (keeps : ∀ known, holds known → holds (pass known))
    (grows : ∀ known, holds known → known <+: pass known)
    (bounded : ∀ known, holds known → known.length ≤ room) (fuel : Nat) (known : List α)
    (start : holds known) (enough : room ≤ fuel + known.length) :
    pass (close pass fuel known) = close pass fuel known := by
  induction fuel generalizing known with
  | zero =>
    have fits := bounded (pass known) (keeps known start)
    have extended := grows known start
    refine (extended.eq_of_length_le ?_).symm
    omega
  | succ fuel inductionHypothesis =>
    unfold close
    dsimp only
    split
    · assumption
    · rename_i changed
      have longer : known.length < (pass known).length := by
        have extended := (grows known start).length_le
        have different : known.length ≠ (pass known).length := fun same =>
          changed ((grows known start).eq_of_length same).symm
        omega
      apply inductionHypothesis (pass known) (keeps known start)
      omega

end VirtTestTools.Closure
