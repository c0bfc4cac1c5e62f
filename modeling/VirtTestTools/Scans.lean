import Mathlib.Data.List.Induction

/-!
# Scans with resets

A loop over a list keeps what it has met and forgets it at certain entries. What is kept behind the
list was met at some entry and has not been reset since. A list grows at its end, one entry at a
time, and the two laws below say what one more entry does.
-/

namespace VirtTestTools

variable {α : Type}

/-- An element of a list with one more entry is the last one or an earlier one. -/
theorem exists_split_concat (element last : α) (list : List α) (holds : List α → List α → Prop) :
    (∃ before after, list ++ [last] = before ++ element :: after ∧ holds before after) ↔
      last = element ∧ holds list [] ∨
        ∃ before after, list = before ++ element :: after ∧ holds before (after ++ [last]) := by
  constructor
  · rintro ⟨before, after, shape, property⟩
    rcases List.eq_nil_or_concat after with rfl | ⟨initial, final, rfl⟩
    · obtain ⟨rfl, same⟩ := List.append_inj' shape rfl
      exact Or.inl ⟨by simpa using same, property⟩
    · have reshaped : list ++ [last] = (before ++ element :: initial) ++ [final] := by
        simpa using shape
      obtain ⟨rfl, same⟩ := List.append_inj' reshaped rfl
      have equal : last = final := by simpa using same
      subst equal
      exact Or.inr ⟨before, initial, rfl, by simpa using property⟩
  · rintro (⟨rfl, property⟩ | ⟨before, after, rfl, property⟩)
    · exact ⟨list, [], rfl, property⟩
    · exact ⟨before, after ++ [last], by simp, property⟩

/-- The places of a list with one more entry at its front. -/
theorem forall_split_cons (first : α) (rest : List α) (holds : List α → α → Prop) :
    (∀ before element after, first :: rest = before ++ element :: after → holds before element) ↔
      holds [] first ∧
        ∀ before element after, rest = before ++ element :: after →
          holds (first :: before) element := by
  constructor
  · intro all
    refine ⟨all [] first rest rfl, fun before element after shape => ?_⟩
    exact all (first :: before) element after (by rw [shape, List.cons_append])
  · rintro ⟨here, later⟩ before element after shape
    cases before with
    | nil =>
      obtain ⟨rfl, -⟩ := List.cons.inj shape
      exact here
    | cons opening before =>
      obtain ⟨rfl, behind⟩ := List.cons.inj shape
      exact later before element after behind

/-- Some entry of the list has the property, with the entries before it, and none behind it
resets. -/
def Since (holds : List α → α → Prop) (resets : α → Prop) (list : List α) : Prop :=
  ∃ before element after, list = before ++ element :: after ∧ holds before element ∧
    ∀ later ∈ after, ¬ resets later

/-- At the beginning there is nothing since which anything holds. -/
theorem not_since_nil (holds : List α → α → Prop) (resets : α → Prop) :
    ¬ Since holds resets [] := by
  rintro ⟨before, element, after, shape, -⟩
  simp at shape

/-- One more entry has the property itself, or it does not reset what was there before. -/
theorem since_concat (holds : List α → α → Prop) (resets : α → Prop) (list : List α) (last : α) :
    Since holds resets (list ++ [last]) ↔
      holds list last ∨ ¬ resets last ∧ Since holds resets list := by
  unfold Since
  rw [exists_comm]
  simp only [exists_split_concat, exists_or, List.forall_mem_append]
  constructor
  · rintro (⟨element, rfl, here, -⟩ | ⟨element, before, after, shape, there, quiet, last⟩)
    · exact Or.inl here
    · exact Or.inr ⟨last _ (by simp), before, element, after, shape, there, quiet⟩
  · rintro (here | ⟨kept, before, element, after, shape, there, quiet⟩)
    · exact Or.inl ⟨last, rfl, here, by simp⟩
    · exact Or.inr ⟨element, before, after, shape, there, quiet, by simpa using kept⟩

end VirtTestTools
