import Mathlib.Data.List.Forall2

/-!
# Computations that may raise

Python code that may raise is modelled by `Except`. The rules below take a
computation apart: a sequence returns when both of its parts do, and raises when
the first of them that does not return raises.
-/

namespace VirtTestTools.Outcome

variable {ε α β : Type}

/-- Two steps return a result when both return. -/
theorem bind_eq_ok (computation : Except ε α) (next : α → Except ε β) (result : β) :
    (computation >>= next) = .ok result ↔
      ∃ value, computation = .ok value ∧ next value = .ok result := by
  cases computation with
  | error error => simp [bind, Except.bind]
  | ok value => simp [bind, Except.bind]

/-- Two steps raise an error when the first does, or the second behind it. -/
theorem bind_eq_error (computation : Except ε α) (next : α → Except ε β) (error : ε) :
    (computation >>= next) = .error error ↔
      computation = .error error ∨
        ∃ value, computation = .ok value ∧ next value = .error error := by
  cases computation with
  | error raised => simp [bind, Except.bind]
  | ok value => simp [bind, Except.bind]

/-- A loop returns exactly when every iteration does, with their results. -/
theorem mapM_eq_ok (body : α → Except ε β) (inputs : List α) (outputs : List β) :
    inputs.mapM body = .ok outputs ↔
      List.Forall₂ (fun input output => body input = .ok output) inputs outputs := by
  induction inputs generalizing outputs with
  | nil =>
    rw [List.mapM_nil, List.forall₂_nil_left_iff]
    constructor
    · intro same
      cases same
      rfl
    · rintro rfl
      rfl
  | cons input rest inductionHypothesis =>
    rw [List.mapM_cons, bind_eq_ok, List.forall₂_cons_left_iff]
    simp only [bind_eq_ok, inductionHypothesis]
    constructor
    · rintro ⟨output, first, others, tail, same⟩
      cases same
      exact ⟨output, others, first, tail, rfl⟩
    · rintro ⟨output, others, first, tail, rfl⟩
      exact ⟨output, first, others, tail, rfl⟩

/-- A loop returns if every iteration does. -/
theorem mapM_returns (body : α → Except ε β) (inputs : List α) :
    (∃ outputs, inputs.mapM body = .ok outputs) ↔
      ∀ input ∈ inputs, ∃ output, body input = .ok output := by
  simp only [mapM_eq_ok]
  induction inputs with
  | nil => simp
  | cons input rest inductionHypothesis =>
    rw [List.forall_mem_cons, ← inductionHypothesis]
    constructor
    · rintro ⟨outputs, all⟩
      obtain ⟨output, others, first, tail, rfl⟩ := List.forall₂_cons_left_iff.mp all
      exact ⟨⟨output, first⟩, others, tail⟩
    · rintro ⟨⟨output, first⟩, others, tail⟩
      exact ⟨output :: others, .cons first tail⟩

/-- A loop raises what one of its iterations raises. -/
theorem raised_of_mapM (body : α → Except ε β) (inputs : List α) (error : ε)
    (raised : inputs.mapM body = .error error) : ∃ input ∈ inputs, body input = .error error := by
  induction inputs with
  | nil => cases raised
  | cons input rest inductionHypothesis =>
    rw [List.mapM_cons, bind_eq_error] at raised
    rcases raised with first | ⟨output, -, later⟩
    · exact ⟨input, List.mem_cons_self, first⟩
    · rw [bind_eq_error] at later
      rcases later with tail | ⟨others, -, impossible⟩
      · obtain ⟨other, member, same⟩ := inductionHypothesis tail
        exact ⟨other, List.mem_cons_of_mem _ member, same⟩
      · cases impossible

end VirtTestTools.Outcome
