import VirtTestTools.Text

/-!
# Texts joined by a separator

What a join contains, how a function that acts on characters passes through it, and
that splitting at the separator undoes it.
-/

namespace VirtTestTools.Text

section Intercalate

variable {α β : Type} (separator : List α) (parts : List (List α))

/-- An element of a join is in the separator or in a part. -/
theorem mem_intercalate (element : α) (member : element ∈ separator.intercalate parts) :
    element ∈ separator ∨ ∃ part ∈ parts, element ∈ part := by
  induction parts with
  | nil => simp [List.intercalate_nil] at member
  | cons first rest inductionHypothesis =>
    cases rest with
    | nil => exact Or.inr ⟨first, by simp, by simpa [List.intercalate_singleton] using member⟩
    | cons second rest =>
      simp only [List.intercalate_cons_cons, List.mem_append] at member
      rcases member with (inFirst | inSeparator) | later
      · exact Or.inr ⟨first, by simp, inFirst⟩
      · exact Or.inl inSeparator
      · rcases inductionHypothesis later with inSeparator | ⟨part, inside, member⟩
        · exact Or.inl inSeparator
        · exact Or.inr ⟨part, List.mem_cons_of_mem _ inside, member⟩

/-- A join is mapped part by part. -/
theorem flatMap_intercalate (function : α → List β) :
    (separator.intercalate parts).flatMap function =
      (separator.flatMap function).intercalate (parts.map (List.flatMap function)) := by
  induction parts with
  | nil => rfl
  | cons first rest inductionHypothesis =>
    cases rest with
    | nil => simp [List.intercalate_singleton]
    | cons second rest =>
      simp only [List.intercalate_cons_cons, List.flatMap_append, List.map_cons,
        inductionHypothesis]

/-- A join is mapped part by part. -/
theorem map_intercalate (function : α → β) :
    (separator.intercalate parts).map function =
      (separator.map function).intercalate (parts.map (List.map function)) := by
  have single (text : List α) : text.flatMap (fun element => [function element]) =
      text.map function := (List.map_eq_flatMap ..).symm
  have mapped := flatMap_intercalate separator parts (fun element => [function element])
  rw [single, single] at mapped
  rw [mapped]
  congr 2
  exact funext single

end Intercalate

/-- Splitting at a character undoes joining with it. -/
theorem split_intercalate (separator : Char) (pieces : List Text) (nonempty : pieces ≠ [])
    (fresh : ∀ piece ∈ pieces, separator ∉ piece) :
    split [separator] ([separator].intercalate pieces) = pieces := by
  induction pieces with
  | nil => exact absurd rfl nonempty
  | cons first rest inductionHypothesis =>
    have firstFresh := fresh first List.mem_cons_self
    cases rest with
    | nil =>
      have absent : contains [separator] first = false := by
        rw [Bool.eq_false_iff, ne_eq, contains_iff]
        rintro ⟨before, after, rfl⟩
        exact firstFresh (by simp)
      rw [List.intercalate_singleton, split_absent _ _ absent]
    | cons second rest =>
      have later := inductionHypothesis (by simp)
        (fun piece member => fresh piece (List.mem_cons_of_mem _ member))
      rw [List.intercalate_cons_cons, List.append_assoc, List.singleton_append,
        split_char _ _ _ firstFresh, later]

/-- A double character does not reach across another one. -/
theorem contains_double_separated (character separator : Char) (different : character ≠ separator)
    (left right : Text) :
    contains [character, character] (left ++ separator :: right) =
      (contains [character, character] left || contains [character, character] right) := by
  have unequal : (character == separator) = false := beq_eq_false_iff_ne.mpr different
  induction left with
  | nil => simp [contains, different]
  | cons first left inductionHypothesis =>
    rw [List.cons_append, contains, inductionHypothesis, contains, ← Bool.or_assoc]
    cases left with
    | nil => simp [List.isPrefixOf, unequal]
    | cons second left => simp [List.isPrefixOf]

/-- A join has no double character if no piece has one and the separator is another
character. -/
theorem contains_double_intercalate (character separator : Char) (different : character ≠ separator)
    (pieces : List Text)
    (single : ∀ piece ∈ pieces, contains [character, character] piece = false) :
    contains [character, character] ([separator].intercalate pieces) = false := by
  induction pieces with
  | nil => rfl
  | cons first rest inductionHypothesis =>
    obtain ⟨firstSingle, restSingle⟩ := List.forall_mem_cons.mp single
    cases rest with
    | nil => rwa [List.intercalate_singleton]
    | cons second rest =>
      rw [List.intercalate_cons_cons, List.append_assoc, List.singleton_append,
        contains_double_separated _ _ different, firstSingle, inductionHypothesis restSingle]
      rfl

/-- Text behind the last piece of a join stands behind the join. -/
theorem intercalate_append_last (separator : Text) (pieces : List Text) (last ending : Text) :
    separator.intercalate (pieces ++ [last ++ ending]) =
      separator.intercalate (pieces ++ [last]) ++ ending := by
  induction pieces with
  | nil => simp [List.intercalate_singleton]
  | cons first rest inductionHypothesis =>
    obtain ⟨next, others, shape⟩ := List.exists_cons_of_ne_nil
      (List.append_ne_nil_of_right_ne_nil rest (List.cons_ne_nil (last ++ ending) []))
    obtain ⟨next', others', shape'⟩ := List.exists_cons_of_ne_nil
      (List.append_ne_nil_of_right_ne_nil rest (List.cons_ne_nil last []))
    rw [List.cons_append, List.cons_append, shape, shape', List.intercalate_cons_cons,
      List.intercalate_cons_cons, ← shape, ← shape', inductionHypothesis, List.append_assoc,
      List.append_assoc, List.append_assoc]

/-- A join whose first piece is a join with the same separator. -/
theorem intercalate_intercalate (separator : Text) (pieces rest : List Text)
    (nonempty : pieces ≠ []) :
    separator.intercalate (separator.intercalate pieces :: rest) =
      separator.intercalate (pieces ++ rest) := by
  induction pieces with
  | nil => exact absurd rfl nonempty
  | cons first pieces inductionHypothesis =>
    cases pieces with
    | nil => rw [List.intercalate_singleton, List.singleton_append]
    | cons second pieces =>
      have inner := inductionHypothesis (by simp)
      cases rest with
      | nil => rw [List.intercalate_singleton, List.append_nil]
      | cons other rest =>
        rw [List.intercalate_cons_cons] at inner ⊢
        rw [List.intercalate_cons_cons, List.append_assoc, List.append_assoc, ← List.append_assoc
          (separator.intercalate (second :: pieces)), inner]
        simp only [List.cons_append, List.intercalate_cons_cons, List.append_assoc]

/-- A piece without the separator does not reach across it. -/
theorem contains_separated (piece left right : Text) (separator : Char) (nonempty : piece ≠ [])
    (fresh : separator ∉ piece) :
    contains piece (left ++ separator :: right) = (contains piece left || contains piece right) := by
  rw [Bool.eq_iff_iff, Bool.or_eq_true, contains_iff, contains_iff, contains_iff]
  constructor
  · rintro ⟨before, after, shape⟩
    rw [List.append_assoc] at shape
    rcases List.append_eq_append_iff.mp shape with ⟨between, rfl, rest⟩ | ⟨between, rfl, rest⟩
    · -- The occurrence begins behind the left part.
      cases between with
      | nil =>
        obtain ⟨first, others, rfl⟩ := List.exists_cons_of_ne_nil nonempty
        have same : separator = first := (List.cons.inj rest).1
        exact absurd (by simp [same]) fresh
      | cons character between =>
        obtain ⟨-, rest⟩ := List.cons.inj rest
        exact Or.inr ⟨between, after, rest.trans (List.append_assoc ..).symm⟩
    · rcases List.append_eq_append_iff.mp rest with ⟨inside, rfl, ending⟩ | ⟨inside, rfl, ending⟩
      · exact Or.inl ⟨before, inside, by rw [List.append_assoc]⟩
      · cases inside with
        | nil => exact Or.inl ⟨before, [], by simp⟩
        | cons character inside =>
          have same : separator = character := (List.cons.inj ending).1
          exact absurd (by simp [same]) fresh
  · rintro (⟨before, after, rfl⟩ | ⟨before, after, rfl⟩)
    · exact ⟨before, after ++ separator :: right, by simp⟩
    · exact ⟨left ++ separator :: before, after, by simp⟩

/-- A piece without the separator occurs in a join if it occurs in a part. -/
theorem contains_intercalate (piece : Text) (separator : Char) (pieces : List Text)
    (nonempty : piece ≠ []) (fresh : separator ∉ piece) :
    contains piece ([separator].intercalate pieces) = pieces.any (contains piece) := by
  induction pieces with
  | nil => simp [contains, nonempty]
  | cons first rest inductionHypothesis =>
    cases rest with
    | nil => rw [List.intercalate_singleton, List.any_cons, List.any_nil, Bool.or_false]
    | cons second rest =>
      rw [List.intercalate_cons_cons, List.append_assoc, List.singleton_append,
        contains_separated piece _ _ separator nonempty fresh, inductionHypothesis]
      rfl

end VirtTestTools.Text
