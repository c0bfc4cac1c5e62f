import VirtTestTools.Text

/-!
# The matches of a pattern in a text

A pattern is the function that gives the match at the start of a text, if there
is one. `re.finditer` looks for a match at each position from the left and goes
on behind the match it has found, so that matches do not overlap.
-/

namespace VirtTestTools.Text

/-- The worker of `finditer`. `skip` counts the characters of the last match that
are still to be passed over, `offset` is the position of the text. -/
def finditerFrom (pattern : Text → Option Text) : Nat → Nat → Text → List (Nat × Text)
  | _, _, [] => []
  | skip + 1, offset, _ :: rest => finditerFrom pattern skip (offset + 1) rest
  | 0, offset, character :: rest =>
    match pattern (character :: rest) with
    | some found => (offset, found) :: finditerFrom pattern (found.length - 1) (offset + 1) rest
    | none => finditerFrom pattern 0 (offset + 1) rest

/-- `re.finditer` for a pattern without empty matches: positions and matches. -/
def finditer (pattern : Text → Option Text) (text : Text) : List (Nat × Text) :=
  finditerFrom pattern 0 0 text

/-- `re.findall` for a pattern without groups. -/
def findall (pattern : Text → Option Text) (text : Text) : List Text :=
  (finditer pattern text).map Prod.snd

/-- No match is found before the characters to be passed over end. -/
theorem le_of_mem_finditerFrom (pattern : Text → Option Text) (skip offset : Nat) (text : Text)
    (found : Nat × Text) (member : found ∈ finditerFrom pattern skip offset text) :
    offset + skip ≤ found.1 := by
  induction text generalizing skip offset with
  | nil => cases member
  | cons character rest inductionHypothesis =>
    cases skip with
    | succ skip =>
      have later := inductionHypothesis skip (offset + 1) member
      omega
    | zero =>
      simp only [finditerFrom] at member
      split at member
      · rcases List.mem_cons.mp member with same | tail
        · simp [same]
        · have later := inductionHypothesis _ (offset + 1) tail
          omega
      · have later := inductionHypothesis 0 (offset + 1) member
        omega

/-- The matches found are those at positions that no earlier match covers.

Proof: by induction on the text. Passing a character moves the position by one; a
match found at the front covers exactly the positions that are passed over. -/
theorem mem_finditerFrom_iff (pattern : Text → Option Text)
    (nonempty : ∀ text found, pattern text = some found → found ≠ []) (skip offset : Nat)
    (text : Text) (position : Nat) (match_ : Text) :
    (position, match_) ∈ finditerFrom pattern skip offset text ↔
      offset + skip ≤ position ∧ position < offset + text.length ∧
      pattern (text.drop (position - offset)) = some match_ ∧
      ∀ earlier ∈ finditerFrom pattern skip offset text,
        earlier.1 < position → earlier.1 + earlier.2.length ≤ position := by
  induction text generalizing skip offset with
  | nil =>
    simp only [finditerFrom, List.not_mem_nil, List.length_nil, false_iff]
    rintro ⟨lower, upper, -⟩
    omega
  | cons character rest inductionHypothesis =>
    have passed (behind : offset + 1 ≤ position) :
        (character :: rest).drop (position - offset) = rest.drop (position - (offset + 1)) := by
      have step : position - offset = (position - (offset + 1)) + 1 := by omega
      rw [step, List.drop_succ_cons]
    cases skip with
    | succ skip =>
      simp only [finditerFrom, inductionHypothesis skip (offset + 1), List.length_cons]
      constructor
      · rintro ⟨lower, upper, matches_, clear⟩
        rw [passed (by omega)]
        exact ⟨by omega, by omega, matches_, clear⟩
      · rintro ⟨lower, upper, matches_, clear⟩
        rw [passed (by omega)] at matches_
        exact ⟨by omega, by omega, matches_, clear⟩
    | zero =>
      cases front : pattern (character :: rest) with
      | none =>
        simp only [finditerFrom, front, inductionHypothesis 0 (offset + 1), List.length_cons]
        constructor
        · rintro ⟨lower, upper, matches_, clear⟩
          rw [passed (by omega)]
          exact ⟨by omega, by omega, matches_, clear⟩
        · rintro ⟨lower, upper, matches_, clear⟩
          have behind : offset + 1 ≤ position := by
            by_contra atFront
            have same : position - offset = 0 := by omega
            rw [same, List.drop_zero, front] at matches_
            cases matches_
          rw [passed behind] at matches_
          exact ⟨by omega, by omega, matches_, clear⟩
      | some found =>
        have covers := List.length_pos_iff.mpr (nonempty _ _ front)
        have list : finditerFrom pattern 0 offset (character :: rest) = (offset, found) ::
            finditerFrom pattern (found.length - 1) (offset + 1) rest := by
          simp only [finditerFrom, front]
        rw [list, List.mem_cons, List.forall_mem_cons, Prod.mk.injEq, inductionHypothesis,
          List.length_cons]
        dsimp only
        constructor
        · rintro (⟨rfl, rfl⟩ | ⟨lower, upper, matches_, clear⟩)
          · refine ⟨by omega, by omega, by simpa using front, by omega, ?_⟩
            intro earlier member before
            have later := le_of_mem_finditerFrom _ _ _ _ _ member
            omega
          · rw [passed (by omega)]
            exact ⟨by omega, by omega, matches_, by omega, clear⟩
        · rintro ⟨lower, upper, matches_, first, clear⟩
          by_cases atFront : position = offset
          · subst atFront
            rw [Nat.sub_self, List.drop_zero, front] at matches_
            exact Or.inl ⟨rfl, (Option.some.inj matches_).symm⟩
          · rw [passed (by omega)] at matches_
            exact Or.inr ⟨by omega, by omega, matches_, clear⟩

/-- A match is found at a position exactly if the pattern matches there and no
earlier match reaches beyond it. -/
theorem mem_finditer_iff (pattern : Text → Option Text)
    (nonempty : ∀ text found, pattern text = some found → found ≠ []) (text : Text)
    (position : Nat) (found : Text) :
    (position, found) ∈ finditer pattern text ↔
      position < text.length ∧ pattern (text.drop position) = some found ∧
      ∀ earlier ∈ finditer pattern text,
        earlier.1 < position → earlier.1 + earlier.2.length ≤ position := by
  have general := mem_finditerFrom_iff pattern nonempty 0 0 text position found
  simpa [finditer] using general

/-- The lower case of an ASCII letter is a letter; other characters keep theirs. -/
theorem toLower_eq_or_isAlpha (character : Char) :
    character.toLower = character ∨ character.isAlpha = true ∧ character.toLower.isAlpha = true := by
  by_cases upper : character.isUpper = true
  · right
    rw [isAlpha_eq, isAlpha_eq, upper, isLower_toLower character upper]
    exact ⟨rfl, Bool.or_true _⟩
  · left
    exact toLower_of_not_isUpper character (Bool.not_eq_true _ ▸ upper)

/-- Only a letter has other cases. -/
theorem eq_of_matchesIgnoringCase (expected character : Char) (other : expected.isAlpha = false)
    (same : matchesIgnoringCase expected character = true) : character = expected := by
  have lower : expected.toLower = expected := by
    rcases toLower_eq_or_isAlpha expected with same | ⟨letter, -⟩
    · exact same
    · rw [other] at letter
      cases letter
  simp only [matchesIgnoringCase, lower, Bool.or_eq_true, decide_eq_true_eq] at same
  rcases same with ((same | ⟨rfl, -⟩) | ⟨rfl, -⟩) | ⟨rfl, -⟩
  · rcases toLower_eq_or_isAlpha character with kept | ⟨-, letter⟩
    · rw [← kept, same]
    · rw [same, other] at letter
      cases letter
  · exact absurd other (by decide)
  · exact absurd other (by decide)
  · exact absurd other (by decide)

/-- A literal in front of more text. -/
theorem literalIgnoringCase_append (expected text rest more : Text)
    (found : literalIgnoringCase expected text = some rest) :
    literalIgnoringCase expected (text ++ more) = some (rest ++ more) := by
  induction expected generalizing text with
  | nil =>
    cases text with
    | nil => cases found; rfl
    | cons character text => cases found; rfl
  | cons first expected inductionHypothesis =>
    cases text with
    | nil => cases found
    | cons character text =>
      simp only [literalIgnoringCase, List.cons_append] at found ⊢
      split at found
      · rename_i matches_
        rw [if_pos matches_]
        exact inductionHypothesis text found
      · cases found

/-- A literal in two parts. -/
theorem literalIgnoringCase_two (first second text : Text) :
    literalIgnoringCase (first ++ second) text =
      (literalIgnoringCase first text).bind (literalIgnoringCase second) := by
  induction first generalizing text with
  | nil => cases text with
    | nil => rfl
    | cons character text => rfl
  | cons expected first inductionHypothesis =>
    cases text with
    | nil => rfl
    | cons character text =>
      simp only [literalIgnoringCase, List.cons_append]
      split
      · exact inductionHypothesis text
      · rfl

/-- The text of a literal and what follows it. -/
theorem literalIgnoringCase_eq_some_iff (expected text rest : Text) :
    literalIgnoringCase expected text = some rest ↔
      ∃ front, text = front ++ rest ∧ literalIgnoringCase expected front = some [] := by
  constructor
  · intro found
    induction expected generalizing text with
    | nil =>
      refine ⟨[], ?_, rfl⟩
      cases text with
      | nil => cases found; rfl
      | cons character text => cases found; rfl
    | cons first expected inductionHypothesis =>
      cases text with
      | nil => cases found
      | cons character text =>
        simp only [literalIgnoringCase] at found
        split at found
        · rename_i matches_
          obtain ⟨front, same, whole⟩ := inductionHypothesis text found
          refine ⟨character :: front, by rw [same]; rfl, ?_⟩
          simp only [literalIgnoringCase, matches_, whole, if_true]
        · cases found
  · rintro ⟨front, rfl, whole⟩
    have extended := literalIgnoringCase_append expected front [] rest whole
    simpa using extended

end VirtTestTools.Text
