import VirtTestTools.Text

/-!
# Substitutions at word boundaries

`re.sub` with a pattern that looks at the character before the match: a matcher
gives the length of the match at a position, if there is one. Matches are found
from the left and do not overlap; a match of no characters inserts its replacement.
A matcher that takes whole words only leaves everything between the words alone.
-/

namespace VirtTestTools.Text

/-- The length of the match of a pattern at the beginning of a text, given the
character before it. -/
abbrev Matcher := Option Char → Text → Option Nat

/-- The worker of `substitute`: `skip` counts the characters of a match that are
still to be passed over. -/
def substituteFrom (matcher : Matcher) (replacement : Text) : Nat → Option Char → Text → Text
  | _, previous, [] => if (matcher previous []).isSome then replacement else []
  | skip + 1, _, character :: rest =>
    substituteFrom matcher replacement skip (some character) rest
  | 0, previous, character :: rest =>
    match matcher previous (character :: rest) with
    | none => character :: substituteFrom matcher replacement 0 (some character) rest
    | some 0 =>
      replacement ++ character :: substituteFrom matcher replacement 0 (some character) rest
    | some (length + 1) =>
      replacement ++ substituteFrom matcher replacement length (some character) rest

/-- `re.sub`. -/
def substitute (matcher : Matcher) (replacement text : Text) : Text :=
  substituteFrom matcher replacement 0 none text

/-- Whether there is a word character: the side of a boundary. -/
def wordSide (unicode : Unicode) (side : Option Char) : Bool := side.any unicode.word

/-- `\b` between two characters, either of which may be missing. -/
def boundary (unicode : Unicode) (before after : Option Char) : Bool :=
  wordSide unicode before != wordSide unicode after

/-- The pattern `\bliteral\b` with an escaped literal. -/
def boundedLiteral (unicode : Unicode) (expected : Text) : Matcher := fun previous text =>
  let rest := text.drop expected.length
  if boundary unicode previous text.head? && startsWith expected text &&
      boundary unicode (expected.getLast?.or previous) rest.head? then
    some expected.length
  else none

/-- A matcher that finds whole words only, in texts over an alphabet: the accepted
ones where they begin, and nothing elsewhere. -/
structure Wordwise (unicode : Unicode) (alphabet : Char → Prop) (matcher : Matcher)
    (accepts : Text → Bool) : Prop where
  whole : ∀ previous word tail, wordSide unicode previous = false → word ≠ [] →
    (∀ character ∈ word ++ tail, alphabet character) →
    (∀ character ∈ word, unicode.word character = true) →
    wordSide unicode tail.head? = false →
    matcher previous (word ++ tail) = if accepts word then some word.length else none
  inner : ∀ previous character rest, (∀ other ∈ character :: rest, alphabet other) →
    unicode.word previous = true → unicode.word character = true →
    matcher (some previous) (character :: rest) = none
  outside : ∀ previous character rest, (∀ other ∈ character :: rest, alphabet other) →
    unicode.word character = false → matcher previous (character :: rest) = none
  ending : ∀ previous, matcher previous [] = none

section

variable {unicode : Unicode} {alphabet : Char → Prop} {matcher : Matcher}
variable {accepts : Text → Bool}

/-- What stands between words is copied. -/
theorem Wordwise.substitute_outside (wordwise : Wordwise unicode alphabet matcher accepts)
    (replacement : Text) (previous : Option Char) (character : Char) (rest : Text)
    (within : ∀ other ∈ character :: rest, alphabet other)
    (separator : unicode.word character = false) :
    substituteFrom matcher replacement 0 previous (character :: rest) =
      character :: substituteFrom matcher replacement 0 (some character) rest := by
  rw [substituteFrom, wordwise.outside previous character rest within separator]

/-- The rest of a word is copied once its beginning has been. -/
theorem Wordwise.substitute_inner (wordwise : Wordwise unicode alphabet matcher accepts)
    (replacement word tail : Text) (previous : Char)
    (within : ∀ character ∈ word ++ tail, alphabet character)
    (characters : ∀ character ∈ previous :: word, unicode.word character = true) :
    substituteFrom matcher replacement 0 (some previous) (word ++ tail) =
      word ++ substituteFrom matcher replacement 0 (some (word.getLast?.getD previous)) tail := by
  induction word generalizing previous with
  | nil => rfl
  | cons character word inductionHypothesis =>
    obtain ⟨previousWord, others⟩ := List.forall_mem_cons.mp characters
    have characterWord := others character List.mem_cons_self
    rw [List.cons_append, substituteFrom,
      wordwise.inner previous character (word ++ tail) within previousWord characterWord]
    dsimp only
    rw [inductionHypothesis character (List.forall_mem_cons.mp within).2 others,
      List.getLast?_cons, List.cons_append]
    rfl

/-- Passing over a match only drops its characters. -/
theorem substituteFrom_skip (matcher : Matcher) (replacement word tail : Text)
    (previous : Option Char) :
    substituteFrom matcher replacement word.length previous (word ++ tail) =
      substituteFrom matcher replacement 0 (word.getLast?.or previous) tail := by
  induction word generalizing previous with
  | nil => rfl
  | cons character word inductionHypothesis =>
    rw [List.length_cons, List.cons_append, substituteFrom, inductionHypothesis,
      List.getLast?_cons]
    cases word.getLast? <;> rfl

/-- A word is replaced or copied as a whole. -/
theorem Wordwise.substitute_word (wordwise : Wordwise unicode alphabet matcher accepts)
    (replacement word tail : Text) (previous : Option Char) (nonempty : word ≠ [])
    (fresh : wordSide unicode previous = false)
    (within : ∀ character ∈ word ++ tail, alphabet character)
    (characters : ∀ character ∈ word, unicode.word character = true)
    (separated : wordSide unicode tail.head? = false) :
    substituteFrom matcher replacement 0 previous (word ++ tail) =
      (if accepts word then replacement else word) ++
        substituteFrom matcher replacement 0 word.getLast? tail := by
  have whole := wordwise.whole previous word tail fresh nonempty within characters separated
  obtain ⟨character, rest, rfl⟩ := List.exists_cons_of_ne_nil nonempty
  rw [List.cons_append] at whole ⊢
  rw [substituteFrom, whole, List.getLast?_cons]
  cases accepts (character :: rest) with
  | true =>
    simp only [if_true, List.length_cons]
    rw [substituteFrom_skip]
    cases rest.getLast? <;> rfl
  | false =>
    simp only [Bool.false_eq_true, if_false]
    rw [wordwise.substitute_inner replacement rest tail character
      (List.forall_mem_cons.mp within).2 characters, List.cons_append]

/-- At the end nothing is inserted. -/
theorem Wordwise.substitute_nil (wordwise : Wordwise unicode alphabet matcher accepts)
    (replacement : Text) (previous : Option Char) :
    substituteFrom matcher replacement 0 previous [] = [] := by
  rw [substituteFrom, wordwise.ending, Option.isSome_none, if_neg Bool.false_ne_true]

end

/-- A word at the beginning of two texts is the same if both go on behind a
boundary. -/
theorem eq_of_prefix_of_separated (unicode : Unicode) (word expected tail : Text)
    (characters : ∀ character ∈ word, unicode.word character = true)
    (expectedCharacters : ∀ character ∈ expected, unicode.word character = true)
    (separated : wordSide unicode tail.head? = false)
    (begins : expected <+: word ++ tail)
    (ends : wordSide unicode ((word ++ tail).drop expected.length).head? = false) :
    word = expected := by
  rcases List.prefix_or_prefix_of_prefix begins (List.prefix_append word tail) with shorter | longer
  · obtain ⟨remaining, rfl⟩ := shorter
    rw [List.append_assoc, List.drop_left] at ends
    cases remaining with
    | nil => rw [List.append_nil]
    | cons character remaining =>
      have isWord := characters character (by simp)
      simp [wordSide, isWord] at ends
  · obtain ⟨remaining, rfl⟩ := longer
    rw [List.prefix_append_right_inj] at begins
    cases remaining with
    | nil => rw [List.append_nil]
    | cons character remaining =>
      obtain ⟨rest, rfl⟩ := begins
      have isWord := expectedCharacters character (by simp)
      simp [wordSide, isWord] at separated

/-- A bounded literal finds nothing where its text does not begin. -/
theorem boundedLiteral_eq_none (unicode : Unicode) (expected : Text) (previous : Option Char)
    (text : Text) (absent : ¬ expected <+: text) :
    boundedLiteral unicode expected previous text = none := by
  have fails : startsWith expected text = false := by
    rwa [startsWith, Bool.eq_false_iff, ne_eq, List.isPrefixOf_iff_prefix]
  rw [boundedLiteral, fails, Bool.and_false, Bool.false_and, if_neg Bool.false_ne_true]

/-- A word ends with a word character. -/
theorem wordSide_getLast (unicode : Unicode) (expected : Text) (nonempty : expected ≠ [])
    (characters : ∀ character ∈ expected, unicode.word character = true)
    (previous : Option Char) :
    wordSide unicode (expected.getLast?.or previous) = true := by
  rw [List.getLast?_eq_some_getLast nonempty, Option.some_or, wordSide, Option.any_some]
  exact characters _ (List.getLast_mem nonempty)

/-- A bounded literal of word characters takes whole words: those equal to it. -/
theorem boundedLiteral_wordwise (unicode : Unicode) (alphabet : Char → Prop) (expected : Text)
    (nonempty : expected ≠ [])
    (characters : ∀ character ∈ expected, unicode.word character = true) :
    Wordwise unicode alphabet (boundedLiteral unicode expected)
      (fun word => decide (word = expected)) := by
  have last := wordSide_getLast unicode expected nonempty characters
  constructor
  case whole =>
    intro previous word tail fresh present _ wordCharacters separated
    have opens : boundary unicode previous (word ++ tail).head? = true := by
      obtain ⟨character, rest, rfl⟩ := List.exists_cons_of_ne_nil present
      rw [boundary, fresh]
      simp [wordSide, wordCharacters character]
    by_cases same : word = expected
    · subst same
      have closes : boundary unicode (word.getLast?.or previous) tail.head? = true := by
        rw [boundary, last previous, separated]
        rfl
      rw [boundedLiteral, List.drop_left, opens, startsWith_append, closes, decide_eq_true rfl]
      rfl
    · rw [decide_eq_false same, if_neg Bool.false_ne_true, boundedLiteral, if_neg]
      intro found
      rw [opens, Bool.true_and, Bool.and_eq_true, boundary, last previous, bne_iff_ne, ne_eq,
        startsWith, List.isPrefixOf_iff_prefix] at found
      refine same (eq_of_prefix_of_separated unicode word expected tail wordCharacters characters
        separated found.1 ?_)
      exact Bool.eq_false_iff.mpr (fun side => found.2 side.symm)
  case inner =>
    intro previous character rest _ previousWord characterWord
    have closed : boundary unicode (some previous) (character :: rest).head? = false := by
      simp [boundary, wordSide, previousWord, characterWord]
    rw [boundedLiteral, closed, Bool.false_and, Bool.false_and, if_neg Bool.false_ne_true]
  case outside =>
    intro previous character rest _ separator
    apply boundedLiteral_eq_none
    intro begins
    obtain ⟨first, others, rfl⟩ := List.exists_cons_of_ne_nil nonempty
    obtain ⟨remaining, shape⟩ := begins
    have same : first = character := (List.cons.inj shape).1
    have isWord := characters first List.mem_cons_self
    rw [same, separator] at isWord
    cases isWord
  case ending =>
    intro previous
    apply boundedLiteral_eq_none
    rw [List.prefix_nil]
    exact nonempty

/-- A literal with a character outside of the alphabet is never found. -/
theorem boundedLiteral_foreign (unicode : Unicode) (alphabet : Char → Prop) (expected : Text)
    (foreign : ∃ character ∈ expected, ¬ alphabet character) :
    Wordwise unicode alphabet (boundedLiteral unicode expected)
      (fun word => decide (word = expected)) := by
  obtain ⟨character, inside, foreign⟩ := foreign
  have absent : ∀ text : Text, (∀ other ∈ text, alphabet other) → ¬ expected <+: text :=
    fun text within begins => foreign (within character (begins.subset inside))
  constructor
  case whole =>
    intro previous word tail _ _ within _ _
    have different : word ≠ expected := by
      rintro rfl
      exact absent _ within (List.prefix_append _ _)
    rw [decide_eq_false different, if_neg Bool.false_ne_true]
    exact boundedLiteral_eq_none unicode expected previous _ (absent _ within)
  case inner =>
    intro previous other rest within _ _
    exact boundedLiteral_eq_none unicode expected _ _ (absent _ within)
  case outside =>
    intro previous other rest within _
    exact boundedLiteral_eq_none unicode expected _ _ (absent _ within)
  case ending =>
    intro previous
    exact boundedLiteral_eq_none unicode expected _ _ (absent [] (by simp))

end VirtTestTools.Text
