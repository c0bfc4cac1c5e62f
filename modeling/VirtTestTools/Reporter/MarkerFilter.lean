import Mathlib.Data.List.Dedup
import VirtTestTools.Analyzer.MarkerExpressions
import VirtTestTools.BooleanGrammar
import VirtTestTools.Substitutions

/-!
# The marker filter of the manual reporter

A filter expression is evaluated by putting `True` for the names of the markers of
a test, one name after another, `False` for the names that are left, and parsing
the result. Each substitution takes whole words only, so that on the tokens of an
expression it is a map, and the parser reads the boolean meaning.
-/

namespace VirtTestTools.Reporter

open Text BooleanGrammar
open Analyzer (MarkerExpr Token)

/-- A character of `[a-zA-Z0-9_]`. -/
def isNameCharacter (character : Char) : Bool := character.isAlphanum || character == '_'

/-- A character of `[a-zA-Z_]`. -/
def isNameStart (character : Char) : Bool := character.isAlpha || character == '_'

/-- A character of ASCII. -/
def IsAscii (character : Char) : Prop := character.toNat < 128

instance (character : Char) : Decidable (IsAscii character) :=
  inferInstanceAs (Decidable (character.toNat < 128))

/-- What is said of the characters of a text is decided along the text, not along all
characters there are. -/
local instance (priority := 2000) decidableOnText (holds : Char → Prop) [DecidablePred holds]
    (text : Text) : Decidable (∀ character, character ∈ text → holds character) :=
  List.decidableBAll holds text

/-- What identifiers have in common: there are characters, and those of ASCII are
letters, digits and underscores. -/
def IsIdentifier (name : Text) : Prop :=
  name ≠ [] ∧ ∀ character ∈ name, IsAscii character → isNameCharacter character = true

/-- `str.lower`. On texts without capitals in ASCII it does nothing, and an
identifier becomes one without capitals. -/
structure Lowering where
  lower : Text → Text
  lower_ascii : ∀ text : Text,
    (∀ character ∈ text, IsAscii character ∧ character.isUpper = false) → lower text = text
  lower_identifier : ∀ name, IsIdentifier name → IsIdentifier (lower name) ∧
    ∀ character ∈ lower name, character.isUpper = false

/-- The order in which Python iterates over the set of the names of a list. -/
structure SetOrder where
  listing : List Text → List Text
  perm : ∀ names, (listing names).Perm names.dedup

/-- The markers of a placeholder test, as they are collected. -/
structure DetailMarkers where
  moduleMarkers : List Text
  classMarkers : List Text
  testMarkers : List Text

namespace DetailMarkers

/-- The markers of the module, of the class and of the test. -/
def all (detail : DetailMarkers) : List Text :=
  detail.moduleMarkers ++ detail.classMarkers ++ detail.testMarkers

/-- The name of a marker without its arguments. -/
def bareName (marker : Text) : Text := marker.takeWhile (· ≠ '(')

/-- The names that are added to `all_markers`. -/
def names (lowering : Lowering) (detail : DetailMarkers) : List Text :=
  detail.all.map (fun marker => lowering.lower (bareName marker))

end DetailMarkers

/-- The words that are operators of a filter. -/
def operators : List Text := ["and".toList, "or".toList, "not".toList]

/-- Put `True` for one name, unless it is an operator. -/
def substituteMarker (unicode : Unicode) (expr markerName : Text) : Text :=
  if markerName ∉ operators then
    substitute (boundedLiteral unicode markerName) "True".toList expr
  else expr

/-- The words that are not replaced by `False`. -/
def keptWords : List Text := operators ++ ["True".toList, "False".toList]

/-- The pattern `\b(?!and\b|or\b|not\b|True\b|False\b)[a-zA-Z_][a-zA-Z0-9_]*\b`. No
boundary lies inside a run of name characters, so the run is matched as a whole. -/
def unknownName (unicode : Unicode) : Matcher := fun previous text =>
  let name := text.takeWhile isNameCharacter
  let kept := keptWords.any (fun word => startsWith word text &&
    boundary unicode word.getLast? (text.drop word.length).head?)
  if boundary unicode previous text.head? && !kept && text.head?.any isNameStart &&
      boundary unicode name.getLast? (text.drop name.length).head? then
    some name.length
  else none

/-- White space that the tokenizer of Python skips within a line. A backslash stands for
the end of a line that the next one continues. -/
def isBlank (character : Char) : Bool :=
  character == ' ' || character == '\t' || character == '\x0c' || character == '\\'

/-- The symbol of a word, if the word may occur. Every other word stands for a node
or a constant that is not allowed. -/
def symbolOfWord (word : Text) : Option Symbol :=
  if word = "and".toList then some .andOp
  else if word = "or".toList then some .orOp
  else if word = "not".toList then some .notOp
  else if word = "True".toList then some (.value true)
  else if word = "False".toList then some (.value false)
  else none

/-- The symbols of the word that has been collected, if there is one. -/
def pendingSymbols (pending : Text) : Option (List Symbol) :=
  if pending.isEmpty then some [] else (symbolOfWord pending.reverse).map ([·])

/-- The worker of `scan`: the word read so far is kept in reverse. -/
def scanFrom (pending : Text) : Text → Option (List Symbol)
  | [] => pendingSymbols pending
  | character :: rest =>
    if isBlank character then
      (pendingSymbols pending).bind (fun word => (scanFrom [] rest).map (word ++ ·))
    else if character = '(' then
      (pendingSymbols pending).bind (fun word => (scanFrom [] rest).map (word ++ .left :: ·))
    else if character = ')' then
      (pendingSymbols pending).bind (fun word => (scanFrom [] rest).map (word ++ .right :: ·))
    else scanFrom (character :: pending) rest

/-- The symbols of an expression on one line, or `none` for a syntax error or a
node that is not allowed. -/
def scan (text : Text) : Option (List Symbol) := scanFrom [] text

/-- Whether a line is indented. A form feed takes the column back to the margin, and
where a line is continued by another, the column in front of the backslash counts. -/
def isIndentedFrom (column : Bool) : Text → Bool
  | [] => column
  | character :: rest =>
    if character = ' ' ∨ character = '\t' then isIndentedFrom true rest
    else if character = '\x0c' then isIndentedFrom false rest
    else if character = '\\' then column || isIndentedFrom column rest
    else column

/-- Whether the tokenizer finds the line indented. -/
def isIndented (line : Text) : Bool := isIndentedFrom false line

/-- What the tokenizer is reading: text, a comment, the backslash that ended a line, or
the text behind such a line. -/
inductive Reading where
  | code | comment | backslash | continued

/-- The lines that the tokenizer sees, without comments. A line goes on inside
parentheses and behind a backslash, which must be the last character of its line and not
in the last line. The text may not end in white space that indents a line. The line read so
far is kept in reverse. -/
def logicalLinesFrom (line : Text) (depth : Nat) : Reading → Text → Option (List Text)
  | .backslash, [] | .continued, [] => none
  | .comment, [] => some [line.reverse]
  | .code, [] =>
    if line.all isBlank && isIndented line.reverse then none else some [line.reverse]
  | .backslash, character :: rest =>
    if character = '\n' then logicalLinesFrom ('\\' :: line) depth .continued rest else none
  | reading, character :: rest =>
    if character = '\n' then
      if depth = 0 then (logicalLinesFrom [] 0 .code rest).map (line.reverse :: ·)
      else logicalLinesFrom (' ' :: line) depth .code rest
    else match reading with
      | .comment => logicalLinesFrom line depth .comment rest
      | _ =>
        if character = '#' then logicalLinesFrom line depth .comment rest
        else if character = '\\' then logicalLinesFrom line depth .backslash rest
        else if character = '(' then logicalLinesFrom (character :: line) (depth + 1) .code rest
        else if character = ')' then logicalLinesFrom (character :: line) (depth - 1) .code rest
        else logicalLinesFrom (character :: line) depth .code rest

/-- The one line that is not blank, or `none` where there are several, there is none, or
the lines cannot be told. -/
def logicalLine (text : Text) : Option Text :=
  if '\x00' ∈ text then none
  else (logicalLinesFrom [] 0 .code (universalNewlines text)).bind fun lines =>
    match lines.filter (fun line => !line.all isBlank) with
    | [line] => some line
    | _ => none

/-- `_safe_eval_bool_expr`; `none` stands for the exceptions that the caller
catches. An expression that is indented raises one. The limits of the interpreter on the
nesting of an expression are left out. -/
def safeEvalBoolExpr (expr : Text) : Option Bool :=
  (logicalLine expr).bind fun line =>
    if isIndented line then none else (scan line).bind evaluate

/-- `sorted(all_markers, key=len, reverse=True)`. -/
def longestFirst (lowering : Lowering) (order : SetOrder) (detail : DetailMarkers) : List Text :=
  (order.listing (detail.names lowering)).mergeSort (fun first second =>
    decide (second.length ≤ first.length))

/-- The expression with `True` and `False` for the names. -/
def substituteNames (unicode : Unicode) (lowering : Lowering) (order : SetOrder)
    (detail : DetailMarkers) (markerFilter : Text) : Text :=
  substitute (unknownName unicode) "False".toList
    ((longestFirst lowering order detail).foldl (substituteMarker unicode)
      (lowering.lower markerFilter))

/-- `_matches_marker_filter`. -/
def matchesMarkerFilter (unicode : Unicode) (lowering : Lowering) (order : SetOrder)
    (detail : DetailMarkers) (markerFilter : Text) : Bool :=
  (safeEvalBoolExpr (substituteNames unicode lowering order detail markerFilter)).getD false

/-- The written forms of a token list with spaces between the tokens, at least one
between two words. -/
inductive Written : List Token → Text → Prop
  | nil (gap : Nat) : Written [] (List.replicate gap ' ')
  | cons {token : Token} {rest : List Token} {tail : Text} (gap : Nat)
      (later : Written rest tail)
      (separated : token.isWord = true →
        ∀ character ∈ tail.head?, isNameCharacter character = false) :
      Written (token :: rest) (List.replicate gap ' ' ++ token.spelling ++ tail)

/-- A name that an expression may have, of the form `[a-z_][a-z0-9_]*`. -/
structure IsFilterName (name : Text) : Prop where
  starts : ∃ first rest, name = first :: rest ∧ (first.isLower || first == '_') = true
  characters : ∀ character ∈ name,
    (character.isLower || character.isDigit || character == '_') = true
  noOperator : name ∉ operators

section Substituting

variable {unicode : Unicode}

/-- A character of a name is a word character of ASCII. -/
theorem word_of_isNameCharacter (unicode : Unicode) (character : Char)
    (isName : isNameCharacter character = true) :
    IsAscii character ∧ unicode.word character = true := by
  have bounds := asciiWord_bounds character isName
  have ascii : character.toNat < 128 := by omega
  exact ⟨ascii, (unicode.word_ascii character ascii).trans isName⟩

/-- An ASCII character that is in no name ends a word. -/
theorem wordSide_separator (unicode : Unicode) (character : Char) (ascii : IsAscii character)
    (separator : isNameCharacter character = false) :
    wordSide unicode (some character) = false :=
  (unicode.word_ascii character ascii).trans separator

/-- A token whose spelling is that of a word or a parenthesis. -/
def IsSpelled (token : Token) : Prop :=
  token.isWord = true → token.spelling ≠ [] ∧
    ∀ character ∈ token.spelling, isNameCharacter character = true

/-- What holds of a space and of the characters of the tokens holds of a written
text. -/
theorem forall_of_written (holds : Char → Prop) (tokens : List Token) (text : Text)
    (written : Written tokens text) (space : holds ' ')
    (spelled : ∀ token ∈ tokens, ∀ character ∈ token.spelling, holds character) :
    ∀ character ∈ text, holds character := by
  induction written with
  | nil gap =>
    intro character member
    rwa [List.eq_of_mem_replicate member]
  | cons gap later separated inductionHypothesis =>
    obtain ⟨tokenSpelled, restSpelled⟩ := List.forall_mem_cons.mp spelled
    intro character member
    rw [List.mem_append, List.mem_append] at member
    rcases member with (inGap | inToken) | inTail
    · rwa [List.eq_of_mem_replicate inGap]
    · exact tokenSpelled character inToken
    · exact inductionHypothesis restSpelled character inTail

/-- A token that is no word is a single parenthesis. -/
theorem spelling_of_not_word (token : Token) (noWord : token.isWord = false) :
    ∃ character, token.spelling = [character] ∧ (character = '(' ∨ character = ')') := by
  cases token with
  | left => exact ⟨'(', rfl, Or.inl rfl⟩
  | right => exact ⟨')', rfl, Or.inr rfl⟩
  | andOp => cases noWord
  | orOp => cases noWord
  | notOp => cases noWord
  | ident id => cases noWord

/-- A parenthesis is an ASCII character that ends a name. -/
theorem parenthesis_separates (character : Char) (paren : character = '(' ∨ character = ')') :
    IsAscii character ∧ isNameCharacter character = false := by
  rcases paren with rfl | rfl
  · exact ⟨by decide, by decide⟩
  · exact ⟨by decide, by decide⟩

/-- A text of spelled tokens and blanks is ASCII. -/
theorem ascii_of_written (tokens : List Token) (text : Text) (written : Written tokens text)
    (spelled : ∀ token ∈ tokens, IsSpelled token) : ∀ character ∈ text, IsAscii character := by
  apply forall_of_written IsAscii tokens text written (by decide)
  intro token member character inside
  cases isWord : token.isWord with
  | true =>
    exact (word_of_isNameCharacter ascii _ ((spelled token member isWord).2 _ inside)).1
  | false =>
    obtain ⟨other, shape, paren⟩ := spelling_of_not_word token isWord
    rw [shape, List.mem_singleton] at inside
    subst inside
    exact (parenthesis_separates character paren).1

/-- A token after a substitution: an accepted word becomes the replacement. -/
def replaceToken (accepts : Text → Bool) (replacement : String) (token : Token) : Token :=
  if token.isWord && accepts token.spelling then .ident replacement else token

/-- A replaced token is a word as the token was. -/
theorem isWord_replaceToken (accepts : Text → Bool) (replacement : String) (token : Token) :
    (replaceToken accepts replacement token).isWord = token.isWord := by
  rw [replaceToken]
  split
  · rename_i replaced
    rw [Bool.and_eq_true] at replaced
    rw [replaced.1]
    rfl
  · rfl

/-- A word that is accepted is spelled as its replacement. -/
theorem spelling_replaceToken (accepts : Text → Bool) (replacement : String) (token : Token)
    (isWord : token.isWord = true) :
    (replaceToken accepts replacement token).spelling =
      if accepts token.spelling then replacement.toList else token.spelling := by
  rw [replaceToken, isWord, Bool.true_and]
  split <;> rfl

/-- A replaced token can be spelled. -/
theorem isSpelled_replaceToken (accepts : Text → Bool) (replacement : String) (token : Token)
    (spelled : IsSpelled token) (replacementSpelled : IsSpelled (.ident replacement)) :
    IsSpelled (replaceToken accepts replacement token) := by
  rw [replaceToken]
  split
  · exact replacementSpelled
  · exact spelled

variable {matcher : Matcher} {accepts : Text → Bool}

/-- Spaces are copied. -/
theorem substitute_gap (wordwise : Wordwise unicode IsAscii matcher accepts)
    (replacement tail : Text) (gap : Nat) (previous : Option Char)
    (within : ∀ character ∈ tail, IsAscii character) :
    substituteFrom matcher replacement 0 previous (List.replicate gap ' ' ++ tail) =
      List.replicate gap ' ' ++
        substituteFrom matcher replacement 0 (if gap = 0 then previous else some ' ') tail := by
  induction gap generalizing previous with
  | zero => rfl
  | succ gap inductionHypothesis =>
    have ascii : ∀ character ∈ ' ' :: (List.replicate gap ' ' ++ tail), IsAscii character := by
      intro character member
      rcases List.mem_cons.mp member with rfl | later
      · decide
      · rcases List.mem_append.mp later with inGap | inTail
        · rw [List.eq_of_mem_replicate inGap]
          decide
        · exact within character inTail
    rw [List.replicate_succ, List.cons_append, wordwise.substitute_outside replacement previous ' ' _
      ascii (wordSide_separator unicode ' ' (by decide) (by decide)), inductionHypothesis]
    cases gap <;> rfl

/-- A substitution that takes whole words maps the tokens of a written text. It
leaves a first character alone that is no word character. -/
theorem substitute_written (wordwise : Wordwise unicode IsAscii matcher accepts)
    (replacement : String) (tokens : List Token) (text : Text) (written : Written tokens text)
    (spelled : ∀ token ∈ tokens, IsSpelled token)
    (replacementSpelled : IsSpelled (.ident replacement)) (previous : Option Char)
    (separated : wordSide unicode previous = true → wordSide unicode text.head? = false) :
    Written (tokens.map (replaceToken accepts replacement))
        (substituteFrom matcher replacement.toList 0 previous text) ∧
      (wordSide unicode text.head? = false →
        (substituteFrom matcher replacement.toList 0 previous text).head? = text.head?) ∧
      (text.head? ≠ some ' ' →
        (substituteFrom matcher replacement.toList 0 previous text).head? ≠ some ' ') := by
  induction written generalizing previous with
  | nil gap =>
    have copied := substitute_gap wordwise replacement.toList [] gap previous (by simp)
    rw [wordwise.substitute_nil, List.append_nil] at copied
    rw [copied]
    exact ⟨Written.nil gap, fun _ => rfl, fun flush => flush⟩
  | @cons token rest tail gap later separatedTail inductionHypothesis =>
    obtain ⟨tokenSpelled, restSpelled⟩ := List.forall_mem_cons.mp spelled
    have within := ascii_of_written _ _ (Written.cons gap later separatedTail) spelled
    rw [List.append_assoc] at within separated ⊢
    have withinRest := (List.forall_mem_append.mp within).2
    have withinTail := (List.forall_mem_append.mp withinRest).2
    rw [substitute_gap wordwise replacement.toList _ gap previous withinRest, List.map_cons]
    cases isWord : token.isWord with
    | true =>
      obtain ⟨nonempty, characters⟩ := tokenSpelled isWord
      have wordCharacters : ∀ character ∈ token.spelling, unicode.word character = true :=
        fun character member =>
          (word_of_isNameCharacter unicode character (characters character member)).2
      have headWord : wordSide unicode (token.spelling ++ tail).head? = true := by
        obtain ⟨first, others, shape⟩ := List.exists_cons_of_ne_nil nonempty
        rw [shape] at wordCharacters ⊢
        exact wordCharacters first List.mem_cons_self
      have tailSeparated : wordSide unicode tail.head? = false := by
        cases tail with
        | nil => rfl
        | cons character others =>
          exact wordSide_separator unicode character (withinTail character List.mem_cons_self)
            (separatedTail isWord character rfl)
      have fresh : wordSide unicode (if gap = 0 then previous else some ' ') = false := by
        split
        · rename_i noGap
          subst noGap
          by_contra side
          have clash := separated (by simpa using side)
          rw [List.replicate_zero, List.nil_append, headWord] at clash
          cases clash
        · exact wordSide_separator unicode ' ' (by decide) (by decide)
      obtain ⟨writtenTail, headTail, -⟩ :=
        inductionHypothesis restSpelled token.spelling.getLast? (fun _ => tailSeparated)
      rw [wordwise.substitute_word replacement.toList token.spelling tail _ nonempty fresh
        withinRest wordCharacters tailSeparated, ← spelling_replaceToken accepts replacement token
        isWord, ← List.append_assoc]
      refine ⟨?_, ?_, ?_⟩
      · refine Written.cons gap writtenTail ?_
        intro _ character member
        rw [headTail tailSeparated] at member
        exact separatedTail isWord character member
      · intro separator
        cases gap with
        | zero =>
          rw [List.replicate_zero, List.nil_append, headWord] at separator
          cases separator
        | succ gap => rfl
      · intro flush
        cases gap with
        | zero =>
          have replaced := isSpelled_replaceToken accepts replacement token tokenSpelled
            replacementSpelled ((isWord_replaceToken accepts replacement token).trans isWord)
          obtain ⟨first, others, shape⟩ := List.exists_cons_of_ne_nil replaced.1
          rw [List.replicate_zero, List.nil_append, shape, List.cons_append, List.head?_cons]
          intro space
          have isName := replaced.2 first (by rw [shape]; exact List.mem_cons_self)
          rw [Option.some.inj space] at isName
          revert isName
          decide
        | succ gap => exact absurd rfl flush
    | false =>
      obtain ⟨character, shape, paren⟩ := spelling_of_not_word token isWord
      obtain ⟨ascii, separator⟩ := parenthesis_separates character paren
      obtain ⟨writtenTail, -⟩ := inductionHypothesis restSpelled (some character) (by
        rw [wordSide_separator unicode character ascii separator]
        exact fun side => absurd side Bool.false_ne_true)
      have same : replaceToken accepts replacement token = token := by
        rw [replaceToken, isWord, Bool.false_and, if_neg Bool.false_ne_true]
      have other : unicode.word character = false :=
        wordSide_separator unicode character ascii separator
      have copied := wordwise.substitute_outside replacement.toList
        (if gap = 0 then previous else some ' ') character tail
        (by rwa [shape, List.singleton_append] at withinRest) other
      rw [shape, List.singleton_append, copied, same]
      refine ⟨?_, ?_, ?_⟩
      · have copiedToken : Written (token :: _) _ := Written.cons gap writtenTail
          (fun word => absurd (isWord.symm.trans word) Bool.false_ne_true)
        rwa [shape, List.append_assoc, List.singleton_append] at copiedToken
      · intro _
        cases gap <;> rfl
      · intro flush
        cases gap with
        | zero => exact flush
        | succ gap => exact absurd rfl flush

/-- A second substitution that leaves the first replacement alone. -/
theorem replaceToken_replaceToken (first second : Text → Bool) (replacement : String)
    (kept : second replacement.toList = false) (token : Token) :
    replaceToken second replacement (replaceToken first replacement token) =
      replaceToken (fun word => first word || second word) replacement token := by
  cases isWord : token.isWord with
  | false => simp [replaceToken, isWord]
  | true =>
    cases accepted : first token.spelling with
    | true =>
      have leaves : second (Token.ident replacement).spelling = false := kept
      simp [replaceToken, isWord, accepted, leaves]
    | false => simp [replaceToken, isWord, accepted]

/-- The pattern of one marker matches the words that are the marker. -/
theorem marker_wordwise (unicode : Unicode) (marker : Text) (identifier : IsIdentifier marker) :
    Wordwise unicode IsAscii (boundedLiteral unicode marker)
      (fun word => decide (word = marker)) := by
  by_cases characters : ∀ character ∈ marker, unicode.word character = true
  · exact boundedLiteral_wordwise unicode IsAscii marker identifier.1 characters
  · refine boundedLiteral_foreign unicode IsAscii marker ?_
    simp only [not_forall] at characters
    obtain ⟨character, member, noWord⟩ := characters
    refine ⟨character, member, ?_⟩
    intro ascii
    exact noWord
      (word_of_isNameCharacter unicode character (identifier.2 character member ascii)).2

/-- Putting `True` for the names of a list, one after another, puts it for every
word of the list that is no operator. -/
theorem written_substituteMarkers (unicode : Unicode) (markers : List Text)
    (identifiers : ∀ marker ∈ markers, IsIdentifier marker ∧
      ∀ character ∈ marker, character.isUpper = false)
    (tokens : List Token) (text : Text) (written : Written tokens text)
    (spelled : ∀ token ∈ tokens, IsSpelled token) :
    Written (tokens.map (replaceToken
        (fun word => decide (word ∈ markers ∧ word ∉ operators)) "True"))
      (markers.foldl (substituteMarker unicode) text) ∧
      (text.head? ≠ some ' ' →
        (markers.foldl (substituteMarker unicode) text).head? ≠ some ' ') := by
  induction markers generalizing tokens text with
  | nil =>
    have same : tokens.map (replaceToken
        (fun word => decide (word ∈ ([] : List Text) ∧ word ∉ operators)) "True") = tokens := by
      refine (List.map_congr_left ?_).trans (List.map_id tokens)
      intro token _
      simp [replaceToken]
    rw [same]
    exact ⟨written, fun flush => flush⟩
  | cons marker markers inductionHypothesis =>
    obtain ⟨⟨identifier, -⟩, others⟩ := List.forall_mem_cons.mp identifiers
    rw [List.foldl_cons]
    by_cases isOperator : marker ∈ operators
    · have skipped : substituteMarker unicode text marker = text := by
        rw [substituteMarker, if_neg (not_not_intro isOperator)]
      have same : (fun word : Text => decide (word ∈ marker :: markers ∧ word ∉ operators)) =
          fun word => decide (word ∈ markers ∧ word ∉ operators) := by
        funext word
        rw [decide_eq_decide, List.mem_cons]
        constructor
        · rintro ⟨rfl | later, noOperator⟩
          · exact absurd isOperator noOperator
          · exact ⟨later, noOperator⟩
        · rintro ⟨later, noOperator⟩
          exact ⟨Or.inr later, noOperator⟩
      rw [skipped, same]
      exact inductionHypothesis others tokens text written spelled
    · have trueSpelled : IsSpelled (.ident "True") := fun _ => ⟨by decide, by decide⟩
      obtain ⟨replaced, -, stillFlush⟩ := substitute_written
        (marker_wordwise unicode marker identifier) "True" tokens text written spelled trueSpelled
        none (fun side => absurd side Bool.false_ne_true)
      have stillSpelled : ∀ token ∈ tokens.map
          (replaceToken (fun word => decide (word = marker)) "True"), IsSpelled token := by
        intro token member
        obtain ⟨original, inside, rfl⟩ := List.mem_map.mp member
        exact isSpelled_replaceToken _ _ original (spelled original inside) trueSpelled
      obtain ⟨rest, restFlush⟩ := inductionHypothesis others _ _ replaced stillSpelled
      rw [substituteMarker, if_pos isOperator]
      -- No later name is `True`, since names have no capitals.
      have kept : decide ("True".toList ∈ markers ∧ "True".toList ∉ operators) = false := by
        apply decide_eq_false
        rintro ⟨later, -⟩
        have small := (others _ later).2 'T' (by decide)
        revert small
        decide
      have same : (fun word : Text => decide (word = marker) ||
            decide (word ∈ markers ∧ word ∉ operators)) =
          fun word => decide (word ∈ marker :: markers ∧ word ∉ operators) := by
        funext word
        rw [← Bool.decide_or, decide_eq_decide, List.mem_cons]
        constructor
        · rintro (rfl | ⟨later, noOperator⟩)
          · exact ⟨Or.inl rfl, isOperator⟩
          · exact ⟨Or.inr later, noOperator⟩
        · rintro ⟨rfl | later, noOperator⟩
          · exact Or.inl rfl
          · exact Or.inr ⟨later, noOperator⟩
      rw [List.map_map] at rest
      rw [← same]
      refine ⟨?_, fun flush => restFlush (stillFlush flush)⟩
      refine (congrArg (Written · _) (List.map_congr_left ?_)).mp rest
      intro token _
      exact replaceToken_replaceToken _ _ "True" kept token

/-- The words that become `False`. -/
def isUnknown (word : Text) : Bool := decide (word ∉ keptWords) && word.head?.any isNameStart

/-- A word character of ASCII is a character of a name. -/
theorem isNameCharacter_of_word (unicode : Unicode) (character : Char) (ascii : IsAscii character)
    (isWord : unicode.word character = true) : isNameCharacter character = true :=
  (unicode.word_ascii character ascii).symm.trans isWord

/-- The characters of a name up to where its word ends. -/
theorem takeWhile_name (unicode : Unicode) (word tail : Text)
    (within : ∀ character ∈ word ++ tail, IsAscii character)
    (characters : ∀ character ∈ word, unicode.word character = true)
    (separated : wordSide unicode tail.head? = false) :
    (word ++ tail).takeWhile isNameCharacter = word := by
  obtain ⟨wordAscii, tailAscii⟩ := List.forall_mem_append.mp within
  rw [List.takeWhile_append_of_pos fun character member => isNameCharacter_of_word unicode character
    (wordAscii character member) (characters character member)]
  cases tail with
  | nil => simp
  | cons character rest =>
    have other : isNameCharacter character = false :=
      (unicode.word_ascii character (tailAscii character List.mem_cons_self)).symm.trans separated
    rw [List.takeWhile_cons, other, if_neg Bool.false_ne_true, List.append_nil]

/-- The pattern for unknown names takes whole words. -/
theorem unknownName_wordwise (unicode : Unicode) :
    Wordwise unicode IsAscii (unknownName unicode) isUnknown := by
  have keptSpelled : ∀ kept ∈ keptWords, kept ≠ [] ∧
      ∀ character ∈ kept, isNameCharacter character = true := by decide
  constructor
  case whole =>
    intro previous word tail fresh present within characters separated
    have opens : boundary unicode previous (word ++ tail).head? = true := by
      obtain ⟨character, rest, rfl⟩ := List.exists_cons_of_ne_nil present
      rw [boundary, fresh]
      simp [wordSide, characters character]
    have closes : boundary unicode word.getLast? tail.head? = true := by
      have last := wordSide_getLast unicode word present characters none
      rw [Option.or_none] at last
      rw [boundary, last, separated]
      rfl
    have starts : (word ++ tail).head?.any isNameStart = word.head?.any isNameStart := by
      obtain ⟨character, rest, rfl⟩ := List.exists_cons_of_ne_nil present
      rfl
    have kept : keptWords.any (fun other => startsWith other (word ++ tail) &&
        boundary unicode other.getLast? ((word ++ tail).drop other.length).head?) =
          decide (word ∈ keptWords) := by
      rw [Bool.eq_iff_iff, List.any_eq_true, decide_eq_true_eq]
      constructor
      · rintro ⟨other, member, found⟩
        obtain ⟨nonempty, otherCharacters⟩ := keptSpelled other member
        have otherWord : ∀ character ∈ other, unicode.word character = true :=
          fun character inside =>
            (word_of_isNameCharacter unicode character (otherCharacters character inside)).2
        have last := wordSide_getLast unicode other nonempty otherWord none
        rw [Option.or_none] at last
        rw [Bool.and_eq_true, boundary, last, bne_iff_ne, ne_eq, startsWith,
          List.isPrefixOf_iff_prefix] at found
        rwa [eq_of_prefix_of_separated unicode word other tail characters otherWord separated
          found.1 (Bool.eq_false_iff.mpr fun side => found.2 side.symm)]
      · intro member
        refine ⟨word, member, ?_⟩
        rw [startsWith_append, List.drop_left, closes]
        rfl
    rw [unknownName]
    rw [takeWhile_name unicode word tail within characters separated, List.drop_left, opens, closes,
      starts, kept, isUnknown, Bool.true_and, Bool.and_true, decide_not]
  case inner =>
    intro previous character rest _ previousWord characterWord
    have closed : boundary unicode (some previous) (character :: rest).head? = false := by
      simp [boundary, wordSide, previousWord, characterWord]
    rw [unknownName]
    rw [closed, Bool.false_and, Bool.false_and, Bool.false_and, if_neg Bool.false_ne_true]
  case outside =>
    intro previous character rest within separator
    have noStart : isNameStart character = false := by
      have noName : isNameCharacter character = false :=
        (unicode.word_ascii character (within character List.mem_cons_self)).symm.trans separator
      rw [isNameCharacter, isAlphanum_eq, Bool.or_eq_false_iff, Bool.or_eq_false_iff] at noName
      rw [isNameStart, noName.1.1, noName.2]
      rfl
    rw [unknownName]
    rw [List.head?_cons, Option.any_some, noStart, Bool.and_false, Bool.false_and,
      if_neg Bool.false_ne_true]
  case ending =>
    intro previous
    rw [unknownName]
    rw [List.head?_nil, Option.any_none, Bool.and_false, Bool.false_and,
      if_neg Bool.false_ne_true]

end Substituting

section Scanning

/-- The symbol of a token, with a truth value for its name. -/
def symbolOf (truth : String → Bool) : Token → Symbol
  | .left => .left
  | .right => .right
  | .andOp => .andOp
  | .orOp => .orOp
  | .notOp => .notOp
  | .ident id => .value (truth id)

/-- A scan collects the characters of a word. -/
theorem scanFrom_word (word tail pending : Text)
    (characters : ∀ character ∈ word, isNameCharacter character = true) :
    scanFrom pending (word ++ tail) = scanFrom (word.reverse ++ pending) tail := by
  induction word generalizing pending with
  | nil => rfl
  | cons character word inductionHypothesis =>
    obtain ⟨isName, others⟩ := List.forall_mem_cons.mp characters
    have noBlank : isBlank character = false := by
      by_contra blank
      simp only [isBlank, Bool.not_eq_false, Bool.or_eq_true, beq_iff_eq] at blank
      rcases blank with ((rfl | rfl) | rfl) | rfl <;> revert isName <;> decide
    have noLeft : character ≠ '(' := by
      rintro rfl
      revert isName
      decide
    have noRight : character ≠ ')' := by
      rintro rfl
      revert isName
      decide
    rw [List.cons_append, scanFrom, noBlank, if_neg Bool.false_ne_true, if_neg noLeft,
      if_neg noRight, inductionHypothesis _ others, List.reverse_cons, List.append_assoc,
      List.singleton_append]

/-- A collected word is over where no name character follows. -/
theorem scanFrom_pending (pending tail : Text)
    (separated : ∀ character ∈ tail.head?, character = ' ' ∨ character = '(' ∨ character = ')') :
    scanFrom pending tail =
      (pendingSymbols pending).bind (fun word => (scan tail).map (word ++ ·)) := by
  have empty : pendingSymbols [] = some [] := rfl
  cases tail with
  | nil =>
    rw [scan, scanFrom, scanFrom, empty]
    cases pendingSymbols pending <;> simp
  | cons character rest =>
    rcases separated character rfl with rfl | rfl | rfl
    · rw [scan, scanFrom, scanFrom, empty]
      cases pendingSymbols pending <;> simp [isBlank]
    · rw [scan, scanFrom, scanFrom, empty]
      cases pendingSymbols pending <;> simp [isBlank, Function.comp_def]
    · rw [scan, scanFrom, scanFrom, empty]
      cases pendingSymbols pending <;> simp [isBlank, Function.comp_def]

/-- A scan skips blanks. -/
theorem scan_gap (gap : Nat) (tail : Text) : scan (List.replicate gap ' ' ++ tail) = scan tail := by
  induction gap with
  | zero => rfl
  | succ gap inductionHypothesis =>
    rw [List.replicate_succ, List.cons_append]
    change (scan (List.replicate gap ' ' ++ tail)).map ([] ++ ·) = scan tail
    rw [inductionHypothesis]
    exact Option.map_id'

/-- Behind a word a written text goes on with a space or a parenthesis. -/
theorem head_of_written (tokens : List Token) (text : Text) (written : Written tokens text)
    (spelled : ∀ token ∈ tokens, IsSpelled token)
    (separated : ∀ character ∈ text.head?, isNameCharacter character = false) :
    ∀ character ∈ text.head?, character = ' ' ∨ character = '(' ∨ character = ')' := by
  cases written with
  | nil gap =>
    intro character member
    cases gap with
    | zero => cases member
    | succ gap => exact Or.inl (Option.some.inj member).symm
  | @cons token rest tail gap later separatedTail =>
    intro character member
    cases gap with
    | succ gap => exact Or.inl (Option.some.inj member).symm
    | zero =>
      rw [List.replicate_zero, List.nil_append] at member separated
      cases isWord : token.isWord with
      | true =>
        obtain ⟨nonempty, characters⟩ := spelled token List.mem_cons_self isWord
        obtain ⟨first, others, shape⟩ := List.exists_cons_of_ne_nil nonempty
        rw [shape] at characters
        have isName := characters first List.mem_cons_self
        rw [separated first (by rw [shape]; rfl)] at isName
        cases isName
      | false =>
        obtain ⟨paren, shape, which⟩ := spelling_of_not_word token isWord
        rw [shape] at member
        rw [← Option.some.inj member]
        exact Or.inr which

/-- Scanning a written text gives the symbols of its tokens. -/
theorem scan_written (tokens : List Token) (text : Text) (written : Written tokens text)
    (spelled : ∀ token ∈ tokens, IsSpelled token)
    (settled : ∀ id, Token.ident id ∈ tokens → id = "True" ∨ id = "False") :
    scan text = some (tokens.map (symbolOf (fun id => decide (id = "True")))) := by
  induction written with
  | nil gap =>
    rw [← List.append_nil (List.replicate gap ' '), scan_gap]
    rfl
  | @cons token rest tail gap later separated inductionHypothesis =>
    obtain ⟨tokenSpelled, restSpelled⟩ := List.forall_mem_cons.mp spelled
    have scanned := inductionHypothesis restSpelled
      (fun id member => settled id (List.mem_cons_of_mem _ member))
    rw [List.append_assoc, scan_gap, List.map_cons]
    cases isWord : token.isWord with
    | true =>
      obtain ⟨nonempty, characters⟩ := tokenSpelled isWord
      have found : symbolOfWord token.spelling =
          some (symbolOf (fun id => decide (id = "True")) token) := by
        cases token with
        | left => cases isWord
        | right => cases isWord
        | andOp => rfl
        | orOp => rfl
        | notOp => rfl
        | ident id => rcases settled id List.mem_cons_self with rfl | rfl <;> rfl
      have pending : pendingSymbols (token.spelling.reverse ++ []) =
          some [symbolOf (fun id => decide (id = "True")) token] := by
        rw [pendingSymbols, List.append_nil, List.reverse_reverse, found, if_neg (by simpa)]
        rfl
      rw [scan, scanFrom_word _ _ _ characters, scanFrom_pending _ _ (head_of_written rest tail later
        restSpelled (separated isWord)), pending, scanned]
      rfl
    | false =>
      cases token with
      | left =>
        change (scan tail).map _ = _
        rw [scanned]
        rfl
      | right =>
        change (scan tail).map _ = _
        rw [scanned]
        rfl
      | andOp => cases isWord
      | orOp => cases isWord
      | notOp => cases isWord
      | ident id => cases isWord

end Scanning

section Reading

variable (truth : String → Bool)

/-- The value of an expression whose names have truth values. -/
def valueOfExpr : MarkerExpr → Bool
  | .name id => truth id
  | .not operand => !valueOfExpr operand
  | .and left right => valueOfExpr left && valueOfExpr right
  | .or left right => valueOfExpr left || valueOfExpr right
  | .paren inner => valueOfExpr inner

/-- The symbols of an expression. -/
def symbolsOf (expr : MarkerExpr) : List Symbol := expr.tokens.map (symbolOf truth)

/-- How the rules of the grammar read an expression, by the strength of its binding:
alone, or in front of the others of a chain. -/
structure ReadsExpr (expr : MarkerExpr) : Prop where
  asInversion : expr.strength = 2 → ∀ rest,
    Reads inversion (3 * (symbolsOf truth expr).length) (symbolsOf truth expr ++ rest)
      (valueOfExpr truth expr) rest
  asConjunction : 1 ≤ expr.strength → ∀ rest, rest.head? ≠ some .andOp →
    Reads conjunction (3 * (symbolsOf truth expr).length + 1) (symbolsOf truth expr ++ rest)
      (valueOfExpr truth expr) rest
  andChain : 1 ≤ expr.strength → ∀ more middle other rest,
    Reads conjunction more middle other rest →
    Reads conjunction (3 * (symbolsOf truth expr).length + more + 1)
      (symbolsOf truth expr ++ .andOp :: middle) (valueOfExpr truth expr && other) rest
  asDisjunction : ∀ rest, rest.head? ≠ some .andOp → rest.head? ≠ some .orOp →
    Reads disjunction (3 * (symbolsOf truth expr).length + 2) (symbolsOf truth expr ++ rest)
      (valueOfExpr truth expr) rest
  orChain : ∀ more middle other rest,
    Reads disjunction more middle other rest →
    Reads disjunction (3 * (symbolsOf truth expr).length + more + 2)
      (symbolsOf truth expr ++ .orOp :: middle) (valueOfExpr truth expr || other) rest

variable {truth}

/-- The rules for disjunctions follow from those for conjunctions. -/
theorem ReadsExpr.ofConjunction {expr : MarkerExpr}
    (alone : expr.strength = 2 → ∀ rest,
      Reads inversion (3 * (symbolsOf truth expr).length) (symbolsOf truth expr ++ rest)
        (valueOfExpr truth expr) rest)
    (single : ∀ rest, rest.head? ≠ some .andOp →
      Reads conjunction (3 * (symbolsOf truth expr).length + 1) (symbolsOf truth expr ++ rest)
        (valueOfExpr truth expr) rest)
    (chain : ∀ more middle other rest, Reads conjunction more middle other rest →
      Reads conjunction (3 * (symbolsOf truth expr).length + more + 1)
        (symbolsOf truth expr ++ .andOp :: middle) (valueOfExpr truth expr && other) rest) :
    ReadsExpr truth expr where
  asInversion := alone
  asConjunction _ := single
  andChain _ := chain
  asDisjunction rest noAnd noOr := reads_single_conjunction (single rest noAnd) noOr
  orChain more middle other rest others :=
    (reads_or (single (.orOp :: middle) (by simp)) others).mono (by omega)

/-- What is read as an inversion is read by all rules. -/
theorem ReadsExpr.ofInversion {expr : MarkerExpr}
    (alone : ∀ rest, Reads inversion (3 * (symbolsOf truth expr).length)
      (symbolsOf truth expr ++ rest) (valueOfExpr truth expr) rest) :
    ReadsExpr truth expr := by
  refine ReadsExpr.ofConjunction (fun _ => alone) ?_ ?_
  · intro rest noAnd
    exact reads_single_inversion (alone rest) noAnd
  · intro more middle other rest others
    exact (reads_and (alone (.andOp :: middle)) others).mono (by omega)

/-- Parentheses make an expression an inversion. -/
theorem ReadsExpr.paren {inner : MarkerExpr} (reads : ReadsExpr truth inner) :
    ReadsExpr truth (.paren inner) := by
  apply ReadsExpr.ofInversion
  intro rest
  have shape : symbolsOf truth (.paren inner) = .left :: (symbolsOf truth inner ++ [.right]) := by
    simp [symbolsOf, MarkerExpr.tokens, symbolOf]
  rw [shape, List.cons_append, List.append_assoc, List.singleton_append]
  refine (reads_paren (reads.asDisjunction (.right :: rest) (by simp) (by simp))).mono ?_
  simp only [List.length_cons, List.length_append, List.length_nil]
  omega

/-- An operand with the parentheses that precedence requires. -/
def guarded (required : Nat) (operand : MarkerExpr) : MarkerExpr :=
  if operand.strength < required then .paren operand else operand

/-- The symbols of an operand in its parentheses. -/
theorem symbolsOf_enclose (truth : String → Bool) (required : Nat) (operand : MarkerExpr) :
    (MarkerExpr.enclose required operand operand.tokens).map (symbolOf truth) =
      symbolsOf truth (guarded required operand) := by
  rw [MarkerExpr.enclose, guarded]
  split <;> rfl

/-- Parentheses do not change the value. -/
theorem valueOfExpr_guarded (truth : String → Bool) (required : Nat) (operand : MarkerExpr) :
    valueOfExpr truth (guarded required operand) = valueOfExpr truth operand := by
  rw [guarded]
  split <;> rfl

/-- A guarded operand binds as strongly as required. -/
theorem strength_guarded (required : Nat) (operand : MarkerExpr) (possible : required ≤ 2) :
    required ≤ (guarded required operand).strength := by
  rw [guarded]
  split
  · exact possible
  · omega

/-- No expression binds more strongly than a name. -/
theorem strength_le (expr : MarkerExpr) : expr.strength ≤ 2 := by
  cases expr <;> simp [MarkerExpr.strength]

/-- A guarded operand is read as the operand is. -/
theorem ReadsExpr.guarded {operand : MarkerExpr} (reads : ReadsExpr truth operand)
    (required : Nat) : ReadsExpr truth (guarded required operand) := by
  rw [Reporter.guarded]
  split
  · exact reads.paren
  · exact reads

/-- The grammar reads every expression with its value. -/
theorem readsExpr (truth : String → Bool) (expr : MarkerExpr) : ReadsExpr truth expr := by
  induction expr with
  | name id =>
    apply ReadsExpr.ofInversion
    intro rest
    exact (reads_value (truth id) rest).mono (show 1 ≤ 3 * 1 by decide)
  | not operand inductionHypothesis =>
    apply ReadsExpr.ofInversion
    intro rest
    have shape : symbolsOf truth (.not operand) =
        .notOp :: symbolsOf truth (guarded 2 operand) := by
      rw [← symbolsOf_enclose]
      rfl
    have strong : (guarded 2 operand).strength = 2 :=
      Nat.le_antisymm (strength_le _) (strength_guarded 2 operand (Nat.le_refl 2))
    have read := reads_not ((inductionHypothesis.guarded 2).asInversion strong rest)
    rw [valueOfExpr_guarded] at read
    rw [shape, List.cons_append]
    refine read.mono ?_
    rw [List.length_cons]
    omega
  | and left right leftHypothesis rightHypothesis =>
    have shape : symbolsOf truth (.and left right) =
        symbolsOf truth (guarded 1 left) ++ .andOp :: symbolsOf truth (guarded 1 right) := by
      rw [← symbolsOf_enclose, ← symbolsOf_enclose]
      simp [symbolsOf, MarkerExpr.tokens, symbolOf]
    have leftStrong := strength_guarded 1 left (by decide)
    have rightStrong := strength_guarded 1 right (by decide)
    have leftReads := leftHypothesis.guarded 1
    have rightReads := rightHypothesis.guarded 1
    apply ReadsExpr.ofConjunction
    · intro weak
      exact absurd weak (by simp [MarkerExpr.strength])
    · intro rest noAnd
      have read := leftReads.andChain leftStrong _ _ _ _
        (rightReads.asConjunction rightStrong rest noAnd)
      rw [valueOfExpr_guarded, valueOfExpr_guarded] at read
      rw [shape, List.append_assoc, List.cons_append]
      refine read.mono ?_
      simp only [List.length_append, List.length_cons]
      omega
    · intro more middle other rest others
      have read := leftReads.andChain leftStrong _ _ _ _
        (rightReads.andChain rightStrong more middle other rest others)
      rw [valueOfExpr_guarded, valueOfExpr_guarded, ← Bool.and_assoc] at read
      rw [shape, List.append_assoc, List.cons_append]
      refine read.mono ?_
      simp only [List.length_append, List.length_cons]
      omega
  | or left right leftHypothesis rightHypothesis =>
    have shape : symbolsOf truth (.or left right) =
        symbolsOf truth left ++ .orOp :: symbolsOf truth right := by
      simp [symbolsOf, MarkerExpr.tokens, symbolOf]
    constructor
    case asInversion => exact fun weak => absurd weak (by simp [MarkerExpr.strength])
    case asConjunction => exact fun weak => absurd weak (by simp [MarkerExpr.strength])
    case andChain => exact fun weak => absurd weak (by simp [MarkerExpr.strength])
    case asDisjunction =>
      intro rest noAnd noOr
      have read := leftHypothesis.orChain _ _ _ _ (rightHypothesis.asDisjunction rest noAnd noOr)
      rw [shape, List.append_assoc, List.cons_append]
      refine read.mono ?_
      simp only [List.length_append, List.length_cons]
      omega
    case orChain =>
      intro more middle other rest others
      have read := leftHypothesis.orChain _ _ _ _
        (rightHypothesis.orChain more middle other rest others)
      rw [← Bool.or_assoc] at read
      rw [shape, List.append_assoc, List.cons_append]
      refine read.mono ?_
      simp only [List.length_append, List.length_cons]
      omega
  | paren inner inductionHypothesis => exact inductionHypothesis.paren

/-- Evaluating the symbols of an expression gives its value. -/
theorem evaluate_symbolsOf (truth : String → Bool) (expr : MarkerExpr) :
    evaluate (symbolsOf truth expr) = some (valueOfExpr truth expr) := by
  apply evaluate_of_reads
  have read := (readsExpr truth expr).asDisjunction [] (by simp) (by simp)
  rwa [List.append_nil] at read

/-- The value of an expression over the truth of its names is whether it holds. -/
theorem valueOfExpr_eq_holds (markers : List String) (expr : MarkerExpr) :
    valueOfExpr (fun id => decide (id ∈ markers)) expr = expr.holds markers := by
  induction expr with
  | name id => rfl
  | not operand inductionHypothesis => rw [valueOfExpr, MarkerExpr.holds, inductionHypothesis]
  | and left right leftHypothesis rightHypothesis =>
    rw [valueOfExpr, MarkerExpr.holds, leftHypothesis, rightHypothesis]
  | or left right leftHypothesis rightHypothesis =>
    rw [valueOfExpr, MarkerExpr.holds, leftHypothesis, rightHypothesis]
  | paren inner inductionHypothesis => rw [valueOfExpr, MarkerExpr.holds, inductionHypothesis]

end Reading

section Filter

/-- The names of the markers of a test, as names of an expression. -/
def DetailMarkers.lowercase (lowering : Lowering) (detail : DetailMarkers) : List String :=
  (detail.names lowering).map String.ofList

/-- A lowered name as a string and as a text. -/
theorem mem_lowercase (lowering : Lowering) (detail : DetailMarkers) (id : String) :
    id ∈ detail.lowercase lowering ↔ id.toList ∈ detail.names lowering := by
  rw [DetailMarkers.lowercase, List.mem_map]
  constructor
  · rintro ⟨name, member, rfl⟩
    rwa [String.toList_ofList]
  · intro member
    exact ⟨id.toList, member, String.ofList_toList⟩

/-- A character of a filter name is a name character in lower case. -/
theorem isFilterName_character (character : Char)
    (allowed : (character.isLower || character.isDigit || character == '_') = true) :
    isNameCharacter character = true ∧ character.isUpper = false := by
  constructor
  · simp only [isNameCharacter, isAlphanum_eq, isAlpha_eq, Bool.or_eq_true] at allowed ⊢
    tauto
  · simp only [Bool.or_eq_true, beq_iff_eq] at allowed
    rcases allowed with (small | digit) | rfl
    · simp only [isLower_eq, isUpper_eq, Bool.and_eq_true, decide_eq_true_eq,
        decide_eq_false_iff_not] at small ⊢
      omega
    · simp only [isDigit_eq, isUpper_eq, Bool.and_eq_true, decide_eq_true_eq,
        decide_eq_false_iff_not] at digit ⊢
      omega
    · decide

/-- What an expression with the names of a filter has for tokens. -/
theorem token_of_filter (expr : MarkerExpr) (names : ∀ id ∈ expr.names, IsFilterName id.toList)
    (token : Token) (member : token ∈ expr.tokens) :
    IsSpelled token ∧ ∀ character ∈ token.spelling, IsAscii character ∧
      character.isUpper = false := by
  cases token with
  | left => exact ⟨fun word => absurd word (by decide), by decide⟩
  | right => exact ⟨fun word => absurd word (by decide), by decide⟩
  | andOp => exact ⟨fun _ => ⟨by decide, by decide⟩, by decide⟩
  | orOp => exact ⟨fun _ => ⟨by decide, by decide⟩, by decide⟩
  | notOp => exact ⟨fun _ => ⟨by decide, by decide⟩, by decide⟩
  | ident id =>
    have name := names id ((expr.ident_mem_tokens id).mp member)
    have isName : ∀ character ∈ id.toList, isNameCharacter character = true ∧
        character.isUpper = false :=
      fun character inside => isFilterName_character character (name.characters character inside)
    obtain ⟨first, rest, shape, -⟩ := name.starts
    refine ⟨fun _ => ⟨?_, fun character inside => (isName character inside).1⟩,
      fun character inside => ⟨?_, (isName character inside).2⟩⟩
    · change id.toList ≠ []
      rw [shape]
      exact List.cons_ne_nil first rest
    · exact (word_of_isNameCharacter ascii character (isName character inside).1).1

/-- The token that stands for a token of the expression once all names have been
replaced. -/
def settledToken (known : Text → Bool) (token : Token) : Token :=
  replaceToken isUnknown "False" (replaceToken known "True" token)

/-- A name is settled to whether it is known. -/
theorem settledToken_ident (known : Text → Bool) (id : String) (name : IsFilterName id.toList) :
    settledToken known (.ident id) = .ident (if known id.toList then "True" else "False") := by
  have trueKept : isUnknown "True".toList = false := by decide
  cases isKnown : known id.toList with
  | true =>
    have replaced : replaceToken known "True" (.ident id) = .ident "True" := by
      simp [replaceToken, Token.isWord, Token.spelling, isKnown]
    rw [settledToken, replaced]
    rfl
  | false =>
    have left : replaceToken known "True" (.ident id) = .ident id := by
      simp [replaceToken, Token.spelling, isKnown]
    have small : ∀ character ∈ id.toList, character.isUpper = false :=
      fun character inside => (isFilterName_character character (name.characters _ inside)).2
    have noKept : id.toList ∉ keptWords := by
      rw [keptWords, List.mem_append]
      rintro (isOperator | isConstant)
      · exact name.noOperator isOperator
      · rcases List.mem_pair.mp isConstant with same | same
        · exact absurd (small 'T' (by rw [same]; decide)) (by decide)
        · exact absurd (small 'F' (by rw [same]; decide)) (by decide)
    obtain ⟨first, rest, shape, starts⟩ := name.starts
    have startsName : isNameStart first = true := by
      rw [Bool.or_eq_true] at starts
      rw [isNameStart, isAlpha_eq, Bool.or_assoc, Bool.or_eq_true, Bool.or_eq_true]
      exact Or.inr starts
    have unknown : isUnknown id.toList = true := by
      rw [isUnknown, decide_eq_true noKept, shape, List.head?_cons, Option.any_some, startsName]
      rfl
    rw [settledToken, left]
    simp [replaceToken, Token.isWord, Token.spelling, unknown]

/-- Symbols of settled tokens: the names of the expression have become constants. -/
theorem symbolOf_settledToken (known : Text → Bool) (truth : String → Bool)
    (noOperator : ∀ word ∈ operators, known word = false) (token : Token)
    (named : ∀ id, token = .ident id → IsFilterName id.toList ∧ truth id = known id.toList) :
    symbolOf (fun id => decide (id = "True")) (settledToken known token) =
      symbolOf truth token := by
  have plain (word : Token) (spelling : word.spelling ∈ operators) :
      settledToken known word = word := by
    have isKept : word.spelling ∈ keptWords := List.mem_append_left _ spelling
    have kept : isUnknown word.spelling = false := by
      rw [isUnknown, decide_eq_false (not_not_intro isKept)]
      rfl
    have stays : replaceToken known "True" word = word := by
      rw [replaceToken, noOperator _ spelling, Bool.and_false, if_neg Bool.false_ne_true]
    rw [settledToken, stays, replaceToken, kept, Bool.and_false, if_neg Bool.false_ne_true]
  cases token with
  | left => rfl
  | right => rfl
  | andOp => rw [plain .andOp (by decide)]; rfl
  | orOp => rw [plain .orOp (by decide)]; rfl
  | notOp => rw [plain .notOp (by decide)]; rfl
  | ident id =>
    obtain ⟨name, agrees⟩ := named id rfl
    rw [settledToken_ident known id name, symbolOf, symbolOf, agrees]
    cases known id.toList <;> rfl

/-- The order of the names does not change which names there are. -/
theorem mem_longestFirst (lowering : Lowering) (order : SetOrder) (detail : DetailMarkers)
    (name : Text) : name ∈ longestFirst lowering order detail ↔ name ∈ detail.names lowering := by
  rw [longestFirst, List.mem_mergeSort, (order.perm _).mem_iff, List.mem_dedup]

/-- A token stays, or it is settled to true or to false. -/
theorem settledToken_cases (known : Text → Bool) (token : Token) :
    settledToken known token = token ∨ settledToken known token = .ident "True" ∨
      settledToken known token = .ident "False" := by
  have one (accepts : Text → Bool) (replacement : String) (before : Token) :
      replaceToken accepts replacement before = before ∨
        replaceToken accepts replacement before = .ident replacement := by
    rw [replaceToken]
    split
    · exact Or.inr rfl
    · exact Or.inl rfl
  rw [settledToken]
  rcases one isUnknown "False" (replaceToken known "True" token) with same | unknown
  · rw [same]
    rcases one known "True" token with untouched | isKnown
    · exact Or.inl untouched
    · exact Or.inr (Or.inl isKnown)
  · exact Or.inr (Or.inr unknown)

/-- Of the settled tokens those with a name are constants. -/
theorem settledToken_constant (known : Text → Bool) (token : Token) (id : String)
    (named : ∀ id, token = .ident id → IsFilterName id.toList)
    (isIdent : settledToken known token = .ident id) : id = "True" ∨ id = "False" := by
  cases token with
  | ident original =>
    rw [settledToken_ident known original (named original rfl)] at isIdent
    cases isKnown : known original.toList with
    | true =>
      rw [isKnown] at isIdent
      exact Or.inl (Token.ident.inj isIdent).symm
    | false =>
      rw [isKnown] at isIdent
      exact Or.inr (Token.ident.inj isIdent).symm
  | left => cases isIdent
  | right => cases isIdent
  | andOp =>
    rcases settledToken_cases known .andOp with same | same | same <;> rw [same] at isIdent <;>
      cases isIdent <;> simp
  | orOp =>
    rcases settledToken_cases known .orOp with same | same | same <;> rw [same] at isIdent <;>
      cases isIdent <;> simp
  | notOp =>
    rcases settledToken_cases known .notOp with same | same | same <;> rw [same] at isIdent <;>
      cases isIdent <;> simp

/-- A character of the written tokens. -/
def IsTokenCharacter (character : Char) : Prop :=
  isNameCharacter character = true ∨ character = ' ' ∨ character = '(' ∨ character = ')'

instance (character : Char) : Decidable (IsTokenCharacter character) :=
  inferInstanceAs (Decidable (_ ∨ _ ∨ _ ∨ _))

/-- A text of spelled tokens has only characters that the tokenizer takes. -/
theorem tokenCharacter_of_written (tokens : List Token) (text : Text) (written : Written tokens text)
    (spelled : ∀ token ∈ tokens, IsSpelled token) :
    ∀ character ∈ text, IsTokenCharacter character := by
  apply forall_of_written IsTokenCharacter tokens text written (Or.inr (Or.inl rfl))
  intro token member character inside
  cases isWord : token.isWord with
  | true => exact Or.inl ((spelled token member isWord).2 _ inside)
  | false =>
    obtain ⟨other, shape, paren⟩ := spelling_of_not_word token isWord
    rw [shape, List.mem_singleton] at inside
    subst inside
    exact Or.inr (Or.inr paren)

/-- A character that is none of the tokens' does not occur among theirs. -/
theorem ne_of_tokenCharacter (other : Char) (foreign : ¬ IsTokenCharacter other) (character : Char)
    (isToken : IsTokenCharacter character) : character ≠ other := by
  rintro rfl
  exact foreign isToken

/-- Characters of tokens are read one by one, on one line. -/
theorem logicalLinesFrom_plain (text line : Text) (depth : Nat)
    (plain : ∀ character ∈ text, IsTokenCharacter character)
    (visible : (line.reverse ++ text).all isBlank = false) :
    logicalLinesFrom line depth .code text = some [line.reverse ++ text] := by
  induction text generalizing line depth with
  | nil =>
    rw [List.append_nil, List.all_reverse] at visible
    rw [logicalLinesFrom, visible, Bool.false_and, if_neg Bool.false_ne_true, List.append_nil]
  | cons character rest inductionHypothesis =>
    obtain ⟨here, others⟩ := List.forall_mem_cons.mp plain
    have moved : (character :: line).reverse ++ rest = line.reverse ++ character :: rest := by
      rw [List.reverse_cons, List.append_assoc, List.singleton_append]
    have goesOn (further : Nat) : logicalLinesFrom (character :: line) further .code rest =
        some [line.reverse ++ character :: rest] := by
      rw [inductionHypothesis _ _ others (by rw [moved]; exact visible), moved]
    rw [logicalLinesFrom, if_neg (ne_of_tokenCharacter '\n' (by decide) character here)]
    · rw [if_neg (ne_of_tokenCharacter '#' (by decide) character here),
        if_neg (ne_of_tokenCharacter '\\' (by decide) character here), goesOn, goesOn, goesOn]
      split
      · rfl
      · split <;> rfl
    · exact fun isComment => by cases isComment
    · exact fun isEnd => by cases isEnd

/-- An expression without symbols has no value. -/
theorem scan_blank (text : Text) (blank : ∀ character ∈ text, isBlank character = true) :
    scan text = some [] := by
  induction text with
  | nil => rfl
  | cons character rest inductionHypothesis =>
    obtain ⟨here, others⟩ := List.forall_mem_cons.mp blank
    have later : scanFrom [] rest = some [] := inductionHypothesis others
    rw [scan, scanFrom, if_pos here, later]
    rfl

/-- Where a text on one line has a value, it is that of the expression. -/
theorem safeEvalBoolExpr_plain (text : Text) (symbols : List Symbol) (value : Bool)
    (plain : ∀ character ∈ text, IsTokenCharacter character) (noIndent : text.head? ≠ some ' ')
    (scanned : scan text = some symbols) (valued : evaluate symbols = some value) :
    safeEvalBoolExpr text = some value := by
  have absent (other : Char) (foreign : ¬ IsTokenCharacter other) : other ∉ text :=
    fun inside => foreign (plain other inside)
  have visible : text.all isBlank = false := by
    refine Bool.eq_false_iff.mpr fun blank => ?_
    rw [scan_blank text (List.all_eq_true.mp blank), Option.some.injEq] at scanned
    subst scanned
    cases valued
  have line : logicalLine text = some text := by
    rw [logicalLine, if_neg (absent '\x00' (by decide)),
      universalNewlines_of_not_mem text (absent '\r' (by decide)),
      logicalLinesFrom_plain text [] 0 plain visible, Option.bind_some, List.reverse_nil,
      List.nil_append, List.filter_cons_of_pos (by rw [visible]; rfl), List.filter_nil]
  have margin : isIndented text = false := by
    cases text with
    | nil => rfl
    | cons character rest =>
      have here := plain character List.mem_cons_self
      rw [isIndented, isIndentedFrom, if_neg, if_neg, if_neg]
      · exact ne_of_tokenCharacter '\\' (by decide) character here
      · exact ne_of_tokenCharacter '\x0c' (by decide) character here
      · rintro (space | tab)
        · exact noIndent (congrArg some space)
        · exact ne_of_tokenCharacter '\t' (by decide) character here tab
  rw [safeEvalBoolExpr, line, Option.bind_some, if_neg (by rw [margin]; exact Bool.false_ne_true),
    scanned, Option.bind_some, valued]

/-- The filter has the boolean meaning of its expression, in which a name is true
exactly if a marker of the test has it in lower case. -/
theorem matches_marker_filter_eq (unicode : Unicode) (lowering : Lowering) (order : SetOrder)
    (detail : DetailMarkers)
    (identifiers : ∀ marker ∈ detail.all, IsIdentifier (DetailMarkers.bareName marker))
    (expr : MarkerExpr) (names : ∀ id ∈ expr.names, IsFilterName id.toList)
    (markerFilter : Text) (written : Written expr.tokens markerFilter)
    (noIndent : markerFilter.head? ≠ some ' ') :
    matchesMarkerFilter unicode lowering order detail markerFilter =
      expr.holds (detail.lowercase lowering) := by
  have tokens := token_of_filter expr names
  have spelled : ∀ token ∈ expr.tokens, IsSpelled token :=
    fun token member => (tokens token member).1
  have lowered : lowering.lower markerFilter = markerFilter :=
    lowering.lower_ascii markerFilter (forall_of_written
      (fun character => IsAscii character ∧ character.isUpper = false) expr.tokens markerFilter
      written (by decide) (fun token member => (tokens token member).2))
  let markers := longestFirst lowering order detail
  let known : Text → Bool := fun word => decide (word ∈ markers ∧ word ∉ operators)
  have markerNames : ∀ marker ∈ markers, IsIdentifier marker ∧
      ∀ character ∈ marker, character.isUpper = false := by
    intro marker member
    obtain ⟨original, inside, rfl⟩ := List.mem_map.mp
      ((mem_longestFirst lowering order detail marker).mp member)
    exact lowering.lower_identifier _ (identifiers original inside)
  -- After both kinds of substitution the text is written from constants and operators.
  obtain ⟨writtenKnown, flushKnown⟩ :=
    written_substituteMarkers unicode markers markerNames expr.tokens markerFilter written spelled
  have knownSpelled : ∀ token ∈ expr.tokens.map (replaceToken known "True"), IsSpelled token := by
    intro token member
    obtain ⟨original, inside, rfl⟩ := List.mem_map.mp member
    exact isSpelled_replaceToken _ _ original (spelled original inside)
      (fun _ => ⟨by decide, by decide⟩)
  obtain ⟨writtenAll, -, flushAll⟩ := substitute_written (unknownName_wordwise unicode) "False" _ _
    writtenKnown knownSpelled (fun _ => ⟨by decide, by decide⟩) none
    (fun side => absurd side Bool.false_ne_true)
  have settledTokens : (expr.tokens.map (replaceToken known "True")).map
      (replaceToken isUnknown "False") = expr.tokens.map (settledToken known) :=
    List.map_map
  rw [settledTokens] at writtenAll
  have settledSpelled : ∀ token ∈ expr.tokens.map (settledToken known), IsSpelled token := by
    rw [← settledTokens]
    intro token member
    obtain ⟨original, inside, rfl⟩ := List.mem_map.mp member
    exact isSpelled_replaceToken _ _ original (knownSpelled original inside)
      (fun _ => ⟨by decide, by decide⟩)
  have named : ∀ id, Token.ident id ∈ expr.tokens → IsFilterName id.toList :=
    fun id member => names id ((expr.ident_mem_tokens id).mp member)
  have scanned := scan_written _ _ writtenAll settledSpelled (by
    intro id member
    obtain ⟨original, inside, same⟩ := List.mem_map.mp member
    exact settledToken_constant known original id
      (fun other shape => named other (shape ▸ inside)) same)
  let truth : String → Bool := fun id => decide (id ∈ detail.lowercase lowering)
  have symbols : (expr.tokens.map (settledToken known)).map
      (symbolOf (fun id => decide (id = "True"))) = symbolsOf truth expr := by
    rw [symbolsOf, List.map_map]
    apply List.map_congr_left
    intro token member
    apply symbolOf_settledToken known truth
    · exact fun word isOperator => decide_eq_false (fun both => both.2 isOperator)
    · rintro id rfl
      have name := named id member
      refine ⟨name, ?_⟩
      rw [decide_eq_decide, mem_lowercase, ← mem_longestFirst lowering order detail]
      exact (and_iff_left name.noOperator).symm
  have evaluated : safeEvalBoolExpr (substituteNames unicode lowering order detail markerFilter) =
      some (valueOfExpr truth expr) := by
    rw [substituteNames, lowered]
    exact safeEvalBoolExpr_plain _ _ _ (tokenCharacter_of_written _ _ writtenAll settledSpelled)
      (flushAll (flushKnown noIndent)) scanned
      ((congrArg evaluate symbols).trans (evaluate_symbolsOf truth expr))
  rw [matchesMarkerFilter, evaluated, Option.getD_some, valueOfExpr_eq_holds]

/-- Lower case on ASCII texts. -/
def asciiLowering : Lowering where
  lower text := text.map Char.toLower
  lower_ascii text plain := by
    refine (List.map_congr_left ?_).trans (List.map_id text)
    intro character member
    exact toLower_of_not_isUpper character (plain character member).2
  lower_identifier name identifier := by
    have lowered : ∀ character ∈ name,
        (IsAscii character.toLower → isNameCharacter character.toLower = true) ∧
          character.toLower.isUpper = false := by
      intro character member
      cases capital : character.isUpper with
      | true =>
        have small := isLower_toLower character capital
        have allowed := isFilterName_character character.toLower (by rw [small]; rfl)
        exact ⟨fun _ => allowed.1, allowed.2⟩
      | false =>
        rw [toLower_of_not_isUpper character capital]
        exact ⟨identifier.2 character member, capital⟩
    refine ⟨⟨by simpa using identifier.1, ?_⟩, ?_⟩
    · intro character member
      obtain ⟨original, inside, rfl⟩ := List.mem_map.mp member
      exact (lowered original inside).1
    · intro character member
      obtain ⟨original, inside, rfl⟩ := List.mem_map.mp member
      exact (lowered original inside).2

/-- Iteration in the order of the last occurrences. -/
def dedupOrder : SetOrder where
  listing names := names.dedup
  perm _ := List.Perm.refl _

/-- A test with the markers `Smoke` and `tier3("x")`. -/
def sampleMarkers : DetailMarkers where
  moduleMarkers := ["Smoke".toList]
  classMarkers := []
  testMarkers := ["tier3(\"x\")".toList]

/-- `smoke and not tier3`. -/
def sampleExpr : MarkerExpr := .and (.name "smoke") (.not (.name "tier3"))

/-- The sample filter is a way to write its expression. -/
theorem sample_written : Written sampleExpr.tokens "smoke and not tier3".toList := by
  have apart (rest : Text) : ∀ character ∈ (' ' :: rest).head?, isNameCharacter character = false := by
    rintro character ⟨⟩
    decide
  have ending : ∀ character ∈ ([] : Text).head?, isNameCharacter character = false := by
    rintro character ⟨⟩
  exact @Written.cons (.ident "smoke") _ _ 0
    (@Written.cons .andOp _ _ 1
      (@Written.cons .notOp _ _ 1
        (@Written.cons (.ident "tier3") _ _ 1 (Written.nil 0) fun _ => ending) fun _ => apart _)
      fun _ => apart _) fun _ => apart _

/-- The sample filter, by the general theorem. -/
theorem sample_filter_eq :
    matchesMarkerFilter ascii asciiLowering dedupOrder sampleMarkers
        "smoke and not tier3".toList =
      sampleExpr.holds (sampleMarkers.lowercase asciiLowering) :=
  matches_marker_filter_eq ascii asciiLowering dedupOrder sampleMarkers
    (by
      have bare : ∀ marker ∈ sampleMarkers.all, DetailMarkers.bareName marker ≠ [] ∧
          ∀ character ∈ DetailMarkers.bareName marker, isNameCharacter character = true := by
        decide
      exact fun marker member => ⟨(bare marker member).1,
        fun character inside _ => (bare marker member).2 character inside⟩)
    sampleExpr
    (by
      intro id member
      simp only [sampleExpr, MarkerExpr.names, List.cons_append, List.nil_append, List.mem_cons,
        List.not_mem_nil, or_false] at member
      rcases member with rfl | rfl
      · exact ⟨⟨'s', "moke".toList, rfl, by decide⟩, by decide, by decide⟩
      · exact ⟨⟨'t', "ier3".toList, rfl, by decide⟩, by decide, by decide⟩)
    _ sample_written (by decide)

end Filter

end VirtTestTools.Reporter
