import Mathlib.Data.List.Basic

/-!
# Text as finite sequences of characters

Python strings are sequences of code points. The operations below are the ones
the verified tools apply to them: prefix tests, splitting at a separator,
splitting into lines and trimming white space. Each is a structural recursion,
so that a concrete text evaluates.

White space and line boundaries are the finite tables of the language
reference. The word and upper-case classes of a regular expression range over
the whole Unicode database; they are a parameter `Unicode`, and no result
depends on their extent unless it says so.
-/

namespace VirtTestTools

/-- A text is the list of its code points. -/
abbrev Text := List Char

namespace Text

/-- White space as `str.isspace` and the `\s` class define it. -/
def isSpace (character : Char) : Bool :=
  let code := character.toNat
  (9 ≤ code && code ≤ 13) || (28 ≤ code && code ≤ 32) || code == 0x85 || code == 0xA0 ||
    code == 0x1680 || (0x2000 ≤ code && code ≤ 0x200A) || code == 0x2028 || code == 0x2029 ||
    code == 0x202F || code == 0x205F || code == 0x3000

/-- Membership in lists of texts is decided with this instance in every module. -/
instance lawfulBEq : LawfulBEq Text := inferInstance

/-! ## Letters of ASCII -/

/-- Capitals of ASCII by their codes. -/
theorem isUpper_eq (character : Char) :
    character.isUpper = decide (65 ≤ character.toNat ∧ character.toNat ≤ 90) := rfl

/-- Small letters of ASCII by their codes. -/
theorem isLower_eq (character : Char) :
    character.isLower = (decide (97 ≤ character.toNat) && decide (character.toNat ≤ 122)) := rfl

/-- Digits of ASCII by their codes. -/
theorem isDigit_eq (character : Char) :
    character.isDigit = (decide (48 ≤ character.toNat) && decide (character.toNat ≤ 57)) := rfl

/-- Letters of ASCII are capitals or small. -/
theorem isAlpha_eq (character : Char) :
    character.isAlpha = (character.isUpper || character.isLower) := rfl

/-- Letters or digits of ASCII. -/
theorem isAlphanum_eq (character : Char) :
    character.isAlphanum = (character.isAlpha || character.isDigit) := rfl

/-- A character that is no ASCII capital is its own lower case. -/
theorem toLower_of_not_isUpper (character : Char) (other : character.isUpper = false) :
    character.toLower = character :=
  dif_neg (of_decide_eq_false other)

/-- A small letter is 32 codes behind its capital. -/
theorem toNat_toLower (character : Char) (capital : character.isUpper = true) :
    character.toLower.toNat = character.toNat + 32 := by
  have bounds : 65 ≤ character.toNat ∧ character.toNat ≤ 90 := of_decide_eq_true capital
  have reduced : character.toLower = _ := dif_pos (of_decide_eq_true capital)
  rw [reduced]
  change (character.val + _).toNat = _
  rw [UInt32.toNat_add]
  change (character.toNat + 32) % _ = _
  omega

/-- The small letter of a capital is one. -/
theorem isLower_toLower (character : Char) (capital : character.isUpper = true) :
    character.toLower.isLower = true := by
  have bounds : 65 ≤ character.toNat ∧ character.toNat ≤ 90 := of_decide_eq_true capital
  rw [isLower_eq, toNat_toLower character capital, Bool.and_eq_true_iff]
  exact ⟨decide_eq_true (by omega), decide_eq_true (by omega)⟩

/-- A character that is no small ASCII letter is its own upper case. -/
theorem toUpper_of_not_isLower (character : Char) (other : character.isLower = false) :
    character.toUpper = character := by
  refine dif_neg fun both => ?_
  have small : character.isLower = true :=
    Bool.and_eq_true_iff.mpr ⟨decide_eq_true both.1, decide_eq_true both.2⟩
  rw [other] at small
  cases small

/-- A capital is 32 codes before its small letter. -/
theorem toNat_toUpper (character : Char) (small : character.isLower = true) :
    character.toUpper.toNat + 32 = character.toNat := by
  rw [isLower_eq, Bool.and_eq_true_iff] at small
  have bounds : 97 ≤ character.toNat ∧ character.toNat ≤ 122 :=
    small.imp of_decide_eq_true of_decide_eq_true
  have raised : character.toUpper = _ := dif_pos bounds
  rw [raised]
  change (character.val + _).toNat + 32 = _
  rw [UInt32.toNat_add]
  change (character.toNat + 4294967264) % 4294967296 + 32 = _
  omega

/-! ## Character classes -/

/-- The two open-ended Unicode classes: the `\w` class of a regular expression
and the characters for which `str.isupper` holds. White space is never a word
character, and on ASCII the word characters are letters, digits and the
underscore. -/
structure Unicode where
  word : Char → Bool
  upper : Char → Bool
  word_space : ∀ character, isSpace character = true → word character = false
  word_ascii : ∀ character : Char, character.toNat < 128 →
    word character = (character.isAlphanum || character == '_')

/-- The word characters of ASCII lie between the digit zero and the letter z. -/
theorem asciiWord_bounds (character : Char)
    (word : (character.isAlphanum || character == '_') = true) :
    48 ≤ character.toNat ∧ character.toNat ≤ 122 := by
  simp only [isAlphanum_eq, isAlpha_eq, isUpper_eq, isLower_eq, isDigit_eq, Bool.or_eq_true,
    Bool.and_eq_true, decide_eq_true_eq, beq_iff_eq] at word
  rcases word with (((bounds | bounds) | bounds) | rfl)
  · exact ⟨Nat.le_trans (by decide) bounds.1, Nat.le_trans bounds.2 (by decide)⟩
  · exact ⟨Nat.le_trans (by decide) bounds.1, Nat.le_trans bounds.2 (by decide)⟩
  · exact ⟨Nat.le_trans (by decide) bounds.1, Nat.le_trans bounds.2 (by decide)⟩
  · decide

/-- The classes restricted to ASCII, which is what both agree with there. -/
def ascii : Unicode where
  word character := character.isAlphanum || character == '_'
  upper character := character.isUpper
  word_space := by
    intro character space
    refine Bool.eq_false_iff.mpr fun word => ?_
    have bounds := asciiWord_bounds character word
    simp only [isSpace, Bool.or_eq_true, Bool.and_eq_true, decide_eq_true_eq, beq_iff_eq] at space
    omega
  word_ascii _ _ := rfl

/-- `str.startswith` with one prefix. -/
def startsWith (opening text : Text) : Bool := opening.isPrefixOf text

/-- A text starts with its opening. -/
theorem startsWith_append (opening rest : Text) : startsWith opening (opening ++ rest) = true := by
  simp [startsWith, List.isPrefixOf_iff_prefix]

/-- Whether a text starts with one character. -/
theorem startsWith_singleton (expected first : Char) (rest : Text) :
    startsWith [expected] (first :: rest) = (expected == first) := by
  simp [startsWith, List.isPrefixOf]

/-- A text with another first character does not start so. -/
theorem startsWith_cons_of_ne (expected first : Char) (opening rest : Text)
    (different : expected ≠ first) : startsWith (expected :: opening) (first :: rest) = false := by
  simp [startsWith, List.isPrefixOf, different]

/-- `str.endswith` with one suffix. -/
def endsWith (ending text : Text) : Bool := ending.isSuffixOf text

/-- `str.startswith` with a tuple of prefixes. -/
def startsWithAny (openings : List Text) (text : Text) : Bool :=
  openings.any (startsWith · text)

/-- The text after a literal. -/
def literal (expected text : Text) : Option Text :=
  if startsWith expected text then some (text.drop expected.length) else none

/-- Whether a character matches an ASCII character of a pattern compiled with
`re.IGNORECASE`. Besides the two ASCII cases of a letter these are the dotted
capital and the dotless small I, the long s and the Kelvin sign. -/
def matchesIgnoringCase (expected character : Char) : Bool :=
  let lower := expected.toLower
  decide (character.toLower = lower) ||
    decide (lower = 'i' ∧ (character.toNat = 0x130 ∨ character.toNat = 0x131)) ||
    decide (lower = 's' ∧ character.toNat = 0x17F) ||
    decide (lower = 'k' ∧ character.toNat = 0x212A)

/-- The text after a literal, without regard to case. -/
def literalIgnoringCase : Text → Text → Option Text
  | [], text => some text
  | _ :: _, [] => none
  | expected :: pattern, character :: rest =>
    if matchesIgnoringCase expected character then literalIgnoringCase pattern rest else none

/-- `str.split()`: the pieces between runs of white space. -/
def fields (text : Text) : List Text := (text.splitOnP isSpace).filter (· ≠ [])

/-- A literal that is there is taken off. -/
theorem literal_append (expected text : Text) : literal expected (expected ++ text) = some text := by
  simp [literal, startsWith_append]

/-- A character that ends a line for `str.splitlines`. -/
def isLineBreak (character : Char) : Bool :=
  let code := character.toNat
  (10 ≤ code && code ≤ 13) || (28 ≤ code && code ≤ 30) || code == 0x85 || code == 0x2028 ||
    code == 0x2029

/-- `str.lstrip`. -/
def lstrip (text : Text) : Text := text.dropWhile isSpace

/-- `str.strip`. -/
def strip (text : Text) : Text := (lstrip (lstrip text).reverse).reverse

/-- The worker of `splitlines`: the pending line is kept in reverse. A carriage
return followed by a line feed is one boundary. -/
def splitlinesFrom (pending : Text) : Text → List Text
  | [] => if pending.isEmpty then [] else [pending.reverse]
  | '\r' :: '\n' :: rest => pending.reverse :: splitlinesFrom [] rest
  | character :: rest =>
    if isLineBreak character then pending.reverse :: splitlinesFrom [] rest
    else splitlinesFrom (character :: pending) rest

/-- `str.splitlines`: no empty line is reported after a final boundary. -/
def splitlines (text : Text) : List Text := splitlinesFrom [] text

/-- The worker of `universalNewlines`. `returned` says that the character read last is a
carriage return. -/
def universalNewlinesFrom (returned : Bool) : Text → Text
  | [] => []
  | character :: rest =>
    if character = '\r' then '\n' :: universalNewlinesFrom true rest
    else if character = '\n' ∧ returned = true then universalNewlinesFrom false rest
    else character :: universalNewlinesFrom false rest

/-- What is read in text mode: a carriage return ends a line, with or without a line
feed behind it, and is read as a line feed. -/
def universalNewlines (text : Text) : Text := universalNewlinesFrom false text

/-- A text without carriage returns is read as it is. -/
theorem universalNewlines_of_not_mem (text : Text) (absent : '\r' ∉ text) :
    universalNewlines text = text := by
  rw [universalNewlines]
  induction text with
  | nil => rfl
  | cons character rest inductionHypothesis =>
    rw [List.mem_cons, not_or] at absent
    rw [universalNewlinesFrom, if_neg (Ne.symm absent.1), if_neg (fun both => by cases both.2),
      inductionHypothesis absent.2]

/-- The text with the given lines, each ended by a line feed. -/
def joinLines (lines : List Text) : Text := lines.flatMap (· ++ ['\n'])

/-- Lines with their ends. -/
def unlines (lines : List String) : Text := joinLines (lines.map String.toList)

/-- The worker of `split`. `skip` counts the characters of an already matched
separator that are still to be passed over. -/
def splitFrom (separator : Text) : Nat → Text → Text → List Text
  | _, pending, [] => [pending.reverse]
  | skip + 1, pending, _ :: rest => splitFrom separator skip pending rest
  | 0, pending, character :: rest =>
    if separator.isPrefixOf (character :: rest) then
      pending.reverse :: splitFrom separator (separator.length - 1) [] rest
    else splitFrom separator 0 (character :: pending) rest

/-- `str.split` with a nonempty separator: occurrences are found from the left
and do not overlap. -/
def split (separator text : Text) : List Text := splitFrom separator 0 [] text

/-- Whether a nonempty separator occurs: `separator in text`. -/
def contains (piece : Text) : Text → Bool
  | [] => piece.isEmpty
  | character :: rest => piece.isPrefixOf (character :: rest) || contains piece rest

/-- A natural number read from its decimal digits, most significant first. -/
def decimalValue (digits : Text) : Nat :=
  digits.foldl (fun value digit => 10 * value + (digit.toNat - '0'.toNat)) 0

/-- The decimal numeral of a natural number. -/
def decimal (number : Nat) : Text := Nat.toDigits 10 number

/-- A decimal is read back as its number. -/
theorem decimalValue_decimal (number : Nat) : decimalValue (decimal number) = number :=
  Nat.ofDigitChars_ten_toDigits

/-- A decimal has digits only. -/
theorem isDigit_of_mem_decimal (number : Nat) (digit : Char) (member : digit ∈ decimal number) :
    digit.isDigit = true :=
  Nat.isDigit_of_mem_toDigits (by decide) (by decide) member

/-- A decimal is not empty. -/
theorem decimal_ne_nil (number : Nat) : decimal number ≠ [] := Nat.toDigits_ne_nil

/-- A text that neither begins nor ends with white space loses its indentation only. -/
theorem strip_indented (indent core : Text) (blank : ∀ character ∈ indent, isSpace character = true)
    (first : ∀ character ∈ core.head?, isSpace character = false)
    (last : ∀ character ∈ core.getLast?, isSpace character = false) :
    strip (indent ++ core) = core := by
  have untouched (text : Text) (opening : ∀ character ∈ text.head?, isSpace character = false) :
      lstrip text = text := by
    cases text with
    | nil => rfl
    | cons character rest => simp [lstrip, opening character (by simp)]
  have left : lstrip (indent ++ core) = core := by
    rw [lstrip, List.dropWhile_append_of_pos blank]
    exact untouched core first
  rw [strip, left, untouched core.reverse (by rwa [List.head?_reverse]), List.reverse_reverse]

/-- Words of a text, in order: the maximal runs of word characters, which are
the matches of `\b\w+\b`. -/
def wordsFrom (unicode : Unicode) (pending : Text) : Text → List Text
  | [] => if pending.isEmpty then [] else [pending.reverse]
  | character :: rest =>
    if unicode.word character then wordsFrom unicode (character :: pending) rest
    else if pending.isEmpty then wordsFrom unicode [] rest
    else pending.reverse :: wordsFrom unicode [] rest

/-- `re.findall` of `\b\w+\b`. -/
def words (unicode : Unicode) (text : Text) : List Text := wordsFrom unicode [] text

/-- A separator is found exactly when the text can be cut around it. -/
theorem contains_iff (piece text : Text) :
    contains piece text = true ↔ ∃ left right, text = left ++ piece ++ right := by
  induction text with
  | nil =>
    simp only [contains, List.isEmpty_iff]
    constructor
    · intro empty
      exact ⟨[], [], by simp [empty]⟩
    · rintro ⟨left, right, shape⟩
      simp only [List.append_assoc, List.nil_eq, List.append_eq_nil_iff] at shape
      exact shape.2.1
  | cons character rest inductionHypothesis =>
    simp only [contains, Bool.or_eq_true, List.isPrefixOf_iff_prefix, inductionHypothesis]
    constructor
    · rintro (⟨right, here⟩ | ⟨left, right, later⟩)
      · exact ⟨[], right, by simp [here]⟩
      · exact ⟨character :: left, right, by simp [later]⟩
    · rintro ⟨left, right, shape⟩
      cases left with
      | nil => exact Or.inl ⟨right, by simpa using shape.symm⟩
      | cons first left =>
        simp only [List.cons_append, List.cons.injEq] at shape
        exact Or.inr ⟨left, right, shape.2⟩

/-- Without an occurrence of the separator the text is its own only piece. -/
theorem splitFrom_absent (separator pending text : Text)
    (absent : contains separator text = false) :
    splitFrom separator 0 pending text = [pending.reverse ++ text] := by
  induction text generalizing pending with
  | nil => simp [splitFrom]
  | cons character rest inductionHypothesis =>
    simp only [contains, Bool.or_eq_false_iff] at absent
    simp only [splitFrom, absent.1, Bool.false_eq_true, ↓reduceIte]
    rw [inductionHypothesis (character :: pending) absent.2]
    simp

/-- Without its separator a text is one piece. -/
theorem split_absent (separator text : Text) (absent : contains separator text = false) :
    split separator text = [text] := by
  simpa [split] using splitFrom_absent separator [] text absent

/-- A split gives some piece. -/
theorem splitFrom_ne_nil (separator : Text) (skip : Nat) (pending text : Text) :
    splitFrom separator skip pending text ≠ [] := by
  induction text generalizing skip pending with
  | nil => cases skip <;> simp [splitFrom]
  | cons character rest inductionHypothesis =>
    cases skip with
    | zero =>
      simp only [splitFrom]
      split
      · simp
      · exact inductionHypothesis 0 _
    | succ skip => exact inductionHypothesis skip pending

/-- Passing over a matched separator only drops its characters. -/
theorem splitFrom_skip (separator : Text) (skip : Nat) (pending text : Text) :
    splitFrom separator skip pending text = splitFrom separator 0 pending (text.drop skip) := by
  induction skip generalizing text with
  | zero => rfl
  | succ skip inductionHypothesis =>
    cases text with
    | nil => simp [splitFrom]
    | cons character rest => simpa [splitFrom] using inductionHypothesis rest

/-- Text before the first occurrence of the separator is a piece of its own.
The premise says that no occurrence begins inside that text. -/
theorem splitFrom_first (separator pending left rest : Text) (nonempty : separator ≠ [])
    (earliest : ∀ tail, tail ≠ [] → tail <:+ left →
      separator.isPrefixOf (tail ++ separator ++ rest) = false) :
    splitFrom separator 0 pending (left ++ separator ++ rest) =
      (pending.reverse ++ left) :: splitFrom separator 0 [] rest := by
  induction left generalizing pending with
  | nil =>
    obtain ⟨character, separator, rfl⟩ := List.exists_cons_of_ne_nil nonempty
    have matched : (character :: separator).isPrefixOf (character :: (separator ++ rest)) = true := by
      rw [List.isPrefixOf_iff_prefix]
      exact ⟨rest, by simp⟩
    simp only [List.nil_append, List.cons_append, splitFrom, matched, ↓reduceIte,
      List.length_cons, Nat.add_one_sub_one, List.append_nil]
    rw [splitFrom_skip, List.drop_left]
  | cons first left inductionHypothesis =>
    have unmatched := earliest (first :: left) (by simp) List.suffix_rfl
    simp only [List.cons_append] at unmatched ⊢
    simp only [splitFrom, unmatched, Bool.false_eq_true, ↓reduceIte]
    rw [inductionHypothesis (first :: pending) fun tail present later =>
      earliest tail present (later.trans (List.suffix_cons first left))]
    simp

/-- Splitting at a character cuts off a text without it. -/
theorem split_char (character : Char) (left rest : Text) (fresh : character ∉ left) :
    split [character] (left ++ character :: rest) = left :: split [character] rest := by
  have earliest : ∀ tail, tail ≠ [] → tail <:+ left →
      [character].isPrefixOf (tail ++ [character] ++ rest) = false := by
    intro tail present ending
    obtain ⟨first, tail, rfl⟩ := List.exists_cons_of_ne_nil present
    have different : character ≠ first := fun same =>
      fresh (ending.subset (by simp [same]))
    simpa [startsWith] using (startsWith_singleton character first _).trans (by simpa using different)
  simpa [split] using splitFrom_first [character] [] left rest (by simp) earliest

/-- Splitting at a character gives the pieces back that it ends, and an empty
last piece. -/
theorem split_terminated (character : Char) (pieces : List Text)
    (fresh : ∀ piece ∈ pieces, character ∉ piece) :
    split [character] (pieces.flatMap (· ++ [character])) = pieces ++ [[]] := by
  induction pieces with
  | nil => rfl
  | cons piece pieces inductionHypothesis =>
    rw [List.flatMap_cons, List.append_assoc, List.singleton_append,
      split_char character piece _ (fresh piece (by simp)),
      inductionHypothesis fun other member => fresh other (List.mem_cons_of_mem _ member)]
    rfl

/-- A double character cannot be found early when it does not occur in the text
before it extended by one such character. -/
theorem double_earliest (character : Char) (left rest : Text)
    (absent : contains [character, character] (left ++ [character]) = false) (tail : Text)
    (present : tail ≠ []) (ending : tail <:+ left) :
    [character, character].isPrefixOf (tail ++ [character, character] ++ rest) = false := by
  rw [Bool.eq_false_iff, ne_eq, List.isPrefixOf_iff_prefix] at *
  rintro ⟨after, shape⟩
  obtain ⟨before, rfl⟩ := ending
  apply absent
  rw [contains_iff]
  cases tail with
  | nil => exact absurd rfl present
  | cons first tail =>
    cases tail with
    | nil =>
      simp only [List.cons_append, List.nil_append, List.cons.injEq] at shape
      obtain ⟨rfl, -⟩ := shape
      exact ⟨before, [], by simp⟩
    | cons second tail =>
      simp only [List.cons_append, List.nil_append, List.cons.injEq] at shape
      obtain ⟨rfl, rfl, -⟩ := shape
      exact ⟨before, tail ++ [character], by simp⟩

/-- Splitting at a double character cuts off a text that neither contains it
nor ends in the character. -/
theorem split_double (character : Char) (left rest : Text)
    (absent : contains [character, character] (left ++ [character]) = false) :
    split [character, character] (left ++ [character, character] ++ rest) =
      left :: split [character, character] rest := by
  simpa [split] using splitFrom_first [character, character] [] left rest (by simp)
    (double_earliest character left rest absent)

/-- A text without a character has no doubled one after appending it once. -/
theorem contains_double_of_not_mem (character : Char) (left : Text) (fresh : character ∉ left) :
    contains [character, character] (left ++ [character]) = false := by
  rw [Bool.eq_false_iff, ne_eq, contains_iff]
  rintro ⟨before, after, shape⟩
  have counted := congrArg (List.count character) shape
  simp only [List.count_append, List.count_eq_zero_of_not_mem fresh, List.count_cons_self,
    List.count_nil] at counted
  omega

/-- No piece contains the separator. The pending text may not begin an
occurrence that the remaining text would complete. -/
theorem splitFrom_pieces (separator : Text) (nonempty : separator ≠ []) (pending text : Text)
    (early : ∀ tail, tail ≠ [] → tail <:+ pending.reverse →
      separator.isPrefixOf (tail ++ text) = false)
    (piece : Text) (member : piece ∈ splitFrom separator 0 pending text) :
    contains separator piece = false := by
  induction size : text.length using Nat.strongRecOn generalizing pending text with
  | ind size inductionHypothesis =>
    -- An occurrence inside the pending text would already have been found.
    have pendingFree : contains separator pending.reverse = false := by
      rw [Bool.eq_false_iff, ne_eq, contains_iff]
      rintro ⟨before, after, shape⟩
      have found := early (separator ++ after) (by simp [nonempty])
        ⟨before, by rw [shape, List.append_assoc]⟩
      rw [Bool.eq_false_iff, ne_eq, List.isPrefixOf_iff_prefix] at found
      exact found ⟨after ++ text, by simp⟩
    cases text with
    | nil =>
      simp only [splitFrom, List.mem_singleton] at member
      exact member ▸ pendingFree
    | cons character rest =>
      simp only [splitFrom] at member
      split at member
      · rcases List.mem_cons.mp member with rfl | later
        · exact pendingFree
        · rw [splitFrom_skip] at later
          refine inductionHypothesis _ ?_ [] _ ?_ later rfl
          · simp only [List.length_drop, List.length_cons] at size ⊢
            omega
          · intro tail present ending
            simp only [List.reverse_nil, List.suffix_nil] at ending
            exact absurd ending present
      · rename_i unmatched
        refine inductionHypothesis _ ?_ (character :: pending) rest ?_ member rfl
        · simp only [List.length_cons] at size
          omega
        · intro tail present ending
          rw [List.reverse_cons, List.suffix_concat_iff] at ending
          rcases ending with rfl | ⟨shorter, rfl, ending⟩
          · exact absurd rfl present
          · by_cases empty : shorter = []
            · rw [empty]
              exact Bool.eq_false_iff.mpr unmatched
            · simpa using early shorter empty ending

/-- No piece contains the separator. -/
theorem split_pieces (separator text piece : Text) (nonempty : separator ≠ [])
    (member : piece ∈ split separator text) : contains separator piece = false := by
  refine splitFrom_pieces separator nonempty [] text ?_ piece member
  intro tail present ending
  simp only [List.reverse_nil, List.suffix_nil] at ending
  exact absurd ending present

/-- A split gives some piece. -/
theorem split_ne_nil (separator text : Text) : split separator text ≠ [] :=
  splitFrom_ne_nil separator 0 [] text

end Text

end VirtTestTools
