import VirtTestTools.Joins

/-!
# Numerals

Decimal numerals as `int` reads them and `\d` matches them. Which characters are digits is
given by the Unicode database; the digits of ASCII are among them, and no digit is white
space.
-/

namespace VirtTestTools.Text

/-- The decimal digits with their values. -/
structure Digits where
  value : Char → Option Nat
  ascii : ∀ character : Char, character.toNat < 128 →
    value character = if character.isDigit then some (character.toNat - 48) else none
  space : ∀ character, isSpace character = true → value character = none

/-- White space is no digit of ASCII. -/
theorem isDigit_of_isSpace (character : Char) (space : isSpace character = true) :
    (if character.isDigit then some (character.toNat - 48) else none) = none := by
  rw [if_neg]
  intro digit
  simp only [isDigit_eq, Bool.and_eq_true, decide_eq_true_eq] at digit
  simp only [isSpace, Bool.or_eq_true, Bool.and_eq_true, decide_eq_true_eq, beq_iff_eq] at space
  omega

/-- The digits of ASCII alone. -/
def Digits.basic : Digits where
  value character := if character.isDigit then some (character.toNat - 48) else none
  ascii _ _ := rfl
  space := isDigit_of_isSpace

namespace Digits

variable (digits : Digits)

/-- The class `\d`. -/
def isDigit (character : Char) : Bool := (digits.value character).isSome

/-- The value of digits behind those that are read already. -/
def numeralFrom : Nat → Text → Option Nat
  | value, [] => some value
  | value, character :: rest =>
    (digits.value character).bind fun digit => numeralFrom (10 * value + digit) rest

/-- The value of a text of digits. -/
def numeral (text : Text) : Option Nat := if text = [] then none else digits.numeralFrom 0 text

/-- `int(text)` behind the sign: digits with single underscores between them. -/
def unsigned (text : Text) : Option Nat :=
  if (split ['_'] text).all fun piece => (digits.numeral piece).isSome then
    digits.numeral (split ['_'] text).flatten
  else none

/-- `int(text)`; `none` is a `ValueError`. -/
def parseInt (text : Text) : Option Int :=
  match strip text with
  | '-' :: rest => (digits.unsigned rest).map fun value => -(value : Int)
  | '+' :: rest => (digits.unsigned rest).map Int.ofNat
  | other => (digits.unsigned other).map Int.ofNat

/-- A text is read as a numeral exactly when it has digits only. -/
theorem numeralFrom_isSome (value : Nat) (text : Text) :
    (digits.numeralFrom value text).isSome = text.all digits.isDigit := by
  induction text generalizing value with
  | nil => rfl
  | cons character rest inductionHypothesis =>
    rw [numeralFrom, List.all_cons, isDigit]
    cases digits.value character with
    | none => rfl
    | some digit => exact (inductionHypothesis _).trans (Bool.true_and _).symm

/-- A numeral is a text of digits that is not empty. -/
theorem numeral_isSome_iff (text : Text) :
    (digits.numeral text).isSome = true ↔
      text ≠ [] ∧ ∀ character ∈ text, digits.isDigit character := by
  rw [numeral]
  split
  · rename_i empty
    simp [empty]
  · rename_i some
    rw [numeralFrom_isSome, List.all_eq_true]
    exact (and_iff_right some).symm

/-- No other character of ASCII is a digit. -/
theorem isDigit_eq_false (character : Char) (basic : character.toNat < 128)
    (other : character.isDigit = false) : digits.isDigit character = false := by
  rw [isDigit, digits.ascii character basic, if_neg (by simp [other])]
  rfl

/-- Digits are not stripped. -/
theorem strip_of_digits (text : Text) (all : ∀ character ∈ text, digits.isDigit character = true) :
    strip text = text := by
  have kept (part : Text) (inside : ∀ character ∈ part, digits.isDigit character = true) :
      lstrip part = part := by
    cases part with
    | nil => rfl
    | cons character rest =>
      have digit := inside character List.mem_cons_self
      rw [lstrip, List.dropWhile_cons_of_neg]
      intro space
      rw [isDigit, digits.space character space] at digit
      cases digit
  rw [strip, kept text all, kept, List.reverse_reverse]
  exact fun character inside => all character (List.mem_reverse.mp inside)

/-- Digits without a sign are the numeral. -/
theorem unsigned_of_digits (text : Text)
    (all : ∀ character ∈ text, digits.isDigit character = true) :
    digits.unsigned text = digits.numeral text := by
  have whole : split ['_'] text = [text] := by
    apply split_absent
    rw [Bool.eq_false_iff, ne_eq, contains_iff]
    rintro ⟨before, after, rfl⟩
    have digit := all '_' (by simp)
    rw [digits.isDigit_eq_false '_' (by decide) (by decide)] at digit
    cases digit
  rw [unsigned, whole]
  simp only [List.all_cons, List.all_nil, Bool.and_true, List.flatten_cons, List.flatten_nil,
    List.append_nil]
  split
  · rfl
  · rename_i none
    rw [Bool.not_eq_true, Option.isSome_eq_false_iff, Option.isNone_iff_eq_none] at none
    exact none.symm

/-- `int` of a text of digits is its value. -/
theorem parseInt_of_numeral (text : Text) (value : Nat) (read : digits.numeral text = some value) :
    digits.parseInt text = some (value : Int) := by
  obtain ⟨-, all⟩ :=
    (digits.numeral_isSome_iff text).mp (Option.isSome_iff_exists.mpr ⟨value, read⟩)
  have plain := digits.unsigned_of_digits text all
  rw [read] at plain
  have unsignedHead (sign : Char) (basic : sign.toNat < 128) (other : sign.isDigit = false)
      (rest : Text) (shape : text = sign :: rest) : False := by
    have digit := all sign (by simp [shape])
    rw [digits.isDigit_eq_false sign basic other] at digit
    cases digit
  rw [parseInt, digits.strip_of_digits text all]
  split
  · rename_i rest
    exact (unsignedHead '-' (by decide) (by decide) rest rfl).elim
  · rename_i rest
    exact (unsignedHead '+' (by decide) (by decide) rest rfl).elim
  · rw [plain]
    rfl

end Digits

end VirtTestTools.Text
