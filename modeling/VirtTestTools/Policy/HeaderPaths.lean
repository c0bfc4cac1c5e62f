import Mathlib.Data.List.TakeWhile
import VirtTestTools.Text

/-!
# Paths in git's diff headers

`check_policy.py` learns from a `diff --git` header which file a section of a
diff belongs to. A path is a byte string; git writes it into the header as it is,
or quoted in the C style when it has special characters. A space is not one of
them. The decoder below is `_git_unquote`, `_git_quoted_token`,
`_git_header_token` and `_diff_header_path`.

The result of the module is what the decoder makes of every header, for every way
to write its two paths: it returns the new path unless a path with a space is
written as it is.
-/

namespace VirtTestTools.Policy

open Text

/-- The exceptions that the modelled functions let through. -/
inductive PolicyError
  | valueError
  | indexError
  | runtimeError
deriving DecidableEq, Repr

/-- A code point of a path: a character, or the surrogate that stands for a byte
which is not valid UTF-8. -/
inductive FsChar
  | char (character : Char)
  | escaped (byte : UInt8)
deriving DecidableEq, Repr

/-- A text of the file system. -/
abbrev FsText := List FsChar

namespace FsText

/-- A text without surrogates. -/
def ofText (text : Text) : FsText := text.map FsChar.char

/-- `str.encode` of a text without surrogates. -/
def utf8 (text : Text) : List UInt8 := text.flatMap String.utf8EncodeChar

/-- The worker of `decode`. `skip` counts the bytes of the last character that
are still to be passed over. -/
def decodeFrom : Nat → List UInt8 → FsText
  | _, [] => []
  | skip + 1, _ :: rest => decodeFrom skip rest
  | 0, byte :: rest =>
    match ByteArray.utf8DecodeChar? (byte :: rest).toByteArray 0 with
    | some character => .char character :: decodeFrom (character.utf8Size - 1) rest
    | none => .escaped byte :: decodeFrom 0 rest

/-- `bytes.decode(encoding="utf-8", errors="surrogateescape")`. -/
def decode (bytes : List UInt8) : FsText := decodeFrom 0 bytes

/-- Skipped bytes are dropped. -/
theorem decodeFrom_skip (skip : Nat) (bytes : List UInt8) :
    decodeFrom skip bytes = decodeFrom 0 (bytes.drop skip) := by
  induction skip generalizing bytes with
  | zero => rfl
  | succ skip inductionHypothesis =>
    cases bytes with
    | nil => simp [decodeFrom]
    | cons byte rest => simpa [decodeFrom] using inductionHypothesis rest

/-- An encoded character is decoded again. -/
theorem decode_utf8EncodeChar (character : Char) (rest : List UInt8) :
    decode (String.utf8EncodeChar character ++ rest) = .char character :: decode rest := by
  have decoded : ByteArray.utf8DecodeChar?
      (String.utf8EncodeChar character ++ rest).toByteArray 0 = some character := by
    rw [List.toByteArray_append]
    exact ByteArray.utf8DecodeChar?_utf8EncodeChar_append
  have size := String.length_utf8EncodeChar character
  cases shape : String.utf8EncodeChar character with
  | nil =>
    have positive := character.utf8Size_pos
    rw [shape, List.length_nil] at size
    omega
  | cons first others =>
    rw [shape, List.length_cons] at size
    rw [shape] at decoded
    simp only [List.cons_append] at decoded ⊢
    simp only [decode, decodeFrom, decoded]
    rw [decodeFrom_skip, ← size, Nat.add_one_sub_one, List.drop_left]

/-- The bytes of a text decode to the text. -/
theorem decode_utf8 (text : Text) : decode (utf8 text) = ofText text := by
  induction text with
  | nil => rfl
  | cons character rest inductionHypothesis =>
    simp only [utf8, List.flatMap_cons, ofText, List.map_cons] at inductionHypothesis ⊢
    rw [decode_utf8EncodeChar, inductionHypothesis]

/-- Different texts are different in the file system. -/
theorem ofText_injective : Function.Injective ofText :=
  List.map_injective_iff.mpr fun _ _ same => FsChar.char.inj same

/-- `str.encode(encoding="utf-8", errors="surrogateescape")`. -/
def encode (text : FsText) : List UInt8 :=
  text.flatMap fun
    | .char character => String.utf8EncodeChar character
    | .escaped byte => [byte]

/-- A character is encoded in UTF-8. -/
theorem encode_cons_char (character : Char) (text : FsText) :
    encode (.char character :: text) = String.utf8EncodeChar character ++ encode text := rfl

/-- An escaped byte is encoded as itself. -/
theorem encode_cons_escaped (byte : UInt8) (text : FsText) :
    encode (.escaped byte :: text) = byte :: encode text := rfl

/-- A character is decoded exactly where its bytes stand. -/
theorem utf8DecodeChar?_eq_some_iff (bytes : List UInt8) (character : Char) :
    ByteArray.utf8DecodeChar? bytes.toByteArray 0 = some character ↔
      ∃ rest, bytes = String.utf8EncodeChar character ++ rest := by
  constructor
  · intro decoded
    obtain ⟨rest, shape⟩ := ByteArray.exists_of_utf8DecodeChar?_eq_some decoded
    refine ⟨rest.data.toList, ?_⟩
    have data := congrArg (fun bytes => bytes.data.toList) shape
    simpa using data
  · rintro ⟨rest, rfl⟩
    rw [List.toByteArray_append]
    exact ByteArray.utf8DecodeChar?_utf8EncodeChar_append

/-- A byte at which no character can be read stands for itself. -/
theorem decode_cons_escaped (byte : UInt8) (rest : List UInt8)
    (undecoded : ByteArray.utf8DecodeChar? (byte :: rest).toByteArray 0 = none) :
    decode (byte :: rest) = .escaped byte :: decode rest := by
  simp only [decode, decodeFrom, undecoded]

/-- Decoding reads characters and single bytes. -/
theorem decode_induction {motive : List UInt8 → Prop} (nil : motive [])
    (char : ∀ character rest, motive rest → motive (String.utf8EncodeChar character ++ rest))
    (escaped : ∀ byte rest, ByteArray.utf8DecodeChar? (byte :: rest).toByteArray 0 = none →
      motive rest → motive (byte :: rest)) (bytes : List UInt8) : motive bytes := by
  induction size : bytes.length using Nat.strong_induction_on generalizing bytes with
  | _ size inductionHypothesis =>
    subst size
    cases bytes with
    | nil => exact nil
    | cons byte rest =>
      cases decoded : ByteArray.utf8DecodeChar? (byte :: rest).toByteArray 0 with
      | none =>
        exact escaped byte rest decoded (inductionHypothesis rest.length (by simp) rest rfl)
      | some character =>
        obtain ⟨behind, shape⟩ := (utf8DecodeChar?_eq_some_iff _ _).mp decoded
        have shorter : behind.length < (byte :: rest).length := by
          have positive := character.utf8Size_pos
          rw [shape, List.length_append, String.length_utf8EncodeChar]
          omega
        rw [shape]
        exact char character behind (inductionHypothesis behind.length shorter behind rfl)

/-- Encoding inverts decoding, so that no two byte strings are confused. -/
theorem encode_decode (bytes : List UInt8) : encode (decode bytes) = bytes := by
  induction bytes using decode_induction with
  | nil => rfl
  | char character rest inductionHypothesis =>
    rw [decode_utf8EncodeChar, encode_cons_char, inductionHypothesis]
  | escaped byte rest undecoded inductionHypothesis =>
    rw [decode_cons_escaped byte rest undecoded, encode_cons_escaped, inductionHypothesis]

/-- Different bytes decode to different texts. -/
theorem decode_injective : Function.Injective decode :=
  Function.LeftInverse.injective encode_decode

/-- Decoding starts anew at every byte that can begin a character.

Proof: the bytes of a character behind its first one cannot begin a character, so
that no character reaches over the byte. -/
theorem decode_append (left : List UInt8) (byte : UInt8) (right : List UInt8)
    (first : byte.IsUTF8FirstByte) :
    decode (left ++ byte :: right) = decode left ++ decode (byte :: right) := by
  induction left using decode_induction with
  | nil => rfl
  | char character rest inductionHypothesis =>
    rw [List.append_assoc, decode_utf8EncodeChar, decode_utf8EncodeChar, inductionHypothesis,
      List.cons_append]
  | escaped other rest undecoded inductionHypothesis =>
    have stillUndecoded : ByteArray.utf8DecodeChar?
        (other :: (rest ++ byte :: right)).toByteArray 0 = none := by
      refine Option.eq_none_iff_forall_not_mem.mpr fun character decoded => ?_
      obtain ⟨behind, shape⟩ := (utf8DecodeChar?_eq_some_iff _ _).mp decoded
      rw [← List.cons_append, List.append_eq_append_iff] at shape
      rcases shape with ⟨more, encoded, remaining⟩ | ⟨more, inside, -⟩
      · cases more with
        | nil =>
          have complete := (utf8DecodeChar?_eq_some_iff (other :: rest) character).mpr
            ⟨[], by rw [encoded, List.append_nil, List.append_nil]⟩
          rw [undecoded] at complete
          cases complete
        | cons next more =>
          obtain ⟨rfl, -⟩ := List.cons.inj remaining
          have position : (other :: rest).length < (String.utf8EncodeChar character).length := by
            simp [encoded]
          have reached : (String.utf8EncodeChar character).get ⟨_, position⟩ = byte := by
            simp [encoded]
          have start := @UInt8.isUTF8FirstByte_getElem_utf8EncodeChar _ _ position
          rw [List.get_eq_getElem] at reached
          rw [reached] at start
          simpa using start.mp first
      · have partly := (utf8DecodeChar?_eq_some_iff (other :: rest) character).mpr ⟨more, inside⟩
        rw [undecoded] at partly
        cases partly
    rw [List.cons_append, decode_cons_escaped _ _ stillUndecoded, inductionHypothesis,
      decode_cons_escaped _ _ undecoded, List.cons_append]

/-- Different texts have different bytes. -/
theorem utf8_injective : Function.Injective utf8 := by
  intro first second same
  have decoded := congrArg decode same
  rw [decode_utf8, decode_utf8] at decoded
  exact ofText_injective decoded

/-- A byte that begins characters of one byte is in an encoded text only for its
character. -/
theorem mem_of_mem_utf8 (text : Text) (character : Char) (byte : UInt8)
    (encoded : String.utf8EncodeChar character = [byte]) (first : byte.IsUTF8FirstByte)
    (member : byte ∈ utf8 text) : character ∈ text := by
  obtain ⟨other, inside, occurs⟩ := List.mem_flatMap.mp member
  obtain ⟨position, bound, reached⟩ := List.getElem_of_mem occurs
  have start := @UInt8.isUTF8FirstByte_getElem_utf8EncodeChar _ _ bound
  rw [reached] at start
  obtain rfl := start.mp first
  have opened : String.utf8EncodeChar other = byte :: (String.utf8EncodeChar other).tail := by
    rw [← reached, List.getElem_zero, List.cons_head_tail]
  have decoded := decode_utf8EncodeChar other []
  have same := decode_utf8EncodeChar character (String.utf8EncodeChar other).tail
  rw [List.append_nil, opened] at decoded
  rw [encoded, List.singleton_append, decoded] at same
  obtain ⟨equal, -⟩ := List.cons.inj same
  rwa [FsChar.char.inj equal] at inside

end FsText

/-- `pathlib.Path`: the slashes of its root and its parts. -/
structure Path where
  root : Nat
  parts : List FsText
deriving DecidableEq, Repr

namespace Path

/-- The separator of path components. -/
def slash : FsChar := .char '/'

/-- The component that is left out of a path. -/
def dot : FsChar := .char '.'

/-- `Path(text)`. Empty parts and single dots are dropped; two leading slashes
are a root of their own. -/
def parse (text : FsText) : Path where
  root :=
    match (text.takeWhile (decide <| · = slash)).length with
    | 0 => 0
    | 2 => 2
    | _ => 1
  parts := (text.splitOn slash).filter fun part => part ≠ [] ∧ part ≠ [dot]

/-- `Path(text)` for a text without surrogates. -/
def ofText (text : Text) : Path := parse (FsText.ofText text)

/-- `path.name`. -/
def name (path : Path) : FsText := path.parts.getLast?.getD []

/-- `path.suffix`: what follows the last dot of the name, with the dot, unless
only dots come before it. -/
def suffix (path : Path) : FsText :=
  let reversed := path.name.reverse
  let extension := (reversed.takeWhile (decide <| · ≠ dot)).reverse
  match reversed.dropWhile (decide <| · ≠ dot) with
  | [] => []
  | _ :: stem => if stem.all (decide <| · = dot) then [] else dot :: extension

end Path

/-- Reading parts that are joined by slashes gives the parts. -/
theorem Path.parse_intercalate (parts : List FsText) (nonempty : parts ≠ [])
    (valid : ∀ part ∈ parts, part ≠ [] ∧ part ≠ [dot] ∧ slash ∉ part) :
    parse (List.intercalate [slash] parts) = ⟨0, parts⟩ := by
  have relative :
      ((List.intercalate [slash] parts).takeWhile (decide <| · = slash)).length = 0 := by
    obtain ⟨part, others, rfl⟩ := List.exists_cons_of_ne_nil nonempty
    obtain ⟨present, -, plain⟩ := valid part (by simp)
    obtain ⟨first, part, rfl⟩ := List.exists_cons_of_ne_nil present
    have different : first ≠ slash := fun same => plain (by simp [same])
    cases others with
    | nil => simp [List.intercalate_singleton, different]
    | cons second others => simp [List.intercalate_cons_cons, different]
  have pieces : (List.intercalate [slash] parts).splitOn slash = parts :=
    List.splitOn_intercalate slash (fun part member => (valid part member).2.2) nonempty
  have kept : parts.filter (fun part => part ≠ [] ∧ part ≠ [dot]) = parts := by
    refine List.filter_eq_self.mpr fun part member => ?_
    obtain ⟨present, notDot, -⟩ := valid part member
    exact decide_eq_true ⟨present, notDot⟩
  simp only [parse, relative, pieces, kept]

/-- A normalized relative path as git stores it: byte strings without separator,
neither empty nor a single dot. -/
structure BytePath where
  parts : List (List UInt8)
  nonempty : parts ≠ [] := by decide
  valid : ∀ part ∈ parts, part ≠ [] ∧ part ≠ [0x2E] ∧ 0x2F ∉ part := by decide

namespace BytePath

/-- The path as one byte string. -/
def bytes (path : BytePath) : List UInt8 := List.intercalate [0x2F] path.parts

/-- The path as `pathlib` has it. -/
def path (path : BytePath) : Path := ⟨0, path.parts.map FsText.decode⟩

/-- Different paths are different for `pathlib`. -/
theorem path_injective : Function.Injective path := by
  intro first second same
  have parts : first.parts.map FsText.decode = second.parts.map FsText.decode :=
    congrArg Path.parts same
  have equal := List.map_injective_iff.mpr FsText.decode_injective parts
  cases first
  cases second
  simpa using equal

/-- The separators are decoded for themselves. -/
theorem decode_intercalate (parts : List (List UInt8)) :
    FsText.decode (List.intercalate [0x2F] parts) =
      List.intercalate [Path.slash] (parts.map FsText.decode) := by
  induction parts with
  | nil => rfl
  | cons first rest inductionHypothesis =>
    cases rest with
    | nil => simp [List.intercalate_singleton]
    | cons second rest =>
      have separated := FsText.decode_utf8EncodeChar '/' (List.intercalate [0x2F] (second :: rest))
      rw [List.intercalate_cons_cons, List.append_assoc, List.singleton_append,
        FsText.decode_append first 0x2F _ (by decide), List.map_cons, List.map_cons,
        List.intercalate_cons_cons, List.append_assoc, List.singleton_append]
      exact congrArg (FsText.decode first ++ ·)
        (separated.trans (congrArg (Path.slash :: ·) inductionHypothesis))

/-- What a decoded byte string contains is there before decoding. -/
theorem not_mem_decode (bytes : List UInt8) (character : Char) (byte : UInt8)
    (encoded : String.utf8EncodeChar character = [byte]) (absent : byte ∉ bytes) :
    FsChar.char character ∉ FsText.decode bytes := by
  intro member
  refine absent ?_
  rw [← FsText.encode_decode bytes]
  exact List.mem_flatMap.mpr ⟨_, member, by simp [encoded]⟩

/-- Reading the decoded bytes of a path gives the path. -/
theorem parse_decode (path : BytePath) : Path.parse (FsText.decode path.bytes) = path.path := by
  rw [bytes, decode_intercalate]
  refine Path.parse_intercalate _ (by simpa using path.nonempty) fun decoded member => ?_
  obtain ⟨part, inside, rfl⟩ := List.mem_map.mp member
  obtain ⟨present, notDot, plain⟩ := path.valid part inside
  refine ⟨fun empty => present ?_, fun dotted => notDot ?_, not_mem_decode part '/' 0x2F rfl plain⟩
  · exact FsText.decode_injective empty
  · exact FsText.decode_injective dotted

end BytePath

/-! ## Reading a header -/

/-- `_GIT_SIMPLE_ESCAPES`. -/
def gitSimpleEscapes : Char → Option UInt8
  | 'a' => some 0x07
  | 'b' => some 0x08
  | 'f' => some 0x0C
  | 'n' => some 0x0A
  | 'r' => some 0x0D
  | 't' => some 0x09
  | 'v' => some 0x0B
  | '\\' => some 0x5C
  | '"' => some 0x22
  | _ => none

/-- A digit of an octal escape. -/
def isOctalDigit (character : Char) : Bool := "01234567".toList.contains character

/-- The octal digits of an escape, at most three. -/
def octalDigits (text : Text) : Text := (text.take 3).takeWhile isOctalDigit

/-- The loop of `_git_unquote`. `skip` counts the characters of the last escape
that are still to be passed over. A number above 255 is not a byte. -/
def unquoteFrom : Nat → Text → Except PolicyError (List UInt8)
  | _, [] => .ok []
  | skip + 1, _ :: rest => unquoteFrom skip rest
  | 0, character :: rest =>
    if character ≠ '\\' then (String.utf8EncodeChar character ++ ·) <$> unquoteFrom 0 rest
    else
      match rest.head? with
      | none => .ok [0x5C]
      | some escape =>
        match gitSimpleEscapes escape with
        | some byte => (byte :: ·) <$> unquoteFrom 1 rest
        | none =>
          let digits := octalDigits rest
          let value := Nat.ofDigitChars 8 digits 0
          if digits = [] then (FsText.utf8 ['\\', escape] ++ ·) <$> unquoteFrom 1 rest
          else if value < 256 then (UInt8.ofNat value :: ·) <$> unquoteFrom digits.length rest
          else .error .valueError

/-- `_git_unquote`. -/
def gitUnquote (quoted : Text) : Except PolicyError FsText :=
  if startsWith ['"'] quoted && endsWith ['"'] quoted then
    FsText.decode <$> unquoteFrom 0 (quoted.drop 1).dropLast
  else .ok (FsText.ofText quoted)

/-- The loop of `_git_quoted_token`, with the characters passed so far in
reverse. -/
def quotedTokenFrom (pending : Text) : Text → Option (Text × Text)
  | [] | ['\\'] => none
  | '\\' :: escape :: rest => quotedTokenFrom (escape :: '\\' :: pending) rest
  | character :: rest =>
    if character = '"' then some (pending.reverse ++ ['"'], rest)
    else quotedTokenFrom (character :: pending) rest

/-- `_git_quoted_token`. -/
def gitQuotedToken (text : Text) : Option (Text × Text) :=
  quotedTokenFrom (text.take 1) (text.drop 1)

/-- `_git_header_token`. -/
def gitHeaderToken (text : Text) : Option (Text × Text) :=
  if startsWith ['"'] text then gitQuotedToken text
  else
    some (text.takeWhile (decide <| · ≠ ' '), (text.dropWhile (decide <| · ≠ ' ')).drop 1)

/-- The beginning of the header line of a file. -/
def diffPrefix : Text := "diff --git ".toList

/-- The part of `_diff_header_path` behind the first token. -/
def rightPath (secondText : Text) : Except PolicyError (Option Path) :=
  match gitHeaderToken secondText with
  | none => .ok none
  | some (secondToken, trailing) =>
    if trailing ≠ [] then .ok none
    else do
      let right ← gitUnquote secondToken
      if (FsText.ofText ['b', '/']).isPrefixOf right then
        return some (Path.parse (right.drop 2))
      else return none

/-- `_diff_header_path`. -/
def diffHeaderPath (diffLine : Text) : Except PolicyError (Option Path) :=
  if startsWith diffPrefix diffLine then
    match gitHeaderToken (diffLine.drop diffPrefix.length) with
    | none => .ok none
    | some (firstToken, firstRemainder) =>
      if startsWith ['"'] firstToken then
        if startsWith [' '] firstRemainder then rightPath (firstRemainder.drop 1) else .ok none
      else rightPath firstRemainder
  else .ok none

/-! ## Quoted names -/

/-- The letter of a simple escape of C, for the bytes that have one. -/
def escapeLetter : UInt8 → Option Char
  | 0x07 => some 'a'
  | 0x08 => some 'b'
  | 0x09 => some 't'
  | 0x0A => some 'n'
  | 0x0B => some 'v'
  | 0x0C => some 'f'
  | 0x0D => some 'r'
  | 0x22 => some '"'
  | 0x5C => some '\\'
  | _ => none

/-- A byte as three octal digits. -/
def octalEscape (byte : UInt8) : Text :=
  ['\\', Nat.digitChar (byte.toNat / 64), Nat.digitChar (byte.toNat / 8 % 8),
    Nat.digitChar (byte.toNat % 8)]

/-- A byte string in the C style, without the quotes around it. Which bytes are
escaped depends on `core.quotePath`; quotes and backslashes always are. -/
inductive CQuoted : List UInt8 → Text → Prop
  | nil : CQuoted [] []
  | plain {bytes : List UInt8} {body : Text} (character : Char) (notQuote : character ≠ '"')
      (notEscape : character ≠ '\\') (rest : CQuoted bytes body) :
      CQuoted (String.utf8EncodeChar character ++ bytes) (character :: body)
  | simple {bytes : List UInt8} {body : Text} (byte : UInt8) (letter : Char)
      (escape : escapeLetter byte = some letter) (rest : CQuoted bytes body) :
      CQuoted (byte :: bytes) ('\\' :: letter :: body)
  | octal {bytes : List UInt8} {body : Text} (byte : UInt8) (rest : CQuoted bytes body) :
      CQuoted (byte :: bytes) (octalEscape byte ++ body)

/-- A byte as git writes it when `core.quotePath` is set. -/
def quoteByte (byte : UInt8) : Text :=
  match escapeLetter byte with
  | some letter => ['\\', letter]
  | none =>
    if 0x20 ≤ byte ∧ byte < 0x7F then [Char.ofNat byte.toNat] else octalEscape byte

/-- Every byte string has a quoted form. -/
theorem cQuoted_flatMap_quoteByte (bytes : List UInt8) :
    CQuoted bytes (bytes.flatMap quoteByte) := by
  have printable : ∀ number < 0x7F, 0x20 ≤ number → escapeLetter (UInt8.ofNat number) = none →
      Char.ofNat number ≠ '"' ∧ Char.ofNat number ≠ '\\' ∧
        String.utf8EncodeChar (Char.ofNat number) = [UInt8.ofNat number] := by
    decide +kernel
  induction bytes with
  | nil => exact CQuoted.nil
  | cons byte bytes inductionHypothesis =>
    rw [List.flatMap_cons, quoteByte]
    cases escape : escapeLetter byte with
    | some letter => exact CQuoted.simple byte letter escape inductionHypothesis
    | none =>
      by_cases shown : 0x20 ≤ byte ∧ byte < 0x7F
      · obtain ⟨notQuote, notEscape, encoded⟩ := printable byte.toNat
          (UInt8.lt_iff_toNat_lt.mp shown.2) (UInt8.le_iff_toNat_le.mp shown.1)
          (by rw [UInt8.ofNat_toNat, escape])
        have quoted := CQuoted.plain _ notQuote notEscape inductionHypothesis
        rw [encoded, UInt8.ofNat_toNat] at quoted
        simpa [shown] using quoted
      · simpa only [shown, ↓reduceIte] using CQuoted.octal byte inductionHypothesis

/-! ## Reading what is written -/

/-- A character of its own is its own bytes. -/
theorem unquoteFrom_plain (character : Char) (rest : Text) (plain : character ≠ '\\') :
    unquoteFrom 0 (character :: rest) =
      (String.utf8EncodeChar character ++ ·) <$> unquoteFrom 0 rest := by
  simp [unquoteFrom, plain]

/-- An escape of one letter gives its byte. -/
theorem unquoteFrom_simple (letter : Char) (byte : UInt8) (rest : Text)
    (simple : gitSimpleEscapes letter = some byte) :
    unquoteFrom 0 ('\\' :: letter :: rest) = (byte :: ·) <$> unquoteFrom 0 rest := by
  simp [unquoteFrom, simple]

/-- A digit below eight is octal and no escape of one letter. -/
theorem digitChar_octal (digit : Nat) (small : digit < 8) :
    gitSimpleEscapes (Nat.digitChar digit) = none ∧ isOctalDigit (Nat.digitChar digit) = true := by
  revert digit
  decide

/-- Three octal digits are one byte. -/
theorem unquoteFrom_octal (byte : UInt8) (rest : Text) :
    unquoteFrom 0 (octalEscape byte ++ rest) = (byte :: ·) <$> unquoteFrom 0 rest := by
  have bound := byte.toNat_lt
  have first := digitChar_octal (byte.toNat / 64) (by omega)
  have second := digitChar_octal (byte.toNat / 8 % 8) (by omega)
  have third := digitChar_octal (byte.toNat % 8) (by omega)
  have digits : octalDigits (Nat.digitChar (byte.toNat / 64) ::
      Nat.digitChar (byte.toNat / 8 % 8) :: Nat.digitChar (byte.toNat % 8) :: rest) =
      [Nat.digitChar (byte.toNat / 64), Nat.digitChar (byte.toNat / 8 % 8),
        Nat.digitChar (byte.toNat % 8)] := by
    simp [octalDigits, first.2, second.2, third.2]
  have value : Nat.ofDigitChars 8 [Nat.digitChar (byte.toNat / 64),
      Nat.digitChar (byte.toNat / 8 % 8), Nat.digitChar (byte.toNat % 8)] 0 = byte.toNat := by
    rw [Nat.ofDigitChars_cons_digitChar_of_lt_ten (by omega),
      Nat.ofDigitChars_cons_digitChar_of_lt_ten (by omega),
      Nat.ofDigitChars_cons_digitChar_of_lt_ten (by omega), Nat.ofDigitChars_nil]
    omega
  simp only [octalEscape, List.cons_append, List.nil_append, unquoteFrom, ne_eq, not_true_eq_false,
    ↓reduceIte, List.head?_cons, first.1, digits, value, bound]
  simp [unquoteFrom]

/-- The letters of C are read back. -/
theorem gitSimpleEscapes_escapeLetter (byte : UInt8) (letter : Char)
    (escape : escapeLetter byte = some letter) : gitSimpleEscapes letter = some byte := by
  unfold escapeLetter at escape
  split at escape <;> cases escape <;> rfl

/-- A quoted form gives its bytes back. -/
theorem unquoteFrom_cQuoted {bytes : List UInt8} {body : Text} (written : CQuoted bytes body) :
    unquoteFrom 0 body = .ok bytes := by
  induction written with
  | nil => rfl
  | plain character _ notEscape _ inductionHypothesis =>
    rw [unquoteFrom_plain character _ notEscape, inductionHypothesis]
    rfl
  | simple byte letter escape _ inductionHypothesis =>
    rw [unquoteFrom_simple letter byte _ (gitSimpleEscapes_escapeLetter byte letter escape),
      inductionHypothesis]
    rfl
  | octal byte _ inductionHypothesis =>
    rw [unquoteFrom_octal, inductionHypothesis]
    rfl

/-- Reading a quoted name decodes its bytes. -/
theorem gitUnquote_quoted {bytes : List UInt8} {body : Text} (written : CQuoted bytes body) :
    gitUnquote ('"' :: body ++ ['"']) = .ok (FsText.decode bytes) := by
  have inner : (('"' :: body ++ ['"']).drop 1).dropLast = body := by simp
  have opened : startsWith ['"'] ('"' :: body ++ ['"']) = true := by simp [startsWith]
  have closed : endsWith ['"'] ('"' :: body ++ ['"']) = true := by
    simp [endsWith, List.isSuffixOf]
  simp only [gitUnquote, opened, closed, Bool.and_self, ↓reduceIte, inner,
    unquoteFrom_cQuoted written]
  rfl

/-- A name without quotes is taken as it stands. -/
theorem gitUnquote_bare (name : Text) (bare : startsWith ['"'] name = false) :
    gitUnquote name = .ok (FsText.ofText name) := by
  simp [gitUnquote, bare]

/-- The scan for the closing quote passes over a plain character. -/
theorem quotedTokenFrom_plain (pending : Text) (character : Char) (rest : Text)
    (notQuote : character ≠ '"') (notEscape : character ≠ '\\') :
    quotedTokenFrom pending (character :: rest) = quotedTokenFrom (character :: pending) rest := by
  rw [quotedTokenFrom.eq_def]
  split
  · simp_all
  · simp_all
  · simp_all
  · simp_all

/-- An escaped character does not end a quoted token. -/
theorem quotedTokenFrom_escape (pending : Text) (escape : Char) (rest : Text) :
    quotedTokenFrom pending ('\\' :: escape :: rest) =
      quotedTokenFrom (escape :: '\\' :: pending) rest := by
  simp [quotedTokenFrom]

/-- An octal escape does not end a quoted token. -/
theorem quotedTokenFrom_octal (pending : Text) (byte : UInt8) (rest : Text) :
    quotedTokenFrom pending (octalEscape byte ++ rest) =
      quotedTokenFrom ((octalEscape byte).reverse ++ pending) rest := by
  have digit (number : Nat) (small : number < 8) :
      Nat.digitChar number ≠ '"' ∧ Nat.digitChar number ≠ '\\' := by
    revert number
    decide
  have second := digit (byte.toNat / 8 % 8) (by omega)
  have third := digit (byte.toNat % 8) (by omega)
  simp only [octalEscape, List.cons_append, List.nil_append]
  rw [quotedTokenFrom_escape, quotedTokenFrom_plain _ _ _ second.1 second.2,
    quotedTokenFrom_plain _ _ _ third.1 third.2]
  simp

/-- The scan ends at the quote behind the name. -/
theorem quotedTokenFrom_cQuoted {bytes : List UInt8} {body : Text} (written : CQuoted bytes body)
    (pending rest : Text) :
    quotedTokenFrom pending (body ++ '"' :: rest) =
      some (pending.reverse ++ body ++ ['"'], rest) := by
  induction written generalizing pending with
  | nil =>
    rw [quotedTokenFrom.eq_def]
    simp
  | plain character notQuote notEscape _ inductionHypothesis =>
    rw [List.cons_append, quotedTokenFrom_plain pending character _ notQuote notEscape,
      inductionHypothesis]
    simp
  | simple byte letter _ _ inductionHypothesis =>
    rw [List.cons_append, List.cons_append, quotedTokenFrom_escape, inductionHypothesis]
    simp
  | octal byte _ inductionHypothesis =>
    rw [List.append_assoc, quotedTokenFrom_octal, inductionHypothesis]
    simp

/-- A quoted token is cut off with its quotes. -/
theorem gitHeaderToken_quoted {bytes : List UInt8} {body : Text} (written : CQuoted bytes body)
    (rest : Text) :
    gitHeaderToken ('"' :: body ++ '"' :: rest) = some ('"' :: body ++ ['"'], rest) := by
  have scanned := quotedTokenFrom_cQuoted written ['"'] rest
  simpa [gitHeaderToken, gitQuotedToken, startsWith] using scanned

/-- A bare token ends at the first space. -/
theorem gitHeaderToken_bare (token rest : Text)
    (bare : startsWith ['"'] (token ++ ' ' :: rest) = false) (single : ' ' ∉ token) :
    gitHeaderToken (token ++ ' ' :: rest) = some (token, rest) := by
  have passed : ∀ character ∈ token, decide (character ≠ ' ') = true := by
    intro character member
    exact decide_eq_true fun same => single (same ▸ member)
  simp only [gitHeaderToken, bare, Bool.false_eq_true, ↓reduceIte]
  rw [List.takeWhile_append_of_pos passed, List.dropWhile_append_of_pos passed]
  simp

/-- A bare token without blanks reaches to the end. -/
theorem gitHeaderToken_whole (token : Text) (bare : startsWith ['"'] token = false)
    (single : ' ' ∉ token) : gitHeaderToken token = some (token, []) := by
  have passed : ∀ character ∈ token, decide (character ≠ ' ') = true := by
    intro character member
    exact decide_eq_true fun same => single (same ▸ member)
  simp only [gitHeaderToken, bare, Bool.false_eq_true, ↓reduceIte,
    List.takeWhile_eq_self_iff.mpr passed, List.dropWhile_eq_nil_iff.mpr passed, List.drop_nil]

/-- Something is left behind the second token when a space comes before every
quote and more text behind it. -/
theorem rightPath_trailing (left right : Text) (unquoted : '"' ∉ left) (more : right ≠ []) :
    rightPath (left ++ ' ' :: right) = .ok none := by
  have bare : startsWith ['"'] (left ++ ' ' :: right) = false := by
    cases left with
    | nil => rfl
    | cons first left =>
      simp only [List.mem_cons, not_or] at unquoted
      simpa [startsWith_singleton] using unquoted.1
  by_cases spaced : ' ' ∈ left
  · obtain ⟨token, rest, rfl, single⟩ := List.eq_append_cons_of_mem spaced
    simp only [List.append_assoc, List.cons_append] at bare ⊢
    simp [rightPath, gitHeaderToken_bare token _ bare single]
  · simp [rightPath, gitHeaderToken_bare left right bare spaced, more]

/-! ## Headers -/

/-- A way to write a path into a header. A bare path has no quote and no
backslash, but it may have spaces. -/
inductive Rendering (path : BytePath)
  | quoted (body : Text) (written : CQuoted path.bytes body)
  | bare (name : Text) (encoded : FsText.utf8 name = path.bytes)
      (plain : '"' ∉ name ∧ '\\' ∉ name)

namespace Rendering

variable {path oldPath newPath : BytePath}

/-- The path with its side. -/
def token (side : Char) : Rendering path → Text
  | .quoted body _ => '"' :: side :: '/' :: body ++ ['"']
  | .bare name _ _ => side :: '/' :: name

/-- The path is written as it is although it has a space. -/
def spaced : Rendering path → Bool
  | .quoted _ _ => false
  | .bare name _ _ => decide (' ' ∈ name)

/-- What the second token of a header is read as. A bare path whose only space is
at its end loses the space; other bare spaces leave the header undecoded. -/
def key : Rendering path → Option Path
  | .quoted _ _ => some path.path
  | .bare name _ _ =>
    if ' ' ∉ name then some path.path
    else if ' ' ∈ name.dropLast then none
    else some (Path.ofText name.dropLast)

/-- The `diff --git` line. -/
def header (old : Rendering oldPath) (new : Rendering newPath) : Text :=
  diffPrefix ++ old.token 'a' ++ ' ' :: new.token 'b'

/-- The token of a quoted path. -/
theorem token_quoted (side : Char) (body : Text) (written : CQuoted path.bytes body) :
    (quoted body written).token side = '"' :: side :: '/' :: body ++ ['"'] := rfl

/-- The token of a bare path. -/
theorem token_bare (side : Char) (name : Text) (encoded : FsText.utf8 name = path.bytes)
    (plain : '"' ∉ name ∧ '\\' ∉ name) :
    (bare name encoded plain).token side = side :: '/' :: name := rfl

/-- No token is empty. -/
theorem token_ne_nil (rendering : Rendering path) (side : Char) : rendering.token side ≠ [] := by
  cases rendering <;> simp [token]

/-- The side is part of the quoted name. -/
theorem cQuoted_side {bytes : List UInt8} {body : Text} (side : Char) (notQuote : side ≠ '"')
    (notEscape : side ≠ '\\') (written : CQuoted bytes body) :
    CQuoted (String.utf8EncodeChar side ++ (String.utf8EncodeChar '/' ++ bytes))
      (side :: '/' :: body) :=
  CQuoted.plain side notQuote notEscape (CQuoted.plain '/' (by decide) (by decide) written)

/-- The name of a bare path is the path. -/
theorem ofText_name (name : Text) (encoded : FsText.utf8 name = path.bytes) :
    Path.ofText name = path.path := by
  rw [Path.ofText, ← FsText.decode_utf8, encoded, path.parse_decode]

/-- A path of the new side begins with its prefix. -/
theorem opening (text : FsText) :
    (FsText.ofText ['b', '/']).isPrefixOf (.char 'b' :: .char '/' :: text) = true := by
  simp [FsText.ofText]

/-- The second token is read as the new path, up to spaces. -/
theorem rightPath_token (new : Rendering newPath) :
    rightPath (new.token 'b') = .ok new.key := by
  cases new with
  | quoted body written =>
    have sided := cQuoted_side 'b' (by decide) (by decide) written
    have cut := gitHeaderToken_quoted sided []
    have decoded : FsText.decode (String.utf8EncodeChar 'b' ++
        (String.utf8EncodeChar '/' ++ newPath.bytes)) =
        .char 'b' :: .char '/' :: FsText.decode newPath.bytes := by
      rw [FsText.decode_utf8EncodeChar, FsText.decode_utf8EncodeChar]
    simp only [List.cons_append] at cut
    have unquoted := gitUnquote_quoted sided
    simp only [List.cons_append, decoded] at unquoted
    simp only [rightPath, token, List.cons_append, cut, ne_eq, not_true_eq_false, ↓reduceIte,
      unquoted]
    simp only [bind, Except.bind, opening, ↓reduceIte, List.drop_succ_cons, List.drop_zero,
      newPath.parse_decode]
    rfl
  | bare name encoded plain =>
    have bareName (name : Text) : startsWith ['"'] ('b' :: '/' :: name) = false := by
      simp [startsWith_singleton]
    have unquoted (name : Text) : gitUnquote ('b' :: '/' :: name) =
        .ok (.char 'b' :: .char '/' :: FsText.ofText name) := gitUnquote_bare _ (bareName name)
    by_cases space : ' ' ∈ name
    · obtain ⟨stem, rest, shape, single⟩ := List.eq_append_cons_of_mem space
      have cut := gitHeaderToken_bare ('b' :: '/' :: stem) rest (startsWith_singleton _ _ _)
        (by simpa using single)
      rw [List.cons_append, List.cons_append] at cut
      simp only [rightPath, token, key, space, not_true_eq_false, ↓reduceIte]
      simp only [shape, cut]
      by_cases last : rest = []
      · subst last
        simp only [ne_eq, not_true_eq_false, ↓reduceIte, unquoted, List.dropLast_concat, single]
        simp only [bind, Except.bind, opening, ↓reduceIte]
        rfl
      · have inside : ' ' ∈ (stem ++ ' ' :: rest).dropLast := by
          rw [List.dropLast_append_of_ne_nil (by simp), List.dropLast_cons_of_ne_nil last]
          simp
        simp only [ne_eq, last, not_false_eq_true, ↓reduceIte, inside]
    · have whole := gitHeaderToken_whole ('b' :: '/' :: name) (bareName name)
        (by simpa using space)
      have same := ofText_name name encoded
      simp only [rightPath, token, whole, ne_eq, not_true_eq_false, ↓reduceIte, unquoted, key,
        space, not_false_eq_true]
      simp only [bind, Except.bind, opening, ↓reduceIte, ← same]
      rfl

/-- What the decoder makes of a header.

Proof: the first token is cut off at its closing quote or at its first space. If
the old path is bare and has a space, the rest of it and the new token remain, so
that something trails behind the second token. -/
theorem diffHeaderPath_header (old : Rendering oldPath) (new : Rendering newPath) :
    diffHeaderPath (old.header new) = .ok (if old.spaced then none else new.key) := by
  have opening : startsWith diffPrefix (old.header new) = true := by
    rw [header, List.append_assoc]
    exact startsWith_append _ _
  have rest : (old.header new).drop diffPrefix.length = old.token 'a' ++ ' ' :: new.token 'b' := by
    simp [header]
  simp only [diffHeaderPath, opening, ↓reduceIte, rest]
  cases old with
  | quoted body written =>
    have cut := gitHeaderToken_quoted (cQuoted_side 'a' (by decide) (by decide) written)
      (' ' :: new.token 'b')
    simp only [List.cons_append] at cut
    simp only [token_quoted, List.cons_append, List.append_assoc, List.nil_append, cut]
    simp [startsWith_singleton, rightPath_token, spaced]
  | bare name encoded plain =>
    by_cases space : ' ' ∈ name
    · obtain ⟨stem, behind, shape, single⟩ := List.eq_append_cons_of_mem space
      have cut := gitHeaderToken_bare ('a' :: '/' :: stem) (behind ++ ' ' :: new.token 'b')
        (startsWith_singleton _ _ _) (by simpa using single)
      have trailing := rightPath_trailing behind (new.token 'b')
        (fun member => plain.1 (by simp [shape, member])) (new.token_ne_nil 'b')
      simp only [token_bare, spaced, space, decide_true, ↓reduceIte]
      simp only [shape, List.cons_append, List.append_assoc] at cut ⊢
      simp [cut, startsWith_singleton, trailing]
    · have cut := gitHeaderToken_bare ('a' :: '/' :: name) (new.token 'b')
        (startsWith_singleton _ _ _) (by simpa using space)
      rw [token_bare, cut]
      simp [startsWith_singleton, rightPath_token, spaced, space]

/-- Without bare spaces the second token is read as the path. -/
theorem key_of_not_spaced (new : Rendering newPath) (single : new.spaced = false) :
    new.key = some newPath.path := by
  cases new with
  | quoted body written => rfl
  | bare name encoded plain =>
    have absent : ' ' ∉ name := by simpa [spaced] using single
    simp [key, absent]

/-- A wrong path can only be read where a space at the end is lost. -/
theorem key_eq_none_or (new : Rendering newPath) (ending : newPath.bytes.getLast? ≠ some 0x20) :
    new.key = none ∨ new.key = some newPath.path := by
  cases single : new.spaced with
  | false => exact Or.inr (new.key_of_not_spaced single)
  | true =>
    cases new with
    | quoted body written => simp [spaced] at single
    | bare name encoded plain =>
      have space : ' ' ∈ name := by simpa [spaced] using single
      have inside : ' ' ∈ name.dropLast := by
        by_contra absent
        obtain ⟨stem, last, rfl⟩ := List.eq_nil_or_concat' name |>.resolve_left
          (List.ne_nil_of_mem space)
        rw [List.dropLast_concat] at absent
        have trailing : last = ' ' := by simpa [absent, eq_comm] using space
        refine ending ?_
        rw [← encoded, trailing, FsText.utf8, List.flatMap_append]
        exact List.getLast?_append_of_ne_nil _ (by simp)
      simp [key, space, inside]

end Rendering

/-- The decoder inverts git's quoting: every byte string has a quoted form, and
each of its forms is decoded to it; of two paths in a header, each quoted or bare,
the new one is returned or nothing, and nothing only because of a space in a bare
path. -/
theorem path_decoding_inverts_quoting :
    (∀ bytes : List UInt8, CQuoted bytes (bytes.flatMap quoteByte) ∧
      ∀ body : Text, CQuoted bytes body →
        gitUnquote ('"' :: body ++ ['"']) = .ok (FsText.decode bytes)) ∧
    ∀ (oldPath newPath : BytePath) (old : Rendering oldPath) (new : Rendering newPath),
      newPath.bytes.getLast? ≠ some 0x20 →
      (diffHeaderPath (old.header new) = .ok none ∨
        diffHeaderPath (old.header new) = .ok (some newPath.path)) ∧
      (old.spaced = false → new.spaced = false →
        diffHeaderPath (old.header new) = .ok (some newPath.path)) := by
  refine ⟨fun bytes => ⟨cQuoted_flatMap_quoteByte bytes, fun _ => gitUnquote_quoted⟩, ?_⟩
  intro oldPath newPath old new ending
  rw [old.diffHeaderPath_header new]
  refine ⟨?_, fun oldSingle newSingle => ?_⟩
  · cases old.spaced with
    | true => exact Or.inl rfl
    | false =>
      rcases new.key_eq_none_or ending with undecoded | decoded
      · exact Or.inl (congrArg Except.ok undecoded)
      · exact Or.inr (congrArg Except.ok decoded)
  · rw [oldSingle, new.key_of_not_spaced newSingle]
    rfl

/-- A path that is not UTF-8, renamed from a bare one: `\303(` is the byte 0xC3
and a parenthesis. -/
theorem quoted_rename_decoded :
    let oldPath : BytePath := { parts := [[0x6F]] }
    let newPath : BytePath := { parts := [[0xC3, 0x28]] }
    let old : Rendering oldPath := .bare ['o'] (by decide) (by decide)
    gitUnquote "\"\\303(\"".toList = .ok (FsText.decode [0xC3, 0x28]) ∧
      ∃ new : Rendering newPath, new.token 'b' = "\"b/\\303(\"".toList ∧
        diffHeaderPath (old.header new) = .ok (some newPath.path) := by
  have written : CQuoted [0xC3, 0x28] "\\303(".toList :=
    CQuoted.octal 0xC3 (CQuoted.plain '(' (by decide) (by decide) CQuoted.nil)
  refine ⟨(path_decoding_inverts_quoting.1 _).2 _ written, .quoted _ written, rfl, ?_⟩
  exact (path_decoding_inverts_quoting.2 _ _ _ _ (by decide)).2 rfl rfl

end VirtTestTools.Policy
