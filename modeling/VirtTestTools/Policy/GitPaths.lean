import VirtTestTools.Joins
import VirtTestTools.Policy.HeaderPaths

/-!
# The paths that git writes

A path whose bytes are UTF-8 is a list of texts, and git's writer quotes it
character by character, for either setting of `core.quotePath`. Each written path
is one of the renderings that the decoder of the headers is about, so that what it
makes of a written header follows.
-/

namespace VirtTestTools.Policy

open Text

/-- A path as git stores it: parts without separator, neither empty nor a single
dot. -/
structure GitPath where
  parts : List Text
  nonempty : parts ≠ [] := by decide
  valid : ∀ part ∈ parts, part ≠ [] ∧ part ≠ ['.'] ∧ '/' ∉ part ∧ '\x00' ∉ part := by decide

namespace GitPath

/-- The path as text. -/
def text (path : GitPath) : Text := List.intercalate ['/'] path.parts

/-- The path as `pathlib` has it. -/
def path (path : GitPath) : Path := ⟨0, path.parts.map FsText.ofText⟩

/-- A path is not empty and begins with no slash. -/
theorem text_eq_cons (path : GitPath) :
    ∃ first rest, path.text = first :: rest ∧ first ≠ '/' := by
  obtain ⟨parts, nonempty, valid⟩ := path
  obtain ⟨part, parts, rfl⟩ := List.exists_cons_of_ne_nil nonempty
  obtain ⟨present, -, plain, -⟩ := valid part (by simp)
  obtain ⟨first, part, rfl⟩ := List.exists_cons_of_ne_nil present
  have different : first ≠ '/' := fun same => plain (by simp [same])
  cases parts with
  | nil => exact ⟨first, part, by simp [text, List.intercalate], different⟩
  | cons second parts =>
    exact ⟨first, _, by simp [text, List.intercalate, List.intersperse]; rfl, different⟩

/-- A character of a path is a slash or in a part. -/
theorem mem_text (path : GitPath) (character : Char) (member : character ∈ path.text) :
    character = '/' ∨ ∃ part ∈ path.parts, character ∈ part := by
  rcases mem_intercalate ['/'] path.parts character member with slash | part
  · exact Or.inl (by simpa using slash)
  · exact Or.inr part

/-- A path has no NUL. -/
theorem nul_not_mem_text (path : GitPath) : '\x00' ∉ path.text := by
  intro member
  rcases path.mem_text _ member with slash | ⟨part, inside, member⟩
  · exact absurd slash (by decide)
  · exact (path.valid part inside).2.2.2 member

/-- The path as bytes. -/
def bytePath (path : GitPath) : BytePath where
  parts := path.parts.map FsText.utf8
  nonempty := by simpa using path.nonempty
  valid := by
    intro encoded member
    obtain ⟨part, inside, rfl⟩ := List.mem_map.mp member
    obtain ⟨present, notDot, plain, -⟩ := path.valid part inside
    refine ⟨fun empty => present ?_, fun dotted => notDot ?_, fun slash => plain ?_⟩
    · exact FsText.utf8_injective empty
    · exact FsText.utf8_injective dotted
    · exact FsText.mem_of_mem_utf8 part '/' 0x2F rfl (by decide) slash

/-- The path of the bytes is the path. -/
theorem path_bytePath (path : GitPath) : path.bytePath.path = path.path := by
  simp only [bytePath, BytePath.path, GitPath.path, List.map_map]
  exact congrArg _ (List.map_congr_left fun part _ => FsText.decode_utf8 part)

/-- The bytes of the text are those of the path. -/
theorem utf8_text (path : GitPath) : FsText.utf8 path.text = path.bytePath.bytes :=
  flatMap_intercalate ['/'] path.parts String.utf8EncodeChar

/-- Reading the text of a path gives the path. -/
theorem ofText_text (path : GitPath) : Path.ofText path.text = path.path := by
  rw [← path.path_bytePath]
  exact Rendering.ofText_name path.text path.utf8_text

end GitPath

/-! ## Writing a header -/

/-- The letter of a simple escape that git writes. -/
def gitEscapeLetter : Char → Option Char
  | '\x07' => some 'a'
  | '\x08' => some 'b'
  | '\t' => some 't'
  | '\n' => some 'n'
  | '\x0B' => some 'v'
  | '\x0C' => some 'f'
  | '\r' => some 'r'
  | '"' => some '"'
  | '\\' => some '\\'
  | _ => none

/-- The characters for which git quotes a path. With `quotePath` these include
everything outside ASCII. -/
def mustQuote (quotePath : Bool) (character : Char) : Bool :=
  character.toNat < 0x20 || character == '"' || character == '\\' || character.toNat == 0x7F ||
    (quotePath && 0x80 ≤ character.toNat)

/-- A character within quotes. -/
def quoteChar (quotePath : Bool) (character : Char) : Text :=
  if mustQuote quotePath character then
    match gitEscapeLetter character with
    | some letter => ['\\', letter]
    | none => (String.utf8EncodeChar character).flatMap octalEscape
  else [character]

/-- A name within quotes, without the quotes. -/
def quoteBody (quotePath : Bool) (name : Text) : Text := name.flatMap (quoteChar quotePath)

/-- Whether git quotes the path. -/
def GitPath.quoted (quotePath : Bool) (path : GitPath) : Bool := path.text.any (mustQuote quotePath)

/-- A path with its side as git writes it into the lines of a diff. -/
def GitPath.token (quotePath : Bool) (side : Char) (path : GitPath) : Text :=
  let name := side :: '/' :: path.text
  if path.quoted quotePath then '"' :: quoteBody quotePath name ++ ['"'] else name

/-- The `diff --git` line. -/
def diffHeader (quotePath : Bool) (old new : GitPath) : Text :=
  diffPrefix ++ old.token quotePath 'a' ++ ' ' :: new.token quotePath 'b'

/-- The path is written as it is although it has a space. -/
def GitPath.spaced (quotePath : Bool) (path : GitPath) : Bool :=
  !path.quoted quotePath && decide (' ' ∈ path.text)

/-- What the decoder makes of a header. A new path whose only space is at its
end loses the space; other bare spaces leave the header undecoded. -/
def headerKey (quotePath : Bool) (old new : GitPath) : Option Path :=
  if old.spaced quotePath then none
  else if !new.spaced quotePath then some new.path
  else if ' ' ∈ new.text.dropLast then none
  else some (Path.ofText new.text.dropLast)

/-! ## The round trip -/

/-- The letters that git writes are those of C. -/
theorem escapeLetter_of_gitEscapeLetter (character letter : Char)
    (escape : gitEscapeLetter character = some letter) :
    escapeLetter (UInt8.ofNat character.toNat) = some letter ∧
      String.utf8EncodeChar character = [UInt8.ofNat character.toNat] := by
  unfold gitEscapeLetter at escape
  split at escape <;> cases escape <;> decide

/-- Octal escapes in front of a quoted form. -/
theorem cQuoted_octals (bytes : List UInt8) {others : List UInt8} {body : Text}
    (rest : CQuoted others body) : CQuoted (bytes ++ others) (bytes.flatMap octalEscape ++ body) := by
  induction bytes with
  | nil => exact rest
  | cons byte bytes inductionHypothesis =>
    rw [List.flatMap_cons, List.append_assoc]
    exact CQuoted.octal byte inductionHypothesis

/-- What git writes within quotes is the text in the C style. -/
theorem cQuoted_quoteBody (quotePath : Bool) (name : Text) :
    CQuoted (FsText.utf8 name) (quoteBody quotePath name) := by
  induction name with
  | nil => exact CQuoted.nil
  | cons character name inductionHypothesis =>
    simp only [quoteBody, FsText.utf8, List.flatMap_cons] at inductionHypothesis ⊢
    rw [quoteChar]
    by_cases special : mustQuote quotePath character = true
    · simp only [special, ↓reduceIte]
      cases escape : gitEscapeLetter character with
      | some letter =>
        obtain ⟨simple, bytes⟩ := escapeLetter_of_gitEscapeLetter character letter escape
        rw [bytes]
        exact CQuoted.simple _ letter simple inductionHypothesis
      | none => exact cQuoted_octals _ inductionHypothesis
    · simp only [special, Bool.false_eq_true, ↓reduceIte]
      refine CQuoted.plain character ?_ ?_ inductionHypothesis
      · rintro rfl
        exact special (by simp [mustQuote])
      · rintro rfl
        exact special (by simp [mustQuote])

namespace GitPath

variable (quotePath : Bool) (path : GitPath)

/-- A bare path has neither quotes nor backslashes. -/
theorem plain_of_bare (bare : path.quoted quotePath = false) :
    '"' ∉ path.text ∧ '\\' ∉ path.text := by
  simp only [GitPath.quoted, List.any_eq_false] at bare
  exact ⟨fun member => bare '"' member (by simp [mustQuote]),
    fun member => bare '\\' member (by simp [mustQuote])⟩

/-- The path as git writes it. -/
def rendering : Rendering path.bytePath :=
  if quoted : path.quoted quotePath = true then
    .quoted (quoteBody quotePath path.text) (path.utf8_text ▸ cQuoted_quoteBody quotePath path.text)
  else .bare path.text path.utf8_text (path.plain_of_bare quotePath (by simpa using quoted))

/-- A token is the quoted name, or the name itself. -/
theorem token_bare (side : Char) (bare : path.quoted quotePath = false) :
    path.token quotePath side = side :: '/' :: path.text := by
  simp [GitPath.token, bare]

/-- The token of a path that git quotes. -/
theorem token_quoted (side : Char) (quoted : path.quoted quotePath = true) :
    path.token quotePath side =
      '"' :: quoteBody quotePath (side :: '/' :: path.text) ++ ['"'] := by
  simp [GitPath.token, quoted]

/-- The written token is that of the rendering. -/
theorem token_rendering (side : Char) (plain : mustQuote quotePath side = false) :
    path.token quotePath side = (path.rendering quotePath).token side := by
  have slash : mustQuote quotePath '/' = false := by cases quotePath <;> decide
  by_cases quoted : path.quoted quotePath = true
  · rw [path.token_quoted quotePath side quoted]
    simp [rendering, quoted, Rendering.token, quoteBody, quoteChar, plain, slash]
  · rw [path.token_bare quotePath side (by simpa using quoted)]
    simp [rendering, quoted, Rendering.token]

/-- A rendering is spaced as the path is. -/
theorem spaced_rendering : (path.rendering quotePath).spaced = path.spaced quotePath := by
  by_cases quoted : path.quoted quotePath = true <;>
    simp [rendering, quoted, Rendering.spaced, GitPath.spaced]

/-- The path that is read off a rendering. -/
theorem key_rendering :
    (path.rendering quotePath).key =
      if !path.spaced quotePath then some path.path
      else if ' ' ∈ path.text.dropLast then none
      else some (Path.ofText path.text.dropLast) := by
  by_cases quoted : path.quoted quotePath = true
  · simp [rendering, quoted, Rendering.key, GitPath.spaced, path_bytePath]
  · by_cases space : ' ' ∈ path.text <;>
      simp [rendering, quoted, Rendering.key, GitPath.spaced, path_bytePath, space]

end GitPath

/-- The header line is that of the renderings. -/
theorem diffHeader_eq (quotePath : Bool) (old new : GitPath) :
    diffHeader quotePath old new = (old.rendering quotePath).header (new.rendering quotePath) := by
  have plain (side : Char) (letter : side = 'a' ∨ side = 'b') :
      mustQuote quotePath side = false := by
    rcases letter with rfl | rfl <;> cases quotePath <;> decide
  rw [diffHeader, Rendering.header, old.token_rendering quotePath 'a' (plain 'a' (Or.inl rfl)),
    new.token_rendering quotePath 'b' (plain 'b' (Or.inr rfl))]

/-- What the decoder makes of a header that git wrote. -/
theorem diffHeaderPath_diffHeader (quotePath : Bool) (old new : GitPath) :
    diffHeaderPath (diffHeader quotePath old new) = .ok (headerKey quotePath old new) := by
  rw [diffHeader_eq, Rendering.diffHeaderPath_header, old.spaced_rendering quotePath,
    new.key_rendering quotePath, headerKey]

/-- What is quoted has no control characters. -/
theorem le_of_mem_quoteChar (quotePath : Bool) (character written : Char)
    (member : written ∈ quoteChar quotePath character) : 0x20 ≤ written.toNat := by
  have digit (number : Nat) (small : number < 8) : 0x20 ≤ (Nat.digitChar number).toNat := by
    revert number
    decide
  unfold quoteChar at member
  by_cases special : mustQuote quotePath character = true
  · simp only [special, ↓reduceIte] at member
    cases escape : gitEscapeLetter character with
    | some letter =>
      simp only [escape, List.mem_cons, List.not_mem_nil, or_false] at member
      unfold gitEscapeLetter at escape
      split at escape <;> cases escape <;> rcases member with rfl | rfl <;> decide
    | none =>
      simp only [escape, List.mem_flatMap] at member
      obtain ⟨byte, -, member⟩ := member
      have bound := byte.toNat_lt
      simp only [octalEscape, List.mem_cons, List.not_mem_nil, or_false] at member
      rcases member with rfl | rfl | rfl | rfl
      · decide
      · exact digit _ (by omega)
      · exact digit _ (by omega)
      · exact digit _ (by omega)
  · simp only [special, Bool.false_eq_true, ↓reduceIte, List.mem_singleton] at member
    subst member
    refine Nat.le_of_not_lt fun low => special ?_
    simp [mustQuote, low]

/-- No control character stands in a written path. -/
theorem GitPath.le_of_mem_token (quotePath : Bool) (side : Char) (path : GitPath)
    (plain : 0x20 ≤ side.toNat) (written : Char) (member : written ∈ path.token quotePath side) :
    0x20 ≤ written.toNat := by
  cases quoted : path.quoted quotePath with
  | true =>
    rw [path.token_quoted quotePath side quoted] at member
    simp only [List.mem_cons, List.mem_append, List.not_mem_nil, or_false] at member
    rcases member with (rfl | inside) | rfl
    · decide
    · obtain ⟨character, -, member⟩ := List.mem_flatMap.mp inside
      exact le_of_mem_quoteChar quotePath character written member
    · decide
  | false =>
    rw [path.token_bare quotePath side quoted] at member
    rcases List.mem_cons.mp member with rfl | member
    · exact plain
    · rcases List.mem_cons.mp member with rfl | inside
      · decide
      · simp only [GitPath.quoted, List.any_eq_false] at quoted
        refine Nat.le_of_not_lt fun low => quoted written inside ?_
        simp [mustQuote, low]

end VirtTestTools.Policy
