import VirtTestTools.Policy.DiffSections
import VirtTestTools.Policy.GitPaths

/-!
# The staged diff

The diff that git writes for a list of files. Each file is a section of it, recorded
under the key that its header or its `+++` line decodes to.
-/

namespace VirtTestTools.Policy

open Text

/-- One file of a diff. A file with a `binary` or `-diff` attribute is printed
without its hunks. -/
structure FileDiff where
  oldPath : GitPath
  newPath : GitPath
  oldPresent : Bool := true
  newPresent : Bool := true
  extended : ExtendedHeader
  diff : UnifiedDiff
  binary : Bool := false

namespace FileDiff

variable (quotePath : Bool) (file : FileDiff)

/-- A side as the lines of the file name it. -/
def side (letter : Char) (present : Bool) (path : GitPath) : Text :=
  if present then path.token quotePath letter else "/dev/null".toList

/-- A side in the `---` and `+++` lines: a tab follows a name with a space. -/
def label (letter : Char) (present : Bool) (path : GitPath) : Text :=
  let name := side quotePath letter present path
  name ++ if ' ' ∈ name then ['\t'] else []

/-- The line that stands for the hunks of a binary file. -/
def binaryNotice : Text :=
  "Binary files ".toList ++ (side quotePath 'a' file.oldPresent file.oldPath ++ " and ".toList ++
    side quotePath 'b' file.newPresent file.newPath ++ " differ".toList)

/-- The lines below the extended header. -/
def body : List Text :=
  if file.diff.hunks.isEmpty then []
  else if file.binary then [file.binaryNotice quotePath]
  else
    ("--- ".toList ++ label quotePath 'a' file.oldPresent file.oldPath) ::
      ("+++ ".toList ++ label quotePath 'b' file.newPresent file.newPath) ::
        UnifiedDiff.hunkLines 0 0 file.diff.hunks

/-- The lines of the file. -/
def lines : List Text :=
  diffHeader quotePath file.oldPath file.newPath :: (file.extended.lines ++ file.body quotePath)

/-- Whether the hunks are printed. -/
def printed : Bool := !file.diff.hunks.isEmpty && !file.binary

/-- The path that the `+++` line names for a header that could not be decoded. -/
def fallbackKey : Option Path :=
  if file.printed && file.newPresent && !file.newPath.quoted quotePath then
    some (Path.ofText (file.newPath.text ++ if ' ' ∈ file.newPath.text then ['\t'] else []))
  else none

/-- The path under which the file is recorded. -/
def key : Option Path :=
  (headerKey quotePath file.oldPath file.newPath).or (file.fallbackKey quotePath)

end FileDiff

/-- The output of `git diff` for a list of files. -/
def writeDiff (quotePath : Bool) (files : List FileDiff) : Text :=
  joinLines (files.flatMap (FileDiff.lines quotePath))

/-! ## Lines of a file -/

/-- No control character stands in the name of a side. -/
theorem le_of_mem_side (quotePath : Bool) (letter : Char) (present : Bool) (path : GitPath)
    (plain : 0x20 ≤ letter.toNat) (written : Char)
    (member : written ∈ FileDiff.side quotePath letter present path) : 0x20 ≤ written.toNat := by
  unfold FileDiff.side at member
  cases present with
  | true => exact path.le_of_mem_token quotePath letter plain written member
  | false =>
    have all : "/dev/null".toList.all (0x20 ≤ ·.toNat) = true := by decide +kernel
    exact of_decide_eq_true (List.all_eq_true.mp all written member)

/-- A header has no control characters. -/
theorem le_of_mem_diffHeader (quotePath : Bool) (oldPath newPath : GitPath) (written : Char)
    (member : written ∈ diffHeader quotePath oldPath newPath) : 0x20 ≤ written.toNat := by
  have all : diffPrefix.all (0x20 ≤ ·.toNat) = true := by decide +kernel
  simp only [diffHeader, List.mem_append, List.mem_cons] at member
  rcases member with (opening | old) | rfl | new
  · exact of_decide_eq_true (List.all_eq_true.mp all written opening)
  · exact oldPath.le_of_mem_token quotePath 'a' (by decide) written old
  · decide
  · exact newPath.le_of_mem_token quotePath 'b' (by decide) written new

/-! ## Files as sections -/

namespace FileDiff

variable (quotePath : Bool) (file : FileDiff)

/-- What the file has below its extended header. -/
def contents : Contents :=
  .written (side quotePath 'a' file.oldPresent file.oldPath)
    (side quotePath 'b' file.newPresent file.newPath) file.diff file.binary

/-- The lines of the contents are the body of the file. -/
theorem lines_contents : (file.contents quotePath).lines = file.body quotePath := by
  rw [contents, Contents.written, body]
  split
  · rfl
  · split <;> rfl

/-- The section of the file. -/
def fileSection : FileSection where
  header := diffHeader quotePath file.oldPath file.newPath
  decoded := headerKey quotePath file.oldPath file.newPath
  extended := file.extended
  contents := file.contents quotePath
  opened := by
    rw [diffHeader, List.append_assoc]
    exact startsWith_append _ _
  read := diffHeaderPath_diffHeader quotePath file.oldPath file.newPath
  plainHeader := fun member =>
    absurd (le_of_mem_diffHeader quotePath file.oldPath file.newPath '\n' member) (by decide)
  plainContents := newline_not_mem_written _ _ file.diff file.binary
    (fun member => absurd (le_of_mem_side quotePath 'a' file.oldPresent file.oldPath (by decide)
      '\n' member) (by decide))
    (fun member => absurd (le_of_mem_side quotePath 'b' file.newPresent file.newPath (by decide)
      '\n' member) (by decide))

/-- The lines of the section are those of the file. -/
theorem lines_fileSection : (file.fileSection quotePath).lines = file.lines quotePath := by
  simp only [FileSection.lines, fileSection, lines_contents, lines]

/-- The `+++` line names the new path if it is bare. -/
theorem labelPath_contents : (file.contents quotePath).labelPath = file.fallbackKey quotePath := by
  rw [contents, Contents.labelPath_written, fallbackKey, printed, side]
  cases file.newPresent with
  | false => simp [Contents.label, startsWith]
  | true =>
    cases quoted : file.newPath.quoted quotePath with
    | true =>
      rw [if_pos rfl, file.newPath.token_quoted quotePath 'b' quoted]
      simp [Contents.label, startsWith]
    | false =>
      have space : ' ' ∈ 'b' :: '/' :: file.newPath.text ↔ ' ' ∈ file.newPath.text := by simp
      rw [if_pos rfl, file.newPath.token_bare quotePath 'b' quoted]
      simp [Contents.label, startsWith, space]

/-- The key of the section is that of the file. -/
theorem key_fileSection : (file.fileSection quotePath).key none = file.key quotePath := by
  simp only [FileSection.key, fileSection, labelPath_contents, key, Option.none_or]

end FileDiff

/-- The files that are recorded under a path. -/
def mappedFiles (quotePath : Bool) (files : List FileDiff) (path : Path) : List FileDiff :=
  files.filter fun file => file.key quotePath = some path

end VirtTestTools.Policy
