import VirtTestTools.Policy.DiffSections

/-!
# A list of file changes and its diff

Modifications, additions, deletions and renames with any paths, each path written
in any of the ways that git has for it. `_added_lines_by_path` is to map exactly
the changed files, each to the numbers of its added lines.

The paths of the new side are written decodably. What can still go wrong is a
rename away from a bare path with a space: its header is not decoded, and without
a bare `+++` line nothing else names the file.
-/

namespace VirtTestTools.Policy

open Text

/-- A path with the way it is written, on one line. -/
structure WrittenPath where
  path : BytePath
  rendering : Rendering path
  plain : '\n' ∉ rendering.token 'b' := by decide

/-- What a change does to a file. -/
inductive ChangeStatus
  | modification
  | addition
  | deletion
  | rename
deriving DecidableEq, Repr

/-- The change of one file. Only a rename has two paths. -/
structure WrittenFile where
  kind : ChangeStatus
  old : WrittenPath
  new : WrittenPath
  same : kind ≠ .rename → old = new := by simp
  extended : ExtendedHeader
  diff : UnifiedDiff
  binary : Bool := false

namespace Rendering

variable {path : BytePath}

/-- Whether a rendering is not quoted. -/
def isBare : Rendering path → Bool
  | .quoted _ _ => false
  | .bare _ _ _ => true

/-- A token has no line end on either side. -/
theorem newline_not_mem_token (rendering : Rendering path) (side : Char) (other : side ≠ '\n')
    (plain : '\n' ∉ rendering.token 'b') : '\n' ∉ rendering.token side := by
  cases rendering with
  | quoted body written =>
    simp only [token, List.cons_append, List.mem_cons, not_or] at plain ⊢
    exact ⟨plain.1, other.symm, plain.2.2⟩
  | bare name encoded bare =>
    simp only [token, List.mem_cons, not_or] at plain ⊢
    exact ⟨other.symm, plain.2⟩

end Rendering

namespace WrittenFile

variable (file : WrittenFile)

/-- The path of the file: the new one, or the old one of a deletion. -/
def path : BytePath :=
  match file.kind with
  | .deletion => file.old.path
  | _ => file.new.path

/-- Whether the hunks are printed. -/
def printed : Bool := !file.diff.hunks.isEmpty && !file.binary

/-- New-side numbers of the added lines. -/
def addedLines : List Nat := file.diff.insertedLines.map Prod.fst

/-- A side as the lines of the file name it. -/
def side (letter : Char) (absent : ChangeStatus) (written : WrittenPath) : Text :=
  if file.kind = absent then "/dev/null".toList else written.rendering.token letter

/-- What the file has below its extended header. -/
def contents : Contents :=
  .written (file.side 'a' .addition file.old) (file.side 'b' .deletion file.new) file.diff
    file.binary

/-- The lines of the file in the diff. -/
def lines : List Text :=
  file.old.rendering.header file.new.rendering :: (file.extended.lines ++ file.contents.lines)

end WrittenFile

/-- The output of `git diff` for a list of changes. -/
def writeFiles (files : List WrittenFile) : Text := joinLines (files.flatMap WrittenFile.lines)

/-! ## Changes as sections -/

/-- A header is one line. -/
theorem newline_not_mem_header_line (old new : WrittenPath) :
    '\n' ∉ old.rendering.header new.rendering := by
  have opening : '\n' ∉ diffPrefix := by decide
  have before := old.rendering.newline_not_mem_token 'a' (by decide) old.plain
  simp only [Rendering.header, List.mem_append, List.mem_cons, not_or]
  exact ⟨⟨opening, before⟩, by decide, new.plain⟩

namespace WrittenFile

variable (file : WrittenFile)

/-- The name of a side is one line. -/
theorem newline_not_mem_side (letter : Char) (absent : ChangeStatus) (written : WrittenPath)
    (other : letter ≠ '\n') : '\n' ∉ file.side letter absent written := by
  unfold side
  split
  · decide
  · exact written.rendering.newline_not_mem_token letter other written.plain

/-- The section of the file. -/
def fileSection : FileSection where
  header := file.old.rendering.header file.new.rendering
  decoded := if file.old.rendering.spaced then none else file.new.rendering.key
  extended := file.extended
  contents := file.contents
  opened := by
    rw [Rendering.header, List.append_assoc]
    exact startsWith_append _ _
  read := Rendering.diffHeaderPath_header file.old.rendering file.new.rendering
  plainHeader := newline_not_mem_header_line file.old file.new
  plainContents := newline_not_mem_written _ _ file.diff file.binary
    (file.newline_not_mem_side 'a' .addition file.old (by decide))
    (file.newline_not_mem_side 'b' .deletion file.new (by decide))

/-- The contents add the added lines, and none if the file is binary. -/
theorem additions_contents :
    file.contents.additions = if file.binary then [] else file.addedLines :=
  Contents.additions_written _ _ file.diff file.binary

/-- The `+++` line names a bare new path. -/
theorem labelPath_contents (single : file.new.rendering.spaced = false)
    (kept : file.kind ≠ .deletion) :
    file.contents.labelPath =
      if file.printed && file.new.rendering.isBare then some file.new.path.path else none := by
  rw [contents, Contents.labelPath_written, side, if_neg kept, printed]
  cases shape : file.new.rendering with
  | quoted body written => simp [Rendering.token, Rendering.isBare, Contents.label, startsWith]
  | bare name encoded plain =>
    have absent : ' ' ∉ name := by simpa [shape, Rendering.spaced] using single
    have named := Rendering.ofText_name name encoded
    simp [Rendering.token, Rendering.isBare, Contents.label, startsWith, absent, named]

/-- The file is recorded under its path unless the header is undecodable and no
bare `+++` line is printed. -/
def Mapped : Prop :=
  file.old.rendering.spaced = true → file.printed = true ∧ file.new.rendering.isBare = true

instance : Decidable file.Mapped :=
  inferInstanceAs (Decidable (file.old.rendering.spaced = true → _))

/-- The section has the path of the file as its key when the file is mapped. -/
theorem key_fileSection (single : file.new.rendering.spaced = false) :
    file.fileSection.key none = if file.Mapped then some file.path.path else none := by
  have decoded := file.new.rendering.key_of_not_spaced single
  cases spaced : file.old.rendering.spaced with
  | false =>
    have same : file.path = file.new.path := by
      unfold path
      cases kind : file.kind <;> simp [file.same, kind]
    simp [FileSection.key, fileSection, Mapped, spaced, decoded, same]
  | true =>
    -- Only a rename has an old path that is written differently.
    have renamed : file.kind = .rename := by
      by_contra other
      rw [file.same other, single] at spaced
      cases spaced
    have label := file.labelPath_contents single (by simp [renamed])
    simp [FileSection.key, fileSection, Mapped, spaced, label, path, renamed]

end WrittenFile

/-! ## The whole diff -/

/-- The map that `_added_lines_by_path` returns has exactly the paths of the files
as keys, and the value of each is the set of its added lines. -/
def MapsExactly (files : List WrittenFile) : Prop :=
  ∃ addedLines, addedLinesByPath (writeFiles files) = .ok addedLines ∧
    (∀ path, (addedLines.get path).isSome ↔ ∃ file ∈ files, file.path.path = path) ∧
    ∀ file ∈ files, ∀ lines, addedLines.get file.path.path = some lines →
      ∀ number, number ∈ lines ↔ number ∈ file.addedLines

section Files

variable (files : List WrittenFile)
  (decodable : ∀ file ∈ files, file.new.rendering.spaced = false)

include decodable

/-- The sections of a path are those of its files that are recorded. -/
theorem mem_mappedSections (path : Path) (entry : FileSection) :
    entry ∈ mappedSections none (files.map WrittenFile.fileSection) path ↔
      ∃ file ∈ files, file.Mapped ∧ file.path.path = path ∧ entry = file.fileSection := by
  simp only [mappedSections, List.mem_filter, List.mem_map, decide_eq_true_eq]
  constructor
  · rintro ⟨⟨file, member, rfl⟩, key⟩
    rw [file.key_fileSection (decodable file member)] at key
    by_cases mapped : file.Mapped
    · exact ⟨file, member, mapped, by simpa [mapped] using key, rfl⟩
    · simp [mapped] at key
  · rintro ⟨file, member, mapped, rfl, rfl⟩
    refine ⟨⟨file, member, rfl⟩, ?_⟩
    rw [file.key_fileSection (decodable file member), if_pos mapped]

/-- What is read from the diff, file by file. -/
theorem addedLinesByPath_writeFiles :
    ∃ addedLines, addedLinesByPath (writeFiles files) = .ok addedLines ∧
      (∀ path, (addedLines.get path).isSome ↔
        ∃ file ∈ files, file.Mapped ∧ file.path.path = path) ∧
      ∀ path lines, addedLines.get path = some lines →
        ∀ number, number ∈ lines ↔ ∃ file ∈ files, file.Mapped ∧ file.path.path = path ∧
          file.binary = false ∧ number ∈ file.addedLines := by
  obtain ⟨addedLines, run, added⟩ := addedLinesByPath_sections none
    (files.map WrittenFile.fileSection)
  have written : (files.map WrittenFile.fileSection).flatMap FileSection.lines =
      files.flatMap WrittenFile.lines := by
    rw [List.flatMap_map]
    rfl
  rw [written] at run
  refine ⟨addedLines, run, fun path => ?_, fun path lines value number => ?_⟩
  · have recorded := mem_mappedSections files decodable path
    rw [added path]
    by_cases empty : mappedSections none (files.map WrittenFile.fileSection) path = []
    · simp only [empty, List.not_mem_nil, false_iff] at recorded
      simp only [ne_eq, reduceCtorEq, not_false_eq_true, empty, and_self, ↓reduceIte,
        Option.isSome_none, Bool.false_eq_true, false_iff]
      rintro ⟨file, member, mapped, same⟩
      exact recorded _ ⟨file, member, mapped, same, rfl⟩
    · obtain ⟨entry, member⟩ := List.exists_mem_of_ne_nil _ empty
      obtain ⟨file, inside, mapped, same, -⟩ := (recorded entry).mp member
      simp only [empty, and_false, ↓reduceIte, Option.isSome_some, true_iff]
      exact ⟨file, inside, mapped, same⟩
  · rw [added path] at value
    by_cases empty : mappedSections none (files.map WrittenFile.fileSection) path = []
    · simp [empty] at value
    · simp only [empty, and_false, ↓reduceIte, Option.some.injEq] at value
      rw [← value, List.mem_flatMap]
      constructor
      · rintro ⟨entry, member, inserted⟩
        obtain ⟨file, inside, mapped, same, rfl⟩ :=
          (mem_mappedSections files decodable path entry).mp member
        change number ∈ file.contents.additions at inserted
        rw [file.additions_contents] at inserted
        cases binary : file.binary with
        | true => simp [binary] at inserted
        | false => exact ⟨file, inside, mapped, same, binary, by simpa [binary] using inserted⟩
      · rintro ⟨file, inside, mapped, same, binary, inserted⟩
        refine ⟨file.fileSection, (mem_mappedSections files decodable path _).mpr
          ⟨file, inside, mapped, same, rfl⟩, ?_⟩
        change number ∈ file.contents.additions
        rwa [file.additions_contents, binary]

end Files

/-- The diff of one file gives its added lines, under the path that is given or under the one that
is read from it. -/
theorem addedLinesByPath_single (file : WrittenFile) (text : file.binary = false)
    (given : Option Path) :
    ∃ addedLines, addedLinesByPath (writeFiles [file]) given = .ok addedLines ∧
      (∀ path, given = some path → (addedLines.get path).isSome) ∧
      ∀ path lines, addedLines.get path = some lines → lines = file.addedLines := by
  obtain ⟨addedLines, run, added⟩ := addedLinesByPath_sections given [file.fileSection]
  have additions : file.fileSection.contents.additions = file.addedLines := by
    rw [WrittenFile.fileSection, file.additions_contents, text]
    rfl
  refine ⟨addedLines, run, fun path current => ?_, fun path lines value => ?_⟩
  · rw [added path]
    simp [current]
  · rw [added path] at value
    by_cases key : file.fileSection.key given = some path
    · have mapped : mappedSections given [file.fileSection] path = [file.fileSection] := by
        simp [mappedSections, key]
      simpa [mapped, additions, eq_comm] using value
    · have mapped : mappedSections given [file.fileSection] path = [] := by
        simp [mappedSections, key]
      have other : given ≠ some path := by
        rintro rfl
        exact key rfl
      simp [mapped, other] at value

/-- The staged diff is read exactly if and only if every file renamed away from a
bare path with a space has printed hunks and a bare new path, and no file with
added lines is shown as binary. -/
theorem staged_diff_exact_iff (files : List WrittenFile)
    (distinct : (files.map WrittenFile.path).Nodup)
    (decodable : ∀ file ∈ files, file.new.rendering.spaced = false) :
    MapsExactly files ↔
      ∀ file ∈ files,
        (file.old.rendering.spaced = true →
          file.printed = true ∧ file.new.rendering.isBare = true) ∧
        (file.binary = true → file.addedLines = []) := by
  obtain ⟨addedLines, run, keys, values⟩ := addedLinesByPath_writeFiles files decodable
  have unique : ∀ file ∈ files, ∀ other ∈ files, file.path.path = other.path.path →
      file = other := by
    intro file member other inside same
    exact List.inj_on_of_nodup_map distinct member inside (BytePath.path_injective same)
  constructor
  · rintro ⟨found, readAgain, exactKeys, exactValues⟩ file member
    obtain rfl : addedLines = found := Except.ok.inj (run.symm.trans readAgain)
    have present := (exactKeys file.path.path).mpr ⟨file, member, rfl⟩
    obtain ⟨other, inside, mapped, same⟩ := (keys file.path.path).mp present
    obtain rfl := unique other inside file member same
    refine ⟨mapped, fun binary => ?_⟩
    obtain ⟨lines, value⟩ := Option.isSome_iff_exists.mp present
    refine List.eq_nil_iff_forall_not_mem.mpr fun number inserted => ?_
    have shown := (exactValues other member lines value number).mpr inserted
    obtain ⟨again, inFiles, -, equal, notBinary, -⟩ := (values _ lines value number).mp shown
    rw [unique again inFiles other member equal, binary] at notBinary
    cases notBinary
  · intro condition
    refine ⟨addedLines, run, fun path => ?_, fun file member lines value number => ?_⟩
    · rw [keys path]
      constructor
      · rintro ⟨file, member, -, same⟩
        exact ⟨file, member, same⟩
      · rintro ⟨file, member, same⟩
        exact ⟨file, member, (condition file member).1, same⟩
    · rw [values file.path.path lines value number]
      constructor
      · rintro ⟨other, inside, -, same, -, inserted⟩
        rwa [unique other inside file member same] at inserted
      · intro inserted
        refine ⟨file, member, (condition file member).1, rfl, ?_, inserted⟩
        by_contra binary
        rw [(condition file member).2 (by simpa using binary)] at inserted
        cases inserted

/-- The path `c`, written as it is. -/
def pathC : WrittenPath where
  path := { parts := [[0x63]] }
  rendering := .bare ['c'] (by decide) (by decide)

/-- `a b` becomes `c`, both written as they are. -/
def spacedRename (extended : ExtendedHeader) (diff : UnifiedDiff) : WrittenFile where
  kind := .rename
  old := { path := { parts := [[0x61, 0x20, 0x62]] }
           rendering := .bare ['a', ' ', 'b'] (by decide) (by decide) }
  new := pathC
  extended := extended
  diff := diff

/-- With an added line the `+++` line names the new path. -/
theorem edited_rename_mapped :
    MapsExactly [spacedRename
      { lines := ["rename from a b".toList, "rename to c".toList] }
      { hunks := [{ skipped := [{ text := ['y'] }], body := [.insert { text := ['x'] }] }] }] :=
  (staged_diff_exact_iff [spacedRename
      { lines := ["rename from a b".toList, "rename to c".toList] }
      { hunks := [{ skipped := [{ text := ['y'] }], body := [.insert { text := ['x'] }] }] }]
    (by simp) (by simp [spacedRename, pathC, Rendering.spaced])).mpr (by
      simp only [List.mem_singleton, forall_eq]
      exact ⟨fun _ => by decide, fun binary => by cases binary⟩)

/-- An exact rename away from a path with a space is not mapped. -/
theorem exact_rename_not_mapped :
    let file := spacedRename
      { lines := ["similarity index 100%".toList, "rename from a b".toList, "rename to c".toList] }
      { hunks := [], rest := [{ text := ['y'] }] }
    [file.path].Nodup ∧ file.new.rendering.spaced = false ∧ ¬ MapsExactly [file] := by
  intro file
  refine ⟨by simp, by decide, ?_⟩
  rintro ⟨found, readAgain, exactKeys, -⟩
  obtain ⟨addedLines, run, keys, -⟩ := addedLinesByPath_writeFiles [file] (by
    simp only [List.mem_singleton, forall_eq]
    decide)
  obtain rfl : addedLines = found := Except.ok.inj (run.symm.trans readAgain)
  have present := (exactKeys file.path.path).mpr ⟨file, by simp, rfl⟩
  obtain ⟨other, inside, mapped, -⟩ := (keys file.path.path).mp present
  rw [List.mem_singleton.mp inside] at mapped
  exact absurd mapped (by decide)

end VirtTestTools.Policy
