import VirtTestTools.Policy.DiffReading

/-!
# Staged changes and the filter on added lines

`_staged_changes` of `check_policy.py` combines four outputs of git into the
snapshot that the checks look at, and `_resolved_added_lines` answers, for one
path, which of its lines are new: a set of lines, or `none` to check every line.

Git is a function from commands to outputs. The second half of the module gives
these outputs for a staged snapshot: an arbitrary list of changes with the diff
of each, printed as hunks or, for a path with a `binary` or `-diff` attribute, as
a notice. They are read in text mode, so that a carriage return ends a line of the
index as well. The filter keeps every added line of a path unless the notice stands
where the hunks of a path with a version in HEAD are expected, or a lone carriage
return moves the numbers of the lines.
-/

namespace VirtTestTools.Policy

open Text

/-- `_StagedEntry`. -/
structure StagedEntry where
  status : Char
  path : Path
  headPath : Option Path
  sourcePath : Option Path := none
deriving DecidableEq

/-- The loop of `_parse_staged_entries`. -/
def parseFields : List Text → Except PolicyError (List StagedEntry)
  | [] => .ok []
  | [] :: _ | [_ :: _] => .error .indexError
  | (status :: _) :: first :: rest =>
    let firstPath := Path.ofText first
    if status = 'R' ∨ status = 'C' then
      match rest with
      | [] => .error .indexError
      | second :: rest =>
        let entry : StagedEntry :=
          { status := status, path := Path.ofText second
            headPath := if status = 'R' then some firstPath else none
            sourcePath := some firstPath }
        (entry :: ·) <$> parseFields rest
    else
      let entry : StagedEntry :=
        { status := status, path := firstPath
          headPath := if status = 'A' then none else some firstPath }
      (entry :: ·) <$> parseFields rest

/-- `_parse_staged_entries`. -/
def parseStagedEntries (statusOutput : Text) : Except PolicyError (List StagedEntry) :=
  parseFields ((split ['\x00'] statusOutput).filter (· ≠ []))

/-- The paths that renames leave behind. -/
def renamedAway (entries : List StagedEntry) : List Path :=
  (entries.filter (·.status = 'R')).filterMap StagedEntry.headPath

/-- `_parse_staged_status`. -/
def parseStagedStatus (statusOutput : Text) : Except PolicyError (List Path) := do
  let entries ← parseStagedEntries statusOutput
  return (entries.filter (·.status = 'D')).map StagedEntry.path ++ renamedAway entries

/-- `_parse_index_stage_records`. -/
def parseIndexStageRecords (output : Text) : List (Text × Path) :=
  (split ['\x00'] output).filterMap fun record =>
    if '\t' ∈ record then
      let metadata := record.takeWhile (· ≠ '\t')
      some (metadata.takeWhile (· ≠ ' '), Path.ofText ((record.dropWhile (· ≠ '\t')).drop 1))
    else none

/-- The commands of git whose output is read. -/
inductive GitCommand
  /-- `git diff --cached --find-renames --name-status -z --` -/
  | nameStatus
  /-- `git ls-files --stage -z --` -/
  | stageRecords
  /-- `git diff` with `_STAGED_DIFF_OPTIONS` -/
  | stagedDiff
  /-- `git show :0:{path}` -/
  | showIndex (path : Path)
  /-- `git show HEAD:{path}` -/
  | showHead (path : Path)

/-- `_git_output`: the standard output of a command that succeeds. -/
abbrev Git := GitCommand → Except PolicyError Text

/-- `_symlinked_staged_paths`. -/
def symlinkedStagedPaths (git : Git) (stagedPaths : List Path) : Except PolicyError (List Path) := do
  let output ← git .stageRecords
  return ((parseIndexStageRecords output).filter fun record =>
    record.1 = "120000".toList ∧ record.2 ∈ stagedPaths).map Prod.snd

/-- A dictionary of file contents, for keys with the command that shows them. -/
def readSources (git : Git) (commands : List (Path × GitCommand)) :
    Except PolicyError (Dict Path Text) :=
  commands.foldlM (fun sources item => do return sources.set item.1 (← git item.2)) ∅

/-- `StagedChanges`. -/
structure StagedChanges where
  changedPaths : List Path
  deletedPaths : List Path
  renamedPaths : List Path
  renamedAwayPaths : List Path
  symlinkedPaths : List Path
  addedLines : Dict Path (List Nat)
  sources : Dict Path Text
  headSources : Dict Path Text
  copiedPaths : List Path
deriving DecidableEq

/-- `EXCEPTIONS_PATH`. -/
def exceptionsPath : Path := Path.ofText "scripts/pre_commit_hooks/exceptions.toml".toList

/-- The suffix of a Python file. -/
def pythonSuffix : FsText := FsText.ofText ['.', 'p', 'y']

/-- The lines of a source, counted from one. -/
def allLines (source : Text) : List Nat := List.range' 1 (split ['\n'] source).length

/-- `_staged_changes`. -/
def stagedChanges (git : Git) : Except PolicyError StagedChanges := do
  let statusOutput ← git .nameStatus
  let entries ← parseStagedEntries statusOutput
  let deletedPaths ← parseStagedStatus statusOutput
  let changedPaths := entries.map StagedEntry.path
  let renamedPaths := (entries.filter (·.status = 'R')).map StagedEntry.path
  let renamedAwayPaths := renamedAway entries
  let activeEntries := entries.filter (·.status ≠ 'D')
  if activeEntries.isEmpty then
    return {
      changedPaths := changedPaths, deletedPaths := deletedPaths, renamedPaths := renamedPaths
      renamedAwayPaths := renamedAwayPaths, symlinkedPaths := [], addedLines := ∅, sources := ∅
      headSources := ∅, copiedPaths := [] }
  let symlinkedPaths ← symlinkedStagedPaths git (activeEntries.map StagedEntry.path)
  let pythonEntries := activeEntries.filter (·.path.suffix = pythonSuffix)
  let stagedDiff ← if pythonEntries.isEmpty then .ok [] else git .stagedDiff
  let addedLines ← addedLinesByPath stagedDiff
  let knownPaths := changedPaths ++ entries.filterMap StagedEntry.sourcePath
  let mappedLines := addedLines.filterMap fun path lines =>
    if path ∈ knownPaths then some lines else none
  let sourceEntries := activeEntries.filter fun entry =>
    (entry.path.suffix = pythonSuffix ∨ entry.path = exceptionsPath) ∧ entry.path ∉ symlinkedPaths
  let sourcePaths := sourceEntries.map StagedEntry.path
  let sources ← readSources git (sourcePaths.map fun path => (path, .showIndex path))
  let copiedPaths := (activeEntries.filter (·.status = 'C')).map StagedEntry.path
  let copiedLines := copiedPaths.filterMap fun path =>
    (sources.get path).map fun source => (path, allLines source)
  let headSources ← readSources git (activeEntries.filterMap fun entry =>
    if entry.path ∈ sourcePaths then entry.headPath.map fun path => (entry.path, .showHead path)
    else none)
  return {
    changedPaths := changedPaths, deletedPaths := deletedPaths, renamedPaths := renamedPaths
    renamedAwayPaths := renamedAwayPaths, symlinkedPaths := symlinkedPaths
    addedLines := mappedLines.update copiedLines, sources := sources
    headSources := headSources, copiedPaths := copiedPaths }

/-- `_resolved_added_lines`. -/
def resolvedAddedLines (staged : StagedChanges) (filePath : Path) : Option (List Nat) :=
  match staged.addedLines.get filePath with
  | none => if staged.sources.has filePath then none else some []
  | some lines =>
    if filePath ∈ staged.changedPaths ∧ (staged.sources.get filePath).isSome ∧ lines = [] ∧
        staged.headSources.get filePath = none then
      none
    else some lines

/-! ## Staged snapshots -/

/-- A path as it is read where git prints it without quotes. -/
def GitPath.read (path : GitPath) : Path := Path.ofText (universalNewlines path.text)

/-- What was done to a file. A changed type is printed as a removal and a
creation, each with its own header. -/
inductive ChangeKind
  | added
  | deleted
  | modified
  | typeChanged (removal : ExtendedHeader)
  | renamed (score : Nat) (source : GitPath)
  | copied (score : Nat) (source : GitPath)

namespace ChangeKind

/-- The letter of the status. -/
def letter : ChangeKind → Char
  | .added => 'A'
  | .deleted => 'D'
  | .modified => 'M'
  | .typeChanged _ => 'T'
  | .renamed _ _ => 'R'
  | .copied _ _ => 'C'

/-- The other path of a rename or copy. -/
def source : ChangeKind → Option GitPath
  | .renamed _ source | .copied _ source => some source
  | _ => none

/-- A similarity in three digits. -/
def similarity (score : Nat) : Text :=
  [Nat.digitChar (score / 100 % 10), Nat.digitChar (score / 10 % 10), Nat.digitChar (score % 10)]

/-- The status of `--name-status`: a similarity follows the letter of a rename or
copy. -/
def status : ChangeKind → Text
  | .renamed score _ => 'R' :: similarity score
  | .copied score _ => 'C' :: similarity score
  | kind => [kind.letter]

end ChangeKind

/-- A staged change of one file, with the diff from its old to its new text. -/
structure FileChange where
  kind : ChangeKind
  path : GitPath
  extended : ExtendedHeader
  diff : UnifiedDiff
  binary : Bool := false

namespace FileChange

variable (change : FileChange)

/-- The path of the version in HEAD. -/
def headPath : Option Path :=
  match change.kind with
  | .added | .copied _ _ => none
  | .renamed _ source => some source.path
  | _ => some change.path.path

/-- The files that git prints for the change. -/
def files : List FileDiff :=
  match change.kind with
  | .typeChanged removal =>
    [{ oldPath := change.path, newPath := change.path, newPresent := false, extended := removal
       diff := change.diff.removal },
     { oldPath := change.path, newPath := change.path, oldPresent := false
       extended := change.extended, diff := change.diff.creation, binary := change.binary }]
  | kind =>
    [{ oldPath := kind.source.getD change.path, newPath := change.path
       oldPresent := kind.letter ≠ 'A', newPresent := kind.letter ≠ 'D'
       extended := change.extended, diff := change.diff, binary := change.binary }]

/-- The fields of `--name-status -z`. -/
def statusFields : List Text :=
  change.kind.status :: (change.kind.source.map GitPath.text).toList ++ [change.path.text]

/-- The path of the version in HEAD, as it is read. -/
def readHeadPath : Option Path :=
  match change.kind with
  | .added | .copied _ _ => none
  | .renamed _ source => some source.read
  | _ => some change.path.read

/-- The entry that the fields are read as. -/
def entry : StagedEntry where
  status := change.kind.letter
  path := change.path.read
  headPath := change.readHeadPath
  sourcePath := change.kind.source.map GitPath.read

/-- Numbers of the lines that the change adds, in the new text as it is read. -/
def addedLines : List Nat := gainedFrom 1 change.diff.script

end FileChange

/-- The modes of index entries. -/
inductive FileMode
  | regular
  | executable
  | symlink
  | submodule
deriving DecidableEq

/-- The mode as git prints it. -/
def FileMode.text : FileMode → Text
  | .regular => "100644".toList
  | .executable => "100755".toList
  | .symlink => "120000".toList
  | .submodule => "160000".toList

/-- An entry of the index. -/
structure IndexRecord where
  mode : FileMode
  object : Text
  path : GitPath
  plain : '\t' ∉ object ∧ '\x00' ∉ object ∧ '\r' ∉ object := by decide

/-- The record of `git ls-files --stage -z`. -/
def IndexRecord.text (record : IndexRecord) : Text :=
  record.mode.text ++ ' ' :: record.object ++ " 0\t".toList ++ record.path.text

/-- A staged snapshot: the changes between HEAD and the index, and both. -/
structure Snapshot where
  quotePath : Bool := true
  changes : List FileChange
  tracked : List IndexRecord
  head : Path → Option Text
  index : Path → Option Text
  distinct : (changes.map fun change => change.path.path).Nodup
  head_old : ∀ change ∈ changes, ∀ path, change.headPath = some path →
    head path = some change.diff.oldText
  index_new : ∀ change ∈ changes, change.kind.letter ≠ 'D' →
    index change.path.path = some change.diff.newText

namespace Snapshot

variable (snapshot : Snapshot)

/-- The files of the staged diff. -/
def files : List FileDiff := snapshot.changes.flatMap FileChange.files

/-- What git prints about the snapshot. -/
def printed : GitCommand → Except PolicyError Text
  | .nameStatus =>
    .ok ((snapshot.changes.flatMap FileChange.statusFields).flatMap (· ++ ['\x00']))
  | .stageRecords => .ok ((snapshot.tracked.map IndexRecord.text).flatMap (· ++ ['\x00']))
  | .stagedDiff => .ok (writeDiff snapshot.quotePath snapshot.files)
  | .showIndex path => (snapshot.index path).elim (.error .runtimeError) .ok
  | .showHead path => (snapshot.head path).elim (.error .runtimeError) .ok

/-- What is read of it, in text mode. -/
def git : Git := fun command => universalNewlines <$> snapshot.printed command

end Snapshot

/-! ## Reading the outputs -/

/-- An entry with one path. -/
theorem parseFields_single (status : Char) (more first : Text) (rest : List Text)
    (single : status ≠ 'R' ∧ status ≠ 'C') :
    parseFields ((status :: more) :: first :: rest) =
      (({ status := status, path := Path.ofText first
          headPath := if status = 'A' then none else some (Path.ofText first) } : StagedEntry) :: ·)
        <$> parseFields rest := by
  rw [parseFields.eq_def]
  simp [single]

/-- An entry with two paths. -/
theorem parseFields_pair (status : Char) (more first second : Text) (rest : List Text)
    (pair : status = 'R' ∨ status = 'C') :
    parseFields ((status :: more) :: first :: second :: rest) =
      (({ status := status, path := Path.ofText second
          headPath := if status = 'R' then some (Path.ofText first) else none
          sourcePath := some (Path.ofText first) } : StagedEntry) :: ·) <$> parseFields rest := by
  rw [parseFields.eq_def]
  simp [pair]

/-- A similarity has no carriage return. -/
theorem ChangeKind.return_not_mem_similarity (score : Nat) : '\r' ∉ similarity score := by
  have digit (number : Nat) : '\r' ≠ Nat.digitChar (number % 10) := by
    have bound : number % 10 < 10 := Nat.mod_lt _ (by decide)
    revert bound
    generalize number % 10 = digit
    revert digit
    decide
  simp [similarity, digit]

/-- A status has no carriage return. -/
theorem ChangeKind.universalNewlines_status (kind : ChangeKind) :
    universalNewlines kind.status = kind.status := by
  refine universalNewlines_of_not_mem _ ?_
  cases kind with
  | renamed score source => simp [ChangeKind.status, return_not_mem_similarity]
  | copied score source => simp [ChangeKind.status, return_not_mem_similarity]
  | added => decide
  | deleted => decide
  | modified => decide
  | typeChanged removal => simp [ChangeKind.status, ChangeKind.letter]

/-- The fields of a change are read as its entry. -/
theorem parseFields_change (change : FileChange) (rest : List Text) :
    parseFields (change.statusFields.map universalNewlines ++ rest) =
      (change.entry :: ·) <$> parseFields rest := by
  obtain ⟨kind, path, extended, diff, binary⟩ := change
  rw [FileChange.statusFields, List.map_append, List.map_cons, kind.universalNewlines_status]
  cases kind with
  | added => exact parseFields_single 'A' [] (universalNewlines path.text) rest (by decide)
  | deleted => exact parseFields_single 'D' [] (universalNewlines path.text) rest (by decide)
  | modified => exact parseFields_single 'M' [] (universalNewlines path.text) rest (by decide)
  | typeChanged removal =>
    exact parseFields_single 'T' [] (universalNewlines path.text) rest (by decide)
  | renamed score source =>
    exact parseFields_pair 'R' (ChangeKind.similarity score) (universalNewlines source.text)
      (universalNewlines path.text) rest (by decide)
  | copied score source =>
    exact parseFields_pair 'C' (ChangeKind.similarity score) (universalNewlines source.text)
      (universalNewlines path.text) rest (by decide)

/-- Records whose fields are read one record after the other. -/
theorem parseFields_flatMap {α : Type} {fields : α → List Text} {entry : α → StagedEntry}
    (each : ∀ item rest, parseFields (fields item ++ rest) = (entry item :: ·) <$> parseFields rest)
    (items : List α) : parseFields (items.flatMap fields) = .ok (items.map entry) := by
  induction items with
  | nil => rfl
  | cons item rest inductionHypothesis =>
    rw [List.flatMap_cons, each, inductionHypothesis]
    rfl

/-- Such records are read back when each field is followed by the separator. -/
theorem parseStagedEntries_flatMap {α : Type} {fields : α → List Text} {entry : α → StagedEntry}
    (each : ∀ item rest, parseFields (fields item ++ rest) = (entry item :: ·) <$> parseFields rest)
    (fieldsPlain : ∀ item, ∀ field ∈ fields item, field ≠ [] ∧ '\x00' ∉ field) (items : List α) :
    parseStagedEntries ((items.flatMap fields).flatMap (· ++ ['\x00'])) = .ok (items.map entry) := by
  have plain : ∀ field ∈ items.flatMap fields, field ≠ [] ∧ '\x00' ∉ field := by
    intro field member
    obtain ⟨item, -, member⟩ := List.mem_flatMap.mp member
    exact fieldsPlain item field member
  have kept : (items.flatMap fields ++ [[]]).filter (· ≠ []) = items.flatMap fields := by
    rw [List.filter_append, List.filter_eq_self.mpr fun field member =>
      decide_eq_true (plain field member).1]
    simp
  rw [parseStagedEntries, split_terminated _ _ fun field member => (plain field member).2, kept,
    parseFields_flatMap each]

/-- No path is empty. -/
theorem GitPath.text_ne_nil (path : GitPath) : path.text ≠ [] := by
  obtain ⟨first, rest, shape, -⟩ := path.text_eq_cons
  simp [shape]

/-- A similarity has no NUL. -/
theorem ChangeKind.similarity_plain (score : Nat) : '\x00' ∉ similarity score := by
  have digit (number : Nat) : '\x00' ≠ Nat.digitChar (number % 10) := by
    have bound : number % 10 < 10 := Nat.mod_lt _ (by decide)
    revert bound
    generalize number % 10 = digit
    revert digit
    decide
  simp [similarity, digit]

/-- A status is neither empty nor contains the separator. -/
theorem ChangeKind.status_plain (kind : ChangeKind) : kind.status ≠ [] ∧ '\x00' ∉ kind.status := by
  cases kind with
  | renamed score source => simp [ChangeKind.status, similarity_plain]
  | copied score source => simp [ChangeKind.status, similarity_plain]
  | added => decide
  | deleted => decide
  | modified => decide
  | typeChanged removal => simp [ChangeKind.status, ChangeKind.letter]

/-- The fields of a status are not empty and have no NUL. -/
theorem FileChange.statusFields_plain (change : FileChange) :
    ∀ field ∈ change.statusFields.map universalNewlines, field ≠ [] ∧ '\x00' ∉ field := by
  have raw : ∀ field ∈ change.statusFields, field ≠ [] ∧ '\x00' ∉ field := by
    intro field member
    simp only [FileChange.statusFields, List.cons_append, List.mem_cons, List.mem_append,
      Option.mem_toList, Option.map_eq_some_iff, List.not_mem_nil, or_false] at member
    rcases member with rfl | ⟨source, -, rfl⟩ | rfl
    · exact change.kind.status_plain
    · exact ⟨source.text_ne_nil, source.nul_not_mem_text⟩
    · exact ⟨change.path.text_ne_nil, change.path.nul_not_mem_text⟩
  intro read member
  obtain ⟨field, inside, rfl⟩ := List.mem_map.mp member
  obtain ⟨nonempty, plain⟩ := raw field inside
  exact ⟨universalNewlines_ne_nil field nonempty, fun nul =>
    plain (mem_universalNewlinesFrom false field '\x00' (by decide) nul)⟩

/-- The output of `--name-status` is read as the entries of the changes. -/
theorem parseStagedEntries_git (changes : List FileChange) :
    parseStagedEntries (universalNewlines
        ((changes.flatMap FileChange.statusFields).flatMap (· ++ ['\x00']))) =
      .ok (changes.map FileChange.entry) := by
  rw [universalNewlines_terminated '\x00' _ (by decide) (by decide), List.map_flatMap]
  exact parseStagedEntries_flatMap parseFields_change FileChange.statusFields_plain changes

/-- The record is cut at its tab. -/
theorem IndexRecord.text_eq (record : IndexRecord) :
    record.text = (record.mode.text ++ ' ' :: record.object ++ " 0".toList) ++
      '\t' :: record.path.text := by
  have cut : " 0\t".toList = " 0".toList ++ ['\t'] := rfl
  rw [IndexRecord.text, cut]
  simp only [List.append_assoc, List.cons_append, List.nil_append]

/-- A mode has no separator. -/
theorem FileMode.text_plain (mode : FileMode) :
    '\t' ∉ mode.text ∧ '\x00' ∉ mode.text ∧ ' ' ∉ mode.text := by
  cases mode <;> decide

/-- Only the path of a record may be read as another one. -/
theorem IndexRecord.universalNewlines_text (record : IndexRecord) :
    universalNewlines record.text = (record.mode.text ++ ' ' :: record.object ++ " 0".toList) ++
      '\t' :: universalNewlines record.path.text := by
  have mode : '\r' ∉ record.mode.text := by cases record.mode <;> decide
  have whole : '\r' ∉ record.mode.text ++ ' ' :: record.object ++ " 0".toList := by
    simp only [List.mem_append, List.mem_cons, not_or]
    exact ⟨⟨mode, by decide, record.plain.2.2⟩, by decide⟩
  have metadata := universalNewlines_of_not_mem _ whole
  rw [record.text_eq, universalNewlines,
    universalNewlinesFrom_append false _ record.path.text '\t' (by decide) (by decide)]
  exact congrArg (· ++ '\t' :: universalNewlines record.path.text) metadata

/-- A record of the index has no NUL. -/
theorem IndexRecord.nul_not_mem_text (record : IndexRecord) :
    '\x00' ∉ universalNewlines record.text := by
  rw [record.universalNewlines_text]
  simp only [List.mem_append, List.mem_cons, not_or]
  exact ⟨⟨⟨record.mode.text_plain.2.1, by decide, record.plain.2.1⟩, by decide⟩, by decide,
    fun nul => record.path.nul_not_mem_text
      (mem_universalNewlinesFrom false record.path.text '\x00' (by decide) nul)⟩

/-- A record of the index is read as its mode and path. -/
theorem parseIndexStageRecords_git (tracked : List IndexRecord) :
    parseIndexStageRecords (universalNewlines
        ((tracked.map IndexRecord.text).flatMap (· ++ ['\x00']))) =
      tracked.map fun record => (record.mode.text, record.path.read) := by
  rw [universalNewlines_terminated '\x00' _ (by decide) (by decide), List.map_map]
  have plain : ∀ text ∈ tracked.map (universalNewlines ∘ IndexRecord.text), '\x00' ∉ text := by
    intro text member
    obtain ⟨record, -, rfl⟩ := List.mem_map.mp member
    exact record.nul_not_mem_text
  rw [parseIndexStageRecords, split_terminated _ _ plain, List.filterMap_append,
    List.filterMap_map]
  simp only [List.filterMap_cons, List.not_mem_nil, ↓reduceIte, List.filterMap_nil, List.append_nil]
  rw [← List.filterMap_eq_map]
  refine List.filterMap_congr fun record _ => ?_
  have passed : ∀ character ∈ record.mode.text ++ ' ' :: record.object ++ " 0".toList,
      decide (character ≠ '\t') = true := by
    intro character member
    refine decide_eq_true fun tab => ?_
    subst tab
    simp only [List.mem_append, List.mem_cons] at member
    rcases member with (inMode | space | inObject) | inEnding
    · exact record.mode.text_plain.1 inMode
    · exact absurd space (by decide)
    · exact record.plain.1 inObject
    · exact absurd inEnding (by decide)
  have mode : ∀ character ∈ record.mode.text, decide (character ≠ ' ') = true := fun _ member =>
    decide_eq_true fun space => record.mode.text_plain.2.2 (space ▸ member)
  have tab : '\t' ∈ universalNewlines record.text := by
    rw [record.universalNewlines_text]
    simp
  have metadata : ((universalNewlines record.text).takeWhile (decide <| · ≠ '\t')).takeWhile
      (decide <| · ≠ ' ') = record.mode.text := by
    rw [record.universalNewlines_text, List.takeWhile_append_of_pos passed]
    simp only [List.takeWhile_cons, ne_eq, not_true_eq_false, decide_false, Bool.false_eq_true,
      ↓reduceIte, List.append_nil, List.append_assoc]
    rw [List.takeWhile_append_of_pos mode]
    simp
  have behind : ((universalNewlines record.text).dropWhile (decide <| · ≠ '\t')).drop 1 =
      universalNewlines record.path.text := by
    rw [record.universalNewlines_text, List.dropWhile_append_of_pos passed]
    simp
  simp only [Function.comp_apply, tab, ↓reduceIte, metadata, behind, GitPath.read]

/-- Among the staged paths those are found that are read like symbolic links of the index. -/
theorem symlinkedStagedPaths_git (snapshot : Snapshot) (stagedPaths : List Path) :
    ∃ symlinked, symlinkedStagedPaths snapshot.git stagedPaths = .ok symlinked ∧
      ∀ path, path ∈ symlinked ↔ path ∈ stagedPaths ∧ ∃ record ∈ snapshot.tracked,
        record.path.read = path ∧ record.mode = .symlink := by
  have link (mode : FileMode) : mode.text = "120000".toList ↔ mode = .symlink := by
    cases mode <;> decide
  refine ⟨_, rfl, fun path => ?_⟩
  simp only [parseIndexStageRecords_git, List.mem_map, List.mem_filter, decide_eq_true_eq]
  constructor
  · rintro ⟨⟨mode, found⟩, ⟨⟨record, tracked, shape⟩, isLink, staged⟩, rfl⟩
    obtain ⟨rfl, rfl⟩ := Prod.mk.inj shape
    exact ⟨staged, record, tracked, rfl, (link record.mode).mp isLink⟩
  · rintro ⟨staged, record, tracked, rfl, isLink⟩
    exact ⟨(record.mode.text, record.path.read), ⟨⟨record, tracked, rfl⟩,
      (link record.mode).mpr isLink, staged⟩, rfl⟩

/-- Sources are read for exactly the keys, if every command succeeds. -/
theorem readSources_ok (git : Git) (commands : List (Path × GitCommand))
    (succeeds : ∀ item ∈ commands, ∃ text, git item.2 = .ok text) (known : Dict Path Text) :
    ∃ sources,
      commands.foldlM (fun sources item => do return sources.set item.1 (← git item.2)) known =
        .ok sources ∧
      (∀ path, (sources.get path).isSome = true ↔
        path ∈ commands.map Prod.fst ∨ (known.get path).isSome = true) ∧
      ∀ path text, sources.get path = some text →
        (∃ command, (path, command) ∈ commands ∧ git command = .ok text) ∨
          known.get path = some text := by
  induction commands generalizing known with
  | nil => exact ⟨known, rfl, fun path => by simp, fun path text found => Or.inr found⟩
  | cons item commands inductionHypothesis =>
    obtain ⟨shown, success⟩ := succeeds item (by simp)
    obtain ⟨sources, run, keys, values⟩ := inductionHypothesis
      (fun other member => succeeds other (List.mem_cons_of_mem _ member))
      (known.set item.1 shown)
    refine ⟨sources, ?_, fun path => ?_, fun path text found => ?_⟩
    · rw [List.foldlM_cons, success]
      exact run
    · rw [keys, Dict.get_set, List.map_cons, List.mem_cons]
      by_cases same : path = item.1 <;> simp [same]
    · rcases values path text found with ⟨command, member, shows⟩ | old
      · exact Or.inl ⟨command, List.mem_cons_of_mem _ member, shows⟩
      · rw [Dict.get_set] at old
        by_cases same : path = item.1
        · simp only [same, ↓reduceIte, Option.some.injEq] at old
          exact Or.inl ⟨item.2, by simp [same], old ▸ success⟩
        · simp only [same, ↓reduceIte] at old
          exact Or.inr old

/-- The lines that a copied path counts as added include those of its diff. -/
theorem addedLines_subset_allLines (change : FileChange) :
    change.addedLines ⊆ allLines (universalNewlines change.diff.newText) := by
  intro number inside
  have bounds := gainedFrom_bounds 1 change.diff.script number inside
  have pieces := readLength_le _ change.diff.newClosed
  have numbered : 1 ≤ number ∧
      number < 1 + (split ['\n'] (universalNewlines change.diff.newText)).length :=
    ⟨bounds.1, Nat.lt_of_lt_of_le bounds.2 (Nat.add_le_add_left pieces 1)⟩
  exact List.mem_range'_1.mpr numbered

/-- A path without carriage returns is read as it is. -/
theorem GitPath.read_of_not_mem (path : GitPath) (whole : '\r' ∉ path.text) :
    path.read = path.path := by
  rw [GitPath.read, universalNewlines_of_not_mem path.text whole, path.ofText_text]

namespace Snapshot

variable (snapshot : Snapshot)

/-- A change of a file that is read: a Python file or the manifest, neither deleted nor
taken for a symbolic link. -/
structure IsRead (change : FileChange) : Prop where
  member : change ∈ snapshot.changes
  active : change.kind.letter ≠ 'D'
  relevant : change.path.read.suffix = pythonSuffix ∨ change.path.read = exceptionsPath
  regular : ∀ record ∈ snapshot.tracked, record.path.read = change.path.read →
    record.mode ≠ .symlink

/-- The paths that git is asked for are read as they are: those of the files that are
read, and the old paths of renames among them. No symbolic link is taken for the path. -/
structure Legible (path : GitPath) : Prop where
  own : '\r' ∉ path.text
  paths : ∀ change, snapshot.IsRead change → '\r' ∉ change.path.text
  sources : ∀ change, snapshot.IsRead change → ∀ score source,
    change.kind = .renamed score source → '\r' ∉ source.text
  links : ∀ record ∈ snapshot.tracked, record.mode = .symlink →
    record.path.read = path.path → '\r' ∉ record.path.text

/-- A path has only one change. -/
theorem change_unique (change other : FileChange) (member : change ∈ snapshot.changes)
    (otherMember : other ∈ snapshot.changes) (same : other.path.path = change.path.path) :
    other = change :=
  List.inj_on_of_nodup_map snapshot.distinct otherMember member same

/-- The entries of the snapshot that are not deletions. -/
def activeEntries : List StagedEntry :=
  (snapshot.changes.map FileChange.entry).filter (·.status ≠ 'D')

/-- The entries whose sources are read, given the symbolic links. -/
def sourceEntries (symlinked : List Path) : List StagedEntry :=
  snapshot.activeEntries.filter fun entry =>
    (entry.path.suffix = pythonSuffix ∨ entry.path = exceptionsPath) ∧ entry.path ∉ symlinked

/-- The active entries are those of changes other than deletions. -/
theorem mem_activeEntries (entry : StagedEntry) :
    entry ∈ snapshot.activeEntries ↔
      ∃ change ∈ snapshot.changes, change.kind.letter ≠ 'D' ∧ change.entry = entry := by
  simp only [activeEntries, List.mem_filter, List.mem_map, decide_eq_true_eq]
  constructor
  · rintro ⟨⟨change, member, rfl⟩, active⟩
    exact ⟨change, member, active, rfl⟩
  · rintro ⟨change, member, active, rfl⟩
    exact ⟨⟨change, member, rfl⟩, active⟩

/-- The symbolic links among the staged paths, as they are found. -/
def FindsLinks (symlinked : List Path) : Prop :=
  ∀ path, path ∈ symlinked ↔ path ∈ snapshot.activeEntries.map StagedEntry.path ∧
    ∃ record ∈ snapshot.tracked, record.path.read = path ∧ record.mode = .symlink

/-- The entries that are read are those of the changes that are. -/
theorem mem_sourceEntries (symlinked : List Path) (linked : snapshot.FindsLinks symlinked)
    (entry : StagedEntry) :
    entry ∈ snapshot.sourceEntries symlinked ↔
      ∃ change, snapshot.IsRead change ∧ change.entry = entry := by
  rw [sourceEntries, List.mem_filter, decide_eq_true_eq, linked entry.path]
  constructor
  · rintro ⟨alive, relevant, notLinked⟩
    obtain ⟨change, member, active, rfl⟩ := (snapshot.mem_activeEntries entry).mp alive
    refine ⟨change, ⟨member, active, relevant, fun record tracked same link => ?_⟩, rfl⟩
    exact notLinked ⟨List.mem_map_of_mem alive, record, tracked, same, link⟩
  · rintro ⟨change, ⟨member, active, relevant, regular⟩, rfl⟩
    refine ⟨(snapshot.mem_activeEntries _).mpr ⟨change, member, active, rfl⟩, relevant, ?_⟩
    rintro ⟨-, record, tracked, same, link⟩
    exact regular record tracked same link

/-- The commands that read the HEAD versions, given the symbolic links. -/
def headCommands (symlinked : List Path) : List (Path × GitCommand) :=
  snapshot.activeEntries.filterMap fun entry =>
    if entry.path ∈ (snapshot.sourceEntries symlinked).map StagedEntry.path then
      entry.headPath.map fun path => (entry.path, .showHead path)
    else none

/-- A HEAD version is read for each entry that is read and has one. -/
theorem mem_headCommands (symlinked : List Path) (linked : snapshot.FindsLinks symlinked)
    (item : Path × GitCommand) :
    item ∈ snapshot.headCommands symlinked ↔
      ∃ change, snapshot.IsRead change ∧
        ∃ path, change.readHeadPath = some path ∧ item = (change.path.read, .showHead path) := by
  simp only [headCommands, List.mem_filterMap]
  constructor
  · rintro ⟨entry, alive, shape⟩
    split at shape
    · rename_i source
      obtain ⟨path, head, rfl⟩ := Option.map_eq_some_iff.mp shape
      obtain ⟨other, listed, same⟩ := List.mem_map.mp source
      obtain ⟨read, isRead, rfl⟩ := (snapshot.mem_sourceEntries symlinked linked other).mp listed
      obtain ⟨change, member, active, rfl⟩ := (snapshot.mem_activeEntries entry).mp alive
      have equal : read.path.read = change.path.read := same
      refine ⟨change, ⟨member, active, equal ▸ isRead.relevant, ?_⟩, path, head, rfl⟩
      exact equal ▸ isRead.regular
    · cases shape
  · rintro ⟨change, isRead, path, head, rfl⟩
    have source := (snapshot.mem_sourceEntries symlinked linked change.entry).mpr
      ⟨change, isRead, rfl⟩
    refine ⟨change.entry, (List.mem_filter.mp source).1, ?_⟩
    rw [if_pos (List.mem_map_of_mem source)]
    exact Option.map_eq_some_iff.mpr ⟨path, head, rfl⟩

section Staged

variable (change : FileChange) (member : change ∈ snapshot.changes)
  (active : change.kind.letter ≠ 'D') (python : change.path.path.suffix = pythonSuffix)
  (regular : ∀ record ∈ snapshot.tracked, record.path.path = change.path.path →
    record.mode ≠ .symlink)
  (legible : snapshot.Legible change.path)

include legible

/-- A change that is read has its own path. -/
theorem read_change : change.path.read = change.path.path :=
  change.path.read_of_not_mem legible.own

/-- The index shows every path that is read. -/
theorem showIndex_read (other : FileChange) (isRead : snapshot.IsRead other) :
    snapshot.git (.showIndex other.path.read) = .ok (universalNewlines other.diff.newText) := by
  rw [other.path.read_of_not_mem (legible.paths other isRead), git, printed,
    snapshot.index_new other isRead.member isRead.active]
  rfl

/-- The text in HEAD of a change that is read. -/
theorem showHead_read (other : FileChange) (isRead : snapshot.IsRead other) (path : Path)
    (head : other.readHeadPath = some path) :
    snapshot.git (.showHead path) = .ok (universalNewlines other.diff.oldText) := by
  have own := other.path.read_of_not_mem (legible.paths other isRead)
  have old : other.headPath = some path := by
    rw [← head, FileChange.headPath, FileChange.readHeadPath, own]
    cases kind : other.kind with
    | renamed score source =>
      have whole := legible.sources other isRead score source kind
      exact congrArg some (source.read_of_not_mem whole).symm
    | _ => rfl
  rw [git, printed, snapshot.head_old other isRead.member path old]
  rfl

include member active python regular

/-- A Python file that is no symbolic link is read. -/
theorem isRead_change : snapshot.IsRead change := by
  have own := snapshot.read_change change legible
  refine ⟨member, active, Or.inl (own ▸ python), fun record tracked same link => ?_⟩
  rw [own] at same
  have whole := legible.links record tracked link same
  rw [record.path.read_of_not_mem whole] at same
  exact regular record tracked same link

/-- The only entry for the path of a change is its own. -/
theorem read_unique (other : FileChange) (otherMember : other ∈ snapshot.changes)
    (otherActive : other.kind.letter ≠ 'D') (same : other.path.read = change.path.path) :
    other = change := by
  have isRead := snapshot.isRead_change change member active python regular legible
  have own := snapshot.read_change change legible
  have otherRead : snapshot.IsRead other :=
    ⟨otherMember, otherActive, same.trans own.symm ▸ isRead.relevant,
      same.trans own.symm ▸ isRead.regular⟩
  rw [other.path.read_of_not_mem (legible.paths other otherRead)] at same
  exact snapshot.change_unique change other member otherMember same

/-- A path that is read has the text of the index. -/
theorem readSources_index (symlinked : List Path) (linked : snapshot.FindsLinks symlinked) :
    ∃ sources, readSources snapshot.git
        (((snapshot.sourceEntries symlinked).map StagedEntry.path).map
          fun path => (path, .showIndex path)) = .ok sources ∧
      sources.get change.path.path = some (universalNewlines change.diff.newText) := by
  have isRead := snapshot.isRead_change change member active python regular legible
  have own := snapshot.read_change change legible
  obtain ⟨sources, run, keys, values⟩ := readSources_ok snapshot.git
    (((snapshot.sourceEntries symlinked).map StagedEntry.path).map
      fun path => (path, .showIndex path)) (by
      intro item inside
      obtain ⟨path, listed, rfl⟩ := List.mem_map.mp inside
      obtain ⟨entry, kept, rfl⟩ := List.mem_map.mp listed
      obtain ⟨other, otherRead, rfl⟩ := (snapshot.mem_sourceEntries symlinked linked entry).mp kept
      exact ⟨_, snapshot.showIndex_read change legible other otherRead⟩) ∅
  have source := (snapshot.mem_sourceEntries symlinked linked change.entry).mpr
    ⟨change, isRead, rfl⟩
  have present := (keys change.path.path).mpr (Or.inl (List.mem_map.mpr
    ⟨_, List.mem_map_of_mem (List.mem_map_of_mem source), own⟩))
  obtain ⟨text, found⟩ := Option.isSome_iff_exists.mp present
  refine ⟨sources, run, ?_⟩
  rcases values _ _ found with ⟨command, inside, shown⟩ | impossible
  · obtain ⟨path, -, shape⟩ := List.mem_map.mp inside
    obtain ⟨rfl, rfl⟩ := Prod.mk.inj shape
    have content := snapshot.showIndex_read change legible change isRead
    rw [own] at content
    rw [found, Except.ok.inj (shown.symm.trans content)]
  · cases impossible

/-- A path that is read has a HEAD version exactly when the change has one. -/
theorem readSources_head (symlinked : List Path) (linked : snapshot.FindsLinks symlinked) :
    ∃ headSources, readSources snapshot.git (snapshot.headCommands symlinked) = .ok headSources ∧
      (headSources.get change.path.path = none ↔ change.headPath = none) := by
  have isRead := snapshot.isRead_change change member active python regular legible
  have own := snapshot.read_change change legible
  obtain ⟨headSources, run, keys, -⟩ := readSources_ok snapshot.git
    (snapshot.headCommands symlinked) (by
      intro item inside
      obtain ⟨other, otherRead, path, head, rfl⟩ :=
        (snapshot.mem_headCommands symlinked linked item).mp inside
      exact ⟨_, snapshot.showHead_read change legible other otherRead path head⟩) ∅
  have headed : change.readHeadPath = none ↔ change.headPath = none := by
    rw [FileChange.readHeadPath, FileChange.headPath]
    cases change.kind <;> simp
  refine ⟨headSources, run, ?_⟩
  rw [← headed, ← Option.not_isSome_iff_eq_none, ← Option.not_isSome_iff_eq_none, keys,
    not_iff_not]
  constructor
  · rintro (inside | impossible)
    · obtain ⟨item, inside, same⟩ := List.mem_map.mp inside
      obtain ⟨other, otherRead, path, head, rfl⟩ :=
        (snapshot.mem_headCommands symlinked linked item).mp inside
      have unique := snapshot.read_unique change member active python regular legible other
        otherRead.member otherRead.active same
      rw [unique] at head
      exact Option.isSome_iff_exists.mpr ⟨path, head⟩
    · cases impossible
  · intro present
    obtain ⟨path, head⟩ := Option.isSome_iff_exists.mp present
    refine Or.inl (List.mem_map.mpr ⟨(change.path.read, .showHead path), ?_, own⟩)
    exact (snapshot.mem_headCommands symlinked linked _).mpr ⟨change, isRead, path, head, rfl⟩

/-- A path is a copy exactly when its change is one. -/
theorem mem_copiedPaths :
    change.path.path ∈ (snapshot.activeEntries.filter (·.status = 'C')).map StagedEntry.path ↔
      change.kind.letter = 'C' := by
  have own := snapshot.read_change change legible
  rw [List.mem_map]
  constructor
  · rintro ⟨entry, kept, same⟩
    obtain ⟨alive, copy⟩ := List.mem_filter.mp kept
    obtain ⟨other, otherMember, otherActive, rfl⟩ := (snapshot.mem_activeEntries entry).mp alive
    rw [snapshot.read_unique change member active python regular legible other otherMember
      otherActive same] at copy
    exact of_decide_eq_true copy
  · intro copy
    refine ⟨change.entry, List.mem_filter.mpr ⟨?_, decide_eq_true copy⟩, own⟩
    exact (snapshot.mem_activeEntries _).mpr ⟨change, member, active, rfl⟩

/-- What is staged for a Python file that is neither deleted nor a symbolic link.

Proof: every command succeeds on the snapshot, so the steps run through; each
dictionary is then looked up by the lemma about the step that built it. -/
theorem stagedChanges_git (quiet : ∀ file ∈ snapshot.files, file.Quiet) :
    ∃ staged, stagedChanges snapshot.git = .ok staged ∧
      change.path.path ∈ staged.changedPaths ∧
      staged.sources.get change.path.path = some (universalNewlines change.diff.newText) ∧
      (staged.headSources.get change.path.path = none ↔ change.headPath = none) ∧
      staged.addedLines.get change.path.path =
        if change.kind.letter = 'C' then some (allLines (universalNewlines change.diff.newText))
        else if mappedFiles snapshot.quotePath snapshot.files change.path.path = [] then none
        else some (recordedLines snapshot.quotePath snapshot.files change.path.path) := by
  have path := snapshot.read_change change legible
  have own : change.entry ∈ snapshot.activeEntries :=
    (snapshot.mem_activeEntries _).mpr ⟨change, member, active, rfl⟩
  have entries := parseStagedEntries_git snapshot.changes
  have nonempty : snapshot.activeEntries.isEmpty = false := by
    simpa using List.ne_nil_of_mem own
  have isPython : change.entry.path.suffix = pythonSuffix := (congrArg Path.suffix path).trans python
  have somePython : (snapshot.activeEntries.filter
      (·.path.suffix = pythonSuffix)).isEmpty = false := by
    simpa using ⟨change.entry, own, isPython⟩
  obtain ⟨symlinked, links, linked⟩ := symlinkedStagedPaths_git snapshot
    (snapshot.activeEntries.map StagedEntry.path)
  obtain ⟨added, reading, addedGet⟩ := addedLinesByPath_readDiff snapshot.quotePath snapshot.files
    quiet
  obtain ⟨sources, readIndex, source⟩ :=
    snapshot.readSources_index change member active python regular legible symlinked linked
  obtain ⟨headSources, readHead, headed⟩ :=
    snapshot.readSources_head change member active python regular legible symlinked linked
  have known : change.path.path ∈ (snapshot.changes.map FileChange.entry).map StagedEntry.path :=
    List.mem_map.mpr ⟨change.entry, List.mem_map_of_mem member, path⟩
  have run : stagedChanges snapshot.git = .ok {
      changedPaths := (snapshot.changes.map FileChange.entry).map StagedEntry.path
      deletedPaths := ((snapshot.changes.map FileChange.entry).filter (·.status = 'D')).map
        StagedEntry.path ++ renamedAway (snapshot.changes.map FileChange.entry)
      renamedPaths := ((snapshot.changes.map FileChange.entry).filter (·.status = 'R')).map
        StagedEntry.path
      renamedAwayPaths := renamedAway (snapshot.changes.map FileChange.entry)
      symlinkedPaths := symlinked
      addedLines := (added.filterMap fun path lines =>
        if path ∈ (snapshot.changes.map FileChange.entry).map StagedEntry.path ++
            (snapshot.changes.map FileChange.entry).filterMap StagedEntry.sourcePath then
          some lines else none).update
        (((snapshot.activeEntries.filter (·.status = 'C')).map StagedEntry.path).filterMap
          fun path => (sources.get path).map fun source => (path, allLines source))
      sources := sources
      headSources := headSources
      copiedPaths := (snapshot.activeEntries.filter (·.status = 'C')).map StagedEntry.path } := by
    have status : snapshot.git .nameStatus = .ok (universalNewlines
        ((snapshot.changes.flatMap FileChange.statusFields).flatMap (· ++ ['\x00']))) := rfl
    have diff : snapshot.git .stagedDiff =
        .ok (universalNewlines (writeDiff snapshot.quotePath snapshot.files)) := rfl
    unfold headCommands at readHead
    unfold sourceEntries activeEntries at readIndex readHead
    unfold activeEntries at nonempty somePython links ⊢
    simp only [stagedChanges, parseStagedStatus, status, entries, bind, Except.bind, pure,
      Except.pure, nonempty, somePython, links, diff, reading, readIndex, readHead,
      Bool.false_eq_true, ↓reduceIte]
  refine ⟨_, run, known, source, headed, ?_⟩
  have copies := Dict.get_update_filterMap (added.filterMap fun path lines =>
      if path ∈ (snapshot.changes.map FileChange.entry).map StagedEntry.path ++
          (snapshot.changes.map FileChange.entry).filterMap StagedEntry.sourcePath then
        some lines else none)
    ((snapshot.activeEntries.filter (·.status = 'C')).map StagedEntry.path)
    (fun path => (sources.get path).map allLines) change.path.path
  simp only [Option.map_map, Function.comp_def] at copies
  have isCopy := snapshot.mem_copiedPaths change member active python regular legible
  rw [copies, Dict.get_filterMap, addedGet, source]
  by_cases copy : change.kind.letter = 'C'
  · have inside := isCopy.mpr copy
    simp only [inside, copy, ↓reduceIte, Option.map_some, Option.some_or]
  · have outside := mt isCopy.mp copy
    have kept := List.mem_append_left
      ((snapshot.changes.map FileChange.entry).filterMap StagedEntry.sourcePath) known
    simp only [outside, copy, kept, ↓reduceIte]
    by_cases mapped : mappedFiles snapshot.quotePath snapshot.files change.path.path = []
    · simp [mapped]
    · simp [mapped]

end Staged

/-- A change that is printed as hunks without lone carriage returns, with a header that can
be decoded, has all its added lines recorded under its path. -/
theorem addedLines_subset_recordedLines (change : FileChange) (member : change ∈ snapshot.changes)
    (printed : change.binary = false)
    (oldBare : (change.kind.source.getD change.path).spaced snapshot.quotePath = false)
    (newBare : change.path.spaced snapshot.quotePath = false)
    (whole : ∀ edit ∈ change.diff.script, strayReturns edit.line.text = [])
    (headings : ∀ hunk ∈ change.diff.hunks, strayReturns hunk.heading = []) :
    change.addedLines ⊆ recordedLines snapshot.quotePath snapshot.files change.path.path := by
  have gained : change.addedLines = change.diff.insertedLines.map Prod.fst :=
    gainedFrom_eq 1 change.diff.script whole
  have recorded (file : FileDiff) (inside : file ∈ change.files)
      (old : file.oldPath.spaced snapshot.quotePath = false) (new : file.newPath = change.path) :
      file.recorded ⊆ recordedLines snapshot.quotePath snapshot.files change.path.path := by
    have key : file.key snapshot.quotePath = some change.path.path := by
      simp [FileDiff.key, headerKey, old, new, newBare]
    have mapped : file ∈ mappedFiles snapshot.quotePath snapshot.files change.path.path :=
      List.mem_filter.mpr ⟨List.mem_flatMap.mpr ⟨change, member, inside⟩, decide_eq_true key⟩
    exact fun number printedLine => List.mem_flatMap.mpr ⟨file, mapped, printedLine⟩
  have hunks : recordedHunks 0 change.diff.hunks = change.diff.insertedLines.map Prod.fst := by
    rw [UnifiedDiff.insertedLines_eq]
    refine recordedHunks_eq 0 change.diff.hunks headings fun edit inside => ?_
    exact whole edit (List.mem_append_left _ inside)
  obtain ⟨kind, path, extended, diff, binary⟩ := change
  simp only at printed
  subst printed
  rw [gained, ← hunks]
  cases kind with
  | typeChanged removal =>
    refine List.Subset.trans ?_ (recorded _ (List.mem_cons_of_mem _ (List.mem_singleton_self _))
      oldBare rfl)
    rw [hunks]
    refine List.Subset.trans (List.map_subset Prod.fst diff.insertedLines_subset_creation) ?_
    rw [UnifiedDiff.insertedLines_eq, FileDiff.recorded, if_neg Bool.false_ne_true,
      recordedHunks_eq 0 diff.creation.hunks]
    · exact List.Subset.refl _
    · intro hunk inside
      simp only [UnifiedDiff.creation, wholeHunk] at inside
      split at inside
      · cases inside
      · rw [List.mem_singleton.mp inside]
        rfl
    · intro edit inside
      rw [UnifiedDiff.creation, flatMap_wholeHunk] at inside
      obtain ⟨line, new, rfl⟩ := List.mem_map.mp inside
      obtain ⟨origin, inScript, isNew⟩ := List.mem_filterMap.mp new
      have same : origin.line = line := by
        cases origin with
        | delete _ => cases isNew
        | _ => exact Option.some.inj isNew
      exact same ▸ whole origin inScript
  | added => exact recorded _ (List.mem_singleton_self _) oldBare rfl
  | deleted => exact recorded _ (List.mem_singleton_self _) oldBare rfl
  | modified => exact recorded _ (List.mem_singleton_self _) oldBare rfl
  | renamed score source => exact recorded _ (List.mem_singleton_self _) oldBare rfl
  | copied score source => exact recorded _ (List.mem_singleton_self _) oldBare rfl

end Snapshot

/-- The filter keeps every added line of a path, or there is none, exactly in
four cases: the path is a copy; no file of the diff is recorded under it; it has
no version in HEAD and no file recorded under it prints an added line; or the
numbers recorded for it include those of all its added lines.

Proof: the staged state is the one of `stagedChanges_git`. A copy has all lines
of its source. Otherwise the recorded lines are returned as they are, unless the
path is unmapped or new and without recorded lines. -/
theorem added_lines_resolved_iff (snapshot : Snapshot) (change : FileChange)
    (member : change ∈ snapshot.changes) (active : change.kind.letter ≠ 'D')
    (python : change.path.path.suffix = pythonSuffix)
    (regular : ∀ record ∈ snapshot.tracked, record.path.path = change.path.path →
      record.mode ≠ .symlink)
    (legible : snapshot.Legible change.path) (quiet : ∀ file ∈ snapshot.files, file.Quiet) :
    ∃ staged, stagedChanges snapshot.git = .ok staged ∧
      ((∀ lines, resolvedAddedLines staged change.path.path = some lines →
          change.addedLines ⊆ lines) ↔
        change.kind.letter = 'C' ∨
        mappedFiles snapshot.quotePath snapshot.files change.path.path = [] ∨
        (change.kind.letter = 'A' ∧
          recordedLines snapshot.quotePath snapshot.files change.path.path = []) ∨
        change.addedLines ⊆ recordedLines snapshot.quotePath snapshot.files change.path.path) := by
  obtain ⟨staged, run, changed, source, headed, added⟩ :=
    snapshot.stagedChanges_git change member active python regular legible quiet
  refine ⟨staged, run, ?_⟩
  by_cases copy : change.kind.letter = 'C'
  · have filled : allLines (universalNewlines change.diff.newText) ≠ [] := by
      simpa [allLines] using split_ne_nil ['\n'] (universalNewlines change.diff.newText)
    simp only [copy, ↓reduceIte] at added
    simp only [resolvedAddedLines, added, filled, false_and, and_false, ↓reduceIte,
      Option.some.injEq, forall_eq', copy, true_or, iff_true]
    exact addedLines_subset_allLines change
  · simp only [copy, ↓reduceIte] at added
    simp only [copy, false_or]
    by_cases mapped : mappedFiles snapshot.quotePath snapshot.files change.path.path = []
    · have present : staged.sources.has change.path.path = true :=
        (Dict.has_iff _ _).mpr ⟨_, source⟩
      simp [resolvedAddedLines, added, mapped, present]
    · have new : change.headPath = none ↔ change.kind.letter = 'A' := by
        unfold FileChange.headPath
        revert copy
        cases change.kind <;> simp [ChangeKind.letter]
      simp only [mapped, ↓reduceIte] at added
      simp only [mapped, false_or, resolvedAddedLines, added, changed, source, Option.isSome_some,
        true_and, headed, new]
      by_cases unseen : recordedLines snapshot.quotePath snapshot.files change.path.path = [] ∧
          change.kind.letter = 'A'
      · simp [unseen]
      · have seen : ¬ (change.kind.letter = 'A' ∧
            recordedLines snapshot.quotePath snapshot.files change.path.path = []) :=
          fun both => unseen both.symm
        simp [unseen, seen]

/-- A module that gains an import, printed as a hunk or as a binary file. -/
def vmChange (binary : Bool) : FileChange where
  kind := .modified
  path := { parts := ["vm.py".toList] }
  extended := { lines := ["index 1111111..2222222 100644".toList] }
  diff := {
    hunks := [{ skipped := [.ofString "import os"], body := [.insert (.ofString "import sys")] }] }
  binary := binary

/-- The module as the only staged change. -/
def vmSnapshot (binary : Bool) : Snapshot where
  changes := [vmChange binary]
  tracked := [{ mode := .regular, object := "2222222".toList, path := (vmChange binary).path }]
  head := fun _ => some (vmChange binary).diff.oldText
  index := fun _ => some (vmChange binary).diff.newText
  distinct := by simp
  head_old := by simp
  index_new := by simp

/-- Without carriage returns in paths and lines, git's numbers are recorded. -/
theorem printed_change_checked :
    ∃ staged, stagedChanges (vmSnapshot false).git = .ok staged ∧
      ∀ lines, resolvedAddedLines staged (vmChange false).path.path = some lines →
        (vmChange false).addedLines ⊆ lines := by
  have member : vmChange false ∈ (vmSnapshot false).changes := by simp [vmSnapshot]
  have only (other : FileChange) (isRead : (vmSnapshot false).IsRead other) :
      other = vmChange false := List.mem_singleton.mp isRead.member
  have legible : (vmSnapshot false).Legible (vmChange false).path := by
    refine ⟨by decide, fun other isRead => ?_, fun other isRead score source kind => ?_,
      fun record tracked link _ => ?_⟩
    · rw [only other isRead]
      decide
    · rw [only other isRead] at kind
      cases kind
    · rw [List.mem_singleton.mp tracked] at link
      cases link
  have quiet : ∀ file ∈ (vmSnapshot false).files, file.Quiet := by
    intro file inside
    rw [List.mem_singleton.mp inside]
    refine ⟨fun line extended => ?_, fun _ hunk printed => ⟨?_, fun edit edited => ?_⟩⟩
    · rw [List.mem_singleton.mp extended]
      exact quietReturns_whole _ (by decide)
    · rw [List.mem_singleton.mp printed]
      exact quietReturns_whole _ (by decide)
    · rw [List.mem_singleton.mp printed] at edited
      rw [List.mem_singleton.mp edited]
      exact quietReturns_whole _ (by decide)
  obtain ⟨staged, run, resolved⟩ := added_lines_resolved_iff (vmSnapshot false) (vmChange false)
    member (by decide) (by decide) (by simp [vmSnapshot]) legible quiet
  have recorded := (vmSnapshot false).addedLines_subset_recordedLines (vmChange false) member rfl
    (by decide) (by decide) (by decide) (by decide)
  exact ⟨staged, run, resolved.mpr (Or.inr (Or.inr (Or.inr recorded)))⟩

/-- Nothing is checked in the module when it is printed as a binary file. -/
theorem binary_change_not_checked :
    ¬ ∀ (snapshot : Snapshot) (change : FileChange), change ∈ snapshot.changes →
      change.kind.letter ≠ 'D' → change.path.path.suffix = pythonSuffix →
      (∀ record ∈ snapshot.tracked, record.path.path = change.path.path →
        record.mode ≠ .symlink) →
      ∃ staged, stagedChanges snapshot.git = .ok staged ∧
        ∀ lines, resolvedAddedLines staged change.path.path = some lines →
          change.addedLines ⊆ lines := by
  intro claim
  obtain ⟨staged, run, covered⟩ := claim (vmSnapshot true) (vmChange true) (by simp [vmSnapshot])
    (by decide) (by decide) (by simp [vmSnapshot])
  have resolved : (stagedChanges (vmSnapshot true).git).toOption.map
      (resolvedAddedLines · (vmChange true).path.path) = some (some []) := by decide +kernel
  rw [run] at resolved
  have nothing := covered [] (Option.some.inj resolved)
  have gained : 2 ∈ (vmChange true).addedLines := by decide +kernel
  exact List.not_mem_nil (nothing gained)

end VirtTestTools.Policy
