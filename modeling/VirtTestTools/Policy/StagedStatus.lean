import VirtTestTools.Policy.StagedChanges

/-!
# The staged status

`git diff --cached --name-status -z` prints two fields for most entries and three for
renames and copies, each field followed by a NUL. Which it is, the first character of a
status says, and a path may begin with any character. `_parse_staged_entries` reads the
entries back, whatever their paths are, and `_parse_staged_status` finds the paths that
are no longer there.
-/

namespace VirtTestTools.Policy

open Text

/-- A path as git prints it: a text that is not empty and has no separator in it. -/
structure PathText where
  text : Text
  nonempty : text ≠ []
  plain : '\x00' ∉ text

/-- `Path(text)`. -/
def PathText.path (printed : PathText) : Path := Path.ofText printed.text

/-- The statuses of entries with one path. -/
inductive SingleStatus
  | added
  | modified
  | deleted
  | typeChanged
deriving DecidableEq

/-- The letter of a status with one path. -/
def SingleStatus.letter : SingleStatus → Char
  | .added => 'A'
  | .modified => 'M'
  | .deleted => 'D'
  | .typeChanged => 'T'

/-- The statuses of entries with two paths. -/
inductive PairStatus
  | renamed
  | copied
deriving DecidableEq

/-- The letter of a status with two paths. -/
def PairStatus.letter : PairStatus → Char
  | .renamed => 'R'
  | .copied => 'C'

/-- A record of the output. -/
inductive StatusRecord
  | single (status : SingleStatus) (path : PathText)
  | pair (status : PairStatus) (score : Nat) (source path : PathText)

namespace StatusRecord

/-- The fields of a record. A similarity score follows the letter of a rename or copy. -/
def fields : StatusRecord → List Text
  | single status path => [[status.letter], path.text]
  | pair status score source path =>
    [status.letter :: ChangeKind.similarity score, source.text, path.text]

/-- The entry that a record stands for. Only a path that was there before the change
has a path in HEAD. -/
def entry : StatusRecord → StagedEntry
  | single status path =>
    { status := status.letter, path := path.path
      headPath := if status = .added then none else some path.path }
  | pair status _ source path =>
    { status := status.letter, path := path.path
      headPath := if status = .renamed then some source.path else none
      sourcePath := some source.path }

/-- The path is deleted, or it is renamed away. -/
def Removes (path : Path) : StatusRecord → Prop
  | single status printed => status = .deleted ∧ printed.path = path
  | pair status _ source _ => status = .renamed ∧ source.path = path

/-- The output for some records. -/
def render (records : List StatusRecord) : Text := (records.flatMap fields).flatMap (· ++ ['\x00'])

/-- The fields of a record are parsed as its entry. -/
theorem parseFields_fields (record : StatusRecord) (rest : List Text) :
    parseFields (record.fields ++ rest) = (record.entry :: ·) <$> parseFields rest := by
  cases record with
  | single status path =>
    have single : status.letter ≠ 'R' ∧ status.letter ≠ 'C' := by cases status <;> decide
    refine (parseFields_single status.letter [] path.text rest single).trans ?_
    cases status <;> rfl
  | pair status score source path =>
    have pair : status.letter = 'R' ∨ status.letter = 'C' := by cases status <;> decide
    refine (parseFields_pair status.letter (ChangeKind.similarity score) source.text path.text rest
      pair).trans ?_
    cases status <;> rfl

/-- The fields of a record are not empty and have no NUL. -/
theorem fields_plain (record : StatusRecord) :
    ∀ field ∈ record.fields, field ≠ [] ∧ '\x00' ∉ field := by
  cases record with
  | single status path =>
    have letter : '\x00' ∉ [status.letter] := by cases status <;> decide
    simp only [fields, List.forall_mem_cons]
    exact ⟨⟨List.cons_ne_nil _ _, letter⟩, ⟨path.nonempty, path.plain⟩, List.forall_mem_nil _⟩
  | pair status score source path =>
    have letter : '\x00' ∉ status.letter :: ChangeKind.similarity score := by
      have first : '\x00' ≠ status.letter := by cases status <;> decide
      exact List.not_mem_cons_of_ne_of_not_mem first (ChangeKind.similarity_plain score)
    simp only [fields, List.forall_mem_cons]
    exact ⟨⟨List.cons_ne_nil _ _, letter⟩, ⟨source.nonempty, source.plain⟩,
      ⟨path.nonempty, path.plain⟩, List.forall_mem_nil _⟩

/-- The paths that an entry takes away from the index. -/
theorem removes_iff (record : StatusRecord) (path : Path) :
    record.Removes path ↔
      record.entry.status = 'D' ∧ record.entry.path = path ∨
        record.entry.status = 'R' ∧ record.entry.headPath = some path := by
  cases record with
  | single status printed => cases status <;> simp [Removes, entry, SingleStatus.letter]
  | pair status score source printed => cases status <;> simp [Removes, entry, PairStatus.letter]

end StatusRecord

/-- The paths that `_parse_staged_status` collects from the entries. -/
theorem mem_deleted_iff (entries : List StagedEntry) (path : Path) :
    path ∈ (entries.filter (·.status = 'D')).map StagedEntry.path ++ renamedAway entries ↔
      ∃ entry ∈ entries, entry.status = 'D' ∧ entry.path = path ∨
        entry.status = 'R' ∧ entry.headPath = some path := by
  simp only [renamedAway, List.mem_append, List.mem_map, List.mem_filterMap, List.mem_filter,
    decide_eq_true_eq, and_assoc, ← exists_or, ← and_or_left]

open StatusRecord

/-- The entries are read back in order, and the deleted paths are those that records
remove. -/
theorem staged_status_round_trip (records : List StatusRecord) :
    parseStagedEntries (render records) = .ok (records.map entry) ∧
      ∃ deleted, parseStagedStatus (render records) = .ok deleted ∧
        ∀ path, path ∈ deleted ↔ ∃ record ∈ records, record.Removes path := by
  have entries : parseStagedEntries (render records) = .ok (records.map entry) :=
    parseStagedEntries_flatMap parseFields_fields fields_plain records
  refine ⟨entries, ((records.map entry).filter (·.status = 'D')).map StagedEntry.path ++
    renamedAway (records.map entry), ?_, fun path => ?_⟩
  · rw [parseStagedStatus, entries]
    rfl
  · simp only [mem_deleted_iff, List.mem_map, exists_exists_and_eq_and, removes_iff]

/-- A module that is changed, and one that is renamed. -/
def stagedModules : List StatusRecord :=
  [.single .modified ⟨"utilities/virt.py".toList, by decide, by decide⟩,
    .pair .renamed 87 ⟨"tests/old_disk.py".toList, by decide, by decide⟩
      ⟨"tests/test_disk.py".toList, by decide, by decide⟩]

/-- A rename and an addition, by the general theorem. -/
theorem stagedModules_round_trip :
    parseStagedEntries (render stagedModules) = .ok (stagedModules.map entry) ∧
      ∃ deleted, parseStagedStatus (render stagedModules) = .ok deleted ∧
        ∀ path, path ∈ deleted ↔ ∃ record ∈ stagedModules, record.Removes path :=
  staged_status_round_trip stagedModules

end VirtTestTools.Policy
