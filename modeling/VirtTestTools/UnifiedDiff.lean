import VirtTestTools.Text

/-!
# Unified diffs

A diff of two texts as a value: hunks of kept, deleted and inserted lines, with
the unchanged lines between them. The value determines both texts, the numbers
of the deleted lines on the old side and of the inserted lines on the new side,
and the written form with its hunk headers and headings.

Lines are the line-feed separated pieces of a text. Only the last line of a text
may lack its line feed; the written form then adds a marker line.
-/

namespace VirtTestTools

/-- A line without its line feed, and whether it has one. -/
structure Line where
  text : Text
  terminated : Bool := true
  plain : '\n' ∉ text := by decide

namespace Line

/-- The line as part of its text. -/
def content (line : Line) : Text := line.text ++ if line.terminated then ['\n'] else []

/-- The line of a string, for lines that are written down. -/
def ofString (text : String) : Line where
  text := text.toList.filter (· ≠ '\n')
  plain := by simp

/-- Every line but the last one has its line feed. -/
def Closed (lines : List Line) : Prop := ∀ line ∈ lines.dropLast, line.terminated = true

instance (lines : List Line) : Decidable (Closed lines) :=
  inferInstanceAs (Decidable (∀ line ∈ lines.dropLast, line.terminated = true))

end Line

/-- One line of a hunk. -/
inductive Edit
  | keep (line : Line)
  | delete (line : Line)
  | insert (line : Line)

namespace Edit

/-- The line on the old side. -/
def old : Edit → Option Line
  | .keep line | .delete line => some line
  | .insert _ => none

/-- The line on the new side. -/
def new : Edit → Option Line
  | .keep line | .insert line => some line
  | .delete _ => none

/-- The line of an edit. -/
def line : Edit → Line
  | .keep line | .delete line | .insert line => line

/-- The first character of the written line. -/
def mark : Edit → Char
  | .keep _ => ' '
  | .delete _ => '-'
  | .insert _ => '+'

/-- The marker line behind a line without line feed. -/
def noNewline : Text := "\\ No newline at end of file".toList

/-- The written line, with the marker line if it is needed. -/
def lines (edit : Edit) : List Text :=
  (edit.mark :: edit.line.text) :: if edit.line.terminated then [] else [noNewline]

/-- Numbers of the deleted lines of a script that starts at the given old line. -/
def deletedFrom : Nat → List Edit → List Nat
  | _, [] => []
  | number, .keep _ :: rest => deletedFrom (number + 1) rest
  | number, .delete _ :: rest => number :: deletedFrom (number + 1) rest
  | number, .insert _ :: rest => deletedFrom number rest

/-- The inserted lines of a script that starts at the given new line, with their
numbers. -/
def insertedFrom : Nat → List Edit → List (Nat × Line)
  | _, [] => []
  | number, .keep _ :: rest => insertedFrom (number + 1) rest
  | number, .delete _ :: rest => insertedFrom number rest
  | number, .insert line :: rest => (number, line) :: insertedFrom (number + 1) rest

/-- The lines of a longer script count on behind those of its first part. -/
theorem insertedFrom_append (number : Nat) (first second : List Edit) :
    insertedFrom number (first ++ second) =
      insertedFrom number first ++ insertedFrom (number + (first.filterMap new).length) second := by
  induction first generalizing number with
  | nil => rfl
  | cons edit first inductionHypothesis =>
    cases edit with
    | keep line =>
      have shift (count : Nat) : number + 1 + count = number + (count + 1) := by omega
      simp [insertedFrom, new, inductionHypothesis, shift]
    | delete line => simp [insertedFrom, List.filterMap_cons, new, inductionHypothesis]
    | insert line =>
      have shift (count : Nat) : number + 1 + count = number + (count + 1) := by omega
      simp [insertedFrom, new, inductionHypothesis, shift]

/-- Kept lines insert nothing. -/
theorem insertedFrom_keep (number : Nat) (lines : List Line) :
    insertedFrom number (lines.map keep) = [] := by
  induction lines generalizing number with
  | nil => rfl
  | cons line lines inductionHypothesis => exact inductionHypothesis (number + 1)

/-- Without lines on the new side nothing is inserted. -/
theorem insertedFrom_eq_nil (number : Nat) (edits : List Edit)
    (empty : (edits.filterMap new).length = 0) : insertedFrom number edits = [] := by
  induction edits with
  | nil => rfl
  | cons edit edits inductionHypothesis =>
    cases edit with
    | keep line => simp [new] at empty
    | delete line =>
      exact inductionHypothesis (by simpa [List.filterMap_cons, new] using empty)
    | insert line => simp [new] at empty

/-- The inserted lines are lines of the new side. -/
theorem insertedFrom_bounds (number : Nat) (edits : List Edit) (inserted : Nat × Line)
    (member : inserted ∈ insertedFrom number edits) :
    number ≤ inserted.1 ∧ inserted.1 < number + (edits.filterMap new).length := by
  induction edits generalizing number with
  | nil => simp [insertedFrom] at member
  | cons edit edits inductionHypothesis =>
    cases edit with
    | keep line =>
      have later := inductionHypothesis (number + 1) member
      simp only [List.filterMap_cons, new, List.length_cons]
      omega
    | delete line =>
      have later := inductionHypothesis number member
      simpa only [List.filterMap_cons, new] using later
    | insert line =>
      simp only [List.filterMap_cons, new, List.length_cons]
      rcases List.mem_cons.mp member with rfl | member
      · simp only
        omega
      · have later := inductionHypothesis (number + 1) member
        omega

/-- The inserted lines have different numbers. -/
theorem insertedFrom_nodup (number : Nat) (edits : List Edit) :
    ((insertedFrom number edits).map Prod.fst).Nodup := by
  induction edits generalizing number with
  | nil => exact List.nodup_nil
  | cons edit edits inductionHypothesis =>
    cases edit with
    | keep line => exact inductionHypothesis (number + 1)
    | delete line => exact inductionHypothesis number
    | insert line =>
      refine List.nodup_cons.mpr ⟨fun member => ?_, inductionHypothesis (number + 1)⟩
      obtain ⟨inserted, later, same⟩ := List.mem_map.mp member
      have bounds := insertedFrom_bounds (number + 1) edits inserted later
      omega

/-- Whatever a script inserts is inserted when its whole new side is. -/
theorem insertedFrom_subset (number : Nat) (edits : List Edit) :
    insertedFrom number edits ⊆ insertedFrom number ((edits.filterMap new).map insert) := by
  induction edits generalizing number with
  | nil => exact List.Subset.refl _
  | cons edit edits inductionHypothesis =>
    cases edit with
    | keep line =>
      simp only [List.filterMap_cons, new, List.map_cons, insertedFrom]
      exact List.subset_cons_of_subset _ (inductionHypothesis (number + 1))
    | delete line =>
      simp only [List.filterMap_cons, new, insertedFrom]
      exact inductionHypothesis number
    | insert line =>
      simp only [List.filterMap_cons, new, List.map_cons, insertedFrom]
      exact List.cons_subset_cons _ (inductionHypothesis (number + 1))

end Edit

/-- An empty heading is no line end. -/
theorem newline_not_mem_nil : '\n' ∉ ([] : Text) := List.not_mem_nil

/-- A hunk: the unchanged lines since the previous hunk, which are not written,
the heading and the lines of the hunk. -/
structure Hunk where
  skipped : List Line
  heading : Text := []
  body : List Edit
  plain : '\n' ∉ heading := by first | exact newline_not_mem_nil | decide

/-- The edits of a hunk together with the unchanged lines before it. -/
def Hunk.edits (hunk : Hunk) : List Edit := hunk.skipped.map Edit.keep ++ hunk.body

/-- The insertions of hunks are those of the first one and those behind it. -/
theorem insertedFrom_hunks (newBefore : Nat) (hunk : Hunk) (hunks : List Hunk) :
    Edit.insertedFrom (newBefore + 1) ((hunk :: hunks).flatMap Hunk.edits) =
      Edit.insertedFrom (newBefore + hunk.skipped.length + 1) hunk.body ++
        Edit.insertedFrom (newBefore + hunk.skipped.length +
          (hunk.body.filterMap Edit.new).length + 1) (hunks.flatMap Hunk.edits) := by
  have skipped : (hunk.skipped.map Edit.keep).filterMap Edit.new = hunk.skipped := by
    rw [List.filterMap_map]
    exact List.filterMap_some
  rw [List.flatMap_cons, Hunk.edits, List.append_assoc, Edit.insertedFrom_append,
    Edit.insertedFrom_keep, List.nil_append, Edit.insertedFrom_append, skipped]
  congr 2 <;> omega

/-- The edits of a whole text: those of the hunks and the unchanged rest. -/
def editScript (hunks : List Hunk) (rest : List Line) : List Edit :=
  hunks.flatMap Hunk.edits ++ rest.map Edit.keep

/-- The hunk of a text that changes as a whole, if there is anything to change. -/
def wholeHunk (edits : List Edit) : List Hunk :=
  if edits.isEmpty then [] else [{ skipped := [], body := edits }]

/-- A script as one hunk has its edits. -/
theorem flatMap_wholeHunk (edits : List Edit) : (wholeHunk edits).flatMap Hunk.edits = edits := by
  cases edits with
  | nil => rfl
  | cons edit edits => simp [wholeHunk, Hunk.edits]

/-- A unified diff of two texts. -/
structure UnifiedDiff where
  hunks : List Hunk
  rest : List Line := []
  oldClosed : Line.Closed ((editScript hunks rest).filterMap Edit.old) := by decide
  newClosed : Line.Closed ((editScript hunks rest).filterMap Edit.new) := by decide

namespace UnifiedDiff

/-- The edits that turn the old text into the new one. -/
def script (diff : UnifiedDiff) : List Edit := editScript diff.hunks diff.rest

/-- The text before the change. -/
def oldText (diff : UnifiedDiff) : Text := (diff.script.filterMap Edit.old).flatMap Line.content

/-- The text behind the change. -/
def newText (diff : UnifiedDiff) : Text := (diff.script.filterMap Edit.new).flatMap Line.content

/-- The diff that removes the old text. -/
def removal (diff : UnifiedDiff) : UnifiedDiff where
  hunks := wholeHunk ((diff.script.filterMap Edit.old).map Edit.delete)
  oldClosed := by
    have same : (editScript (wholeHunk ((diff.script.filterMap Edit.old).map Edit.delete))
        []).filterMap Edit.old = diff.script.filterMap Edit.old := by
      simp only [editScript, flatMap_wholeHunk, List.map_nil, List.append_nil, List.filterMap_map]
      exact List.filterMap_some
    rw [same]
    exact diff.oldClosed
  newClosed := by
    have none : (editScript (wholeHunk ((diff.script.filterMap Edit.old).map Edit.delete))
        []).filterMap Edit.new = [] := by
      simp [editScript, flatMap_wholeHunk, Edit.new]
    rw [none]
    exact fun _ member => absurd member List.not_mem_nil

/-- The diff that creates the new text. -/
def creation (diff : UnifiedDiff) : UnifiedDiff where
  hunks := wholeHunk ((diff.script.filterMap Edit.new).map Edit.insert)
  oldClosed := by
    have none : (editScript (wholeHunk ((diff.script.filterMap Edit.new).map Edit.insert))
        []).filterMap Edit.old = [] := by
      simp [editScript, flatMap_wholeHunk, Edit.old]
    rw [none]
    exact fun _ member => absurd member List.not_mem_nil
  newClosed := by
    have same : (editScript (wholeHunk ((diff.script.filterMap Edit.new).map Edit.insert))
        []).filterMap Edit.new = diff.script.filterMap Edit.new := by
      simp only [editScript, flatMap_wholeHunk, List.map_nil, List.append_nil, List.filterMap_map]
      exact List.filterMap_some
    rw [same]
    exact diff.newClosed

/-- Old-side numbers of the deleted lines, counted from one. -/
def deletedLines (diff : UnifiedDiff) : List Nat := Edit.deletedFrom 1 diff.script

/-- New-side numbers of the inserted lines with the lines, counted from one. -/
def insertedLines (diff : UnifiedDiff) : List (Nat × Line) := Edit.insertedFrom 1 diff.script

/-- The unwritten rest of a text inserts nothing. -/
theorem insertedLines_eq (diff : UnifiedDiff) :
    diff.insertedLines = Edit.insertedFrom 1 (diff.hunks.flatMap Hunk.edits) := by
  rw [insertedLines, script, editScript, Edit.insertedFrom_append, Edit.insertedFrom_keep,
    List.append_nil]

/-- Creating the new text inserts whatever the diff inserts. -/
theorem insertedLines_subset_creation (diff : UnifiedDiff) :
    diff.insertedLines ⊆ diff.creation.insertedLines := by
  rw [insertedLines_eq diff.creation, creation, flatMap_wholeHunk]
  exact Edit.insertedFrom_subset 1 diff.script

/-- A range of a hunk header: the first line, or the line before an empty range,
and the length unless it is one. -/
def range (before count : Nat) : Text :=
  Text.decimal (if count = 0 then before else before + 1) ++
    if count = 1 then [] else ',' :: Text.decimal count

/-- The header line of a hunk behind the given numbers of old and new lines. -/
def header (oldBefore newBefore : Nat) (hunk : Hunk) : Text :=
  "@@ -".toList ++ range oldBefore (hunk.body.filterMap Edit.old).length ++
    " +".toList ++ range newBefore (hunk.body.filterMap Edit.new).length ++
    " @@".toList ++ (if hunk.heading.isEmpty then [] else ' ' :: hunk.heading)

/-- The written lines of hunks, behind the given numbers of old and new lines. -/
def hunkLines : Nat → Nat → List Hunk → List Text
  | _, _, [] => []
  | oldBefore, newBefore, hunk :: rest =>
    let oldStart := oldBefore + hunk.skipped.length
    let newStart := newBefore + hunk.skipped.length
    (header oldStart newStart hunk :: hunk.body.flatMap Edit.lines) ++
      hunkLines (oldStart + (hunk.body.filterMap Edit.old).length)
        (newStart + (hunk.body.filterMap Edit.new).length) rest

/-- The written diff behind some header lines of its own. -/
def render (preamble : Text) (diff : UnifiedDiff) : Text :=
  preamble ++ Text.joinLines (hunkLines 0 0 diff.hunks)

end UnifiedDiff

end VirtTestTools
