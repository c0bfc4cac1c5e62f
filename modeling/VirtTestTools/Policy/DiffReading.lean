import VirtTestTools.Lines
import VirtTestTools.Policy.StagedDiff

/-!
# The staged diff in text mode

The output of git is read in text mode, where a carriage return ends a line. The one in
front of a line feed goes with it; a lone one cuts a line of a hunk, and the pieces
behind it are counted as lines of the hunk. A piece that looks like an added line or a
header would be taken for one. Without such pieces a hunk records each line that it
inserts under its number moved by the pieces before it.
-/

namespace VirtTestTools.Policy

open Text

/-- The pieces behind lone carriage returns of a line that are counted as lines: all but
those that look deleted or like a marker. -/
def countedReturns (line : Text) : Nat :=
  ((strayReturns line).filter fun piece => !startsWithAny [['-'], ['\\']] piece).length

/-- No piece behind a lone carriage return looks like an added line or a header. -/
def QuietReturns (line : Text) : Prop :=
  ∀ piece ∈ strayReturns line, startsWith ['+'] piece = false ∧
    startsWith diffPrefix piece = false ∧ startsWith "@@ -".toList piece = false

/-- What the lines of a hunk record from a number on. -/
def recordedFrom : Nat → List Edit → List Nat
  | _, [] => []
  | number, .keep line :: rest => recordedFrom (number + 1 + countedReturns line.text) rest
  | number, .delete line :: rest => recordedFrom (number + countedReturns line.text) rest
  | number, .insert line :: rest =>
    number :: recordedFrom (number + 1 + countedReturns line.text) rest

/-- What hunks record behind the given number of new lines. Each header sets the number
anew. -/
def recordedHunks : Nat → List Hunk → List Nat
  | _, [] => []
  | newBefore, hunk :: rest =>
    recordedFrom (newBefore + hunk.skipped.length + 1 + countedReturns hunk.heading) hunk.body ++
      recordedHunks (newBefore + hunk.skipped.length + (hunk.body.filterMap Edit.new).length) rest

/-- The numbers of the lines as which inserted lines are read, in a new text that is read
from the given number on. -/
def gainedFrom : Nat → List Edit → List Nat
  | _, [] => []
  | number, .keep line :: rest => gainedFrom (number + (returnPieces line.text).length) rest
  | number, .delete _ :: rest => gainedFrom number rest
  | number, .insert line :: rest =>
    List.range' number (returnPieces line.text).length ++
      gainedFrom (number + (returnPieces line.text).length) rest

/-! ## One line -/

/-- A line without the first character of an opening does not start so. -/
theorem startsWith_of_longer (first : Char) (opening text : Text)
    (other : startsWith [first] text = false) : startsWith (first :: opening) text = false := by
  cases text with
  | nil => rfl
  | cons character rest =>
    rw [startsWith_singleton] at other
    simp [startsWith, List.isPrefixOf, other]

/-- A stray piece moves the current line, if there is one. -/
theorem processDiffLine_stray (given : Option Path) (scan : DiffScan) (piece : Text)
    (notAdded : startsWith ['+'] piece = false) (notFile : startsWith diffPrefix piece = false)
    (notHunk : startsWith "@@ -".toList piece = false) :
    processDiffLine given scan piece =
      .ok (if scan.currentPath = none ∨ startsWithAny [['-'], ['\\']] piece = true then scan
        else { scan with currentLine := scan.currentLine.map (· + 1) }) := by
  have control := processDiffControlLine_none given scan piece notFile
    (Or.inr (startsWith_of_longer '+' "++ ".toList piece notAdded)) notHunk
  obtain ⟨currentPath, currentLine, inHunk, addedLines⟩ := scan
  simp only [processDiffLine, control]
  cases currentPath with
  | none =>
    rw [if_pos (Or.inl rfl)]
    rfl
  | some path =>
    cases currentLine with
    | none =>
      simp only [Option.map_none, ite_self]
      rfl
    | some number =>
      simp only [startsWithAny, List.any_cons, List.any_nil, Bool.or_false, notAdded, bind,
        Except.bind, pure, Except.pure]
      cases marker : startsWith ['\\'] piece <;> cases minus : startsWith ['-'] piece <;> simp

/-- Stray pieces move the current line by those of them that are counted. -/
theorem foldlM_stray (given : Option Path) (scan : DiffScan) (pieces : List Text)
    (quiet : ∀ piece ∈ pieces, startsWith ['+'] piece = false ∧
      startsWith diffPrefix piece = false ∧ startsWith "@@ -".toList piece = false) :
    pieces.foldlM (processDiffLine given) scan =
      .ok (if scan.currentPath = none then scan
        else { scan with
          currentLine := scan.currentLine.map
            (· + (pieces.filter fun piece => !startsWithAny [['-'], ['\\']] piece).length) }) := by
  induction pieces generalizing scan with
  | nil => simp [pure, Except.pure]
  | cons piece pieces inductionHypothesis =>
    obtain ⟨notAdded, notFile, notHunk⟩ := quiet piece List.mem_cons_self
    rw [List.foldlM_cons, processDiffLine_stray given scan piece notAdded notFile notHunk]
    refine (inductionHypothesis _ fun other member =>
      quiet other (List.mem_cons_of_mem _ member)).trans ?_
    by_cases unmapped : scan.currentPath = none
    · simp [unmapped]
    · by_cases passed : startsWithAny [['-'], ['\\']] piece = true
      · simp [unmapped, passed]
      · rw [Bool.not_eq_true] at passed
        simp [unmapped, passed, Function.comp_def, Nat.add_assoc, Nat.add_comm 1]

/-- The lines as which an edit is read. -/
theorem flatMap_edit (edit : Edit) :
    edit.lines.flatMap returnPieces =
      (edit.mark :: firstReturn edit.line.text) :: (strayReturns edit.line.text ++
        if edit.line.terminated then [] else [Edit.noNewline]) := by
  have mark : '\r' ∉ [edit.mark] := by
    cases edit <;> simp [Edit.mark]
  have written : returnPieces (edit.mark :: edit.line.text) =
      (edit.mark :: firstReturn edit.line.text) :: strayReturns edit.line.text :=
    returnPieces_append [edit.mark] edit.line.text mark
  rw [Edit.lines, List.flatMap_cons, written, List.cons_append]
  cases edit.line.terminated with
  | true => rfl
  | false =>
    rw [if_neg Bool.false_ne_true, List.flatMap_singleton,
      returnPieces_of_not_mem Edit.noNewline (by decide)]

/-- The first piece of a line has no line end. -/
theorem newline_not_mem_firstReturn (line : Line) : '\n' ∉ firstReturn line.text :=
  fun member => line.plain (List.takeWhile_subset _ member)

/-- An edit that is cut off at its first carriage return. -/
def cutEdit : Edit → Edit
  | .keep line => .keep ⟨firstReturn line.text, true, newline_not_mem_firstReturn line⟩
  | .delete line => .delete ⟨firstReturn line.text, true, newline_not_mem_firstReturn line⟩
  | .insert line => .insert ⟨firstReturn line.text, true, newline_not_mem_firstReturn line⟩

/-- A cut edit has the first piece of its line. -/
theorem lines_cutEdit (edit : Edit) :
    (cutEdit edit).lines = [edit.mark :: firstReturn edit.line.text] := by
  cases edit <;> rfl

/-- How far an edit moves the current line. -/
def Edit.moved (edit : Edit) : Nat :=
  ([edit].filterMap Edit.new).length + countedReturns edit.line.text

/-- What is recorded of the first edit and of the rest. -/
theorem recordedFrom_cons (number : Nat) (edit : Edit) (rest : List Edit) :
    recordedFrom number (edit :: rest) =
      (Edit.insertedFrom number [cutEdit edit]).map Prod.fst ++
        recordedFrom (number + Edit.moved edit) rest := by
  cases edit with
  | keep line =>
    rw [recordedFrom, Nat.add_assoc]
    rfl
  | delete line =>
    have counted : Edit.moved (.delete line) = countedReturns line.text := Nat.zero_add _
    rw [recordedFrom, counted]
    rfl
  | insert line =>
    rw [recordedFrom, Nat.add_assoc]
    rfl

/-- One edit, read in a hunk of a file. -/
theorem foldlM_readEdit (given : Option Path) (path : Path) (number : Nat)
    (addedLines : Dict Path (List Nat)) (edit : Edit) (quiet : QuietReturns edit.line.text) :
    (edit.lines.flatMap returnPieces).foldlM (processDiffLine given)
        ⟨some path, some number, true, addedLines⟩ =
      .ok ⟨some path, some (number + Edit.moved edit), true,
        recordLines (some path) ((Edit.insertedFrom number [cutEdit edit]).map Prod.fst)
          addedLines⟩ := by
  have first := foldlM_edit given path number addedLines (cutEdit edit)
  rw [lines_cutEdit] at first
  have stray := foldlM_stray given ⟨some path,
    some (number + ([cutEdit edit].filterMap Edit.new).length), true,
    recordLines (some path) ((Edit.insertedFrom number [cutEdit edit]).map Prod.fst) addedLines⟩
    (strayReturns edit.line.text) quiet
  rw [flatMap_edit, ← List.singleton_append, List.foldlM_append, first]
  change (strayReturns edit.line.text ++ _).foldlM _ _ = _
  rw [List.foldlM_append, stray]
  refine (foldlM_marker given _ rfl edit.line.terminated).trans ?_
  have same : ([cutEdit edit].filterMap Edit.new).length = ([edit].filterMap Edit.new).length := by
    cases edit <;> rfl
  rw [if_neg (Option.some_ne_none path), same]
  simp only [Option.map_some, Edit.moved, countedReturns, Nat.add_assoc]

/-- The edits of a hunk, read in a file. -/
theorem foldlM_readEdits (given : Option Path) (path : Path) (number : Nat)
    (addedLines : Dict Path (List Nat)) (edits : List Edit)
    (quiet : ∀ edit ∈ edits, QuietReturns edit.line.text) :
    ∃ final, ((edits.flatMap Edit.lines).flatMap returnPieces).foldlM (processDiffLine given)
        ⟨some path, some number, true, addedLines⟩ = .ok final ∧
      final.currentPath = some path ∧
      final.addedLines = recordLines (some path) (recordedFrom number edits) addedLines := by
  induction edits generalizing number addedLines with
  | nil => exact ⟨_, rfl, rfl, rfl⟩
  | cons edit edits inductionHypothesis =>
    obtain ⟨final, rest, current, added⟩ := inductionHypothesis (number + Edit.moved edit)
      (recordLines (some path) ((Edit.insertedFrom number [cutEdit edit]).map Prod.fst) addedLines)
      fun other member => quiet other (List.mem_cons_of_mem _ member)
    refine ⟨final, ?_, current, ?_⟩
    · rw [List.flatMap_cons, List.flatMap_append, List.foldlM_append,
        foldlM_readEdit given path number addedLines edit (quiet edit List.mem_cons_self)]
      exact rest
    · rw [added, recordedFrom_cons, recordLines_append]

/-- Without a current file the edits of a hunk are passed over. -/
theorem foldlM_readEdits_unmapped (given : Option Path) (line : Option Nat)
    (addedLines : Dict Path (List Nat)) (edits : List Edit)
    (quiet : ∀ edit ∈ edits, QuietReturns edit.line.text) :
    ((edits.flatMap Edit.lines).flatMap returnPieces).foldlM (processDiffLine given)
        ⟨none, line, true, addedLines⟩ = .ok ⟨none, line, true, addedLines⟩ := by
  induction edits with
  | nil => rfl
  | cons edit edits inductionHypothesis =>
    have first := foldlM_edits_unmapped given line addedLines [cutEdit edit]
    rw [List.flatMap_singleton, lines_cutEdit] at first
    have stray := foldlM_stray given ⟨none, line, true, addedLines⟩
      (strayReturns edit.line.text) (quiet edit List.mem_cons_self)
    rw [List.flatMap_cons, List.flatMap_append, List.foldlM_append, flatMap_edit,
      ← List.singleton_append, List.foldlM_append, first]
    change (((strayReturns edit.line.text ++ _).foldlM _ _ : Except PolicyError DiffScan) >>= _) = _
    rw [List.foldlM_append, stray, if_pos rfl]
    change ((List.foldlM _ _ _ : Except PolicyError DiffScan) >>= _) = _
    rw [foldlM_marker given _ rfl edit.line.terminated]
    exact inductionHypothesis fun other member => quiet other (List.mem_cons_of_mem _ member)

/-! ## Hunks -/

/-- A range has no carriage return. -/
theorem return_not_mem_range (before count : Nat) : '\r' ∉ UnifiedDiff.range before count := by
  have digits (number : Nat) : '\r' ∉ decimal number := fun member =>
    absurd (isDigit_of_mem_decimal number '\r' member) (by decide)
  unfold UnifiedDiff.range
  by_cases one : count = 1 <;> simp [one, digits]

/-- The header of a hunk sets the current line, and the stray pieces of its heading move it. -/
theorem foldlM_readHeader (given : Option Path) (scan : DiffScan) (oldBefore newBefore : Nat)
    (hunk : Hunk) (quiet : QuietReturns hunk.heading) :
    (returnPieces (UnifiedDiff.header oldBefore newBefore hunk)).foldlM (processDiffLine given) scan =
      .ok { scan with
        currentLine := some
          ((if (hunk.body.filterMap Edit.new).length = 0 then newBefore else newBefore + 1) +
            if scan.currentPath = none then 0 else countedReturns hunk.heading)
        inHunk := true } := by
  have read (heading : Text) := processDiffLine_hunkHeader given scan _ _
    (hunkHeader_opening oldBefore newBefore hunk heading)
  have whole : '\r' ∉ "@@ -".toList ++
      UnifiedDiff.range oldBefore (hunk.body.filterMap Edit.old).length ++ " +".toList ++
      UnifiedDiff.range newBefore (hunk.body.filterMap Edit.new).length ++ " @@".toList := by
    simp only [List.mem_append, not_or]
    exact ⟨⟨⟨⟨by decide, return_not_mem_range _ _⟩, by decide⟩, return_not_mem_range _ _⟩,
      by decide⟩
  obtain ⟨opening, shape⟩ : ∃ opening, opening = "@@ -".toList ++
      UnifiedDiff.range oldBefore (hunk.body.filterMap Edit.old).length ++ " +".toList ++
      UnifiedDiff.range newBefore (hunk.body.filterMap Edit.new).length ++ " @@".toList := ⟨_, rfl⟩
  rw [← shape] at whole
  have pieces : ∃ heading, returnPieces (UnifiedDiff.header oldBefore newBefore hunk) =
      (opening ++ heading) :: strayReturns hunk.heading := by
    have written : UnifiedDiff.header oldBefore newBefore hunk =
        opening ++ if hunk.heading.isEmpty then [] else ' ' :: hunk.heading := shape ▸ rfl
    rw [written]
    cases headed : hunk.heading with
    | nil =>
      refine ⟨[], ?_⟩
      rw [List.isEmpty_nil, if_pos rfl, List.append_nil, returnPieces_of_not_mem opening whole]
      rfl
    | cons first rest =>
      refine ⟨' ' :: firstReturn (first :: rest), ?_⟩
      have spaced : '\r' ∉ opening ++ [' '] :=
        List.not_mem_append whole (by decide)
      have cut := returnPieces_append (opening ++ [' ']) (first :: rest) spaced
      simp only [List.append_assoc, List.singleton_append] at cut
      exact cut
  obtain ⟨heading, pieces⟩ := pieces
  have first := read heading
  rw [pieces, List.foldlM_cons, shape]
  refine (congrArg (· >>= _) first).trans ?_
  refine (foldlM_stray given _ (strayReturns hunk.heading) quiet).trans ?_
  by_cases unmapped : scan.currentPath = none
  · simp [unmapped]
  · simp [unmapped, countedReturns]

/-- Without lines on the new side nothing is recorded. -/
theorem recordedFrom_eq_nil (number : Nat) (edits : List Edit)
    (empty : (edits.filterMap Edit.new).length = 0) : recordedFrom number edits = [] := by
  induction edits generalizing number with
  | nil => rfl
  | cons edit edits inductionHypothesis =>
    cases edit with
    | keep line => simp [Edit.new] at empty
    | delete line =>
      exact inductionHypothesis _ (by simpa [List.filterMap_cons, Edit.new] using empty)
    | insert line => simp [Edit.new] at empty

/-- No piece of the lines of a hunk looks like an added line or a header. -/
def QuietHunk (hunk : Hunk) : Prop :=
  QuietReturns hunk.heading ∧ ∀ edit ∈ hunk.body, QuietReturns edit.line.text

/-- Hunks, read in text mode, record their lines under the moved numbers. -/
theorem records_readHunks (oldBefore newBefore : Nat) (hunks : List Hunk)
    (quiet : ∀ hunk ∈ hunks, QuietHunk hunk) :
    Records ((UnifiedDiff.hunkLines oldBefore newBefore hunks).flatMap returnPieces)
      (recordedHunks newBefore hunks) := by
  intro given path scan current
  induction hunks generalizing oldBefore newBefore scan with
  | nil => exact ⟨scan, rfl, (recordLines_nil path scan.addedLines).symm⟩
  | cons hunk hunks inductionHypothesis =>
    obtain ⟨quietHeading, quietBody⟩ := quiet hunk List.mem_cons_self
    have header := foldlM_readHeader given scan (oldBefore + hunk.skipped.length)
      (newBefore + hunk.skipped.length) hunk quietHeading
    obtain ⟨after, run, currentAfter, addedAfter⟩ : ∃ after,
        ((hunk.body.flatMap Edit.lines).flatMap returnPieces).foldlM (processDiffLine given)
          { scan with
            currentLine := some
              ((if (hunk.body.filterMap Edit.new).length = 0 then newBefore + hunk.skipped.length
                else newBefore + hunk.skipped.length + 1) +
                if scan.currentPath = none then 0 else countedReturns hunk.heading)
            inHunk := true } = .ok after ∧
        after.currentPath = path ∧ after.addedLines = recordLines path
          (recordedFrom (newBefore + hunk.skipped.length + 1 + countedReturns hunk.heading)
            hunk.body) scan.addedLines := by
      rw [current]
      cases path with
      | none => exact ⟨_, foldlM_readEdits_unmapped given _ _ hunk.body quietBody, rfl, rfl⟩
      | some path =>
        rw [if_neg (Option.some_ne_none path)]
        obtain ⟨after, run, kept, added⟩ := foldlM_readEdits given path
          ((if (hunk.body.filterMap Edit.new).length = 0 then newBefore + hunk.skipped.length
            else newBefore + hunk.skipped.length + 1) + countedReturns hunk.heading)
          scan.addedLines hunk.body quietBody
        refine ⟨after, run, kept, ?_⟩
        rw [added]
        by_cases empty : (hunk.body.filterMap Edit.new).length = 0
        · rw [recordedFrom_eq_nil _ _ empty, recordedFrom_eq_nil _ _ empty]
        · rw [if_neg empty]
    obtain ⟨final, rest, added⟩ := inductionHypothesis
      (oldBefore + hunk.skipped.length + (hunk.body.filterMap Edit.old).length)
      (newBefore + hunk.skipped.length + (hunk.body.filterMap Edit.new).length)
      (fun other member => quiet other (List.mem_cons_of_mem _ member)) after currentAfter
    refine ⟨final, ?_, ?_⟩
    · rw [UnifiedDiff.hunkLines, List.cons_append, List.flatMap_cons, List.flatMap_append,
        List.foldlM_append, header]
      change ((List.foldlM _ _ (_ ++ _) : Except PolicyError DiffScan)) = _
      rw [List.foldlM_append, run]
      exact rest
    · rw [added, addedAfter, recordedHunks, recordLines_append]

/-! ## Files -/

/-- Numbers that are recorded for printed hunks. -/
def Contents.recorded : Contents → List Nat
  | .printed _ _ hunks => recordedHunks 0 hunks
  | _ => []

namespace FileDiff

variable (quotePath : Bool) (file : FileDiff)

/-- No piece of the lines of a file looks like an added line or a header. -/
structure Quiet : Prop where
  extended : ∀ line ∈ file.extended.lines, QuietReturns line
  hunks : file.binary = false → ∀ hunk ∈ file.diff.hunks, QuietHunk hunk

/-- Numbers that are recorded for the printed hunks. -/
def recorded : List Nat := if file.binary then [] else recordedHunks 0 file.diff.hunks

/-- The contents of a file record what the file does. -/
theorem recorded_contents : (file.contents quotePath).recorded = file.recorded := by
  rw [contents, Contents.written, recorded]
  cases empty : file.diff.hunks.isEmpty with
  | true =>
    have none : file.diff.hunks = [] := by simpa using empty
    rw [if_pos rfl, none, recordedHunks, ite_self]
    rfl
  | false => cases file.binary <;> rfl

/-- An extended header line is passed over with its pieces. -/
theorem foldlM_readExtended (given : Option Path) (scan : DiffScan) (lines : List Text)
    (extended : ∀ line ∈ lines, startsWithAny extendedKeywords line = true)
    (quiet : ∀ line ∈ lines, QuietReturns line) (outside : scan.currentLine = none) :
    (lines.flatMap returnPieces).foldlM (processDiffLine given) scan = .ok scan := by
  have keywords : ∀ keyword ∈ extendedKeywords, '\r' ∉ keyword := by decide
  induction lines with
  | nil => rfl
  | cons line lines inductionHypothesis =>
    obtain ⟨keyword, member, opened⟩ := List.any_eq_true.mp (extended line List.mem_cons_self)
    obtain ⟨rest, rfl⟩ := List.isPrefixOf_iff_prefix.mp opened
    have first := foldlM_extended given scan [keyword ++ firstReturn rest] (by
      intro other same
      rw [List.mem_singleton.mp same]
      exact List.any_eq_true.mpr ⟨keyword, member, startsWith_append _ _⟩) outside
    have pieces := returnPieces_append keyword rest (keywords keyword member)
    have same : strayReturns (keyword ++ rest) = strayReturns rest := by
      rw [strayReturns, pieces, List.tail_cons]
    have stray := foldlM_stray given scan (strayReturns rest)
      (same ▸ quiet (keyword ++ rest) List.mem_cons_self)
    rw [outside, Option.map_none, ← outside, ite_self] at stray
    rw [List.flatMap_cons, pieces, List.foldlM_append, ← List.singleton_append,
      List.foldlM_append, first]
    refine (congrArg (· >>= _) stray).trans ?_
    exact inductionHypothesis (fun other later => extended other (List.mem_cons_of_mem _ later))
      fun other later => quiet other (List.mem_cons_of_mem _ later)

/-- What stands below the extended header, as it is read. -/
theorem readAs_contents (quiet : file.Quiet) :
    (file.contents quotePath).ReadAs ((file.contents quotePath).lines.flatMap returnPieces)
      (file.contents quotePath).recorded := by
  have side (letter : Char) (present : Bool) (path : GitPath) (plain : 0x20 ≤ letter.toNat) :
      '\r' ∉ side quotePath letter present path := fun member =>
    absurd (le_of_mem_side quotePath letter present path plain '\r' member) (by decide)
  have named (opening name : Text) (plainOpening : '\r' ∉ opening) (plain : '\r' ∉ name) :
      returnPieces (opening ++ name) = [opening ++ name] :=
    returnPieces_of_not_mem _ (List.not_mem_append plainOpening plain)
  have old := side 'a' file.oldPresent file.oldPath (by decide)
  have new := side 'b' file.newPresent file.newPath (by decide)
  rw [contents, Contents.written]
  cases file.diff.hunks.isEmpty with
  | true => exact Contents.ReadAs.nothing
  | false =>
    rw [if_neg Bool.false_ne_true]
    cases binary : file.binary with
    | true =>
      have notice : '\r' ∉ FileDiff.side quotePath 'a' file.oldPresent file.oldPath ++
          " and ".toList ++ FileDiff.side quotePath 'b' file.newPresent file.newPath ++
          " differ".toList :=
        List.not_mem_append (List.not_mem_append (List.not_mem_append old (by decide)) new)
          (by decide)
      rw [if_pos rfl, Contents.lines, List.flatMap_singleton, named _ _ (by decide) notice]
      exact Contents.ReadAs.binary _
    | false =>
      rw [if_neg Bool.false_ne_true, Contents.lines, List.flatMap_cons,
        List.flatMap_cons, named _ _ (by decide) (not_mem_label '\r' _ (by decide) old),
        named _ _ (by decide) (not_mem_label '\r' _ (by decide) new)]
      exact Contents.ReadAs.printed _ _ _ _ _
        (records_readHunks 0 0 file.diff.hunks (quiet.hunks binary))

/-- A file, read in text mode, contributes what is recorded for its hunks. -/
theorem contributes_readLines (quiet : file.Quiet) :
    Contributes none ((file.fileSection quotePath).key none)
      ((file.fileSection quotePath).lines.flatMap returnPieces)
      (file.contents quotePath).recorded := by
  have header : returnPieces (diffHeader quotePath file.oldPath file.newPath) =
      [diffHeader quotePath file.oldPath file.newPath] :=
    returnPieces_of_not_mem _ fun member =>
      absurd (le_of_mem_diffHeader quotePath file.oldPath file.newPath '\r' member) (by decide)
  have read : (file.fileSection quotePath).lines.flatMap returnPieces =
      (file.fileSection quotePath).header ::
        (file.extended.lines.flatMap returnPieces ++
          (file.contents quotePath).lines.flatMap returnPieces) := by
    rw [FileSection.lines, List.flatMap_cons, List.flatMap_append]
    exact congrArg (· ++ _) header
  rw [read]
  exact contributes_read none (file.fileSection quotePath) _ _ _
    (fun scan outside _ => foldlM_readExtended none scan file.extended.lines
      (fun line member => (file.extended.plain line member).2) quiet.extended outside)
    (file.readAs_contents quotePath quiet)

end FileDiff

/-- The lines that are recorded under a path. -/
def recordedLines (quotePath : Bool) (files : List FileDiff) (path : Path) : List Nat :=
  (mappedFiles quotePath files path).flatMap FileDiff.recorded

/-- The staged diff, read in text mode: a path is mapped if some file is recorded under
it, to what is recorded for the printed hunks of these files. -/
theorem addedLinesByPath_readDiff (quotePath : Bool) (files : List FileDiff)
    (quiet : ∀ file ∈ files, file.Quiet) :
    ∃ addedLines,
      addedLinesByPath (universalNewlines (writeDiff quotePath files)) = .ok addedLines ∧
      ∀ path, addedLines.get path =
        if mappedFiles quotePath files path = [] then none
        else some (recordedLines quotePath files path) := by
  have written : (files.map (FileDiff.fileSection quotePath)).flatMap FileSection.lines =
      files.flatMap (FileDiff.lines quotePath) := by
    rw [List.flatMap_map]
    simp only [FileDiff.lines_fileSection]
  have mapped (path : Path) : mappedSections none (files.map (FileDiff.fileSection quotePath)) path =
      (mappedFiles quotePath files path).map (FileDiff.fileSection quotePath) := by
    rw [mappedSections, mappedFiles, List.filter_map]
    simp only [Function.comp_def, FileDiff.key_fileSection]
  have plain : ∀ line ∈ (files.map (FileDiff.fileSection quotePath)).flatMap FileSection.lines,
      '\n' ∉ line := by
    intro line member
    obtain ⟨file, -, member⟩ := List.mem_flatMap.mp member
    exact newline_not_mem_section file line member
  have cut : split ['\n'] (universalNewlines (writeDiff quotePath files)) =
      (files.map (FileDiff.fileSection quotePath)).flatMap
        (fun file => file.lines.flatMap returnPieces) ++ [[]] := by
    rw [writeDiff, ← written, split_universalNewlines _ plain, List.flatMap_assoc]
  obtain ⟨addedLines, run, added⟩ := addedLinesByPath_read none
    (fun file => file.lines.flatMap returnPieces) (·.contents.recorded)
    (files.map (FileDiff.fileSection quotePath)) (by
      intro entry member
      obtain ⟨file, inside, rfl⟩ := List.mem_map.mp member
      exact file.contributes_readLines quotePath (quiet file inside)) _ cut
  refine ⟨addedLines, run, fun path => ?_⟩
  rw [added path, mapped path, List.flatMap_map]
  simp only [FileDiff.fileSection, FileDiff.recorded_contents, List.map_eq_nil_iff, ne_eq,
    reduceCtorEq, not_false_eq_true, true_and, recordedLines]

/-! ## The new text -/

/-- The number of lines that lines of a text are read as. -/
def readLength (lines : List Line) : Nat := (lines.flatMap fun line => returnPieces line.text).length

/-- No more lines are read than the text has when it is split. -/
theorem readLength_le (lines : List Line) (closed : Line.Closed lines) :
    readLength lines ≤ (split ['\n'] (universalNewlines (lines.flatMap Line.content))).length := by
  induction lines with
  | nil => exact Nat.zero_le _
  | cons line lines inductionHypothesis =>
    have joined (terminated : line.terminated = true) :
        split ['\n'] (universalNewlines ((line :: lines).flatMap Line.content)) =
          returnPieces line.text ++
            split ['\n'] (universalNewlines (lines.flatMap Line.content)) := by
      have first := universalNewlinesFrom_line false [] line.text (lines.flatMap Line.content)
        line.plain (fun impossible => absurd impossible Bool.false_ne_true)
      have content : Line.content line = line.text ++ ['\n'] := by
        rw [Line.content, terminated, if_pos rfl]
      rw [List.flatMap_cons, content, List.append_assoc, List.singleton_append]
      refine (congrArg (split ['\n']) first).trans (split_joinLines_append _ _ ?_)
      intro piece member feed
      rcases mem_returnPiecesFrom [] line.text piece '\n' member feed with none | inLine
      · cases none
      · exact line.plain inLine
    rw [readLength, List.flatMap_cons, List.length_append]
    cases lines with
    | nil =>
      cases terminated : line.terminated with
      | true =>
        rw [joined terminated, List.length_append]
        exact Nat.add_le_add_left (Nat.zero_le _) _
      | false =>
        have content : Line.content line = line.text := by
          rw [Line.content, terminated, if_neg Bool.false_ne_true, List.append_nil]
        rw [List.flatMap_singleton, content]
        exact length_returnPiecesFrom_le false [] [] line.text line.plain
    | cons second lines =>
      have rest : Line.Closed (second :: lines) := fun other member => closed other (by
        rw [List.dropLast_cons_of_ne_nil (by simp)]
        exact List.mem_cons_of_mem _ member)
      rw [joined (closed line (by simp)), List.length_append]
      exact Nat.add_le_add_left (inductionHypothesis rest) _

/-- What is gained lies within the new text. -/
theorem gainedFrom_bounds (number : Nat) (edits : List Edit) (gained : Nat)
    (member : gained ∈ gainedFrom number edits) :
    number ≤ gained ∧ gained < number + readLength (edits.filterMap Edit.new) := by
  have counted (line : Line) (lines : List Line) :
      readLength (line :: lines) = (returnPieces line.text).length + readLength lines := by
    rw [readLength, List.flatMap_cons, List.length_append]
    rfl
  induction edits generalizing number with
  | nil => cases member
  | cons edit edits inductionHypothesis =>
    cases edit with
    | keep line =>
      have later := inductionHypothesis _ member
      simp only [List.filterMap_cons, Edit.new, counted]
      omega
    | delete line =>
      simpa only [List.filterMap_cons, Edit.new] using inductionHypothesis number member
    | insert line =>
      simp only [List.filterMap_cons, Edit.new, counted]
      rcases List.mem_append.mp member with here | later
      · have bounds := List.mem_range'_1.mp here
        omega
      · have bounds := inductionHypothesis _ later
        omega

/-! ## Texts without lone carriage returns -/

/-- A line without carriage returns is one piece. -/
theorem returnPieces_whole (line : Text) (whole : strayReturns line = []) :
    (returnPieces line).length = 1 := by
  rw [returnPieces_eq, whole]
  rfl

/-- A line without carriage returns counts no further pieces. -/
theorem countedReturns_whole (line : Text) (whole : strayReturns line = []) :
    countedReturns line = 0 := by
  rw [countedReturns, whole]
  rfl

/-- A line without carriage returns is quiet. -/
theorem quietReturns_whole (line : Text) (whole : strayReturns line = []) : QuietReturns line := by
  rw [QuietReturns, whole]
  exact List.forall_mem_nil _

/-- The gained lines have the numbers that git gives them. -/
theorem gainedFrom_eq (number : Nat) (edits : List Edit)
    (whole : ∀ edit ∈ edits, strayReturns edit.line.text = []) :
    gainedFrom number edits = (Edit.insertedFrom number edits).map Prod.fst := by
  induction edits generalizing number with
  | nil => rfl
  | cons edit edits inductionHypothesis =>
    have one := returnPieces_whole edit.line.text (whole edit List.mem_cons_self)
    have later (number : Nat) := inductionHypothesis number
      fun other member => whole other (List.mem_cons_of_mem _ member)
    cases edit with
    | keep line => exact (congrArg (gainedFrom · edits) (congrArg (number + ·) one)).trans (later _)
    | delete line => exact later number
    | insert line =>
      change (returnPieces line.text).length = 1 at one
      rw [gainedFrom, one, later]
      rfl

/-- So have the recorded ones. -/
theorem recordedFrom_eq (number : Nat) (edits : List Edit)
    (whole : ∀ edit ∈ edits, strayReturns edit.line.text = []) :
    recordedFrom number edits = (Edit.insertedFrom number edits).map Prod.fst := by
  induction edits generalizing number with
  | nil => rfl
  | cons edit edits inductionHypothesis =>
    have none := countedReturns_whole edit.line.text (whole edit List.mem_cons_self)
    have later (number : Nat) := inductionHypothesis number
      fun other member => whole other (List.mem_cons_of_mem _ member)
    cases edit with
    | keep line =>
      exact (congrArg (recordedFrom · edits) (congrArg (number + 1 + ·) none)).trans (later _)
    | delete line =>
      exact (congrArg (recordedFrom · edits) (congrArg (number + ·) none)).trans (later _)
    | insert line =>
      change countedReturns line.text = 0 at none
      rw [recordedFrom, none, later]
      rfl

/-- Without carriage returns the hunks record the inserted lines. -/
theorem recordedHunks_eq (newBefore : Nat) (hunks : List Hunk)
    (headings : ∀ hunk ∈ hunks, strayReturns hunk.heading = [])
    (whole : ∀ edit ∈ hunks.flatMap Hunk.edits, strayReturns edit.line.text = []) :
    recordedHunks newBefore hunks =
      (Edit.insertedFrom (newBefore + 1) (hunks.flatMap Hunk.edits)).map Prod.fst := by
  induction hunks generalizing newBefore with
  | nil => rfl
  | cons hunk hunks inductionHypothesis =>
    have body : ∀ edit ∈ hunk.body, strayReturns edit.line.text = [] := fun edit member =>
      whole edit (List.mem_append_left _ (List.mem_append_right _ member))
    rw [recordedHunks, countedReturns_whole hunk.heading (headings hunk List.mem_cons_self),
      recordedFrom_eq _ _ body, insertedFrom_hunks, List.map_append,
      inductionHypothesis _ (fun other member => headings other (List.mem_cons_of_mem _ member))
        fun edit member => whole edit (List.mem_append_right _ member)]

end VirtTestTools.Policy
