import Mathlib.Algebra.GroupWithZero.Nat
import Mathlib.Data.List.Perm.Subperm
import VirtTestTools.Lines
import VirtTestTools.Scans
import VirtTestTools.Analyzer.DiffText
import VirtTestTools.Policy.WrittenFiles

/-!
# The changed lines of a diff

`_parse_diff_for_changed_lines` counts the lines of the new side hunk by hunk. Two
things disturb the count. A line whose text starts with `++` looks like a file
header and is passed over; and `str.splitlines` cuts a line at more characters than
line feeds, so that the pieces behind them are counted as lines of their own.

The reader of the staged diff has neither defect. Unless a stray piece is itself
taken for an addition or a hunk header, the two agree exactly when no inserted line
starts with `++` and no counted piece comes before an inserted line of its hunk.
-/

namespace VirtTestTools.Analyzer

open Text

/-- The stray pieces of a line that are counted as lines of the new side. -/
def countedPieces (line : Text) : Nat :=
  ((strayPieces line).filter fun piece => !startsWithAny [['-'], ['\\']] piece).length

/-- No stray piece of the line is taken for an addition or a hunk header. -/
def QuietPieces (line : Text) : Prop :=
  ∀ piece ∈ strayPieces line,
    startsWith ['+'] piece = false ∧ startsWith "@@".toList piece = false

instance (line : Text) : Decidable (QuietPieces line) :=
  inferInstanceAs (Decidable (∀ piece ∈ strayPieces line, _))

/-- As an inserted line, the line looks like a file header. -/
def looksLikeHeader (line : Line) : Bool := startsWith "++".toList line.text

/-- How far a line of a hunk moves the current line. -/
def advance : Edit → Nat
  | .keep line => 1 + countedPieces line.text
  | .delete line => countedPieces line.text
  | .insert line => (if looksLikeHeader line then 0 else 1) + countedPieces line.text

/-- What a line of a hunk records at the current line. -/
def recorded (number : Nat) : Edit → List Nat
  | .insert line => if looksLikeHeader line then [] else [number]
  | _ => []

/-- What the lines of a hunk record, from the current line on. -/
def readFrom : Nat → List Edit → List Nat
  | _, [] => []
  | number, edit :: rest => recorded number edit ++ readFrom (number + advance edit) rest

/-- What hunks record, behind the given number of new lines. -/
def readHunks : Nat → List Hunk → List Nat
  | _, [] => []
  | newBefore, hunk :: rest =>
    readFrom (newBefore + hunk.skipped.length + 1 + countedPieces hunk.heading) hunk.body ++
      readHunks (newBefore + hunk.skipped.length + (hunk.body.filterMap Edit.new).length) rest

/-! ## One line -/

/-- A text with a longer opening starts with its first character. -/
theorem startsWith_head (expected : Char) (opening text : Text)
    (opened : startsWith (expected :: opening) text = true) : startsWith [expected] text = true := by
  cases text with
  | nil => cases opened
  | cons first rest =>
    simp only [startsWith, List.isPrefixOf, Bool.and_eq_true] at opened ⊢
    exact ⟨opened.1, trivial⟩

/-- A stray piece is counted inside a hunk unless it looks like a deletion or a
marker. -/
theorem step_stray (state : ChangedLines) (piece : Text) (notAdded : startsWith ['+'] piece = false)
    (notHunk : startsWith "@@".toList piece = false) :
    state.step piece =
      if state.currentLine = 0 ∨ startsWithAny [['-'], ['\\']] piece = true then state
      else { state with currentLine := state.currentLine + 1 } := by
  have label : startsWithAny ["---".toList, "+++".toList] piece = true →
      startsWithAny [['-'], ['\\']] piece = true := by
    intro opened
    simp only [startsWithAny, List.any_cons, List.any_nil, Bool.or_false, Bool.or_eq_true]
      at opened ⊢
    rcases opened with minus | plus
    · exact Or.inl (startsWith_head '-' "--".toList piece minus)
    · rw [startsWith_head '+' "++".toList piece plus] at notAdded
      cases notAdded
  rw [ChangedLines.step]
  simp only [notHunk, notAdded, Bool.false_eq_true, ↓reduceIte]
  by_cases passed : startsWithAny [['-'], ['\\']] piece = true
  · simp only [passed, or_true, ↓reduceIte, ite_self]
  · have notLabel : ¬ startsWithAny ["---".toList, "+++".toList] piece = true :=
      fun opened => passed (label opened)
    simp only [notLabel, passed, or_false, Bool.false_eq_true, ↓reduceIte]

/-- Stray pieces only move the current line. -/
theorem foldl_stray (state : ChangedLines) (pieces : List Text)
    (quiet : ∀ piece ∈ pieces,
      startsWith ['+'] piece = false ∧ startsWith "@@".toList piece = false) :
    pieces.foldl ChangedLines.step state =
      if state.currentLine = 0 then state
      else { state with currentLine := state.currentLine +
        (pieces.filter fun piece => !startsWithAny [['-'], ['\\']] piece).length } := by
  induction pieces generalizing state with
  | nil => simp
  | cons piece pieces inductionHypothesis =>
    obtain ⟨notAdded, notHunk⟩ := quiet piece (by simp)
    rw [List.foldl_cons, step_stray state piece notAdded notHunk, inductionHypothesis _
      fun other member => quiet other (List.mem_cons_of_mem _ member)]
    by_cases outside : state.currentLine = 0
    · simp [outside]
    · by_cases passed : startsWithAny [['-'], ['\\']] piece = true
      · simp [outside, passed]
      · have moved : state.currentLine + 1 ≠ 0 := by omega
        rw [Bool.not_eq_true] at passed
        simp only [outside, passed, false_or, Bool.false_eq_true, ↓reduceIte, List.filter_cons,
          Bool.not_false, List.length_cons, moved]
        rw [Nat.add_assoc, Nat.add_comm 1]

/-- The pieces of a line whose first piece is read as `first`. -/
theorem foldl_pieces (state first : ChangedLines) (line : Text) (quiet : QuietPieces line)
    (read : state.step (firstPiece line) = first) :
    (firstPiece line :: strayPieces line).foldl ChangedLines.step state =
      if first.currentLine = 0 then first
      else { first with currentLine := first.currentLine + countedPieces line } := by
  rw [List.foldl_cons, read, foldl_stray first _ quiet]
  rfl

/-- An opening without line breaks is in the first piece of a line. -/
theorem startsWith_firstPiece (opening line : Text)
    (whole : opening.all (fun character => !isLineBreak character) = true) :
    startsWith opening (firstPiece line) = startsWith opening line := by
  rw [Bool.eq_iff_iff]
  simp only [startsWith, List.isPrefixOf_iff_prefix]
  constructor
  · intro opened
    exact opened.trans (List.takeWhile_prefix _)
  · rintro ⟨rest, rfl⟩
    rw [firstPiece_append opening rest whole]
    exact List.prefix_append opening _

/-- How the first piece of a written line is read, at a current line that is not
zero. -/
theorem step_edit (changed : List Nat) (number : Nat) (inside : number ≠ 0) (edit : Edit) :
    ChangedLines.step ⟨changed, number⟩ (edit.mark :: firstPiece edit.line.text) =
      ⟨changed ++ recorded number edit,
        number + (advance edit - countedPieces edit.line.text)⟩ := by
  have hunk (mark : Char) (text : Text) (other : mark ≠ '@') :
      startsWith "@@".toList (mark :: text) = false :=
    startsWith_cons_of_ne '@' mark ['@'] text other.symm
  cases edit with
  | keep line =>
    have label (text : Text) : startsWithAny ["---".toList, "+++".toList] (' ' :: text) = false := by
      simp [startsWithAny, startsWith, List.isPrefixOf]
    simp only [ChangedLines.step, Edit.mark, Edit.line, hunk ' ' _ (by decide), label, inside,
      Bool.false_eq_true, ↓reduceIte]
    simp [startsWithAny, startsWith_singleton, recorded, advance]
  | delete line =>
    simp only [ChangedLines.step, Edit.mark, Edit.line, hunk '-' _ (by decide),
      Bool.false_eq_true, ↓reduceIte]
    simp [startsWithAny, startsWith_singleton, recorded, advance]
  | insert line =>
    have label : startsWithAny ["---".toList, "+++".toList]
        ('+' :: firstPiece line.text) = looksLikeHeader line := by
      rw [looksLikeHeader, ← startsWith_firstPiece _ _ (by decide)]
      simp [startsWithAny, startsWith, List.isPrefixOf]
    simp only [ChangedLines.step, Edit.mark, Edit.line, hunk '+' _ (by decide), label, inside,
      Bool.false_eq_true, ↓reduceIte]
    cases looks : looksLikeHeader line with
    | true => simp [recorded, advance, looks]
    | false => simp [startsWith_singleton, recorded, advance, looks]

/-- The pieces of a list of written lines. -/
def piecesOf (lines : List Text) : List Text :=
  lines.flatMap fun line => firstPiece line :: strayPieces line

/-- The pieces of the first line and of the rest. -/
theorem piecesOf_cons (line : Text) (lines : List Text) :
    piecesOf (line :: lines) = (firstPiece line :: strayPieces line) ++ piecesOf lines := rfl

/-- The pieces of two lists of lines. -/
theorem piecesOf_append (first second : List Text) :
    piecesOf (first ++ second) = piecesOf first ++ piecesOf second := List.flatMap_append

/-- The marker line behind a line without line feed is passed over. -/
theorem foldl_marker (state : ChangedLines) (terminated : Bool) :
    (piecesOf (if terminated then [] else [Edit.noNewline])).foldl ChangedLines.step state =
      state := by
  have whole := pieces_of_whole Edit.noNewline (by decide)
  have notAdded : startsWith ['+'] Edit.noNewline = false := by decide
  have notHunk : startsWith "@@".toList Edit.noNewline = false := by decide
  have passed : startsWithAny [['-'], ['\\']] Edit.noNewline = true := by decide
  have step := step_stray state Edit.noNewline notAdded notHunk
  rw [if_pos (Or.inr passed)] at step
  cases terminated with
  | true => rfl
  | false =>
    simp only [piecesOf, Bool.false_eq_true, ↓reduceIte, List.flatMap_singleton, whole,
      List.foldl_cons, List.foldl_nil, step]

/-- An edit advances at least by its counted pieces. -/
theorem countedPieces_le_advance (edit : Edit) : countedPieces edit.line.text ≤ advance edit := by
  cases edit <;> simp only [advance, Edit.line] <;> omega

/-- The mark of an edit is no line break. -/
theorem mark_plain (edit : Edit) :
    [edit.mark].all (fun character => !isLineBreak character) = true := by
  cases edit <;> rfl

/-- The mark of an edit leaves the stray pieces of its line as they are. -/
theorem strayPieces_mark (edit : Edit) :
    strayPieces (edit.mark :: edit.line.text) = strayPieces edit.line.text :=
  strayPieces_append [edit.mark] edit.line.text (mark_plain edit)

/-- One line of a hunk with its marker line, at a current line that is not zero. -/
theorem foldl_edit (changed : List Nat) (number : Nat) (inside : number ≠ 0) (edit : Edit)
    (quiet : QuietPieces edit.line.text) :
    (piecesOf edit.lines).foldl ChangedLines.step ⟨changed, number⟩ =
      ⟨changed ++ recorded number edit, number + advance edit⟩ := by
  have first : firstPiece (edit.mark :: edit.line.text) = edit.mark :: firstPiece edit.line.text :=
    firstPiece_append [edit.mark] edit.line.text (mark_plain edit)
  have stray := strayPieces_mark edit
  have quietLine : QuietPieces (edit.mark :: edit.line.text) := by rwa [QuietPieces, stray]
  have counted : countedPieces (edit.mark :: edit.line.text) = countedPieces edit.line.text := by
    rw [countedPieces, stray, countedPieces]
  have line := foldl_pieces ⟨changed, number⟩
    ⟨changed ++ recorded number edit, number + (advance edit - countedPieces edit.line.text)⟩
    (edit.mark :: edit.line.text) quietLine (by
      rw [first]
      exact step_edit changed number inside edit)
  have position : number + (advance edit - countedPieces edit.line.text) ≠ 0 := by omega
  have bound := countedPieces_le_advance edit
  rw [if_neg position, counted, Nat.add_assoc, Nat.sub_add_cancel bound] at line
  rw [Edit.lines, piecesOf_cons, List.foldl_append, line, foldl_marker]

/-- The lines of a hunk, at a current line that is not zero. -/
theorem foldl_edits (changed : List Nat) (number : Nat) (inside : number ≠ 0) (edits : List Edit)
    (quiet : ∀ edit ∈ edits, QuietPieces edit.line.text) :
    ((piecesOf (edits.flatMap Edit.lines)).foldl ChangedLines.step ⟨changed, number⟩).changedLines =
      changed ++ readFrom number edits := by
  induction edits generalizing changed number with
  | nil => simp [piecesOf, readFrom]
  | cons edit edits inductionHypothesis =>
    have first := foldl_edit changed number inside edit (quiet edit (by simp))
    have moved : number + advance edit ≠ 0 := by omega
    have rest := inductionHypothesis (changed ++ recorded number edit) (number + advance edit)
      moved fun other member => quiet other (List.mem_cons_of_mem _ member)
    rw [List.flatMap_cons, piecesOf_append, List.foldl_append, first, rest, readFrom,
      List.append_assoc]

/-! ## Hunks -/

/-- A deletion records nothing, wherever the current line is. -/
theorem foldl_delete (state : ChangedLines) (line : Line) (quiet : QuietPieces line.text) :
    ((piecesOf (Edit.delete line).lines).foldl ChangedLines.step state).changedLines =
      state.changedLines := by
  have first := firstPiece_append ['-'] line.text (by decide)
  have stray := strayPieces_append ['-'] line.text (by decide)
  rw [List.singleton_append] at first stray
  have step : state.step (firstPiece ('-' :: line.text)) = state := by
    have notHunk : startsWith "@@".toList ('-' :: firstPiece line.text) = false :=
      startsWith_cons_of_ne '@' '-' ['@'] _ (by decide)
    rw [first, List.singleton_append, step_stray state _ (startsWith_singleton _ _ _) notHunk]
    simp [startsWithAny, startsWith_singleton]
  have pieces := foldl_pieces state state ('-' :: line.text) (by rwa [QuietPieces, stray]) step
  rw [Edit.lines, Edit.mark, Edit.line, piecesOf_cons, List.foldl_append, pieces, foldl_marker]
  by_cases outside : state.currentLine = 0 <;> simp [outside]

/-- A hunk without lines on the new side records nothing. -/
theorem foldl_deletions (state : ChangedLines) (edits : List Edit)
    (quiet : ∀ edit ∈ edits, QuietPieces edit.line.text) (none : edits.filterMap Edit.new = []) :
    ((piecesOf (edits.flatMap Edit.lines)).foldl ChangedLines.step state).changedLines =
      state.changedLines := by
  induction edits generalizing state with
  | nil => rfl
  | cons edit edits inductionHypothesis =>
    cases edit with
    | keep line => simp [Edit.new] at none
    | insert line => simp [Edit.new] at none
    | delete line =>
      have first := foldl_delete state line (quiet (.delete line) (by simp))
      rw [List.flatMap_cons, piecesOf_append, List.foldl_append, inductionHypothesis _
        (fun other member => quiet other (List.mem_cons_of_mem _ member))
        (by simpa [List.filterMap_cons, Edit.new] using none), first]

/-- Edits without new lines record nothing. -/
theorem readFrom_deletions (number : Nat) (edits : List Edit)
    (none : edits.filterMap Edit.new = []) : readFrom number edits = [] := by
  induction edits generalizing number with
  | nil => rfl
  | cons edit edits inductionHypothesis =>
    cases edit with
    | keep line => simp [Edit.new] at none
    | insert line => simp [Edit.new] at none
    | delete line =>
      exact inductionHypothesis _ (by simpa [List.filterMap_cons, Edit.new] using none)

/-- The number behind the first plus sign. -/
theorem plusNumber_append (before : Text) (number : Nat) (rest : Text) (absent : '+' ∉ before)
    (stop : ∀ character ∈ rest.head?, character.isDigit = false) :
    plusNumber (before ++ '+' :: (decimal number ++ rest)) = some number := by
  induction before with
  | nil =>
    have digits := isDigit_of_mem_decimal number
    have ended : rest.takeWhile Char.isDigit = [] := by
      cases rest with
      | nil => rfl
      | cons first rest => simp [stop first (by simp)]
    have taken : (decimal number ++ rest).takeWhile Char.isDigit = decimal number := by
      rw [List.takeWhile_append_of_pos digits, ended, List.append_nil]
    simp only [List.nil_append, plusNumber, taken, ne_eq, decimal_ne_nil, not_false_eq_true,
      and_self, ↓reduceIte, decimalValue_decimal]
  | cons character before inductionHypothesis =>
    simp only [List.mem_cons, not_or] at absent
    have other : character ≠ '+' := fun same => absent.1 same.symm
    simp only [List.cons_append, plusNumber, other, false_and, ↓reduceIte]
    exact inductionHypothesis absent.2

/-- The part of a hunk header before its heading. -/
def headerOpening (oldBefore newBefore : Nat) (hunk : Hunk) : Text :=
  "@@ -".toList ++ UnifiedDiff.range oldBefore (hunk.body.filterMap Edit.old).length ++
    " +".toList ++ UnifiedDiff.range newBefore (hunk.body.filterMap Edit.new).length ++
    " @@".toList

/-- The opening of a header by its ranges. -/
theorem headerOpening_eq (oldBefore newBefore : Nat) (hunk : Hunk) :
    headerOpening oldBefore newBefore hunk =
      "@@ -".toList ++ UnifiedDiff.range oldBefore (hunk.body.filterMap Edit.old).length ++
        " +".toList ++ UnifiedDiff.range newBefore (hunk.body.filterMap Edit.new).length ++
        " @@".toList := rfl

/-- A range has digits and commas. -/
theorem mem_range (before count : Nat) (character : Char)
    (member : character ∈ UnifiedDiff.range before count) :
    character.isDigit = true ∨ character = ',' := by
  have digits (number : Nat) := isDigit_of_mem_decimal number character
  rw [UnifiedDiff.range, List.mem_append] at member
  rcases member with number | length
  · exact Or.inl (digits _ number)
  · by_cases one : count = 1
    · simp [one] at length
    · simp only [one, ↓reduceIte, List.mem_cons] at length
      rcases length with rfl | number
      · exact Or.inr rfl
      · exact Or.inl (digits _ number)

/-- The numbers of a hunk header have no line breaks and no plus sign. -/
theorem range_plain (before count : Nat) :
    (UnifiedDiff.range before count).all (fun character => !isLineBreak character) = true ∧
      '+' ∉ UnifiedDiff.range before count := by
  refine ⟨List.all_eq_true.mpr fun character member => ?_, fun member => ?_⟩
  · have bounds : 44 ≤ character.toNat ∧ character.toNat ≤ 57 := by
      rcases mem_range before count character member with digit | rfl
      · simp only [Char.isDigit, ge_iff_le, Bool.and_eq_true, decide_eq_true_eq] at digit
        have low := digit.1
        have high := digit.2
        rw [UInt32.le_iff_toNat_le] at low high
        simp only [Char.toNat]
        exact ⟨Nat.le_trans (by decide) low, Nat.le_trans high (by decide)⟩
      · decide
    simp only [isLineBreak, Bool.not_eq_true', Bool.or_eq_false_iff, Bool.and_eq_false_iff,
      decide_eq_false_iff_not, beq_eq_false_iff_ne]
    omega
  · rcases mem_range before count '+' member with digit | comma
    · exact absurd digit (by decide)
    · exact absurd comma (by decide)

/-- The opening of a header has no line break. -/
theorem headerOpening_plain (oldBefore newBefore : Nat) (hunk : Hunk) :
    (headerOpening oldBefore newBefore hunk).all (fun character => !isLineBreak character) =
      true := by
  have literals : "@@ -".toList.all (fun character => !isLineBreak character) = true ∧
      " +".toList.all (fun character => !isLineBreak character) = true ∧
      " @@".toList.all (fun character => !isLineBreak character) = true := by decide
  simp only [headerOpening_eq, List.all_append, literals, range_plain, Bool.and_self]

/-- A hunk header with its heading. -/
theorem header_eq (oldBefore newBefore : Nat) (hunk : Hunk) :
    UnifiedDiff.header oldBefore newBefore hunk = headerOpening oldBefore newBefore hunk ++
      if hunk.heading.isEmpty then [] else ' ' :: hunk.heading := rfl

/-- The number that is read from a hunk header. -/
theorem plusNumber_headerOpening (oldBefore newBefore : Nat) (hunk : Hunk) (rest : Text) :
    plusNumber (headerOpening oldBefore newBefore hunk ++ rest) =
      some (if (hunk.body.filterMap Edit.new).length = 0 then newBefore else newBefore + 1) := by
  have absent : '+' ∉ "@@ -".toList ++
      UnifiedDiff.range oldBefore (hunk.body.filterMap Edit.old).length ++ [' '] := by
    simp only [List.mem_append, not_or]
    exact ⟨⟨by decide, (range_plain _ _).2⟩, by decide⟩
  have shape : headerOpening oldBefore newBefore hunk ++ rest =
      ("@@ -".toList ++ UnifiedDiff.range oldBefore (hunk.body.filterMap Edit.old).length ++
        [' ']) ++ '+' :: (decimal (if (hunk.body.filterMap Edit.new).length = 0 then newBefore
          else newBefore + 1) ++ ((if (hunk.body.filterMap Edit.new).length = 1 then []
            else ',' :: decimal (hunk.body.filterMap Edit.new).length) ++
              (" @@".toList ++ rest))) := by
    have plus : " +".toList = [' '] ++ ['+'] := rfl
    simp only [headerOpening_eq, UnifiedDiff.range, plus, List.append_assoc, List.cons_append,
      List.nil_append]
  rw [shape]
  refine plusNumber_append _ _ _ absent fun character first => ?_
  by_cases one : (hunk.body.filterMap Edit.new).length = 1
  · obtain rfl : ' ' = character := by simpa [one] using first
    decide
  · obtain rfl : ',' = character := by simpa [one] using first
    decide

/-- The stray pieces of a header are those of its heading. -/
theorem strayPieces_header (oldBefore newBefore : Nat) (hunk : Hunk) :
    strayPieces (UnifiedDiff.header oldBefore newBefore hunk) = strayPieces hunk.heading := by
  rw [header_eq, strayPieces_append _ _ (headerOpening_plain oldBefore newBefore hunk)]
  by_cases empty : hunk.heading.isEmpty = true
  · rw [if_pos empty, List.isEmpty_iff.mp empty]
  · rw [if_neg empty]
    exact strayPieces_append [' '] hunk.heading (by decide)

/-- The pieces of a hunk header set the current line; those behind its first one
move it. -/
theorem foldl_header (state : ChangedLines) (oldBefore newBefore : Nat) (hunk : Hunk)
    (quiet : QuietPieces hunk.heading) :
    ∃ number, (firstPiece (UnifiedDiff.header oldBefore newBefore hunk) ::
        strayPieces (UnifiedDiff.header oldBefore newBefore hunk)).foldl ChangedLines.step state =
          ⟨state.changedLines, number⟩ ∧
      ((hunk.body.filterMap Edit.new).length ≠ 0 →
        number = newBefore + 1 + countedPieces hunk.heading) := by
  have opening := headerOpening_plain oldBefore newBefore hunk
  have stray := strayPieces_header oldBefore newBefore hunk
  have counted : countedPieces (UnifiedDiff.header oldBefore newBefore hunk) =
      countedPieces hunk.heading := by
    rw [countedPieces, stray, countedPieces]
  have read : state.step (firstPiece (UnifiedDiff.header oldBefore newBefore hunk)) =
      { state with currentLine :=
        if (hunk.body.filterMap Edit.new).length = 0 then newBefore else newBefore + 1 } := by
    have opened (rest : Text) :
        startsWith "@@".toList (headerOpening oldBefore newBefore hunk ++ rest) = true := rfl
    rw [header_eq, firstPiece_append _ _ opening]
    simp only [ChangedLines.step, opened, ↓reduceIte, plusNumber_headerOpening]
  have pieces := foldl_pieces state _ (UnifiedDiff.header oldBefore newBefore hunk)
    (by rwa [QuietPieces, stray]) read
  rw [pieces, counted]
  by_cases some : (hunk.body.filterMap Edit.new).length = 0
  · simp only [some, ↓reduceIte, ne_eq, not_true_eq_false, false_implies, and_true]
    by_cases outside : newBefore = 0
    · exact ⟨newBefore, if_pos outside⟩
    · exact ⟨newBefore + countedPieces hunk.heading, if_neg outside⟩
  · simp only [some, ↓reduceIte, Nat.succ_ne_zero]
    exact ⟨_, rfl, fun _ => rfl⟩

/-- The hunks of a diff are read hunk by hunk. -/
theorem foldl_hunks (state : ChangedLines) (oldBefore newBefore : Nat) (hunks : List Hunk)
    (quiet : ∀ hunk ∈ hunks, QuietPieces hunk.heading ∧
      ∀ edit ∈ hunk.body, QuietPieces edit.line.text) :
    ((piecesOf (UnifiedDiff.hunkLines oldBefore newBefore hunks)).foldl ChangedLines.step
        state).changedLines = state.changedLines ++ readHunks newBefore hunks := by
  induction hunks generalizing state oldBefore newBefore with
  | nil => simp [UnifiedDiff.hunkLines, piecesOf, readHunks]
  | cons hunk hunks inductionHypothesis =>
    obtain ⟨quietHeading, quietBody⟩ := quiet hunk (by simp)
    obtain ⟨number, opened, start⟩ := foldl_header state (oldBefore + hunk.skipped.length)
      (newBefore + hunk.skipped.length) hunk quietHeading
    have body : ((piecesOf (hunk.body.flatMap Edit.lines)).foldl ChangedLines.step
        ⟨state.changedLines, number⟩).changedLines = state.changedLines ++
          readFrom (newBefore + hunk.skipped.length + 1 + countedPieces hunk.heading) hunk.body := by
      by_cases some : (hunk.body.filterMap Edit.new).length = 0
      · have none := List.length_eq_zero_iff.mp some
        rw [foldl_deletions _ _ quietBody none, readFrom_deletions _ _ none, List.append_nil]
      · rw [start some]
        exact foldl_edits _ _ (by omega) _ quietBody
    rw [UnifiedDiff.hunkLines, List.cons_append, piecesOf_cons, piecesOf_append, List.foldl_append,
      List.foldl_append, opened, inductionHypothesis _ _ _
        fun other member => quiet other (List.mem_cons_of_mem _ member), body, readHunks,
      List.append_assoc]

/-- Before the first hunk nothing is read. -/
theorem foldl_preamble (lines : List Text) (quiet : ∀ line ∈ lines, QuietPieces line)
    (other : ∀ line ∈ lines, startsWith "@@".toList line = false) :
    (piecesOf lines).foldl ChangedLines.step {} = {} := by
  have passed (piece : Text) (notHunk : startsWith "@@".toList piece = false) :
      ChangedLines.step {} piece = {} := by
    simp only [ChangedLines.step, notHunk, Bool.false_eq_true, ↓reduceIte, ite_self]
  have all (pieces : List Text) (notHunk : ∀ piece ∈ pieces, startsWith "@@".toList piece = false) :
      pieces.foldl ChangedLines.step {} = {} := by
    induction pieces with
    | nil => rfl
    | cons piece pieces inductionHypothesis =>
      rw [List.foldl_cons, passed piece (notHunk piece (by simp))]
      exact inductionHypothesis fun other member => notHunk other (List.mem_cons_of_mem _ member)
  refine all _ fun piece member => ?_
  obtain ⟨line, inside, member⟩ := List.mem_flatMap.mp member
  rcases List.mem_cons.mp member with rfl | stray
  · rw [startsWith_firstPiece _ _ (by decide)]
    exact other line inside
  · exact (quiet line inside piece stray).2

/-! ## Counting -/

/-- No more lines are recorded than inserted. -/
theorem length_readFrom_le (number other : Nat) (edits : List Edit) :
    (readFrom other edits).length ≤ (Edit.insertedFrom number edits).length := by
  induction edits generalizing number other with
  | nil => exact Nat.le_refl 0
  | cons edit edits inductionHypothesis =>
    cases edit with
    | keep line => exact inductionHypothesis _ _
    | delete line => exact inductionHypothesis _ _
    | insert line =>
      have rest := inductionHypothesis (number + 1) (other + advance (.insert line))
      rw [readFrom, Edit.insertedFrom, List.length_append, List.length_cons]
      cases looks : looksLikeHeader line <;> simp only [recorded, looks] <;> simp <;> omega

/-- As many lines are recorded as inserted, none of them too early. -/
theorem forall₂_readFrom (number other : Nat) (edits : List Edit) (later : number ≤ other)
    (all : (readFrom other edits).length = (Edit.insertedFrom number edits).length) :
    List.Forall₂ (· ≤ ·) ((Edit.insertedFrom number edits).map Prod.fst) (readFrom other edits) := by
  induction edits generalizing number other with
  | nil => exact List.Forall₂.nil
  | cons edit edits inductionHypothesis =>
    cases edit with
    | keep line =>
      exact inductionHypothesis (number + 1) (other + advance (.keep line))
        (by simp only [advance]; omega) all
    | delete line =>
      exact inductionHypothesis number (other + advance (.delete line)) (by omega) all
    | insert line =>
      have bound := length_readFrom_le (number + 1) (other + advance (.insert line)) edits
      rw [readFrom, Edit.insertedFrom, List.length_append, List.length_cons] at all
      cases looks : looksLikeHeader line with
      | true =>
        simp only [recorded, looks, ↓reduceIte, List.length_nil] at all
        omega
      | false =>
        have rest := inductionHypothesis (number + 1) (other + advance (.insert line))
          (by simp [advance, looks]; omega)
          (by simpa [recorded, looks, Nat.add_comm 1] using all)
        have shape : readFrom other (.insert line :: edits) =
            other :: readFrom (other + advance (.insert line)) edits := by
          simp [readFrom, recorded, looks]
        rw [shape]
        exact List.Forall₂.cons later rest

/-- Nothing disturbs the count of a hunk before its inserted lines: its heading and the
lines before them have no counted pieces, and they do not look like file headers. -/
def Undisturbed (heading : Text) (edits : List Edit) : Prop :=
  ∀ before line after, edits = before ++ .insert line :: after →
    countedPieces heading = 0 ∧ (∀ edit ∈ before, countedPieces edit.line.text = 0) ∧
      looksLikeHeader line = false

/-- The recorded lines are the inserted ones exactly if nothing disturbs the count. The
count starts too late by the shift.

Proof: induction over the lines. Each one that is counted too often adds to the shift,
which shows at the next inserted line. -/
theorem readFrom_eq_iff (number shift : Nat) (edits : List Edit) :
    readFrom (number + shift) edits = (Edit.insertedFrom number edits).map Prod.fst ↔
      ∀ before edit after, edits = before ++ edit :: after → ∀ line, edit = .insert line →
        shift = 0 ∧ (∀ edit ∈ before, countedPieces edit.line.text = 0) ∧
          looksLikeHeader line = false := by
  induction edits generalizing number shift with
  | nil => simp [readFrom, Edit.insertedFrom]
  | cons edit edits inductionHypothesis =>
    -- Behind the first line the shift has grown by its counted pieces.
    have behind : (∀ before other after, edits = before ++ other :: after →
          ∀ line, other = .insert line →
            shift = 0 ∧ (∀ earlier ∈ edit :: before, countedPieces earlier.line.text = 0) ∧
              looksLikeHeader line = false) ↔
        ∀ before other after, edits = before ++ other :: after → ∀ line, other = .insert line →
          shift + countedPieces edit.line.text = 0 ∧
            (∀ earlier ∈ before, countedPieces earlier.line.text = 0) ∧
              looksLikeHeader line = false := by
      simp only [List.forall_mem_cons, Nat.add_eq_zero_iff, and_assoc]
    rw [forall_split_cons edit edits fun before other => ∀ line, other = .insert line →
      shift = 0 ∧ (∀ earlier ∈ before, countedPieces earlier.line.text = 0) ∧
        looksLikeHeader line = false, behind]
    cases edit with
    | keep line =>
      have moved : number + shift + advance (.keep line) =
          number + 1 + (shift + countedPieces line.text) := by simp only [advance]; omega
      rw [readFrom, moved]
      simpa [recorded, Edit.insertedFrom, Edit.line] using
        inductionHypothesis (number + 1) (shift + countedPieces line.text)
    | delete line =>
      have moved : number + shift + advance (.delete line) =
          number + (shift + countedPieces line.text) := by simp only [advance]; omega
      rw [readFrom, moved]
      simpa [recorded, Edit.insertedFrom, Edit.line] using
        inductionHypothesis number (shift + countedPieces line.text)
    | insert line =>
      cases looks : looksLikeHeader line with
      | true =>
        have fewer := length_readFrom_le (number + 1) (number + shift + advance (.insert line)) edits
        constructor
        · intro equal
          have lengths := congrArg List.length equal
          simp only [readFrom, recorded, looks, ↓reduceIte, List.nil_append, Edit.insertedFrom,
            List.map_cons, List.length_cons, List.length_map] at lengths
          omega
        · rintro ⟨here, -⟩
          have wrong := (here line rfl).2.2
          rw [looks] at wrong
          cases wrong
      | false =>
        have moved : number + shift + advance (.insert line) =
            number + 1 + (shift + countedPieces line.text) := by
          simp only [advance, looks, Bool.false_eq_true, ↓reduceIte]
          omega
        have rest := inductionHypothesis (number + 1) (shift + countedPieces line.text)
        rw [readFrom, moved]
        simp only [recorded, looks, Bool.false_eq_true, ↓reduceIte, Edit.insertedFrom,
          List.map_cons, List.singleton_append, List.cons.injEq, rest]
        simp only [Edit.insert.injEq, forall_eq', List.not_mem_nil, false_implies, implies_true,
          looks, true_and, and_true, Nat.add_eq_left]
        exact Iff.rfl

/-- A hunk is undisturbed exactly when its inserted lines are read where they are. -/
theorem undisturbed_iff (heading : Text) (number : Nat) (edits : List Edit) :
    Undisturbed heading edits ↔
      readFrom (number + countedPieces heading) edits =
        (Edit.insertedFrom number edits).map Prod.fst := by
  rw [readFrom_eq_iff]
  constructor
  · rintro undisturbed before edit after shape line rfl
    exact undisturbed before line after shape
  · intro splits before line after shape
    exact splits before _ after shape line rfl

section Hunks

variable (newBefore : Nat) (hunks : List Hunk)

/-- No more lines are read than were inserted. -/
theorem length_readHunks_le :
    (readHunks newBefore hunks).length ≤
      ((Edit.insertedFrom (newBefore + 1) (hunks.flatMap Hunk.edits)).map Prod.fst).length := by
  induction hunks generalizing newBefore with
  | nil => exact Nat.le_refl 0
  | cons hunk hunks inductionHypothesis =>
    have first := length_readFrom_le (newBefore + hunk.skipped.length + 1)
      (newBefore + hunk.skipped.length + 1 + countedPieces hunk.heading) hunk.body
    have rest := inductionHypothesis
      (newBefore + hunk.skipped.length + (hunk.body.filterMap Edit.new).length)
    rw [readHunks, insertedFrom_hunks, List.map_append, List.length_append, List.length_append,
      List.length_map]
    omega

/-- When all inserted lines are read, none is read before its place. -/
theorem forall₂_readHunks
    (all : (readHunks newBefore hunks).length =
      ((Edit.insertedFrom (newBefore + 1) (hunks.flatMap Hunk.edits)).map Prod.fst).length) :
    List.Forall₂ (· ≤ ·)
      ((Edit.insertedFrom (newBefore + 1) (hunks.flatMap Hunk.edits)).map Prod.fst)
      (readHunks newBefore hunks) := by
  induction hunks generalizing newBefore with
  | nil => exact List.Forall₂.nil
  | cons hunk hunks inductionHypothesis =>
    have first := length_readFrom_le (newBefore + hunk.skipped.length + 1)
      (newBefore + hunk.skipped.length + 1 + countedPieces hunk.heading) hunk.body
    have rest := length_readHunks_le
      (newBefore + hunk.skipped.length + (hunk.body.filterMap Edit.new).length) hunks
    rw [readHunks, insertedFrom_hunks, List.map_append, List.length_append, List.length_append,
      List.length_map] at all
    rw [readHunks, insertedFrom_hunks, List.map_append]
    refine List.rel_append ?_ ?_
    · exact forall₂_readFrom _ _ _ (by omega) (by omega)
    · exact inductionHypothesis _ (by omega)

/-- The recorded lines of all hunks are the inserted ones exactly if no hunk is disturbed. -/
theorem readHunks_eq_iff :
    readHunks newBefore hunks =
        (Edit.insertedFrom (newBefore + 1) (hunks.flatMap Hunk.edits)).map Prod.fst ↔
      ∀ hunk ∈ hunks, Undisturbed hunk.heading hunk.body := by
  induction hunks generalizing newBefore with
  | nil => simp [readHunks, Edit.insertedFrom]
  | cons hunk hunks inductionHypothesis =>
    have first := length_readFrom_le (newBefore + hunk.skipped.length + 1)
      (newBefore + hunk.skipped.length + 1 + countedPieces hunk.heading) hunk.body
    have rest := length_readHunks_le
      (newBefore + hunk.skipped.length + (hunk.body.filterMap Edit.new).length) hunks
    rw [readHunks, insertedFrom_hunks, List.map_append, List.forall_mem_cons,
      undisturbed_iff hunk.heading (newBefore + hunk.skipped.length + 1),
      ← inductionHypothesis
        (newBefore + hunk.skipped.length + (hunk.body.filterMap Edit.new).length)]
    constructor
    · intro equal
      have lengths := congrArg List.length equal
      rw [List.length_append, List.length_append, List.length_map] at lengths
      exact List.append_inj equal (by rw [List.length_map]; omega)
    · rintro ⟨here, later⟩
      rw [here, later]

end Hunks

/-- Numbers that are nowhere smaller and have the same sum are the same. -/
theorem eq_of_forall₂_le (first second : List Nat) (below : List.Forall₂ (· ≤ ·) first second)
    (total : second.sum ≤ first.sum) : first = second := by
  have sums (first second : List Nat) (below : List.Forall₂ (· ≤ ·) first second) :
      first.sum ≤ second.sum := by
    induction below with
    | nil => exact Nat.le_refl _
    | cons smaller _ inductionHypothesis =>
      rw [List.sum_cons, List.sum_cons]
      omega
  induction below with
  | nil => rfl
  | cons smaller rest inductionHypothesis =>
    have bound := sums _ _ rest
    rw [List.sum_cons, List.sum_cons] at total
    rw [inductionHypothesis (by omega)]
    congr 1
    omega

/-- The set of recorded lines is right only if the list is.

Proof: the inserted lines are different, and no more are recorded, so that the
recorded ones are a permutation of them; none is recorded too early. -/
theorem mem_readHunks_iff (hunks : List Hunk) :
    (∀ number, number ∈ readHunks 0 hunks ↔
        number ∈ (Edit.insertedFrom 1 (hunks.flatMap Hunk.edits)).map Prod.fst) ↔
      ∀ hunk ∈ hunks, Undisturbed hunk.heading hunk.body := by
  rw [← readHunks_eq_iff 0 hunks]
  constructor
  · intro same
    have different := Edit.insertedFrom_nodup 1 (hunks.flatMap Hunk.edits)
    have covered : (Edit.insertedFrom 1 (hunks.flatMap Hunk.edits)).map Prod.fst ⊆
        readHunks 0 hunks := fun number member => (same number).mpr member
    have permuted := (List.subperm_of_subset different covered).perm_of_length_le
      (length_readHunks_le 0 hunks)
    have pointwise := forall₂_readHunks 0 hunks permuted.length_eq.symm
    exact (eq_of_forall₂_le _ _ pointwise permuted.sum_nat.ge).symm
  · intro equal number
    rw [equal]

/-! ## Whole diffs -/

/-- Quiet lines have quiet headings and quiet texts. -/
theorem quiet_of_hunkLines (oldBefore newBefore : Nat) (hunks : List Hunk)
    (quiet : ∀ line ∈ UnifiedDiff.hunkLines oldBefore newBefore hunks, QuietPieces line) :
    ∀ hunk ∈ hunks, QuietPieces hunk.heading ∧
      ∀ edit ∈ hunk.body, QuietPieces edit.line.text := by
  induction hunks generalizing oldBefore newBefore with
  | nil => simp
  | cons hunk hunks inductionHypothesis =>
    simp only [UnifiedDiff.hunkLines, List.cons_append, List.forall_mem_cons,
      List.forall_mem_append] at quiet ⊢
    obtain ⟨header, body, rest⟩ := quiet
    rw [QuietPieces, strayPieces_header] at header
    refine ⟨⟨header, fun edit member => ?_⟩, inductionHypothesis _ _ rest⟩
    have line := body (edit.mark :: edit.line.text)
      (List.mem_flatMap.mpr ⟨edit, member, by simp [Edit.lines]⟩)
    rwa [QuietPieces, strayPieces_mark] at line

/-- A diff behind lines of its own is read as its hunks. -/
theorem parseDiffForChangedLines_joinLines (preamble : List Text) (hunks : List Hunk)
    (quiet : ∀ line ∈ preamble ++ UnifiedDiff.hunkLines 0 0 hunks, QuietPieces line)
    (other : ∀ line ∈ preamble, startsWith "@@".toList line = false) :
    parseDiffForChangedLines (joinLines (preamble ++ UnifiedDiff.hunkLines 0 0 hunks)) =
      readHunks 0 hunks := by
  rw [List.forall_mem_append] at quiet
  have opened := foldl_preamble preamble quiet.1 other
  have read := foldl_hunks {} 0 0 hunks (quiet_of_hunkLines 0 0 hunks quiet.2)
  rw [parseDiffForChangedLines, splitlines_joinLines_eq]
  change ((piecesOf _).foldl ChangedLines.step {}).changedLines = _
  rw [piecesOf_append, List.foldl_append, opened, read]
  rfl

/-- The same set of lines. -/
def SameLines (first second : List Nat) : Prop := ∀ number, number ∈ first ↔ number ∈ second

/-- The analyzer reads exactly the added lines, from the bare hunks and from the diff of git, and
every set that the hook computes for the diff, with or without a path, is the same. -/
def ReadAlike (file : Policy.WrittenFile) : Prop :=
  SameLines (parseDiffForChangedLines (file.diff.render [])) file.addedLines ∧
  SameLines (parseDiffForChangedLines (Policy.writeFiles [file])) file.addedLines ∧
  ∀ given : Option Policy.Path, ∃ addedLines,
    Policy.addedLinesByPath (Policy.writeFiles [file]) given = .ok addedLines ∧
    (∀ path, given = some path → (addedLines.get path).isSome) ∧
    ∀ path lines, addedLines.get path = some lines →
      SameLines lines (parseDiffForChangedLines (Policy.writeFiles [file]))

/-- The lines of a file before its hunks. -/
def preamble (file : Policy.WrittenFile) : List Text :=
  file.old.rendering.header file.new.rendering :: (file.extended.lines ++
    if file.diff.hunks.isEmpty then []
    else ["--- ".toList ++ Policy.Contents.label (file.side 'a' .addition file.old),
      "+++ ".toList ++ Policy.Contents.label (file.side 'b' .deletion file.new)])

/-- The lines of a text file are its preamble and its hunks. -/
theorem lines_eq_preamble (file : Policy.WrittenFile) (text : file.binary = false) :
    file.lines = preamble file ++ UnifiedDiff.hunkLines 0 0 file.diff.hunks := by
  simp only [Policy.WrittenFile.lines, preamble, Policy.WrittenFile.contents,
    Policy.Contents.written, text]
  cases empty : file.diff.hunks.isEmpty with
  | true =>
    have none : file.diff.hunks = [] := by simpa using empty
    simp [none, Policy.Contents.lines, UnifiedDiff.hunkLines]
  | false => simp [Policy.Contents.lines]

/-- No line before the hunks looks like a hunk header. -/
theorem preamble_not_hunk (file : Policy.WrittenFile) :
    ∀ line ∈ preamble file, startsWith "@@".toList line = false := by
  intro line member
  simp only [preamble, List.mem_cons, List.mem_append] at member
  rcases member with rfl | extended | label
  · exact startsWith_cons_of_ne '@' 'd' ['@'] _ (by decide)
  · obtain ⟨keyword, inside, opened⟩ := List.any_eq_true.mp (file.extended.plain line extended).2
    have different : Policy.extendedKeywords.all (fun keyword =>
        !startsWith "@@".toList keyword && !startsWith keyword "@@".toList) = true := by decide
    have apart := List.all_eq_true.mp different keyword inside
    refine Bool.eq_false_iff.mpr fun hunk => ?_
    simp only [startsWith, List.isPrefixOf_iff_prefix, Bool.and_eq_true, Bool.not_eq_true',
      Bool.eq_false_iff, ne_eq] at opened hunk apart
    rcases List.prefix_or_prefix_of_prefix opened hunk with early | early
    · exact apart.2 early
    · exact apart.1 early
  · split at label
    · cases label
    · rcases List.mem_cons.mp label with rfl | second
      · exact startsWith_cons_of_ne '@' '-' ['@'] _ (by decide)
      · obtain rfl := List.mem_singleton.mp second
        exact startsWith_cons_of_ne '@' '+' ['@'] _ (by decide)

/-- Unless a stray piece is taken for an addition or a hunk header, the analyzer reads the added
lines exactly and as the hook does if and only if no hunk is disturbed: no inserted line starts with
`++`, and no counted piece of the heading or of an earlier line of the hunk comes before an
inserted line. -/
theorem changed_lines_exact_iff (file : Policy.WrittenFile) (text : file.binary = false)
    (quiet : ∀ line ∈ file.lines, QuietPieces line) :
    ReadAlike file ↔ ∀ hunk ∈ file.diff.hunks, Undisturbed hunk.heading hunk.body := by
  have shape := lines_eq_preamble file text
  rw [shape] at quiet
  have whole : parseDiffForChangedLines (Policy.writeFiles [file]) =
      readHunks 0 file.diff.hunks := by
    rw [Policy.writeFiles, List.flatMap_singleton, shape]
    exact parseDiffForChangedLines_joinLines _ _ quiet (preamble_not_hunk file)
  have bare : parseDiffForChangedLines (file.diff.render []) = readHunks 0 file.diff.hunks :=
    parseDiffForChangedLines_joinLines [] _
      (fun line member => quiet line (List.mem_append_right _ member)) (by simp)
  have added : file.addedLines =
      (Edit.insertedFrom 1 (file.diff.hunks.flatMap Hunk.edits)).map Prod.fst := by
    rw [Policy.WrittenFile.addedLines, UnifiedDiff.insertedLines_eq]
  rw [← mem_readHunks_iff file.diff.hunks, ← added]
  constructor
  · rintro ⟨-, exact, -⟩
    rwa [whole] at exact
  · intro exactly
    refine ⟨by rwa [bare], by rwa [whole], fun given => ?_⟩
    obtain ⟨addedLines, run, present, lines⟩ := Policy.addedLinesByPath_single file text given
    refine ⟨addedLines, run, present, fun path found value number => ?_⟩
    rw [lines path found value, whole]
    exact (exactly number).symm

/-- A file `c` of which the given hunk is the only one. -/
def singleHunk (hunk : Hunk)
    (oldClosed : Line.Closed ((editScript [hunk] []).filterMap Edit.old))
    (newClosed : Line.Closed ((editScript [hunk] []).filterMap Edit.new)) :
    Policy.WrittenFile where
  kind := .modification
  old := Policy.pathC
  new := Policy.pathC
  extended := { lines := [] }
  diff := { hunks := [hunk], oldClosed := oldClosed, newClosed := newClosed }

-- A stray piece that is taken for an addition can make up for a line that is passed over, so that the
-- set is right although both lines were misread.
example : parseDiffForChangedLines (UnifiedDiff.render []
    { hunks := [{ skipped := [], body := [.insert { text := "++x".toList },
      .insert { text := "y\x0C+z".toList }] }] }) = [1, 2] := by decide +kernel

/-- A carriage return before the line feed is no line of its own, and a form feed behind the last
inserted line disturbs nothing. -/
theorem paged_insertion_read_alike :
    ReadAlike (singleHunk { skipped := [], body := [.keep { text := "a\r".toList },
      .insert { text := "b\r".toList }, .insert { text := "c\x0Cd".toList }] }
      (by decide) (by decide)) :=
  (changed_lines_exact_iff _ rfl (by decide +kernel)).mpr (by
    intro hunk member
    rw [List.mem_singleton.mp member, undisturbed_iff _ 1]
    decide)

/-- An inserted line that starts with `++` is passed over, and the next one is recorded under its
number. -/
theorem incremented_line_not_read :
    ¬ ReadAlike (singleHunk { skipped := [], body := [.insert { text := "++x".toList },
      .insert { text := "y".toList }] } (by decide) (by decide)) := by
  rintro ⟨exactly, -⟩
  have missing := (exactly 2).mpr (by decide)
  exact absurd missing (by decide +kernel)

end VirtTestTools.Analyzer
