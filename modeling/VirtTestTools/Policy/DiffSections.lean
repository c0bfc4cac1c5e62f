import VirtTestTools.Dict
import VirtTestTools.UnifiedDiff
import VirtTestTools.Policy.HeaderPaths

/-!
# Reading a diff section by section

`_added_lines_by_path` of `check_policy.py` reads the output of `git diff` line
by line and collects the numbers of the added lines of every file. It follows
the current file, the current line on the new side, and whether a hunk has
begun; inside a hunk a line that looks like a file header is only content.

A diff is a list of sections, one for each file, whose names are written in any
way. The second half of the module is what the reader makes of them: each section
contributes the lines that its hunks insert, under the path that the caller gives
or its header or its `+++` line decodes to.
-/

namespace VirtTestTools.Policy

open Text

/-- `_DiffState` together with the dictionary it fills. -/
structure DiffScan where
  currentPath : Option Path
  currentLine : Option Nat := none
  inHunk : Bool := false
  addedLines : Dict Path (List Nat)

namespace DiffScan

/-- `added_lines.setdefault(state.current_path, set())`, if there is a path. -/
def setdefault (scan : DiffScan) : DiffScan :=
  { scan with
    addedLines :=
      match scan.currentPath with
      | none => scan.addedLines
      | some path =>
        match scan.addedLines.get path with
        | none => scan.addedLines.set path []
        | some _ => scan.addedLines }

/-- `added_lines[current_path].add(current_line)`. -/
def add (scan : DiffScan) (path : Path) (line : Nat) : DiffScan :=
  { scan with
    addedLines := scan.addedLines.set path ((scan.addedLines.get path).getD [] ++ [line]) }

end DiffScan

/-- `\d+`, with the text behind it. -/
def digitsHead (text : Text) : Option (Text × Text) :=
  let digits := text.takeWhile Char.isDigit
  if digits = [] then none else some (digits, text.dropWhile Char.isDigit)

/-- `\d+(?:,\d+)?`: the first number and the text behind the match. -/
def rangeHead (text : Text) : Option (Text × Text) :=
  match digitsHead text with
  | none => none
  | some (digits, rest) =>
    match (literal [','] rest).bind digitsHead with
    | some (_, behind) => some (digits, behind)
    | none => some (digits, rest)

/-- `_HUNK_HEADER.match`: the first line on the new side. -/
def hunkHeader (diffLine : Text) : Option Nat := do
  let (_, behindOld) ← (literal "@@ -".toList diffLine).bind rangeHead
  let (digits, behindNew) ← (literal " +".toList behindOld).bind rangeHead
  let _ ← literal " @@".toList behindNew
  return decimalValue digits

/-- `_process_diff_control_line`; `none` if the line is not a control line. -/
def processDiffControlLine (path : Option Path) (scan : DiffScan) (diffLine : Text) :
    Except PolicyError (Option DiffScan) :=
  if startsWith diffPrefix diffLine then do
    let currentPath ← if path.isSome then .ok path else diffHeaderPath diffLine
    return some { scan with
      currentPath := currentPath, currentLine := none, inHunk := false }.setdefault
  else if !scan.inHunk && startsWith "+++ ".toList diffLine then
    let currentPath :=
      if path.isNone && scan.currentPath.isNone && startsWith "+++ b/".toList diffLine then
        some (Path.ofText (diffLine.drop 6))
      else scan.currentPath
    .ok (some { scan with currentPath := currentPath, currentLine := none }.setdefault)
  else
    .ok ((hunkHeader diffLine).map fun line =>
      { scan with currentLine := some line, inHunk := true })

/-- `_process_diff_line`. -/
def processDiffLine (path : Option Path) (scan : DiffScan) (diffLine : Text) :
    Except PolicyError DiffScan := do
  match ← processDiffControlLine path scan diffLine with
  | some handled => return handled
  | none =>
    match scan.currentPath, scan.currentLine with
    | some currentPath, some currentLine =>
      if startsWith ['\\'] diffLine then return scan
      else
        let scan := if startsWith ['+'] diffLine then scan.add currentPath currentLine else scan
        if startsWith ['-'] diffLine then return scan
        else return { scan with currentLine := some (currentLine + 1) }
    | _, _ => return scan

/-- `_added_lines_by_path`. -/
def addedLinesByPath (diff : Text) (path : Option Path := none) :
    Except PolicyError (Dict Path (List Nat)) := do
  let initial : Dict Path (List Nat) :=
    match path with
    | none => ∅
    | some path => Dict.empty.set path []
  let scan ← (split ['\n'] diff).foldlM (processDiffLine path)
    { currentPath := path, addedLines := initial }
  return scan.addedLines

/-! ## Extended headers -/

/-- The lines that may stand between the header of a file and its contents. -/
def extendedKeywords : List Text :=
  ["old mode ".toList, "new mode ".toList, "deleted file mode ".toList, "new file mode ".toList,
    "similarity index ".toList, "dissimilarity index ".toList, "rename from ".toList,
    "rename to ".toList, "copy from ".toList, "copy to ".toList, "index ".toList]

/-- The extended header lines of a file. -/
structure ExtendedHeader where
  lines : List Text
  plain : ∀ line ∈ lines, '\n' ∉ line ∧ startsWithAny extendedKeywords line = true := by decide

/-! ## Lines that are passed over -/

/-- Openings of the control lines. -/
def controlOpenings : List Text := [diffPrefix, "+++ ".toList, "@@ -".toList]

/-- No line can begin both like this and like a control line. -/
def isQuiet (opening : Text) : Bool :=
  controlOpenings.all fun control => !startsWith opening control && !startsWith control opening

/-- A quiet line opens nothing that the parser reacts to. -/
theorem startsWith_of_quiet (opening control line : Text) (quiet : isQuiet opening = true)
    (member : control ∈ controlOpenings) (opened : startsWith opening line = true) :
    startsWith control line = false := by
  refine Bool.eq_false_iff.mpr fun other => ?_
  simp only [startsWith, List.isPrefixOf_iff_prefix] at opened other
  have incompatible := List.all_eq_true.mp quiet control member
  simp only [startsWith, Bool.and_eq_true, Bool.not_eq_true', Bool.eq_false_iff, ne_eq,
    List.isPrefixOf_iff_prefix] at incompatible
  rcases List.prefix_or_prefix_of_prefix opened other with early | early
  · exact incompatible.1 early
  · exact incompatible.2 early

/-- A line without the opening of a hunk is no header of one. -/
theorem hunkHeader_eq_none (diffLine : Text) (other : startsWith "@@ -".toList diffLine = false) :
    hunkHeader diffLine = none := by
  simp only [hunkHeader, literal, other, Bool.false_eq_true, ↓reduceIte, Option.bind_none]
  rfl

/-- A line that is no control line, for a scan inside or outside a hunk. -/
theorem processDiffControlLine_none (path : Option Path) (scan : DiffScan) (diffLine : Text)
    (notFile : startsWith diffPrefix diffLine = false)
    (notLabel : scan.inHunk = true ∨ startsWith "+++ ".toList diffLine = false)
    (notHunk : startsWith "@@ -".toList diffLine = false) :
    processDiffControlLine path scan diffLine = .ok none := by
  have label : (!scan.inHunk && startsWith "+++ ".toList diffLine) = false := by
    rcases notLabel with inside | other
    · simp [inside]
    · rw [other, Bool.and_false]
  simp only [processDiffControlLine, notFile, Bool.false_eq_true, ↓reduceIte, label,
    hunkHeader_eq_none diffLine notHunk, Option.map_none]

/-- Outside a hunk a line that is no control line changes nothing. -/
theorem processDiffLine_quiet (path : Option Path) (scan : DiffScan) (opening diffLine : Text)
    (quiet : isQuiet opening = true) (opened : startsWith opening diffLine = true)
    (outside : scan.currentLine = none) : processDiffLine path scan diffLine = .ok scan := by
  have silent := startsWith_of_quiet opening
  have control := processDiffControlLine_none path scan diffLine
    (silent diffPrefix diffLine quiet (by decide) opened)
    (Or.inr (silent _ diffLine quiet (by decide) opened))
    (silent _ diffLine quiet (by decide) opened)
  simp only [processDiffLine, control, outside]
  cases scan.currentPath <;> rfl

/-- The extended header lines are passed over. -/
theorem foldlM_extended (path : Option Path) (scan : DiffScan) (lines : List Text)
    (extended : ∀ line ∈ lines, startsWithAny extendedKeywords line = true)
    (outside : scan.currentLine = none) :
    lines.foldlM (processDiffLine path) scan = .ok scan := by
  have quiet : ∀ keyword ∈ extendedKeywords, isQuiet keyword = true := by decide
  induction lines with
  | nil => rfl
  | cons line lines inductionHypothesis =>
    obtain ⟨keyword, member, opened⟩ := List.any_eq_true.mp (extended line (by simp))
    have passed := processDiffLine_quiet path scan keyword line (quiet keyword member) opened outside
    rw [List.foldlM_cons, passed]
    exact inductionHypothesis fun other later => extended other (List.mem_cons_of_mem _ later)

/-! ## Hunks -/

/-- The digits at the head of a decimal are the decimal. -/
theorem digitsHead_decimal (number : Nat) (rest : Text)
    (stop : ∀ character ∈ rest.head?, character.isDigit = false) :
    digitsHead (decimal number ++ rest) = some (decimal number, rest) := by
  have digits := isDigit_of_mem_decimal number
  have ended : rest.takeWhile Char.isDigit = [] ∧ rest.dropWhile Char.isDigit = rest := by
    cases rest with
    | nil => exact ⟨rfl, rfl⟩
    | cons first rest => simp [stop first (by simp)]
  have taken : (decimal number ++ rest).takeWhile Char.isDigit = decimal number := by
    rw [List.takeWhile_append_of_pos digits, ended.1, List.append_nil]
  have dropped : (decimal number ++ rest).dropWhile Char.isDigit = rest := by
    rw [List.dropWhile_append_of_pos digits, ended.2]
  simp only [digitsHead, taken, dropped, decimal_ne_nil, ↓reduceIte]

/-- The range of a hunk header gives its first number. -/
theorem rangeHead_range (before count : Nat) (rest : Text) :
    rangeHead (UnifiedDiff.range before count ++ ' ' :: rest) =
      some (decimal (if count = 0 then before else before + 1), ' ' :: rest) := by
  have space : ∀ character ∈ (' ' :: rest).head?, character.isDigit = false := by
    simp only [List.head?_cons, Option.mem_def, Option.some.injEq, forall_eq']
    decide
  by_cases one : count = 1
  · have head := digitsHead_decimal (if count = 0 then before else before + 1) (' ' :: rest) space
    have comma : literal [','] (' ' :: rest) = none := by
      simp [literal, startsWith_singleton]
    simp only [UnifiedDiff.range, one, ↓reduceIte, List.append_nil, rangeHead] at head ⊢
    simp only [head, comma, Option.bind_none]
  · have head := digitsHead_decimal (if count = 0 then before else before + 1)
      (',' :: (decimal count ++ ' ' :: rest)) (by
        simp only [List.head?_cons, Option.mem_def, Option.some.injEq, forall_eq']
        decide)
    have length := digitsHead_decimal count (' ' :: rest) space
    have comma := literal_append [','] (decimal count ++ ' ' :: rest)
    simp only [List.cons_append, List.nil_append] at comma
    simp only [UnifiedDiff.range, one, ↓reduceIte, List.append_assoc, List.cons_append, rangeHead,
      head, comma, Option.bind_some, length]

/-- The header of a hunk is read as its first line on the new side, whatever its heading is. -/
theorem hunkHeader_opening (oldBefore newBefore : Nat) (hunk : Hunk) (heading : Text) :
    hunkHeader ("@@ -".toList ++ UnifiedDiff.range oldBefore (hunk.body.filterMap Edit.old).length ++
        " +".toList ++ UnifiedDiff.range newBefore (hunk.body.filterMap Edit.new).length ++
        " @@".toList ++ heading) =
      some (if (hunk.body.filterMap Edit.new).length = 0 then newBefore else newBefore + 1) := by
  have opened (rest : Text) := literal_append "@@ -".toList rest
  have middle (rest : Text) : literal " +".toList (' ' :: '+' :: rest) = some rest :=
    literal_append " +".toList rest
  have closed (rest : Text) : literal " @@".toList (' ' :: '@' :: '@' :: rest) = some rest :=
    literal_append " @@".toList rest
  have plus : " +".toList = [' ', '+'] := rfl
  have closing : " @@".toList = [' ', '@', '@'] := rfl
  simp only [List.append_assoc, hunkHeader, opened, Option.bind_some]
  simp only [plus, closing, List.cons_append, List.nil_append, rangeHead_range]
  simp only [← plus, ← closing, Option.bind_eq_bind, Option.bind_some, middle, rangeHead_range,
    closed, decimalValue_decimal]
  rfl

/-- Adding a list of lines to the file of a scan, if it has one. -/
def recordLines (path : Option Path) (lines : List Nat) (addedLines : Dict Path (List Nat)) :
    Dict Path (List Nat) :=
  match path with
  | none => addedLines
  | some path =>
    lines.foldl (fun current line => current.set path ((current.get path).getD [] ++ [line]))
      addedLines

/-- No lines are recorded. -/
theorem recordLines_nil (path : Option Path) (addedLines : Dict Path (List Nat)) :
    recordLines path [] addedLines = addedLines := by
  cases path <;> rfl

/-- Lines are recorded one list behind the other. -/
theorem recordLines_append (path : Option Path) (first second : List Nat)
    (addedLines : Dict Path (List Nat)) :
    recordLines path (first ++ second) addedLines =
      recordLines path second (recordLines path first addedLines) := by
  cases path with
  | none => rfl
  | some path => exact List.foldl_append

/-- The effect on the lines of each path. -/
theorem get_recordLines (path : Path) (lines : List Nat) (addedLines : Dict Path (List Nat))
    (known : List Nat) (present : addedLines.get path = some known) (other : Path) :
    (recordLines (some path) lines addedLines).get other =
      if other = path then some (known ++ lines) else addedLines.get other := by
  induction lines generalizing addedLines known with
  | nil =>
    by_cases same : other = path
    · simp [recordLines_nil, same, present]
    · simp [recordLines_nil, same]
  | cons line lines inductionHypothesis =>
    have step := inductionHypothesis (addedLines.set path (known ++ [line])) (known ++ [line])
      (by simp [Dict.get_set])
    simp only [recordLines, List.foldl_cons, present, Option.getD_some] at step ⊢
    rw [step, Dict.get_set]
    by_cases same : other = path
    · simp [same]
    · simp [same]

/-- Inside a hunk only the openings of headers matter. -/
theorem processDiffControlLine_mark (given : Option Path) (scan : DiffScan) (mark : Char) (text : Text)
    (inside : scan.inHunk = true) (notFile : mark ≠ 'd') (notHunk : mark ≠ '@') :
    processDiffControlLine given scan (mark :: text) = .ok none := by
  refine processDiffControlLine_none given scan (mark :: text) ?_ (Or.inl inside) ?_
  · exact startsWith_cons_of_ne 'd' mark "iff --git ".toList text notFile.symm
  · exact startsWith_cons_of_ne '@' mark "@ -".toList text notHunk.symm

/-- The marker line behind a line without line feed is passed over. -/
theorem foldlM_marker (given : Option Path) (scan : DiffScan) (inside : scan.inHunk = true)
    (terminated : Bool) :
    (if terminated then [] else [Edit.noNewline]).foldlM (processDiffLine given) scan =
      .ok scan := by
  have control := processDiffControlLine_none given scan Edit.noNewline (by decide)
    (Or.inl inside) (by decide)
  have opening : startsWith ['\\'] Edit.noNewline = true := by decide
  have marker : processDiffLine given scan Edit.noNewline = .ok scan := by
    simp only [processDiffLine, control, opening, ↓reduceIte]
    cases scan.currentPath <;> cases scan.currentLine <;> rfl
  cases terminated with
  | true => rfl
  | false =>
    simp only [Bool.false_eq_true, ↓reduceIte, List.foldlM_cons, marker]
    rfl

/-- One line of a hunk, with its marker line.

Proof: the line begins with its mark, so it is no control line inside a hunk. -/
theorem foldlM_edit (given : Option Path) (path : Path) (number : Nat) (addedLines : Dict Path (List Nat))
    (edit : Edit) :
    edit.lines.foldlM (processDiffLine given) ⟨some path, some number, true, addedLines⟩ =
      .ok ⟨some path, some (number + ([edit].filterMap Edit.new).length), true,
        recordLines (some path) ((Edit.insertedFrom number [edit]).map Prod.fst) addedLines⟩ := by
  cases edit with
  | keep line =>
    have control := processDiffControlLine_mark given ⟨some path, some number, true, addedLines⟩
      ' ' line.text rfl (by decide) (by decide)
    have step : processDiffLine given ⟨some path, some number, true, addedLines⟩
        (' ' :: line.text) = .ok ⟨some path, some (number + 1), true, addedLines⟩ := by
      simp only [processDiffLine, control]
      simp [startsWith_singleton, bind, Except.bind, pure, Except.pure]
    simp only [Edit.lines, Edit.mark, Edit.line, List.foldlM_cons, step]
    exact foldlM_marker given _ rfl line.terminated
  | delete line =>
    have control := processDiffControlLine_mark given ⟨some path, some number, true, addedLines⟩
      '-' line.text rfl (by decide) (by decide)
    have step : processDiffLine given ⟨some path, some number, true, addedLines⟩
        ('-' :: line.text) = .ok ⟨some path, some number, true, addedLines⟩ := by
      simp only [processDiffLine, control]
      simp [startsWith_singleton, bind, Except.bind, pure, Except.pure]
    simp only [Edit.lines, Edit.mark, Edit.line, List.foldlM_cons, step]
    exact foldlM_marker given _ rfl line.terminated
  | insert line =>
    have control := processDiffControlLine_mark given ⟨some path, some number, true, addedLines⟩
      '+' line.text rfl (by decide) (by decide)
    have step : processDiffLine given ⟨some path, some number, true, addedLines⟩
        ('+' :: line.text) = .ok ⟨some path, some (number + 1), true,
          recordLines (some path) [number] addedLines⟩ := by
      simp only [processDiffLine, control]
      simp [startsWith_singleton, bind, Except.bind, pure, Except.pure, DiffScan.add, recordLines]
    simp only [Edit.lines, Edit.mark, Edit.line, List.foldlM_cons, step]
    exact foldlM_marker given _ rfl line.terminated

/-- The lines of a hunk record its insertions. -/
theorem foldlM_edits (given : Option Path) (path : Path) (number : Nat) (addedLines : Dict Path (List Nat))
    (edits : List Edit) :
    (edits.flatMap Edit.lines).foldlM (processDiffLine given)
        ⟨some path, some number, true, addedLines⟩ =
      .ok ⟨some path, some (number + (edits.filterMap Edit.new).length), true,
        recordLines (some path) ((Edit.insertedFrom number edits).map Prod.fst) addedLines⟩ := by
  induction edits generalizing number addedLines with
  | nil => rfl
  | cons edit edits inductionHypothesis =>
    have first := Edit.insertedFrom_append number [edit] edits
    have counted : ((edit :: edits).filterMap Edit.new).length =
        ([edit].filterMap Edit.new).length + (edits.filterMap Edit.new).length := by
      rw [← List.singleton_append, List.filterMap_append, List.length_append]
    rw [List.singleton_append] at first
    rw [List.flatMap_cons, List.foldlM_append, foldlM_edit, first, List.map_append,
      recordLines_append, counted, ← Nat.add_assoc]
    exact inductionHypothesis _ _

/-- Without a current file the lines of a hunk are passed over. -/
theorem foldlM_edits_unmapped (given : Option Path) (line : Option Nat) (addedLines : Dict Path (List Nat))
    (edits : List Edit) :
    (edits.flatMap Edit.lines).foldlM (processDiffLine given) ⟨none, line, true, addedLines⟩ =
      .ok ⟨none, line, true, addedLines⟩ := by
  have passed (mark : Char) (text : Text) (notFile : mark ≠ 'd') (notHunk : mark ≠ '@') :
      processDiffLine given ⟨none, line, true, addedLines⟩ (mark :: text) =
        .ok ⟨none, line, true, addedLines⟩ := by
    have control := processDiffControlLine_mark given ⟨none, line, true, addedLines⟩ mark text rfl
      notFile notHunk
    simp only [processDiffLine, control]
    rfl
  have all (lines : List Text)
      (marked : ∀ line ∈ lines, ∃ mark text, line = mark :: text ∧ mark ≠ 'd' ∧ mark ≠ '@') :
      lines.foldlM (processDiffLine given) ⟨none, line, true, addedLines⟩ =
        .ok ⟨none, line, true, addedLines⟩ := by
    induction lines with
    | nil => rfl
    | cons first lines inductionHypothesis =>
      obtain ⟨mark, text, rfl, notFile, notHunk⟩ := marked first (by simp)
      rw [List.foldlM_cons, passed mark text notFile notHunk]
      exact inductionHypothesis fun other later => marked other (List.mem_cons_of_mem _ later)
  refine all _ fun written member => ?_
  obtain ⟨edit, -, member⟩ := List.mem_flatMap.mp member
  have shape : written = edit.mark :: edit.line.text ∨ written = Edit.noNewline := by
    simp only [Edit.lines, List.mem_cons] at member
    rcases member with rfl | later
    · exact Or.inl rfl
    · cases terminated : edit.line.terminated <;> simp_all
  rcases shape with rfl | rfl
  · refine ⟨edit.mark, edit.line.text, rfl, ?_, ?_⟩ <;> cases edit <;> simp [Edit.mark]
  · exact ⟨'\\', _, rfl, by decide, by decide⟩

/-- A header of a hunk sets the current line. -/
theorem processDiffLine_hunkHeader (given : Option Path) (scan : DiffScan) (rest : Text)
    (number : Nat) (read : hunkHeader ('@' :: rest) = some number) :
    processDiffLine given scan ('@' :: rest) =
      .ok { scan with currentLine := some number, inHunk := true } := by
  have notFile : startsWith diffPrefix ('@' :: rest) = false :=
    startsWith_cons_of_ne 'd' '@' _ rest (by decide)
  have notLabel : startsWith "+++ ".toList ('@' :: rest) = false :=
    startsWith_cons_of_ne '+' '@' _ rest (by decide)
  simp only [processDiffLine, processDiffControlLine, notFile, notLabel, Bool.and_false,
    Bool.false_eq_true, ↓reduceIte, read, Option.map_some]
  rfl

/-- The header of a hunk sets the current line to its first new line. -/
theorem processDiffLine_header (given : Option Path) (scan : DiffScan) (oldBefore newBefore : Nat)
    (hunk : Hunk) :
    processDiffLine given scan (UnifiedDiff.header oldBefore newBefore hunk) =
      .ok { scan with
        currentLine := some
          (if (hunk.body.filterMap Edit.new).length = 0 then newBefore else newBefore + 1)
        inHunk := true } :=
  processDiffLine_hunkHeader given scan _ _ (hunkHeader_opening oldBefore newBefore hunk _)

/-- The hunks of a file record its insertions under the current file. -/
theorem foldlM_hunks (given path : Option Path) (oldBefore newBefore : Nat) (hunks : List Hunk)
    (scan : DiffScan) (current : scan.currentPath = path) :
    ∃ final, (UnifiedDiff.hunkLines oldBefore newBefore hunks).foldlM (processDiffLine given) scan =
        .ok final ∧
      final.addedLines = recordLines path
        ((Edit.insertedFrom (newBefore + 1) (hunks.flatMap Hunk.edits)).map Prod.fst)
        scan.addedLines := by
  induction hunks generalizing oldBefore newBefore scan with
  | nil => exact ⟨scan, rfl, (recordLines_nil path scan.addedLines).symm⟩
  | cons hunk hunks inductionHypothesis =>
    have number : Edit.insertedFrom
        (if (hunk.body.filterMap Edit.new).length = 0 then newBefore + hunk.skipped.length
          else newBefore + hunk.skipped.length + 1) hunk.body =
        Edit.insertedFrom (newBefore + hunk.skipped.length + 1) hunk.body := by
      by_cases empty : (hunk.body.filterMap Edit.new).length = 0
      · rw [Edit.insertedFrom_eq_nil _ _ empty, Edit.insertedFrom_eq_nil _ _ empty]
      · rw [if_neg empty]
    obtain ⟨after, run, currentAfter, addedAfter⟩ : ∃ after,
        (hunk.body.flatMap Edit.lines).foldlM (processDiffLine given)
          { scan with
            currentLine := some (if (hunk.body.filterMap Edit.new).length = 0 then
              newBefore + hunk.skipped.length else newBefore + hunk.skipped.length + 1)
            inHunk := true } = .ok after ∧
        after.currentPath = path ∧ after.addedLines = recordLines path
          ((Edit.insertedFrom (newBefore + hunk.skipped.length + 1) hunk.body).map Prod.fst)
          scan.addedLines := by
      rw [current, ← number]
      cases path with
      | none => exact ⟨_, foldlM_edits_unmapped given _ _ hunk.body, rfl, rfl⟩
      | some path => exact ⟨_, foldlM_edits given path _ _ hunk.body, rfl, rfl⟩
    obtain ⟨final, rest, added⟩ := inductionHypothesis
      (oldBefore + hunk.skipped.length + (hunk.body.filterMap Edit.old).length)
      (newBefore + hunk.skipped.length + (hunk.body.filterMap Edit.new).length) after currentAfter
    refine ⟨final, ?_, ?_⟩
    · simp only [UnifiedDiff.hunkLines, List.cons_append, List.foldlM_cons,
        processDiffLine_header, List.foldlM_append, bind, Except.bind, run]
      exact rest
    · rw [added, addedAfter, insertedFrom_hunks, List.map_append, recordLines_append]

/-! ## Sections -/

/-- What stands below the extended header of a file. A file with a `binary` or
`-diff` attribute is printed without its hunks. -/
inductive Contents
  | nothing
  | binary (names : Text)
  | printed (oldLabel newLabel : Text) (hunks : List Hunk)

namespace Contents

/-- The lines of the contents. -/
def lines : Contents → List Text
  | .nothing => []
  | .binary names => ["Binary files ".toList ++ names]
  | .printed oldLabel newLabel hunks =>
    ("--- ".toList ++ oldLabel) :: ("+++ ".toList ++ newLabel) :: UnifiedDiff.hunkLines 0 0 hunks

/-- The path that the `+++` line names. -/
def labelPath : Contents → Option Path
  | .printed _ newLabel _ =>
    if startsWith "b/".toList newLabel then some (Path.ofText (newLabel.drop 2)) else none
  | _ => none

/-- Numbers of the added lines that are printed. -/
def additions : Contents → List Nat
  | .printed _ _ hunks => (Edit.insertedFrom 1 (hunks.flatMap Hunk.edits)).map Prod.fst
  | _ => []

/-- A name in the `---` and `+++` lines: a tab follows a name with a space. -/
def label (name : Text) : Text := name ++ if ' ' ∈ name then ['\t'] else []

/-- What git writes for the two versions of a file with these names. -/
def written (oldName newName : Text) (diff : UnifiedDiff) (isBinary : Bool) : Contents :=
  if diff.hunks.isEmpty then .nothing
  else if isBinary then .binary (oldName ++ " and ".toList ++ newName ++ " differ".toList)
  else .printed (label oldName) (label newName) diff.hunks

/-- Written contents add the inserted lines, and none if they are binary. -/
theorem additions_written (oldName newName : Text) (diff : UnifiedDiff) (isBinary : Bool) :
    (written oldName newName diff isBinary).additions =
      if isBinary then [] else diff.insertedLines.map Prod.fst := by
  rw [written, UnifiedDiff.insertedLines_eq]
  cases empty : diff.hunks.isEmpty with
  | true =>
    have none : diff.hunks = [] := by simpa using empty
    simp [additions, none, Edit.insertedFrom]
  | false => cases isBinary <;> rfl

/-- The `+++` line names a path if it is printed and the new name is a bare path. -/
theorem labelPath_written (oldName newName : Text) (diff : UnifiedDiff) (isBinary : Bool) :
    (written oldName newName diff isBinary).labelPath =
      if !diff.hunks.isEmpty && !isBinary && startsWith "b/".toList (label newName) then
        some (Path.ofText ((label newName).drop 2))
      else none := by
  rw [written]
  cases diff.hunks.isEmpty with
  | true => rfl
  | false => cases isBinary <;> rfl

end Contents

/-- The section of a file, with the path that its header is read as. -/
structure FileSection where
  header : Text
  decoded : Option Path
  extended : ExtendedHeader
  contents : Contents
  opened : startsWith diffPrefix header = true
  read : diffHeaderPath header = .ok decoded
  plainHeader : '\n' ∉ header
  plainContents : ∀ line ∈ contents.lines, '\n' ∉ line

namespace FileSection

/-- The lines of a section. -/
def lines (file : FileSection) : List Text :=
  file.header :: (file.extended.lines ++ file.contents.lines)

/-- The path under which the lines of the section are recorded. -/
def key (given : Option Path) (file : FileSection) : Option Path :=
  given.or (file.decoded.or file.contents.labelPath)

end FileSection

/-- The current path has lines behind `setdefault`; other paths are as before. -/
theorem DiffScan.get_setdefault (scan : DiffScan) (path : Path) :
    scan.setdefault.addedLines.get path =
      if scan.currentPath = some path then some ((scan.addedLines.get path).getD [])
      else scan.addedLines.get path := by
  unfold DiffScan.setdefault
  cases scan.currentPath with
  | none => simp
  | some current =>
    by_cases same : current = path
    · subst same
      cases known : scan.addedLines.get current with
      | none => simp [known, Dict.get_set]
      | some lines => simp [known]
    · have other : path ≠ current := fun equal => same equal.symm
      cases known : scan.addedLines.get current with
      | none => simp [known, Dict.get_set, same, other]
      | some lines => simp [known, same]

/-- The scan behind the header of a file. -/
def DiffScan.opened (scan : DiffScan) (path : Option Path) : DiffScan :=
  { scan with currentPath := path, currentLine := none, inHunk := false }.setdefault

/-- An opened section has an entry for its path, and the other entries stay. -/
theorem DiffScan.get_opened (scan : DiffScan) (key : Option Path) (path : Path) :
    (scan.opened key).addedLines.get path =
      if key = some path then some ((scan.addedLines.get path).getD [])
      else scan.addedLines.get path :=
  DiffScan.get_setdefault { scan with currentPath := key, currentLine := none, inHunk := false } path

/-- The header of a section opens its file. -/
theorem processDiffLine_fileHeader (given : Option Path) (scan : DiffScan) (file : FileSection) :
    processDiffLine given scan file.header = .ok (scan.opened (given.or file.decoded)) := by
  cases given with
  | none =>
    simp only [processDiffLine, processDiffControlLine, file.opened, ↓reduceIte,
      Option.isSome_none, Bool.false_eq_true, file.read]
    rfl
  | some path =>
    simp only [processDiffLine, processDiffControlLine, file.opened, ↓reduceIte,
      Option.isSome_some]
    rfl

/-- The `+++` line names a path if there is none and it is bare. -/
theorem processDiffLine_label (given decoded : Option Path) (scan : DiffScan)
    (oldLabel newLabel : Text) (hunks : List Hunk)
    (header : scan.currentPath = given.or decoded) (outside : scan.inHunk = false) :
    processDiffLine given scan ("+++ ".toList ++ newLabel) =
      .ok { scan with
        currentPath := given.or (decoded.or (Contents.printed oldLabel newLabel hunks).labelPath)
        currentLine := none }.setdefault := by
  have opening : startsWith "+++ ".toList ("+++ ".toList ++ newLabel) = true :=
    startsWith_append _ _
  have notFile : startsWith diffPrefix ("+++ ".toList ++ newLabel) = false :=
    startsWith_cons_of_ne 'd' '+' _ _ (by decide)
  have named : (if given.isNone && scan.currentPath.isNone && startsWith "+++ b/".toList
        ("+++ ".toList ++ newLabel) then some (Path.ofText (("+++ ".toList ++ newLabel).drop 6))
      else scan.currentPath) =
      given.or (decoded.or (Contents.printed oldLabel newLabel hunks).labelPath) := by
    rw [header]
    cases given with
    | some path => rfl
    | none =>
      cases decoded with
      | some path => rfl
      | none => rfl
  simp only [processDiffLine, processDiffControlLine, notFile, opening, outside, Bool.not_false,
    Bool.and_self, Bool.false_eq_true, ↓reduceIte, named]
  rfl

/-- Entries made twice for nested keys are made once. -/
theorem DiffScan.get_setdefault_opened (scan : DiffScan) (first : Option Path)
    (second : Option Path) (same : ∀ path, first = some path → second = some path)
    (path : Path) :
    { scan.opened first with currentPath := second, currentLine := none }.setdefault.addedLines.get
        path =
      if second = some path then some ((scan.addedLines.get path).getD [])
      else scan.addedLines.get path := by
  rw [DiffScan.get_setdefault]
  simp only [DiffScan.get_opened]
  by_cases current : second = some path
  · by_cases before : first = some path
    · simp [current, before]
    · simp [current, before]
  · have before : first ≠ some path := fun equal => current (same path equal)
    simp [current, before]

/-- Lines that record the numbers under the path that is current before them. -/
def Records (lines : List Text) (numbers : List Nat) : Prop :=
  ∀ (given path : Option Path) (scan : DiffScan), scan.currentPath = path →
    ∃ final, lines.foldlM (processDiffLine given) scan = .ok final ∧
      final.addedLines = recordLines path numbers scan.addedLines

/-- The lines as which the contents of a file are read, and the numbers that they record.
Names never span lines; the lines of hunks may be read as others than were written. -/
inductive Contents.ReadAs : Contents → List Text → List Nat → Prop
  | nothing : ReadAs .nothing [] []
  | binary (names : Text) : ReadAs (.binary names) ["Binary files ".toList ++ names] []
  | printed (oldLabel newLabel : Text) (hunks : List Hunk) (lines : List Text)
      (numbers : List Nat) : Records lines numbers →
      ReadAs (.printed oldLabel newLabel hunks)
        (("--- ".toList ++ oldLabel) :: ("+++ ".toList ++ newLabel) :: lines) numbers

/-- Lines that append the numbers to the entry of a key. -/
def Contributes (given key : Option Path) (lines : List Text) (numbers : List Nat) : Prop :=
  ∀ scan : DiffScan, ∃ final, lines.foldlM (processDiffLine given) scan = .ok final ∧
    ∀ path, final.addedLines.get path =
      if key = some path then some ((scan.addedLines.get path).getD [] ++ numbers)
      else scan.addedLines.get path

/-- What a section contributes: the lines of its printed hunks, under its key.

Proof: the extended header and the lines of a binary file are passed over; the
hunks are read under the key, which has an entry by then. -/
theorem contributes_read (given : Option Path) (file : FileSection) (extended lines : List Text)
    (numbers : List Nat)
    (passed : ∀ scan : DiffScan, scan.currentLine = none → scan.inHunk = false →
      extended.foldlM (processDiffLine given) scan = .ok scan)
    (readAs : file.contents.ReadAs lines numbers) :
    Contributes given (file.key given) (file.header :: (extended ++ lines)) numbers := by
  intro scan
  have below : (file.header :: (extended ++ lines)).foldlM (processDiffLine given) scan =
      lines.foldlM (processDiffLine given) (scan.opened (given.or file.decoded)) := by
    simp only [List.foldlM_cons, processDiffLine_fileHeader, List.foldlM_append, bind,
      Except.bind, passed (scan.opened (given.or file.decoded)) rfl rfl]
  rw [below]
  unfold FileSection.key
  generalize file.contents = contents at readAs ⊢
  cases readAs with
  | nothing =>
    refine ⟨_, rfl, fun path => ?_⟩
    simp only [Contents.labelPath, Option.or_none, List.append_nil]
    exact scan.get_opened _ path
  | binary names =>
    have notice := processDiffLine_quiet given (scan.opened (given.or file.decoded)) _ _
      (by decide) (startsWith_append "Binary files ".toList names) rfl
    refine ⟨scan.opened (given.or file.decoded), ?_, fun path => ?_⟩
    · simp only [List.foldlM_cons, notice]
      rfl
    · simp only [Contents.labelPath, Option.or_none, List.append_nil]
      exact scan.get_opened _ path
  | printed oldLabel newLabel hunks lines numbers records =>
    have opening : startsWith "--- ".toList ("--- ".toList ++ oldLabel) = true :=
      startsWith_append _ _
    have labelled := processDiffLine_quiet given (scan.opened (given.or file.decoded)) _ _
      (by decide) opening rfl
    have named := processDiffLine_label given file.decoded
      (scan.opened (given.or file.decoded)) oldLabel newLabel hunks rfl rfl
    have known := scan.get_setdefault_opened (given.or file.decoded)
      (given.or (file.decoded.or (Contents.printed oldLabel newLabel hunks).labelPath))
      (by cases given <;> cases file.decoded <;> simp)
    obtain ⟨final, run, added⟩ := records given
      (given.or (file.decoded.or (Contents.printed oldLabel newLabel hunks).labelPath))
      { scan.opened (given.or file.decoded) with
        currentPath :=
          given.or (file.decoded.or (Contents.printed oldLabel newLabel hunks).labelPath)
        currentLine := none }.setdefault rfl
    refine ⟨final, ?_, fun path => ?_⟩
    · simp only [List.foldlM_cons, labelled, named, bind, Except.bind]
      exact run
    · rw [added]
      cases key : given.or (file.decoded.or (Contents.printed oldLabel newLabel hunks).labelPath) with
      | none => simpa [recordLines, key] using known path
      | some current =>
        rw [key] at known
        rw [get_recordLines current _ _ _ ((known current).trans (if_pos rfl)) path, known path]
        by_cases same : current = path
        · simp [same]
        · have other : path ≠ current := fun equal => same equal.symm
          simp [same, other]

/-- A section that is read as it was written. -/
theorem contributes_section (given : Option Path) (file : FileSection) :
    Contributes given (file.key given) file.lines file.contents.additions := by
  refine contributes_read given file file.extended.lines file.contents.lines _
    (fun scan outside _ => foldlM_extended given scan file.extended.lines
      (fun line member => (file.extended.plain line member).2) outside) ?_
  cases file.contents with
  | nothing => exact Contents.ReadAs.nothing
  | binary names => exact Contents.ReadAs.binary names
  | printed oldLabel newLabel hunks =>
    exact Contents.ReadAs.printed oldLabel newLabel hunks _ _
      fun given path scan current => foldlM_hunks given path 0 0 hunks scan current

/-! ## Whole diffs -/

/-- The numbers of a hunk header are written without line feed. -/
theorem newline_not_mem_range (before count : Nat) : '\n' ∉ UnifiedDiff.range before count := by
  have digits (number : Nat) : '\n' ∉ decimal number := fun member =>
    absurd (isDigit_of_mem_decimal number '\n' member) (by decide)
  unfold UnifiedDiff.range
  by_cases one : count = 1 <;> simp [one, digits]

/-- A hunk header is one line. -/
theorem newline_not_mem_header (oldBefore newBefore : Nat) (hunk : Hunk) :
    '\n' ∉ UnifiedDiff.header oldBefore newBefore hunk := by
  have heading : '\n' ∉ if hunk.heading.isEmpty then [] else ' ' :: hunk.heading := by
    by_cases empty : hunk.heading.isEmpty = true <;> simp [empty, hunk.plain]
  unfold UnifiedDiff.header
  simp only [List.mem_append, not_or]
  exact ⟨⟨⟨⟨⟨by decide, newline_not_mem_range _ _⟩, by decide⟩, newline_not_mem_range _ _⟩,
    by decide⟩, heading⟩

/-- Each line of an edit is one line. -/
theorem newline_not_mem_edit (edit : Edit) : ∀ line ∈ edit.lines, '\n' ∉ line := by
  intro line member
  simp only [Edit.lines, List.mem_cons] at member
  rcases member with rfl | later
  · have mark : '\n' ≠ edit.mark := by cases edit <;> simp [Edit.mark]
    simp [mark, edit.line.plain]
  · cases terminated : edit.line.terminated with
    | true => simp [terminated] at later
    | false =>
      simp only [terminated, Bool.false_eq_true, ↓reduceIte, List.mem_singleton] at later
      subst later
      decide

/-- Each line of the hunks is one line. -/
theorem newline_not_mem_hunkLines (oldBefore newBefore : Nat) (hunks : List Hunk) :
    ∀ line ∈ UnifiedDiff.hunkLines oldBefore newBefore hunks, '\n' ∉ line := by
  induction hunks generalizing oldBefore newBefore with
  | nil => simp [UnifiedDiff.hunkLines]
  | cons hunk hunks inductionHypothesis =>
    intro line member
    simp only [UnifiedDiff.hunkLines, List.cons_append, List.mem_cons, List.mem_append,
      List.mem_flatMap] at member
    rcases member with rfl | ⟨edit, -, member⟩ | later
    · exact newline_not_mem_header _ _ hunk
    · exact newline_not_mem_edit edit line member
    · exact inductionHypothesis _ _ line later

/-- A label has the characters of its name, and maybe a tab. -/
theorem not_mem_label (character : Char) (name : Text) (other : character ≠ '\t')
    (plain : character ∉ name) : character ∉ Contents.label name := by
  simp only [Contents.label, List.mem_append, not_or]
  exact ⟨plain, by split <;> simp [other]⟩

/-- Each line of written contents is one line. -/
theorem newline_not_mem_written (oldName newName : Text) (diff : UnifiedDiff) (isBinary : Bool)
    (old : '\n' ∉ oldName) (new : '\n' ∉ newName) :
    ∀ line ∈ (Contents.written oldName newName diff isBinary).lines, '\n' ∉ line := by
  intro line member
  unfold Contents.written at member
  split at member
  · simp [Contents.lines] at member
  · split at member
    · rw [Contents.lines, List.mem_singleton] at member
      subst member
      simp only [List.mem_append, not_or]
      exact ⟨by decide, ⟨⟨old, by decide⟩, new⟩, by decide⟩
    · rw [Contents.lines, List.mem_cons, List.mem_cons] at member
      rcases member with rfl | rfl | hunks
      · exact List.not_mem_append (by decide) (not_mem_label '\n' oldName (by decide) old)
      · exact List.not_mem_append (by decide) (not_mem_label '\n' newName (by decide) new)
      · exact newline_not_mem_hunkLines 0 0 diff.hunks line hunks

/-- Each line of a section is one line. -/
theorem newline_not_mem_section (file : FileSection) : ∀ line ∈ file.lines, '\n' ∉ line := by
  intro line member
  simp only [FileSection.lines, List.mem_cons, List.mem_append] at member
  rcases member with rfl | extended | contents
  · exact file.plainHeader
  · exact (file.extended.plain line extended).1
  · exact file.plainContents line contents

/-- The sections that are recorded under a path. -/
def mappedSections (given : Option Path) (files : List FileSection) (path : Path) :
    List FileSection :=
  files.filter fun file => file.key given = some path

/-- A run over the sections appends what each of them contributes. -/
theorem foldlM_sections (given : Option Path) (read : FileSection → List Text)
    (numbers : FileSection → List Nat) (scan : DiffScan) (files : List FileSection)
    (contributes : ∀ file ∈ files,
      Contributes given (file.key given) (read file) (numbers file)) :
    ∃ final,
      (files.flatMap read).foldlM (processDiffLine given) scan = .ok final ∧
      ∀ path, final.addedLines.get path =
        if mappedSections given files path = [] then scan.addedLines.get path
        else some ((scan.addedLines.get path).getD [] ++
          (mappedSections given files path).flatMap numbers) := by
  induction files generalizing scan with
  | nil => exact ⟨scan, rfl, fun path => by simp [mappedSections]⟩
  | cons file files inductionHypothesis =>
    obtain ⟨middle, first, effect⟩ := contributes file List.mem_cons_self scan
    obtain ⟨final, rest, added⟩ := inductionHypothesis middle
      fun other member => contributes other (List.mem_cons_of_mem _ member)
    refine ⟨final, ?_, fun path => ?_⟩
    · simp only [List.flatMap_cons, List.foldlM_append, first, bind, Except.bind]
      exact rest
    · rw [added path, effect path]
      by_cases key : file.key given = some path
      · by_cases later : mappedSections given files path = []
        · simp_all [mappedSections]
        · simp_all [mappedSections]
      · have skipped : mappedSections given (file :: files) path =
            mappedSections given files path := by
          simp [mappedSections, key]
        simp only [skipped, key, ↓reduceIte]

/-- The empty piece behind the last line feed changes no recorded line. -/
theorem processDiffLine_nil (given : Option Path) (scan : DiffScan) :
    ∃ final, processDiffLine given scan [] = .ok final ∧ final.addedLines = scan.addedLines := by
  have control := processDiffControlLine_none given scan [] (by decide) (Or.inr (by decide))
    (by decide)
  simp only [processDiffLine, control]
  cases scan.currentPath with
  | none => exact ⟨scan, rfl, rfl⟩
  | some path =>
    cases scan.currentLine with
    | none => exact ⟨scan, rfl, rfl⟩
    | some line => exact ⟨_, rfl, rfl⟩

/-- The dictionary before the first line. -/
def initialLines : Option Path → Dict Path (List Nat)
  | none => ∅
  | some path => Dict.empty.set path []

/-- At the beginning there is an entry for a given path only. -/
theorem get_initialLines (given : Option Path) (path : Path) :
    (initialLines given).get path = if given = some path then some [] else none := by
  cases given with
  | none => rfl
  | some given =>
    rw [initialLines, Dict.get_set]
    by_cases same : path = given
    · simp [same]
    · have different : given ≠ path := fun equal => same equal.symm
      simp only [same, ↓reduceIte, Option.some.injEq, different]
      rfl

/-- A diff whose lines are those of its sections is read as what these contribute. -/
theorem addedLinesByPath_read (given : Option Path) (read : FileSection → List Text)
    (numbers : FileSection → List Nat) (files : List FileSection)
    (contributes : ∀ file ∈ files,
      Contributes given (file.key given) (read file) (numbers file))
    (diff : Text) (cut : split ['\n'] diff = files.flatMap read ++ [[]]) :
    ∃ addedLines, addedLinesByPath diff given = .ok addedLines ∧
      ∀ path, addedLines.get path =
        if given ≠ some path ∧ mappedSections given files path = [] then none
        else some ((mappedSections given files path).flatMap numbers) := by
  obtain ⟨middle, run, added⟩ := foldlM_sections given read numbers
    { currentPath := given, addedLines := initialLines given } files contributes
  obtain ⟨final, last, same⟩ := processDiffLine_nil given middle
  have whole : (files.flatMap read ++ [[]]).foldlM (processDiffLine given)
      { currentPath := given, addedLines := initialLines given } = .ok final := by
    simp only [List.foldlM_append, run, List.foldlM_cons, bind, Except.bind, last]
    rfl
  refine ⟨final.addedLines, ?_, fun path => ?_⟩
  · simp only [addedLinesByPath, cut]
    cases given <;> exact congrArg (DiffScan.addedLines <$> ·) whole
  · rw [same, added path, get_initialLines]
    by_cases current : given = some path
    · by_cases empty : mappedSections given files path = [] <;> simp [current] at empty ⊢ <;>
        simp [empty]
    · by_cases empty : mappedSections given files path = [] <;> simp [current, empty]

/-- A diff is read as its sections: without a path that is given, a path is mapped
if some section is recorded under it, to the printed additions of these sections;
a given path is mapped to the printed additions of them all. -/
theorem addedLinesByPath_sections (given : Option Path) (files : List FileSection) :
    ∃ addedLines,
      addedLinesByPath (joinLines (files.flatMap FileSection.lines)) given = .ok addedLines ∧
      ∀ path, addedLines.get path =
        if given ≠ some path ∧ mappedSections given files path = [] then none
        else some ((mappedSections given files path).flatMap (·.contents.additions)) := by
  refine addedLinesByPath_read given FileSection.lines (·.contents.additions) files
    (fun file _ => contributes_section given file) _ (split_terminated '\n' _ ?_)
  intro line member
  obtain ⟨file, -, member⟩ := List.mem_flatMap.mp member
  exact newline_not_mem_section file line member

end VirtTestTools.Policy
