import VirtTestTools.Text

/-!
# Reading unified diffs as text

The line-based readers of `pytest_marker_analyzer.py`: the changed lines on the
new side, the presence of deletions, the names of deleted definitions, and the
names of modified functions. They see a diff as the list of lines that
`str.splitlines` cuts it into.

Each regular expression of the source is a small matcher. White space and word
characters are disjoint classes, so greedy matching never backtracks in the
ones below, except for the greedy gap of a hunk heading, where the last
possible closing marker is taken.
-/

namespace VirtTestTools.Analyzer

open Text

/-- At least one white space character, and what follows all of them: `\s+`. -/
def spaces (text : Text) : Option Text :=
  match text with
  | [] => none
  | character :: rest => if isSpace character then some (lstrip rest) else none

/-- `(?:async\s+)?`. -/
def optionalAsync (text : Text) : Text := ((literal "async".toList text).bind spaces).getD text

/-- `(?:async\s+)?def\s+(\w+)`, anchored: the name and what follows it. -/
def defHead (unicode : Unicode) (text : Text) : Option (Text × Text) :=
  match (literal "def".toList (optionalAsync text)).bind spaces with
  | none => none
  | some rest =>
    let name := rest.takeWhile unicode.word
    if name.isEmpty then none else some (name, rest.dropWhile unicode.word)

/-- `(?:async\s+)?def\s+(\w+)\s*\(`, anchored. -/
def matchDef (unicode : Unicode) (text : Text) : Option String :=
  match defHead unicode text with
  | none => none
  | some (name, rest) =>
    if startsWith ['('] (lstrip rest) then some (String.ofList name) else none

/-- `class\s+(\w+)[\s:(]`, anchored. -/
def matchClass (unicode : Unicode) (text : Text) : Option String :=
  match (literal "class".toList text).bind spaces with
  | none => none
  | some rest =>
    let name := rest.takeWhile unicode.word
    match rest.dropWhile unicode.word with
    | [] => none
    | next :: _ =>
      if !name.isEmpty && (isSpace next || next == ':' || next == '(') then
        some (String.ofList name)
      else none

/-- The greedy part of `@@.*@@\s*(?:async\s+)?def\s+(\w+)`: of all closing
markers that a definition follows, the last one counts. -/
def lastHeading (unicode : Unicode) : Text → Option String
  | [] => none
  | character :: rest =>
    match lastHeading unicode rest with
    | some name => some name
    | none =>
      match literal "@@".toList (character :: rest) with
      | none => none
      | some after => (defHead unicode (lstrip after)).map (fun head => String.ofList head.1)

/-- The function a hunk heading names, for a line that starts with `@@`. -/
def headingFunction (unicode : Unicode) (line : Text) : Option String :=
  lastHeading unicode (line.drop 2)

/-- `re.search(r"\+(\d+)")`: the number behind the first plus sign that has one. -/
def plusNumber : Text → Option Nat
  | [] => none
  | character :: rest =>
    let digits := rest.takeWhile Char.isDigit
    if character = '+' ∧ digits ≠ [] then some (decimalValue digits) else plusNumber rest

/-- State of `_parse_diff_for_changed_lines`. A current line of zero means that
no hunk header has been read yet. -/
structure ChangedLines where
  changedLines : List Nat := []
  currentLine : Nat := 0

/-- One line of `_parse_diff_for_changed_lines`. -/
def ChangedLines.step (state : ChangedLines) (line : Text) : ChangedLines :=
  if startsWith "@@".toList line then
    match plusNumber line with
    | some number => { state with currentLine := number }
    | none => state
  else if startsWithAny ["---".toList, "+++".toList] line then state
  else if state.currentLine = 0 then state
  else if startsWith ['+'] line then
    { changedLines := state.changedLines ++ [state.currentLine]
      currentLine := state.currentLine + 1 }
  else if startsWithAny [['-'], ['\\']] line then state
  else { state with currentLine := state.currentLine + 1 }

/-- `_parse_diff_for_changed_lines`. -/
def parseDiffForChangedLines (diffContent : Text) : List Nat :=
  ((splitlines diffContent).foldl ChangedLines.step {}).changedLines

/-- A deletion line as the source recognises it. -/
def isDeletion (line : Text) : Bool := startsWith ['-'] line && !startsWith "---".toList line

/-- `_diff_has_deletions`. -/
def diffHasDeletions (diffContent : Text) : Bool := (splitlines diffContent).any isDeletion

/-- The function or class a deletion line defines. -/
def deletedSymbol (unicode : Unicode) (line : Text) : Option String :=
  if isDeletion line then
    let stripped := strip (line.drop 1)
    (matchDef unicode stripped).or (matchClass unicode stripped)
  else none

/-- `_extract_deleted_symbols_from_diff`. -/
def extractDeletedSymbolsFromDiff (unicode : Unicode) (diffContent : Text) : List String :=
  (splitlines diffContent).filterMap (deletedSymbol unicode)

/-- State of `_parse_diff_for_functions`. -/
structure FunctionScan where
  modified : List String := []
  currentFunction : Option String := none
  hasChangesInFunction : Bool := false
  pendingDecoratorChange : Bool := false

/-- `modified.add(current_function)` under a condition on the state. -/
def FunctionScan.record (state : FunctionScan) (condition : Bool) : List String :=
  match state.currentFunction with
  | some name => if condition then state.modified ++ [name] else state.modified
  | none => state.modified

/-- Start tracking a function whose definition line was met. The previous one
is saved if it had changes other than decorators. -/
def FunctionScan.enter (state : FunctionScan) (name : String) : FunctionScan where
  modified := state.record state.hasChangesInFunction
  currentFunction := some name
  hasChangesInFunction := true
  pendingDecoratorChange := false

/-- An added or deleted line that is not a file header. -/
def isChange (line : Text) : Bool :=
  startsWithAny [['+'], ['-']] line &&
    !startsWithAny ["+++".toList, "---".toList, "@@".toList] line

/-- One line of `_parse_diff_for_functions`. -/
def FunctionScan.step (unicode : Unicode) (state : FunctionScan) (line : Text) : FunctionScan :=
  if startsWith "@@".toList line then
    let modified := state.record (state.hasChangesInFunction || state.pendingDecoratorChange)
    match headingFunction unicode line with
    | some name =>
      { modified := modified
        currentFunction := some name
        hasChangesInFunction := false
        pendingDecoratorChange := false }
    | none =>
      { modified := modified
        currentFunction := none
        hasChangesInFunction := state.hasChangesInFunction
        pendingDecoratorChange := false }
  else if isChange line then
    let stripped := strip (line.drop 1)
    if stripped.isEmpty || startsWith ['#'] stripped then state
    else
      match matchDef unicode stripped with
      | some name => state.enter name
      | none =>
        if startsWith ['@'] stripped then { state with pendingDecoratorChange := true }
        else { state with hasChangesInFunction := true, pendingDecoratorChange := false }
  else if state.pendingDecoratorChange && startsWith [' '] line then
    match matchDef unicode (strip (line.drop 1)) with
    | some name => state.enter name
    | none => state
  else state

/-- `_parse_diff_for_functions`. -/
def parseDiffForFunctions (unicode : Unicode) (diffContent : Text) : List String :=
  let final := (splitlines diffContent).foldl (FunctionScan.step unicode) {}
  final.record (final.hasChangesInFunction || final.pendingDecoratorChange)

end VirtTestTools.Analyzer
