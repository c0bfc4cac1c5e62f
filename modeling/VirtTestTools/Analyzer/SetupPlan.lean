import Mathlib.Data.List.TakeWhile
import VirtTestTools.Lines
import VirtTestTools.Scans
import VirtTestTools.Analyzer.DiffText
import VirtTestTools.Dict

/-!
# The fixtures of a setup plan

`_try_pytest_setup_plan` reads the output of `pytest --setup-plan` and records for each discovered
test the fixtures it sees set up. The output lists the setup of a fixture once, before the first
test that needs it, and its teardown behind the last one. The reader collects the names of `SETUP`
lines and forgets them at every test line; it knows three of the five scope letters.

The second half of the module is the output itself, as a sequence of setups, teardowns and tests,
and when what is recorded for a test contains the fixtures that are alive at its line.
-/

namespace VirtTestTools.Analyzer

open Text

/-! ## The reader -/

/-- `SETUP\s+[FSM]\s+(\w+)`, anchored: the name. -/
def setupHead (unicode : Unicode) (text : Text) : Option Text :=
  match (literal "SETUP".toList text).bind spaces with
  | some (letter :: rest) =>
    if ['F', 'S', 'M'].contains letter then
      match spaces rest with
      | none => none
      | some behind =>
        let name := behind.takeWhile unicode.word
        if name.isEmpty then none else some name
    else none
  | _ => none

/-- `re.search(r"SETUP\s+[FSM]\s+(\w+)")`. -/
def setupSearch (unicode : Unicode) : Text → Option Text
  | [] => none
  | character :: rest =>
    (setupHead unicode (character :: rest)).or (setupSearch unicode rest)

/-- `:\s+(tests/[^\s]+::[^\s]+)`, anchored: the node id. The run of characters behind `tests/` is
taken as a whole, if it has the separator with something on both sides. -/
def warningHead (text : Text) : Option Text :=
  match ((literal [':'] text).bind spaces).bind (literal "tests/".toList) with
  | none => none
  | some rest =>
    let run := rest.takeWhile (fun character => !isSpace character)
    if contains "::".toList (run.drop 1).dropLast then some ("tests/".toList ++ run) else none

/-- `re.search(r":\s+(tests/[^\s]+::[^\s]+)")`. -/
def warningSearch : Text → Option Text
  | [] => none
  | character :: rest => (warningHead (character :: rest)).or (warningSearch rest)

/-- The state of the loop. -/
structure PlanScan where
  currentFixtures : List String := []
  fixtureUsage : Dict String (List String) := ∅
  fixtureCount : Nat := 0

/-- A line for the node id: record the collected fixtures if the test is a discovered one, and
forget them. -/
def PlanScan.assign (discovered : List String) (state : PlanScan) (nodeId : String) : PlanScan :=
  if nodeId ∈ discovered then
    { currentFixtures := []
      fixtureUsage := state.fixtureUsage.set nodeId state.currentFixtures
      fixtureCount := state.fixtureCount + 1 }
  else { state with currentFixtures := [] }

/-- The node id of a test line: what stands before the first parenthesis. -/
def lineNodeId (line : Text) : Text := strip (line.takeWhile (· != '('))

/-- One line of the output. -/
def PlanScan.step (unicode : Unicode) (discovered : List String) (state : PlanScan)
    (outputLine : Text) : PlanScan :=
  let line := strip outputLine
  if startsWith "SETUP".toList line then
    match setupSearch unicode line with
    | some name => { state with currentFixtures := state.currentFixtures ++ [String.ofList name] }
    | none => state
  else if startsWith "WARNING:".toList line && contains "::".toList line then
    match warningSearch line with
    | some nodeId => state.assign discovered (String.ofList nodeId)
    | none => state
  else if contains "::".toList line && !startsWith [' '] line then
    state.assign discovered (String.ofList (lineNodeId line))
  else state

/-- The loop over the lines of the output. -/
def scanPlan (unicode : Unicode) (discovered : List String) (stdout : Text) : PlanScan :=
  (splitlines stdout).foldl (PlanScan.step unicode discovered) {}

/-- `_try_pytest_setup_plan`, for the return code and the output of pytest: whether fixtures were
recorded, and `fixture_usage`. -/
def tryPytestSetupPlan (unicode : Unicode) (discovered : List String)
    (result : Option (Int × Text)) : Bool × Dict String (List String) :=
  match result with
  | none => (false, ∅)
  | some (returncode, stdout) =>
    if [0, 5].contains returncode then
      let final := scanPlan unicode discovered stdout
      (decide (final.fixtureCount > 0), final.fixtureUsage)
    else (false, ∅)

/-! ## The output of pytest -/

/-- The scopes of fixtures, wide ones first. -/
inductive FixtureScope
  | session
  | package
  | module
  | cls
  | function
deriving DecidableEq

namespace FixtureScope

/-- The letter in the output. -/
def letter : FixtureScope → Char
  | session => 'S'
  | package => 'P'
  | module => 'M'
  | cls => 'C'
  | function => 'F'

/-- The indentation of the lines. -/
def indent : FixtureScope → Nat
  | session => 0
  | package => 2
  | module => 4
  | cls => 6
  | function => 8

/-- Whether the reader knows the letter. -/
def known (scope : FixtureScope) : Bool := ['F', 'S', 'M'].contains scope.letter

end FixtureScope

/-- A line of the output: a fixture is set up, with the fixtures it uses and its parameter, or torn
down, or a test stands there with its fixtures. -/
inductive PlanLine
  | setup (scope : FixtureScope) (name : Text) (uses : List Text) (param : Option Text)
  | teardown (scope : FixtureScope) (name : Text) (param : Option Text)
  | test (nodeId : Text) (uses : List Text)
deriving DecidableEq

namespace PlanLine

/-- The list of used fixtures. -/
def usesText (uses : List Text) : Text :=
  if uses.isEmpty then []
  else " (fixtures used: ".toList ++ List.intercalate ", ".toList uses ++ [')']

/-- The parameter of a fixture. -/
def paramText : Option Text → Text
  | none => []
  | some param => '[' :: param ++ [']']

/-- What follows the name of a fixture that is set up. -/
def detail (uses : List Text) (param : Option Text) : Text := usesText uses ++ paramText param

/-- The opening of a line about the setup of a fixture. -/
def setupOpening : Text := "SETUP    ".toList

/-- The opening of a line about the teardown of a fixture. -/
def teardownOpening : Text := "TEARDOWN ".toList

/-- The line without its indentation. -/
def core : PlanLine → Text
  | setup scope name uses param =>
    setupOpening ++ scope.letter :: ' ' :: (name ++ detail uses param)
  | teardown scope name param =>
    teardownOpening ++ scope.letter :: ' ' :: (name ++ paramText param)
  | test nodeId uses => nodeId ++ usesText uses

/-- The indentation. -/
def indent : PlanLine → Nat
  | setup scope .. | teardown scope .. => scope.indent
  | test .. => 8

/-- The line as it is printed. -/
def text (line : PlanLine) : Text := List.replicate line.indent ' ' ++ line.core

/-- Names of fixtures consist of word characters. A node id contains the separator, has no white
space around it and does not begin like another kind of line. No line contains a line boundary. -/
def printed (unicode : Unicode) (line : PlanLine) : Bool :=
  line.text.all (fun character => !isLineBreak character) &&
    match line with
    | setup _ name _ _ | teardown _ name _ => !name.isEmpty && name.all unicode.word
    | test nodeId _ =>
      contains "::".toList nodeId && !startsWith "SETUP".toList nodeId &&
        !startsWith "WARNING:".toList nodeId && nodeId.head?.all (fun first => !isSpace first) &&
        nodeId.getLast?.all (fun last => !isSpace last)

/-- The name that is collected at a line. The letter of a package or a class is not known; then the
rest of the line is searched. -/
def collects (unicode : Unicode) : PlanLine → Option Text
  | setup scope name uses param =>
    if scope.known then some name else setupSearch unicode (name ++ detail uses param)
  | _ => none

/-- The node id that a line is read as. Besides the lines of tests these are the teardown lines
that contain the separator. -/
def readAs : PlanLine → Option Text
  | setup .. => none
  | line@(teardown ..) =>
    if contains "::".toList line.core then some (lineNodeId line.core) else none
  | test nodeId _ => some (lineNodeId nodeId)

end PlanLine

/-- The output of `pytest --setup-plan`. -/
structure SetupPlan (unicode : Unicode) where
  lines : List PlanLine
  printed : lines.all (PlanLine.printed unicode) = true := by decide

/-- The printed output. -/
def SetupPlan.text {unicode : Unicode} (plan : SetupPlan unicode) : Text :=
  joinLines (plan.lines.map PlanLine.text)

/-- A fixture that has been set up in these lines and not torn down since. -/
def Alive (scope : FixtureScope) (name : Text) (lines : List PlanLine) : Prop :=
  Since (fun _ line => ∃ uses param, line = .setup scope name uses param)
    (fun line => ∃ param, line = .teardown scope name param) lines

/-- The name was collected in these lines, and no line since has been read as a node id. -/
def Collected (unicode : Unicode) (name : Text) (lines : List PlanLine) : Prop :=
  Since (fun _ line => line.collects unicode = some name) (fun line => line.readAs.isSome = true)
    lines

/-- The name was collected before the last line that is read as the test. -/
def CollectedFor (unicode : Unicode) (test name : Text) (lines : List PlanLine) : Prop :=
  Since (fun before line => line.readAs = some test ∧ Collected unicode name before)
    (fun line => line.readAs = some test) lines

/-! ## Reading the output -/

/-- A piece of a text is a piece of every longer text. -/
theorem contains_append (piece text rest : Text) (found : contains piece text = true) :
    contains piece (text ++ rest) = true := by
  obtain ⟨left, right, rfl⟩ := (contains_iff piece text).mp found
  exact (contains_iff piece _).mpr ⟨left, right ++ rest, by simp⟩

namespace PlanLine

variable (unicode : Unicode)

/-- A word character is no space. -/
theorem word_ne_space {character : Char} (word : unicode.word character = true) :
    isSpace character = false := by
  rw [Bool.eq_false_iff]
  intro space
  rw [unicode.word_space character space] at word
  cases word

/-- The details end with a bracket. -/
theorem getLast?_detail (uses : List Text) (param : Option Text) :
    detail uses param = [] ∨ (detail uses param).getLast? = some ')' ∨
      (detail uses param).getLast? = some ']' := by
  unfold detail usesText paramText
  cases param with
  | some param => exact Or.inr (Or.inr (by rw [← List.append_assoc, List.getLast?_concat]))
  | none =>
    rw [List.append_nil]
    split
    · exact Or.inl rfl
    · exact Or.inr (Or.inl List.getLast?_concat)

/-- The details begin with a blank or a bracket. -/
theorem head?_detail (uses : List Text) (param : Option Text) :
    ∀ character ∈ (detail uses param).head?, unicode.word character = false := by
  have blank : unicode.word ' ' = false := unicode.word_space ' ' (by decide)
  have bracket : unicode.word '[' = false := unicode.word_ascii '[' (by decide)
  unfold detail usesText paramText
  intro character first
  split at first
  · cases param with
    | none => simp at first
    | some param =>
      obtain rfl : '[' = character := by simpa using first
      exact bracket
  · obtain rfl : ' ' = character := by simpa using first
    exact blank

/-- A name with details does not end with white space. -/
theorem getLast?_named (name : Text) (uses : List Text) (param : Option Text) (start : Text)
    (word : name.all unicode.word = true) (filled : name ≠ []) :
    ∀ character ∈ (start ++ (name ++ detail uses param)).getLast?, isSpace character = false := by
  intro character last
  rw [List.getLast?_append_of_ne_nil _ (by simp [filled])] at last
  rcases getLast?_detail uses param with none | closed | closed
  · rw [none, List.append_nil] at last
    exact word_ne_space unicode (List.all_eq_true.mp word character (List.mem_of_getLast? last))
  · have present : detail uses param ≠ [] := by
      intro absent
      rw [absent] at closed
      cases closed
    rw [List.getLast?_append_of_ne_nil _ present, closed] at last
    obtain rfl := Option.some.inj last
    decide
  · have present : detail uses param ≠ [] := by
      intro absent
      rw [absent] at closed
      cases closed
    rw [List.getLast?_append_of_ne_nil _ present, closed] at last
    obtain rfl := Option.some.inj last
    decide

/-- The characters of the first opening. -/
theorem setupOpening_eq : setupOpening = ['S', 'E', 'T', 'U', 'P', ' ', ' ', ' ', ' '] := rfl

/-- The characters of the second opening. -/
theorem teardownOpening_eq :
    teardownOpening = ['T', 'E', 'A', 'R', 'D', 'O', 'W', 'N', ' '] := rfl

/-- What the pattern makes of a line whose scope letter is given. -/
theorem setupHead_line (scope : FixtureScope) (rest : Text)
    (first : ∀ character ∈ rest.head?, isSpace character = false) :
    setupHead unicode (setupOpening ++ scope.letter :: ' ' :: rest) =
      if scope.known && !(rest.takeWhile unicode.word).isEmpty then
        some (rest.takeWhile unicode.word)
      else none := by
  have opened : literal "SETUP".toList (setupOpening ++ scope.letter :: ' ' :: rest) =
      some ("    ".toList ++ scope.letter :: ' ' :: rest) :=
    literal_append "SETUP".toList ("    ".toList ++ scope.letter :: ' ' :: rest)
  have gap : spaces ("    ".toList ++ scope.letter :: ' ' :: rest) =
      some (scope.letter :: ' ' :: rest) := by
    cases scope <;> rfl
  have blank : spaces (' ' :: rest) = some rest := by
    cases rest with
    | nil => rfl
    | cons character rest => simp [spaces, lstrip, first character (by simp), show isSpace ' ' = true by decide]
  simp only [setupHead, opened, Option.bind_some, gap, blank, FixtureScope.known]
  by_cases listed : ['F', 'S', 'M'].contains scope.letter = true
  · by_cases empty : (rest.takeWhile unicode.word).isEmpty = true
    · simp only [listed, empty, ↓reduceIte, Bool.not_true, Bool.and_false, Bool.false_eq_true]
    · simp only [listed, empty, ↓reduceIte, Bool.not_false, Bool.and_self, Bool.false_eq_true]
  · simp only [listed, ↓reduceIte, Bool.false_and, Bool.false_eq_true]

/-- Only a capital S begins a match. -/
theorem setupSearch_cons_of_ne (character : Char) (rest : Text) (different : character ≠ 'S') :
    setupSearch unicode (character :: rest) = setupSearch unicode rest := by
  have opened : literal "SETUP".toList (character :: rest) = none := by
    have other := startsWith_cons_of_ne 'S' character "ETUP".toList rest different.symm
    exact if_neg (by rw [Bool.not_eq_true]; exact other)
  simp only [setupSearch, setupHead, opened, Option.bind_none, Option.none_or]

/-- Behind the opening word the search goes on with the scope letter. -/
theorem setupSearch_opening (rest : Text) :
    setupSearch unicode (setupOpening ++ rest) =
      (setupHead unicode (setupOpening ++ rest)).or (setupSearch unicode rest) := by
  have skipped : setupSearch unicode
      ('E' :: 'T' :: 'U' :: 'P' :: ' ' :: ' ' :: ' ' :: ' ' :: rest) = setupSearch unicode rest := by
    rw [setupSearch_cons_of_ne unicode 'E' _ (by decide),
      setupSearch_cons_of_ne unicode 'T' _ (by decide),
      setupSearch_cons_of_ne unicode 'U' _ (by decide),
      setupSearch_cons_of_ne unicode 'P' _ (by decide),
      setupSearch_cons_of_ne unicode ' ' _ (by decide),
      setupSearch_cons_of_ne unicode ' ' _ (by decide),
      setupSearch_cons_of_ne unicode ' ' _ (by decide),
      setupSearch_cons_of_ne unicode ' ' _ (by decide)]
  rw [setupOpening_eq]
  simp only [List.cons_append, List.nil_append]
  rw [setupSearch, skipped]

/-- What is collected of the setup of a fixture. -/
theorem collects_setup (scope : FixtureScope) (name : Text) (uses : List Text)
    (param : Option Text) :
    (setup scope name uses param).collects unicode =
      if scope.known then some name else setupSearch unicode (name ++ detail uses param) := rfl

/-- The name that is found in the line of a setup. -/
theorem setupSearch_core (scope : FixtureScope) (name : Text) (uses : List Text)
    (param : Option Text) (word : name.all unicode.word = true) (filled : name ≠ []) :
    setupSearch unicode (core (setup scope name uses param)) =
      (setup scope name uses param).collects unicode := by
  have first : ∀ character ∈ (name ++ detail uses param).head?, isSpace character = false := by
    intro character opening
    rw [List.head?_append_of_ne_nil _ filled] at opening
    exact word_ne_space unicode (List.all_eq_true.mp word character (List.mem_of_head? opening))
  have taken : (name ++ detail uses param).takeWhile unicode.word = name := by
    rw [List.takeWhile_append_of_pos (List.all_eq_true.mp word)]
    have stop := head?_detail unicode uses param
    cases shape : detail uses param with
    | nil => simp
    | cons character rest => simp [stop character (by simp [shape])]
  have head := setupHead_line unicode scope (name ++ detail uses param) first
  rw [taken] at head
  have searched := setupSearch_opening unicode (scope.letter :: ' ' :: (name ++ detail uses param))
  rw [head] at searched
  refine searched.trans ?_
  rw [collects_setup]
  by_cases known : scope.known = true
  · rw [if_pos (by simp [known, filled]), if_pos known, Option.some_or]
  · have letter : scope.letter ≠ 'S' := by
      intro same
      exact known (by rw [FixtureScope.known, same]; decide)
    rw [if_neg (by simp [known]), if_neg known, Option.none_or,
      setupSearch_cons_of_ne unicode _ _ letter, setupSearch_cons_of_ne unicode ' ' _ (by decide)]

/-- A line that begins and ends with other characters loses its indentation. -/
theorem strip_text (line : PlanLine)
    (first : ∀ character ∈ line.core.head?, isSpace character = false)
    (last : ∀ character ∈ line.core.getLast?, isSpace character = false) :
    strip line.text = line.core := by
  apply strip_indented
  · intro character member
    rw [List.eq_of_mem_replicate member]
    decide
  · exact first
  · exact last

/-- The line of a test is no other kind of line. -/
theorem startsWith_test (opening nodeId rest : Text) (other : contains "::".toList opening = false)
    (separated : contains "::".toList nodeId = true) (different : startsWith opening nodeId = false) :
    startsWith opening (nodeId ++ rest) = false := by
  rw [Bool.eq_false_iff]
  intro opened
  rw [startsWith, List.isPrefixOf_iff_prefix] at opened
  rcases List.prefix_or_prefix_of_prefix opened (List.prefix_append nodeId rest) with early | late
  · rw [Bool.eq_false_iff, ne_eq, startsWith, List.isPrefixOf_iff_prefix] at different
    exact different early
  · obtain ⟨behind, rfl⟩ := late
    rw [contains_append _ _ _ separated] at other
    cases other

/-- The used fixtures of a test are no part of its node id. -/
theorem lineNodeId_uses (nodeId : Text) (uses : List Text)
    (first : ∀ character ∈ nodeId.head?, isSpace character = false) (filled : nodeId ≠ []) :
    lineNodeId (nodeId ++ usesText uses) = lineNodeId nodeId := by
  unfold lineNodeId usesText
  split
  · rw [List.append_nil]
  · by_cases opened : '(' ∈ nodeId
    · obtain ⟨left, right, rfl, fresh⟩ := List.eq_append_cons_of_mem opened
      have passed : ∀ character ∈ left, (character != '(') = true := by
        intro character member
        exact bne_iff_ne.mpr fun same => fresh (same ▸ member)
      rw [List.append_assoc, List.takeWhile_append_of_pos passed,
        List.takeWhile_append_of_pos passed]
      rfl
    · have passed : ∀ character ∈ nodeId, (character != '(') = true := by
        intro character member
        exact bne_iff_ne.mpr fun same => opened (same ▸ member)
      have whole : nodeId.takeWhile (· != '(') = nodeId := List.takeWhile_eq_self_iff.mpr passed
      obtain ⟨character, rest, rfl⟩ := List.exists_cons_of_ne_nil filled
      have visible := first character (by simp)
      rw [whole, List.append_assoc, List.takeWhile_append_of_pos passed]
      have blank : (" (fixtures used: ".toList ++
          (List.intercalate ", ".toList uses ++ [')'])).takeWhile (· != '(') = [' '] := rfl
      rw [blank]
      simp [strip, lstrip, visible, show isSpace ' ' = true by decide]

end PlanLine

/-- What one line does to the scan. -/
def PlanScan.read (unicode : Unicode) (discovered : List String) (state : PlanScan)
    (line : PlanLine) : PlanScan :=
  match line.readAs with
  | some nodeId => state.assign discovered (String.ofList nodeId)
  | none =>
    { state with
      currentFixtures := state.currentFixtures ++ ((line.collects unicode).map String.ofList).toList }

namespace PlanScan

variable (unicode : Unicode) (discovered : List String) (state : PlanScan)

/-- The characters of the word for a setup. -/
theorem setupWord_eq : "SETUP".toList = ['S', 'E', 'T', 'U', 'P'] := rfl

/-- The characters of the word for a warning. -/
theorem warningWord_eq : "WARNING:".toList = ['W', 'A', 'R', 'N', 'I', 'N', 'G', ':'] := rfl

/-- The line of a setup is read as the setup. -/
theorem step_setup (scope : FixtureScope) (name : Text) (uses : List Text) (param : Option Text)
    (filled : name ≠ []) (word : name.all unicode.word = true) :
    step unicode discovered state (PlanLine.setup scope name uses param).text =
      state.read unicode discovered (.setup scope name uses param) := by
  have stripped : strip (PlanLine.setup scope name uses param).text =
      (PlanLine.setup scope name uses param).core := by
    apply PlanLine.strip_text (.setup scope name uses param)
    · rw [PlanLine.core, PlanLine.setupOpening_eq]
      intro character first
      obtain rfl : 'S' = character := Option.some.inj first
      decide
    · have last := PlanLine.getLast?_named unicode name uses param
        (PlanLine.setupOpening ++ [scope.letter, ' ']) word filled
      rw [List.append_assoc] at last
      exact last
  have opened : startsWith "SETUP".toList (PlanLine.setup scope name uses param).core = true := by
    rw [PlanLine.core, PlanLine.setupOpening_eq, setupWord_eq]
    exact startsWith_append ['S', 'E', 'T', 'U', 'P'] _
  have found := PlanLine.setupSearch_core unicode scope name uses param word filled
  rw [step, stripped]
  simp only [opened, ↓reduceIte, found, PlanScan.read, PlanLine.readAs]
  cases (PlanLine.setup scope name uses param).collects unicode with
  | none => simp
  | some found => simp

/-- The line of a teardown is read as the teardown. -/
theorem step_teardown (scope : FixtureScope) (name : Text) (param : Option Text)
    (filled : name ≠ []) (word : name.all unicode.word = true) :
    step unicode discovered state (PlanLine.teardown scope name param).text =
      state.read unicode discovered (.teardown scope name param) := by
  have stripped : strip (PlanLine.teardown scope name param).text =
      (PlanLine.teardown scope name param).core := by
    apply PlanLine.strip_text (.teardown scope name param)
    · rw [PlanLine.core, PlanLine.teardownOpening_eq]
      intro character first
      obtain rfl : 'T' = character := Option.some.inj first
      decide
    · have last := PlanLine.getLast?_named unicode name [] param
        (PlanLine.teardownOpening ++ [scope.letter, ' ']) word filled
      rw [List.append_assoc] at last
      exact last
  obtain ⟨rest, shape⟩ : ∃ rest, (PlanLine.teardown scope name param).core = 'T' :: rest := by
    rw [PlanLine.core, PlanLine.teardownOpening_eq]
    exact ⟨_, rfl⟩
  have notSetup : startsWith "SETUP".toList (PlanLine.teardown scope name param).core = false := by
    rw [shape, setupWord_eq]
    exact startsWith_cons_of_ne 'S' 'T' _ _ (by decide)
  have notWarning : startsWith "WARNING:".toList (PlanLine.teardown scope name param).core =
      false := by
    rw [shape, warningWord_eq]
    exact startsWith_cons_of_ne 'W' 'T' _ _ (by decide)
  have visible : startsWith [' '] (PlanLine.teardown scope name param).core = false := by
    rw [shape]
    exact startsWith_singleton ' ' 'T' _
  rw [step, stripped]
  simp only [notSetup, notWarning, visible, Bool.false_eq_true, ↓reduceIte, Bool.false_and,
    Bool.not_false, Bool.and_true, PlanScan.read, PlanLine.readAs, PlanLine.collects]
  split
  · rfl
  · simp

/-- The line of a test is read as the test. -/
theorem step_test (nodeId : Text) (uses : List Text)
    (separated : contains "::".toList nodeId = true)
    (notSetup : startsWith "SETUP".toList nodeId = false)
    (notWarning : startsWith "WARNING:".toList nodeId = false)
    (first : ∀ character ∈ nodeId.head?, isSpace character = false)
    (last : ∀ character ∈ nodeId.getLast?, isSpace character = false) :
    step unicode discovered state (PlanLine.test nodeId uses).text =
      state.read unicode discovered (.test nodeId uses) := by
  have filled : nodeId ≠ [] := by
    rintro rfl
    exact absurd separated (by decide)
  have opening : ∀ character ∈ (nodeId ++ PlanLine.usesText uses).head?,
      isSpace character = false := by
    rwa [List.head?_append_of_ne_nil _ filled]
  have stripped : strip (PlanLine.test nodeId uses).text = nodeId ++ PlanLine.usesText uses := by
    apply PlanLine.strip_text (.test nodeId uses) opening
    intro character closing
    rw [PlanLine.core, PlanLine.usesText] at closing
    split at closing
    · rw [List.append_nil] at closing
      exact last character closing
    · rw [← List.append_assoc, List.getLast?_concat] at closing
      obtain rfl := Option.some.inj closing
      decide
  have otherSetup := PlanLine.startsWith_test "SETUP".toList nodeId (PlanLine.usesText uses)
    (by decide) separated notSetup
  have otherWarning := PlanLine.startsWith_test "WARNING:".toList nodeId (PlanLine.usesText uses)
    (by decide) separated notWarning
  have visible : startsWith [' '] (nodeId ++ PlanLine.usesText uses) = false := by
    obtain ⟨character, rest, rfl⟩ := List.exists_cons_of_ne_nil filled
    rw [List.cons_append, startsWith_singleton, beq_eq_false_iff_ne]
    rintro rfl
    exact absurd (first ' ' (by simp)) (by decide)
  have found := contains_append _ _ (PlanLine.usesText uses) separated
  rw [step, stripped]
  simp only [otherSetup, otherWarning, found, visible, Bool.false_eq_true, ↓reduceIte,
    Bool.not_false, Bool.and_true, PlanScan.read, PlanLine.readAs,
    PlanLine.lineNodeId_uses nodeId uses first filled]

/-- The reader sees a line as what it is. -/
theorem step_text (line : PlanLine) (printed : line.printed unicode = true) :
    step unicode discovered state line.text = state.read unicode discovered line := by
  cases line with
  | setup scope name uses param =>
    simp only [PlanLine.printed, Bool.and_eq_true, Bool.not_eq_true', List.isEmpty_eq_false_iff]
      at printed
    exact step_setup unicode discovered state scope name uses param printed.2.1 printed.2.2
  | teardown scope name param =>
    simp only [PlanLine.printed, Bool.and_eq_true, Bool.not_eq_true', List.isEmpty_eq_false_iff]
      at printed
    exact step_teardown unicode discovered state scope name param printed.2.1 printed.2.2
  | test nodeId uses =>
    simp only [PlanLine.printed, Bool.and_eq_true, Bool.not_eq_true', Option.all_eq_true] at printed
    obtain ⟨-, ⟨⟨⟨separated, notSetup⟩, notWarning⟩, first⟩, last⟩ := printed
    exact step_test unicode discovered state nodeId uses separated notSetup notWarning first last

/-- The scan of printed lines. -/
def readAll (lines : List PlanLine) : PlanScan :=
  lines.foldl (read unicode discovered) {}

/-- The last line is read behind the others. -/
theorem readAll_concat (lines : List PlanLine) (last : PlanLine) :
    readAll unicode discovered (lines ++ [last]) =
      (readAll unicode discovered lines).read unicode discovered last := by
  rw [readAll, List.foldl_concat]
  rfl

/-- The whole output is read line by line. -/
theorem scanPlan_text (plan : SetupPlan unicode) :
    scanPlan unicode discovered plan.text = readAll unicode discovered plan.lines := by
  have printed := List.all_eq_true.mp plan.printed
  have single : ∀ line ∈ plan.lines.map PlanLine.text,
      line.all (fun character => !isLineBreak character) = true := by
    intro text member
    obtain ⟨line, inside, rfl⟩ := List.mem_map.mp member
    have whole := printed line inside
    simp only [PlanLine.printed, Bool.and_eq_true] at whole
    exact whole.1
  rw [scanPlan, SetupPlan.text, splitlines_joinLines _ single, List.foldl_map, readAll]
  apply List.foldl_ext
  intro state line inside
  exact step_text unicode discovered state line (printed line inside)

/-- What is pending was collected and not forgotten since.

Proof: by induction on the lines, from the last one. -/
theorem mem_currentFixtures (lines : List PlanLine) (name : Text) :
    String.ofList name ∈ (readAll unicode discovered lines).currentFixtures ↔
      Collected unicode name lines := by
  induction lines using List.reverseRecOn with
  | nil => simp [readAll, Collected, not_since_nil]
  | append_singleton lines last inductionHypothesis =>
    rw [readAll_concat, Collected, since_concat]
    unfold read
    cases reads : last.readAs with
    | some nodeId =>
      have silent : last.collects unicode = none := by
        cases last with
        | setup scope name uses param => cases reads
        | teardown scope name param => rfl
        | test nodeId uses => rfl
      have forgotten (state : PlanScan) (nodeId : String) :
          (state.assign discovered nodeId).currentFixtures = [] := by
        unfold assign
        split <;> rfl
      simp [forgotten, silent]
    | none =>
      simp only [List.mem_append, inductionHypothesis, Option.mem_toList,
        Option.map_eq_some_iff, Option.isSome_none, Bool.false_eq_true, not_false_eq_true, true_and, Collected]
      rw [or_comm]
      apply or_congr_left
      constructor
      · rintro ⟨found, collected, same⟩
        rwa [← String.ofList_injective same]
      · intro collected
        exact ⟨name, collected, rfl⟩

/-- What is recorded for a discovered test was pending at the last line that is read as the
test. -/
theorem mem_fixtureUsage (lines : List PlanLine) (test name : Text)
    (isDiscovered : String.ofList test ∈ discovered) :
    String.ofList name ∈
        ((readAll unicode discovered lines).fixtureUsage.get (String.ofList test)).getD [] ↔
      CollectedFor unicode test name lines := by
  induction lines using List.reverseRecOn with
  | nil =>
    have none : (readAll unicode discovered []).fixtureUsage.get (String.ofList test) = none := rfl
    simp [none, CollectedFor, not_since_nil]
  | append_singleton lines last inductionHypothesis =>
    rw [readAll_concat, CollectedFor, since_concat]
    unfold read
    cases reads : last.readAs with
    | none => simp [inductionHypothesis, CollectedFor]
    | some nodeId =>
      by_cases same : nodeId = test
      · subst same
        simp [assign, isDiscovered, Dict.get_set, mem_currentFixtures]
      · have other : String.ofList test ≠ String.ofList nodeId := fun equal =>
          same (String.ofList_injective equal).symm
        have kept : ((readAll unicode discovered lines).assign discovered
            (String.ofList nodeId)).fixtureUsage.get (String.ofList test) =
            (readAll unicode discovered lines).fixtureUsage.get (String.ofList test) := by
          unfold assign
          split
          · simp [Dict.get_set, other]
          · rfl
        simp only [kept, inductionHypothesis, Option.some.injEq, same, false_and, not_false_eq_true,
          true_and, false_or]
        rfl

end PlanScan

/-- Completeness of the setup plan. For every output of `pytest --setup-plan` and every discovered
test, what is recorded for the test contains every fixture that is alive at a line of the test
exactly when each of these names was collected behind the last line before the test's that is read
as a node id.

Proof: what is recorded was pending at the last line that is read as the test. -/
theorem setup_plan_complete_iff (unicode : Unicode) (discovered : List String)
    (plan : SetupPlan unicode) (returncode : Int) (test : Text)
    (finished : [0, 5].contains returncode = true) (isDiscovered : String.ofList test ∈ discovered) :
    (∀ before uses after, plan.lines = before ++ .test test uses :: after →
      ∀ scope name, Alive scope name before →
        String.ofList name ∈
          ((tryPytestSetupPlan unicode discovered (some (returncode, plan.text))).2.get
            (String.ofList test)).getD []) ↔
      ∀ before uses after, plan.lines = before ++ .test test uses :: after →
        ∀ scope name, Alive scope name before → CollectedFor unicode test name plan.lines := by
  have recorded (name : Text) : String.ofList name ∈
      ((tryPytestSetupPlan unicode discovered (some (returncode, plan.text))).2.get
        (String.ofList test)).getD [] ↔ CollectedFor unicode test name plan.lines := by
    rw [← PlanScan.mem_fixtureUsage unicode discovered plan.lines test name isDiscovered,
      ← PlanScan.scanPlan_text]
    simp only [tryPytestSetupPlan, finished, ↓reduceIte]
  simp only [recorded]

/-! ## Wide scopes -/

/-- The node id of a test. -/
def testStart : Text := "tests/test_vm.py::test_start".toList

/-- The node id of another test. -/
def testStop : Text := "tests/test_vm.py::test_stop".toList

/-- One test with a fixture of its own. -/
def ownPlan : SetupPlan ascii where
  lines :=
    [.setup .function "vm".toList [] none, .test testStart ["vm".toList],
      .teardown .function "vm".toList none]
  printed := by decide +kernel

/-- Two tests with a fixture of the session. -/
def sharedPlan : SetupPlan ascii where
  lines :=
    [.setup .session "cluster".toList [] none, .test testStart ["cluster".toList],
      .test testStop ["cluster".toList], .teardown .session "cluster".toList none]
  printed := by decide +kernel

/-- A function fixture is recorded for the test behind its setup. -/
theorem own_fixture_recorded :
    Alive .function "vm".toList [.setup .function "vm".toList [] none] ∧
      "vm" ∈ ((tryPytestSetupPlan ascii ["tests/test_vm.py::test_start"]
        (some (0, ownPlan.text))).2.get "tests/test_vm.py::test_start").getD [] := by
  have alive : Alive .function "vm".toList [.setup .function "vm".toList [] none] :=
    (since_concat _ _ [] _).mpr (Or.inl ⟨[], none, rfl⟩)
  refine ⟨alive, ?_⟩
  have complete := (setup_plan_complete_iff ascii ["tests/test_vm.py::test_start"] ownPlan 0
    testStart (by decide) (by decide +kernel)).mpr ?_
  · exact complete [.setup .function "vm".toList [] none] ["vm".toList]
      [.teardown .function "vm".toList none] rfl .function "vm".toList alive
  · intro before uses after shape scope name lives
    -- the only line of the test is the second one
    obtain rfl : before = [.setup .function "vm".toList [] none] := by
      rcases before with _ | ⟨first, _ | ⟨second, _ | ⟨third, before⟩⟩⟩ <;> simp_all [ownPlan]
    obtain named | ⟨-, never⟩ := (since_concat _ _ [] _).mp lives
    · obtain ⟨_, _, same⟩ := named
      cases same
      refine ⟨[_], _, _, rfl, ⟨by decide +kernel, ?_⟩, by decide +kernel⟩
      exact (since_concat _ _ [] _).mpr (Or.inl (by decide +kernel))
    · exact absurd never (not_since_nil _ _)

/-- A session fixture is recorded for the first test only. -/
theorem session_fixture_not_recorded :
    Alive .session "cluster".toList
        [.setup .session "cluster".toList [] none, .test testStart ["cluster".toList]] ∧
      (tryPytestSetupPlan ascii ["tests/test_vm.py::test_start", "tests/test_vm.py::test_stop"]
          (some (0, sharedPlan.text))).2.items =
        [("tests/test_vm.py::test_start", ["cluster"]), ("tests/test_vm.py::test_stop", [])] := by
  refine ⟨?_, by decide +kernel⟩
  apply (since_concat _ _ [_] _).mpr
  refine Or.inr ⟨by simp, ?_⟩
  exact (since_concat _ _ [] _).mpr (Or.inl ⟨[], none, rfl⟩)

end VirtTestTools.Analyzer
