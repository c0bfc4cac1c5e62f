import VirtTestTools.Dict
import VirtTestTools.Joins
import VirtTestTools.Syntax

/-!
# The quarantine scan of the dashboard

The scanner reads the tree of a test file for its functions and classes, but the
text above them for their decorators: it collects lines upwards as long as they
look like decorators, and searches them for three marks. The results say for which
functions this agrees with the decorators of the tree, in terms of the layout of the
text alone: the block of lines above a definition, the marks that stand in it, and the
class whose name decides.
-/

namespace VirtTestTools.Suite

open Text
open AST (decorators)

/-- A test file below the directory of the tests: its parts, its text, the statements
of its module, the source segment of a node, and the text that an expression has
as the reason of a marker. -/
structure TestFile where
  parts : List Text
  content : Text
  tree : List AST
  segment : AST → Text
  reasonText : AST → Text

/-- The configuration of a scanner and what it takes from `re`: the class `\d`, and
the reason that its patterns find in a decorator section. -/
structure TestScanner where
  excludedFolders : List Text
  folderMappings : Dict Text Text
  digit : Char → Bool
  reasonOf : Text → Text

/-- What the scanner says of a test function. -/
structure TestInfo where
  name : String
  lineNumber : Nat
  category : Text
  isQuarantined : Bool
  quarantineReason : Text
  jiraTicket : Text
deriving DecidableEq

/-- The result of `_check_quarantine`. -/
structure QuarantineCheck where
  isQuarantined : Bool
  reason : Text
  jira : Text
deriving DecidableEq

/-- What the scan makes of a line: it stops there, keeps the line, or skips it. -/
inductive LineKind
  | stop
  | keep
  | skip
deriving DecidableEq

/-- The kind of a line, by the tests of `_check_quarantine` in their order. -/
def lineKind (raw : Text) : LineKind :=
  let line := strip raw
  if line = [] then .stop
  else if startsWithAny ["@".toList, "def ".toList, "class ".toList] line then .keep
  else if startsWithAny [")".toList, "(".toList] line || endsWith ",".toList line ||
      endsWith "(".toList line then .keep
  else if contains "pytest.param".toList line || contains "marks=".toList line ||
      contains "indirect=".toList line then .keep
  else if startsWithAny ["\"".toList, "'".toList, "f\"".toList, "f'".toList] line then .keep
  else if contains "\x7b".toList line || contains "\x7d".toList line ||
      contains "[".toList line || contains "]".toList line then .keep
  else if startsWith "#".toList line then .skip
  else .stop

/-- The loop of `_check_quarantine`, over the lines upwards. -/
def collectLines (decoratorLines : List Text) : List Text → List Text
  | [] => decoratorLines
  | line :: rest =>
    match lineKind line with
    | .stop => decoratorLines
    | .keep => collectLines (line :: decoratorLines) rest
    | .skip => collectLines decoratorLines rest

/-- The lines above a line number, upwards, as far as the search goes: one less
than `MAX_DECORATOR_SEARCH_LINES`. -/
def linesAbove (content : Text) (lineNumber : Nat) : List Text :=
  (((split "\n".toList content).take (lineNumber - 1)).reverse).take 49

/-- `decorator_section`. -/
def decoratorSection (content : Text) (lineNumber : Nat) : Text :=
  "\n".toList.intercalate (collectLines [] (linesAbove content lineNumber))

/-- Whether `run=False` or `run = False` occurs. -/
def containsRunFalse (text : Text) : Bool :=
  contains "run=False".toList text || contains "run = False".toList text

/-- The match of `CNV-\d+` at the beginning of a text. -/
def ticketAt (digit : Char → Bool) (text : Text) : Option Text :=
  match literal "CNV-".toList text with
  | none => none
  | some rest =>
    let digits := rest.takeWhile digit
    if digits = [] then none else some ("CNV-".toList ++ digits)

/-- The first match of `CNV-\d+`. -/
def firstTicket (digit : Char → Bool) : Text → Option Text
  | [] => none
  | character :: rest => (ticketAt digit (character :: rest)).or (firstTicket digit rest)

/-- The text from the first occurrence of a piece on: `text[text.find(piece):]`. -/
def fromFirst (piece : Text) : Text → Option Text
  | [] => none
  | character :: rest =>
    if startsWith piece (character :: rest) then some (character :: rest)
    else fromFirst piece rest

/-- The ticket that is looked for from the first xfail decorator on. -/
def sectionTicket (digit : Char → Bool) (block : Text) : Text :=
  match fromFirst "@pytest.mark.xfail".toList block with
  | none => []
  | some xfailSection =>
    if containsRunFalse xfailSection then (firstTicket digit xfailSection).getD [] else []

/-- `_check_quarantine`. -/
def checkQuarantine (scanner : TestScanner) (content : Text) (lineNumber : Nat) :
    QuarantineCheck :=
  let block := decoratorSection content lineNumber
  if !contains "QUARANTINED".toList block then ⟨false, [], []⟩
  else if !contains "@pytest.mark.xfail".toList block then ⟨false, [], []⟩
  else if !containsRunFalse block then ⟨false, [], []⟩
  else ⟨true, scanner.reasonOf block, sectionTicket scanner.digit block⟩

/-- `_get_category`; `none` for an excluded folder. -/
def getCategory (scanner : TestScanner) (parts : List Text) : Option Text :=
  match parts with
  | [] => some "uncategorized".toList
  | category :: _ =>
    if category ∈ scanner.excludedFolders then none
    else some ((scanner.folderMappings.get category).getD category)

/-- The nodes of a file, in the order of `ast.walk`. -/
def TestFile.nodes (file : TestFile) : List AST := (AST.walk file.tree).map Prod.snd

/-- The name and the line of a class. -/
def asClass : AST → Option (String × Nat)
  | .classDef info name .. => some (name, info.lineno)
  | _ => none

/-- `isinstance(node, FunctionDef) and node.name.startswith("test_")`: the name and
the line. Asynchronous functions are nodes of another class. -/
def asTest : AST → Option (String × Nat)
  | .functionDef info false name .. =>
    if startsWith "test_".toList name.toList then some (name, info.lineno) else none
  | _ => none

/-- The entry of a class in `quarantined_classes`, if it gets one. -/
def quarantinedEntry (scanner : TestScanner) (file : TestFile) (node : AST) :
    Option (String × Text × Text) :=
  (asClass node).bind (fun (name, lineNumber) =>
    let check := checkQuarantine scanner file.content lineNumber
    if check.isQuarantined then some (name, check.reason, check.jira) else none)

/-- `quarantined_classes`: of classes with one name the last stays. -/
def quarantinedClasses (scanner : TestScanner) (file : TestFile) : Dict String (Text × Text) :=
  Dict.update ∅ (file.nodes.filterMap (quarantinedEntry scanner file))

/-- `_get_parent_class`: the first class of the walk that contains the function. -/
def getParentClass (file : TestFile) (function : AST) : Option String :=
  (file.nodes.find? (fun node =>
    (asClass node).isSome && node.preorder.any (fun child => child.id == function.id))).bind
      (fun node => (asClass node).map Prod.fst)

/-- The second pass for one function. -/
def testVerdict (scanner : TestScanner) (file : TestFile) (function : AST) (lineNumber : Nat) :
    QuarantineCheck :=
  let check := checkQuarantine scanner file.content lineNumber
  if check.isQuarantined then check
  else
    match (getParentClass file function).bind (quarantinedClasses scanner file).get with
    | some (reason, jira) => ⟨true, reason, jira⟩
    | none => check

/-- What the scan says of a node, if it is a test function of a file that is not
excluded. -/
def testInfo (scanner : TestScanner) (file : TestFile) (node : AST) : Option TestInfo :=
  (getCategory scanner file.parts).bind (fun category =>
    (asTest node).map (fun (name, lineNumber) =>
      let verdict := testVerdict scanner file node lineNumber
      ⟨name, lineNumber, category, verdict.isQuarantined, verdict.reason, verdict.jira⟩))

/-- `_scan_file` of a file that parses. -/
def scanFile (scanner : TestScanner) (file : TestFile) : List TestInfo :=
  file.nodes.filterMap (testInfo scanner file)

/-- The keywords of a call `pytest.mark.xfail(…)`. -/
def xfailKeywords : AST → Option (List AST)
  | .call _ (.attribute _ (.attribute _ (.name _ "pytest" _) "mark") "xfail") _ keywords =>
    some keywords
  | _ => none

/-- The rule of the collection: an xfail whose reason contains the text of
`QUARANTINED`, with `run=False`. -/
def quarantines (file : TestFile) (decorator : AST) : Bool :=
  match xfailKeywords decorator with
  | none => false
  | some keywords =>
    keywords.any (fun keyword =>
      match keyword with
      | .keyword _ (some "reason") value => contains "quarantined".toList (file.reasonText value)
      | _ => false) &&
    keywords.any (fun keyword =>
      match keyword with
      | .keyword _ (some "run") (.constant _ (.bool false)) => true
      | _ => false)

/-- A class of the file with the function inside. -/
def Encloses (file : TestFile) (function cls : AST) : Prop :=
  cls ∈ file.nodes ∧ (asClass cls).isSome = true ∧
    cls.preorder.any (fun child => child.id == function.id) = true

/-- A decorator of the function, or of a class around it, by which the function is
quarantined. -/
def QuarantinedBy (file : TestFile) (function decorator : AST) : Prop :=
  quarantines file decorator = true ∧
    (decorator ∈ decorators function ∨ ∃ cls, Encloses file function cls ∧ decorator ∈ decorators cls)

/-- The first ticket in the text of a decorator, or no text. -/
def decoratorTicket (scanner : TestScanner) (file : TestFile) (decorator : AST) : Text :=
  (firstTicket scanner.digit (file.segment decorator)).getD []

/-- The scan marks a function exactly if a decorator quarantines it, and reports the
ticket of such a decorator. -/
def ScanAgrees (scanner : TestScanner) (file : TestFile) (function : AST) : Prop :=
  ((∃ info, testInfo scanner file function = some info ∧ info.isQuarantined = true) ↔
      ∃ decorator, QuarantinedBy file function decorator) ∧
    ∀ info, testInfo scanner file function = some info → info.isQuarantined = true →
      ∃ decorator, QuarantinedBy file function decorator ∧
        info.jiraTicket = decoratorTicket scanner file decorator

/-! ## The layout of the text above a definition -/

/-- A line has one of the shapes that lines of decorators have: it begins with an `@`, a
definition, a bracket or a string, or ends with a comma or an opening bracket, or has
the words of a parametrization or a brace in it. A comment of such a shape counts. -/
def isDecoratorLine (raw : Text) : Bool :=
  ["@", "def ", "class ", ")", "(", "\"", "'", "f\"", "f'"].any
      (fun piece => startsWith piece.toList (strip raw)) ||
    [",", "("].any (fun piece => endsWith piece.toList (strip raw)) ||
    ["pytest.param", "marks=", "indirect=", "\x7b", "\x7d", "[", "]"].any
      (fun piece => contains piece.toList (strip raw))

/-- The line is a comment. -/
def isCommentLine (raw : Text) : Bool := startsWith "#".toList (strip raw)

/-- The block of a line number: the longest run of lines directly above it that are
lines of decorators or comments, at most 49 of them. -/
structure IsBlock (content : Text) (lineNumber : Nat) (block : List Text) : Prop where
  bounded : block.length ≤ 49
  decorative : ∀ line ∈ block, (isDecoratorLine line || isCommentLine line) = true
  longest : ∃ before, before ++ block = (split "\n".toList content).take (lineNumber - 1) ∧
    (block.length = 49 ∨ ∀ line, before.getLast? = some line →
      (isDecoratorLine line || isCommentLine line) = false)

/-- The part of a text from the first occurrence of a piece on: its longest suffix that
begins with the piece. -/
structure IsFromFirst (piece text part : Text) : Prop where
  suffix : part <:+ text
  begins : startsWith piece part = true
  longest : ∀ other, other <:+ text → startsWith piece other = true →
    other.length ≤ part.length

/-- The ticket that a block shows: the first id in its lines of decorators from the first
xfail on, and none where `run=False` stands before the xfail only. -/
def ShowsTicket (scanner : TestScanner) (block : List Text) (ticket : Text) : Prop :=
  ∃ part, IsFromFirst "@pytest.mark.xfail".toList
      ("\n".toList.intercalate (block.filter isDecoratorLine)) part ∧
    ((containsRunFalse part = true ∧ ticket = (firstTicket scanner.digit part).getD []) ∨
      (containsRunFalse part = false ∧ ticket = []))

/-- The text above a line shows a quarantine with a ticket: the three marks stand in
lines of decorators of the block above it. -/
def Displays (scanner : TestScanner) (content : Text) (lineNumber : Nat) (ticket : Text) :
    Prop :=
  ∃ block, IsBlock content lineNumber block ∧
    (∃ line ∈ block, isDecoratorLine line = true ∧ contains "QUARANTINED".toList line = true) ∧
    (∃ line ∈ block, isDecoratorLine line = true ∧
      contains "@pytest.mark.xfail".toList line = true) ∧
    (∃ line ∈ block, isDecoratorLine line = true ∧ containsRunFalse line = true) ∧
    ShowsTicket scanner block ticket

/-- The outermost class around a function is the first one of the walk that has it
inside. -/
def OutermostAround (file : TestFile) (function : AST) (name : String) : Prop :=
  ∃ before cls behind lineNumber, file.nodes = before ++ cls :: behind ∧
    asClass cls = some (name, lineNumber) ∧ Encloses file function cls ∧
    ∀ other ∈ before, ¬ Encloses file function other

/-- The last class of a name that has a quarantine shown above it. -/
def LastDisplayed (scanner : TestScanner) (file : TestFile) (name : String) (ticket : Text) :
    Prop :=
  ∃ before cls behind lineNumber, file.nodes = before ++ cls :: behind ∧
    asClass cls = some (name, lineNumber) ∧ Displays scanner file.content lineNumber ticket ∧
    ∀ other ∈ behind, ∀ otherLine otherTicket, asClass other = some (name, otherLine) →
      ¬ Displays scanner file.content otherLine otherTicket

/-- The text shows a test as quarantined, with a ticket: above its own definition, or
else above the last class that has the name of the outermost one around the test. -/
inductive IsDisplayed (scanner : TestScanner) (file : TestFile) (function : AST)
    (lineNumber : Nat) (ticket : Text) : Prop
  | own : Displays scanner file.content lineNumber ticket →
      IsDisplayed scanner file function lineNumber ticket
  | outer (name : String) :
      (∀ ownTicket, ¬ Displays scanner file.content lineNumber ownTicket) →
      OutermostAround file function name → LastDisplayed scanner file name ticket →
      IsDisplayed scanner file function lineNumber ticket

/-- A test with its line that the scan looks at: no asynchronous one, and none of an
excluded folder. -/
structure IsScanned (scanner : TestScanner) (file : TestFile) (function : AST)
    (lineNumber : Nat) : Prop where
  included : ∀ folder, file.parts.head? = some folder → folder ∉ scanner.excludedFolders
  isTest : ∃ name, asTest function = some (name, lineNumber)

/-- What the text shows is a decorator that quarantines the function, with its ticket,
and the text shows something where there is such a decorator. -/
structure LayoutAgrees (scanner : TestScanner) (file : TestFile) (function : AST) : Prop where
  sound : ∀ lineNumber ticket, IsScanned scanner file function lineNumber →
    IsDisplayed scanner file function lineNumber ticket →
    ∃ decorator, QuarantinedBy file function decorator ∧
      ticket = decoratorTicket scanner file decorator
  complete : ∀ decorator, QuarantinedBy file function decorator →
    ∃ lineNumber ticket, IsScanned scanner file function lineNumber ∧
      IsDisplayed scanner file function lineNumber ticket

/-! ## The search is the layout -/

/-- A line is kept as a decorator, skipped as a comment, or it stops the search. -/
theorem lineKind_eq (raw : Text) :
    lineKind raw =
      if isDecoratorLine raw then .keep else if isCommentLine raw then .skip else .stop := by
  rw [lineKind, isDecoratorLine, isCommentLine]
  generalize strip raw = line
  by_cases blank : line = []
  · subst blank
    rfl
  · simp only [if_neg blank, startsWithAny, List.any_cons, List.any_nil, Bool.or_false]
    -- the shapes are asked for in another order
    generalize startsWith "#".toList line = comment
    split_ifs <;> simp_all

/-- The lines that are collected, in the order of the file. -/
theorem collectLines_eq (decoratorLines lines : List Text) :
    collectLines decoratorLines lines =
      (lines.takeWhile (fun line => isDecoratorLine line || isCommentLine line)).reverse.filter
        isDecoratorLine ++ decoratorLines := by
  induction lines generalizing decoratorLines with
  | nil => rfl
  | cons line rest inductionHypothesis =>
    rw [collectLines, lineKind_eq]
    cases decorator : isDecoratorLine line with
    | true => simp [decorator, inductionHypothesis]
    | false =>
      cases comment : isCommentLine line with
      | true => simp [decorator, comment, inductionHypothesis]
      | false => simp [decorator, comment]

/-- The bounded run of elements at the end of a list that satisfy a test. -/
theorem bounded_run_iff {α : Type} (holds : α → Bool) (bound : Nat) (items block : List α) :
    block = ((items.reverse.take bound).takeWhile holds).reverse ↔
      block.length ≤ bound ∧ (∀ item ∈ block, holds item = true) ∧
        ∃ before, before ++ block = items ∧
          (block.length = bound ∨
            ∀ item, before.getLast? = some item → holds item = false) := by
  constructor
  · rintro rfl
    have split : (items.reverse.take bound).takeWhile holds ++
        (items.reverse.take bound).dropWhile holds ++ items.reverse.drop bound = items.reverse := by
      rw [List.takeWhile_append_dropWhile, List.take_append_drop]
    have short := Nat.le_trans
      (List.takeWhile_prefix holds (l := items.reverse.take bound)).length_le
      (List.length_take_le bound items.reverse)
    refine ⟨by rwa [List.length_reverse],
      fun item member =>
        List.all_eq_true.mp List.all_takeWhile item (List.mem_reverse.mp member),
      ((items.reverse.take bound).dropWhile holds ++ items.reverse.drop bound).reverse, ?_, ?_⟩
    · rw [← List.reverse_append, ← List.append_assoc, split, List.reverse_reverse]
    · rw [List.length_reverse, List.getLast?_reverse]
      cases rest : (items.reverse.take bound).dropWhile holds with
      | cons next behind =>
        right
        rintro item ⟨⟩
        have stops := List.head?_dropWhile_not holds (items.reverse.take bound)
        rw [rest] at stops
        exact stops
      | nil =>
        -- the run goes on to the bound, unless the list ends
        have whole : (items.reverse.take bound).takeWhile holds = items.reverse.take bound := by
          rw [← List.append_nil (List.takeWhile _ _), ← rest, List.takeWhile_append_dropWhile]
        rw [whole, List.length_take, List.length_reverse]
        rcases Nat.le_total bound items.length with long | ends
        · exact Or.inl (Nat.min_eq_left long)
        · right
          rw [List.nil_append, List.drop_eq_nil_of_le (by rwa [List.length_reverse])]
          rintro item ⟨⟩
  · rintro ⟨short, all, before, rfl, stops⟩
    rw [List.reverse_append, List.take_append, List.take_of_length_le (by rwa [List.length_reverse]),
      List.takeWhile_append_of_pos (fun item member => all item (List.mem_reverse.mp member)),
      List.length_reverse, List.reverse_append, List.reverse_reverse]
    have ended : (before.reverse.take (bound - block.length)).takeWhile holds = [] := by
      rcases stops with full | stops
      · rw [full, Nat.sub_self]
        rfl
      · rw [List.getLast?_eq_head?_reverse] at stops
        cases upwards : before.reverse with
        | nil => rw [List.take_nil]; rfl
        | cons next behind =>
          cases bound - block.length with
          | zero => rfl
          | succ more =>
            rw [List.take_succ_cons, List.takeWhile_cons, stops next (by rw [upwards]; rfl)]
            rfl
    rw [ended]
    rfl

/-- The block above a line is the run of lines that the search goes through. -/
theorem isBlock_iff (content : Text) (lineNumber : Nat) (block : List Text) :
    IsBlock content lineNumber block ↔
      block = ((linesAbove content lineNumber).takeWhile
        (fun line => isDecoratorLine line || isCommentLine line)).reverse := by
  rw [linesAbove, bounded_run_iff]
  exact ⟨fun isBlock => ⟨isBlock.bounded, isBlock.decorative, isBlock.longest⟩,
    fun ⟨bounded, decorative, longest⟩ => ⟨bounded, decorative, longest⟩⟩

/-- The section is made of the lines of decorators of the block. -/
theorem decoratorSection_eq (content : Text) (lineNumber : Nat) (block : List Text)
    (isBlock : IsBlock content lineNumber block) :
    decoratorSection content lineNumber =
      "\n".toList.intercalate (block.filter isDecoratorLine) := by
  rw [decoratorSection, collectLines_eq, List.append_nil,
    ← (isBlock_iff content lineNumber block).mp isBlock]

/-- What is found begins with the first place of the piece. -/
theorem fromFirst_sound (piece text part : Text) (found : fromFirst piece text = some part) :
    IsFromFirst piece text part := by
  induction text with
  | nil => cases found
  | cons character rest inductionHypothesis =>
    rw [fromFirst] at found
    split at found
    · rename_i here
      cases found
      exact ⟨List.suffix_rfl, here, fun other isSuffix _ => isSuffix.length_le⟩
    · rename_i elsewhere
      obtain ⟨suffix, begins, longest⟩ := inductionHypothesis found
      refine ⟨suffix.trans (List.suffix_cons character rest), begins, ?_⟩
      intro other isSuffix otherBegins
      rcases List.suffix_cons_iff.mp isSuffix with rfl | inRest
      · exact absurd otherBegins elsewhere
      · exact longest other inRest otherBegins

/-- A piece that occurs in a text is found. -/
theorem fromFirst_isSome (piece text : Text) (nonempty : piece ≠ []) :
    (fromFirst piece text).isSome = contains piece text := by
  induction text with
  | nil => simp [fromFirst, contains, nonempty]
  | cons character rest inductionHypothesis =>
    rw [fromFirst, contains, ← inductionHypothesis, ← startsWith]
    cases startsWith piece (character :: rest) <;> rfl

/-- There is one part of a text from the first occurrence on. -/
theorem IsFromFirst.unique {piece text part other : Text} (isPart : IsFromFirst piece text part)
    (isOther : IsFromFirst piece text other) : part = other := by
  have sameLength : part.length = other.length :=
    Nat.le_antisymm (isOther.longest part isPart.suffix isPart.begins)
      (isPart.longest other isOther.suffix isOther.begins)
  exact (List.suffix_of_suffix_length_le isPart.suffix isOther.suffix
    (Nat.le_of_eq sameLength)).eq_of_length sameLength

/-- The ticket of a section, by the part from the first xfail on. -/
theorem sectionTicket_eq (digit : Char → Bool) (block part : Text)
    (isPart : IsFromFirst "@pytest.mark.xfail".toList block part) :
    sectionTicket digit block =
      if containsRunFalse part then (firstTicket digit part).getD [] else [] := by
  have occurs : contains "@pytest.mark.xfail".toList block = true := by
    obtain ⟨before, rfl⟩ := isPart.suffix
    obtain ⟨after, rfl⟩ := List.isPrefixOf_iff_prefix.mp isPart.begins
    exact (contains_iff _ _).mpr ⟨before, after, by rw [List.append_assoc]⟩
  rw [← fromFirst_isSome _ _ (by decide), Option.isSome_iff_exists] at occurs
  obtain ⟨found, isFound⟩ := occurs
  rw [sectionTicket, isFound, (fromFirst_sound _ _ _ isFound).unique isPart]

/-- A mark without line break stands in the section if it stands in a line of
decorators of the block. -/
theorem contains_section (piece content : Text) (lineNumber : Nat) (block : List Text)
    (isBlock : IsBlock content lineNumber block) (nonempty : piece ≠ [])
    (oneLine : '\n' ∉ piece) :
    contains piece (decoratorSection content lineNumber) = true ↔
      ∃ line ∈ block, isDecoratorLine line = true ∧ contains piece line = true := by
  rw [decoratorSection_eq content lineNumber block isBlock]
  change contains piece (['\n'].intercalate _) = true ↔ _
  rw [contains_intercalate piece '\n' _ nonempty oneLine, List.any_eq_true]
  simp only [List.mem_filter, and_assoc]

/-- The section has the argument when some decorator line of the block has it. -/
theorem containsRunFalse_section (content : Text) (lineNumber : Nat) (block : List Text)
    (isBlock : IsBlock content lineNumber block) :
    containsRunFalse (decoratorSection content lineNumber) = true ↔
      ∃ line ∈ block, isDecoratorLine line = true ∧ containsRunFalse line = true := by
  rw [containsRunFalse, Bool.or_eq_true,
    contains_section _ content lineNumber block isBlock (by decide) (by decide),
    contains_section _ content lineNumber block isBlock (by decide) (by decide)]
  simp only [containsRunFalse, Bool.or_eq_true, and_or_left, exists_or]

/-- The check finds what the text above the line shows. -/
theorem displays_iff (scanner : TestScanner) (content : Text) (lineNumber : Nat)
    (ticket : Text) :
    Displays scanner content lineNumber ticket ↔
      (checkQuarantine scanner content lineNumber).isQuarantined = true ∧
        (checkQuarantine scanner content lineNumber).jira = ticket := by
  obtain ⟨block, isBlock⟩ : ∃ block, IsBlock content lineNumber block :=
    ⟨_, (isBlock_iff content lineNumber _).mpr rfl⟩
  have only : ∀ other, IsBlock content lineNumber other → other = block := fun other isOther =>
    ((isBlock_iff content lineNumber other).mp isOther).trans
      ((isBlock_iff content lineNumber block).mp isBlock).symm
  have word := contains_section "QUARANTINED".toList content lineNumber block isBlock
    (by decide) (by decide)
  have xfail := contains_section "@pytest.mark.xfail".toList content lineNumber block isBlock
    (by decide) (by decide)
  have runFalse := containsRunFalse_section content lineNumber block isBlock
  have sectionEq := decoratorSection_eq content lineNumber block isBlock
  rw [checkQuarantine]
  constructor
  · rintro ⟨other, isOther, hasWord, hasXfail, hasRunFalse, part, isPart, shown⟩
    obtain rfl := only other isOther
    rw [word.mpr hasWord, xfail.mpr hasXfail, runFalse.mpr hasRunFalse]
    refine ⟨rfl, ?_⟩
    change sectionTicket scanner.digit (decoratorSection content lineNumber) = ticket
    rw [sectionEq, sectionTicket_eq scanner.digit _ part isPart]
    rcases shown with ⟨inPart, rfl⟩ | ⟨outside, rfl⟩
    · rw [if_pos inPart]
    · rw [outside]
      rfl
  · rintro ⟨quarantined, reported⟩
    split at quarantined
    · cases quarantined
    · rename_i hasWord
      split at quarantined
      · cases quarantined
      · rename_i hasXfail
        split at quarantined
        · cases quarantined
        · rename_i hasRunFalse
          rw [if_neg hasWord, if_neg hasXfail, if_neg hasRunFalse] at reported
          rw [Bool.not_eq_true', Bool.not_eq_false] at hasWord hasXfail hasRunFalse
          have found := hasXfail
          rw [sectionEq, ← fromFirst_isSome _ _ (by decide), Option.isSome_iff_exists] at found
          obtain ⟨part, isFound⟩ := found
          have isPart := fromFirst_sound _ _ _ isFound
          refine ⟨block, isBlock, word.mp hasWord, xfail.mp hasXfail, runFalse.mp hasRunFalse,
            part, isPart, ?_⟩
          change sectionTicket scanner.digit (decoratorSection content lineNumber) = ticket
            at reported
          rw [sectionEq, sectionTicket_eq scanner.digit _ part isPart] at reported
          cases inPart : containsRunFalse part with
          | true =>
            rw [inPart] at reported
            exact Or.inl ⟨rfl, reported.symm⟩
          | false =>
            rw [inPart] at reported
            exact Or.inr ⟨rfl, reported.symm⟩

/-- Nothing is displayed exactly when the test is not quarantined. -/
theorem displays_none_iff (scanner : TestScanner) (content : Text) (lineNumber : Nat) :
    (∀ ticket, ¬ Displays scanner content lineNumber ticket) ↔
      (checkQuarantine scanner content lineNumber).isQuarantined = false := by
  simp only [displays_iff, not_and]
  constructor
  · exact fun none => Bool.eq_false_iff.mpr fun quarantined => none _ quarantined rfl
  · intro unmarked ticket quarantined
    rw [unmarked] at quarantined
    cases quarantined

/-- The class that decides by its name is the outermost one. -/
theorem outermostAround_iff (file : TestFile) (function : AST) (name : String) :
    OutermostAround file function name ↔ getParentClass file function = some name := by
  rw [getParentClass, Option.bind_eq_some_iff]
  simp only [List.find?_eq_some_iff_append, Option.map_eq_some_iff, Bool.not_eq_true']
  constructor
  · rintro ⟨before, cls, behind, lineNumber, split, isClass, ⟨-, -, inside⟩, first⟩
    refine ⟨cls, ⟨by rw [isClass, inside]; rfl, before, behind, split, ?_⟩, (name, lineNumber),
      isClass, rfl⟩
    intro other member
    have inFile : other ∈ file.nodes := by
      rw [split]
      exact List.mem_append_left _ member
    refine Bool.eq_false_iff.mpr fun around => first other member ?_
    exact ⟨inFile, (Bool.and_eq_true_iff.mp around).1, (Bool.and_eq_true_iff.mp around).2⟩
  · rintro ⟨cls, ⟨around, before, behind, split, first⟩, ⟨own, lineNumber⟩, isClass, rfl⟩
    have inFile : cls ∈ file.nodes := by
      rw [split]
      exact List.mem_append_right _ List.mem_cons_self
    refine ⟨before, cls, behind, lineNumber, split, isClass,
      ⟨inFile, (Bool.and_eq_true_iff.mp around).1, (Bool.and_eq_true_iff.mp around).2⟩, ?_⟩
    rintro other member ⟨-, isOther, inside⟩
    have outside := first other member
    rw [isOther, inside] at outside
    cases outside

/-- A test has an entry with a ticket exactly when the ticket is displayed. -/
theorem quarantinedEntry_eq_some_iff (scanner : TestScanner) (file : TestFile) (node : AST)
    (name : String) (ticket : Text) :
    (∃ reason, quarantinedEntry scanner file node = some (name, reason, ticket)) ↔
      ∃ lineNumber, asClass node = some (name, lineNumber) ∧
        Displays scanner file.content lineNumber ticket := by
  rw [quarantinedEntry]
  cases asClass node with
  | none => simp
  | some cls =>
    obtain ⟨own, lineNumber⟩ := cls
    simp only [displays_iff, Option.bind_some, Option.some.injEq, Prod.mk.injEq,
      Option.ite_none_right_eq_some]
    constructor
    · rintro ⟨reason, quarantined, rfl, -, rfl⟩
      exact ⟨lineNumber, ⟨rfl, rfl⟩, quarantined, rfl⟩
    · rintro ⟨line, ⟨rfl, rfl⟩, quarantined, rfl⟩
      exact ⟨_, quarantined, rfl, rfl, rfl⟩

/-- The entry of a class name is that of the last class of the name with marks. -/
theorem lastDisplayed_iff (scanner : TestScanner) (file : TestFile) (name : String)
    (ticket : Text) :
    LastDisplayed scanner file name ticket ↔
      ∃ reason, (quarantinedClasses scanner file).get name = some (reason, ticket) := by
  have found : (quarantinedClasses scanner file).get name =
      (file.nodes.reverse.findSome? (fun node => (quarantinedEntry scanner file node).filter
        (fun item => decide (item.1 = name)))).map Prod.snd := by
    rw [← List.getLast?_filterMap, ← List.filter_filterMap]
    exact (Dict.get_update_eq_getLast _ _ _).trans Option.or_none
  have noEntry : ∀ other, (quarantinedEntry scanner file other).filter
        (fun item => decide (item.1 = name)) = none ↔
      ∀ otherLine otherTicket, asClass other = some (name, otherLine) →
        ¬ Displays scanner file.content otherLine otherTicket := by
    intro other
    rw [Option.filter_eq_none_iff]
    constructor
    · intro none otherLine otherTicket isClass displayed
      obtain ⟨reason, entry⟩ := (quarantinedEntry_eq_some_iff scanner file other name
        otherTicket).mpr ⟨otherLine, isClass, displayed⟩
      exact none _ entry (decide_eq_true rfl)
    · rintro hidden ⟨own, reason, otherTicket⟩ entry isNamed
      obtain rfl : own = name := of_decide_eq_true isNamed
      obtain ⟨otherLine, isClass, displayed⟩ := (quarantinedEntry_eq_some_iff scanner file other
        own otherTicket).mp ⟨reason, entry⟩
      exact hidden otherLine otherTicket isClass displayed
  simp only [found, Option.map_eq_some_iff, List.findSome?_eq_some_iff, Option.filter_eq_some_iff,
    noEntry]
  constructor
  · rintro ⟨before, cls, behind, lineNumber, split, isClass, displayed, last⟩
    obtain ⟨reason, entry⟩ := (quarantinedEntry_eq_some_iff scanner file cls name ticket).mpr
      ⟨lineNumber, isClass, displayed⟩
    refine ⟨reason, (name, reason, ticket), ⟨behind.reverse, cls, before.reverse, ?_,
      ⟨entry, decide_eq_true rfl⟩, ?_⟩, rfl⟩
    · rw [split, List.reverse_append, List.reverse_cons, List.append_assoc, List.singleton_append]
    · exact fun other member => last other (List.mem_reverse.mp member)
  · rintro ⟨reason, ⟨own, -⟩, ⟨behind, cls, before, split, ⟨entry, isNamed⟩, last⟩, rfl⟩
    obtain rfl : own = name := of_decide_eq_true isNamed
    obtain ⟨lineNumber, isClass, displayed⟩ :=
      (quarantinedEntry_eq_some_iff scanner file cls own ticket).mp ⟨reason, entry⟩
    refine ⟨before.reverse, cls, behind.reverse, lineNumber, ?_, isClass, displayed, ?_⟩
    · rw [← List.reverse_reverse file.nodes, split, List.reverse_append, List.reverse_cons,
        List.append_assoc, List.singleton_append]
    · exact fun other member => last other (List.mem_reverse.mp member)

/-- The verdict on a test is what the text shows for it. -/
theorem isDisplayed_iff (scanner : TestScanner) (file : TestFile) (function : AST)
    (lineNumber : Nat) (ticket : Text) :
    IsDisplayed scanner file function lineNumber ticket ↔
      (testVerdict scanner file function lineNumber).isQuarantined = true ∧
        (testVerdict scanner file function lineNumber).jira = ticket := by
  rw [testVerdict]
  cases own : (checkQuarantine scanner file.content lineNumber).isQuarantined with
  | true =>
    rw [if_pos rfl, ← displays_iff]
    constructor
    · rintro (displayed | ⟨name, unmarked, -, -⟩)
      · exact displayed
      · rw [displays_none_iff, own] at unmarked
        cases unmarked
    · exact IsDisplayed.own
  | false =>
    have unmarked := (displays_none_iff scanner file.content lineNumber).mpr own
    rw [if_neg Bool.false_ne_true]
    constructor
    · rintro (displayed | ⟨name, -, outermost, last⟩)
      · exact absurd displayed (unmarked ticket)
      · obtain ⟨reason, entry⟩ := (lastDisplayed_iff scanner file name ticket).mp last
        rw [(outermostAround_iff file function name).mp outermost, Option.bind_some, entry]
        exact ⟨rfl, rfl⟩
    · cases parent : getParentClass file function with
      | none =>
        rw [Option.bind_none, own]
        rintro ⟨⟨⟩, -⟩
      | some name =>
        rw [Option.bind_some]
        cases entry : (quarantinedClasses scanner file).get name with
        | none =>
          rw [own]
          rintro ⟨⟨⟩, -⟩
        | some found =>
          rintro ⟨-, rfl⟩
          exact IsDisplayed.outer name unmarked
            ((outermostAround_iff file function name).mpr parent)
            ((lastDisplayed_iff scanner file name found.2).mpr ⟨found.1, entry⟩)

/-- A file of an excluded folder has no category. -/
theorem getCategory_isSome_iff (scanner : TestScanner) (parts : List Text) :
    (getCategory scanner parts).isSome = true ↔
      ∀ folder, parts.head? = some folder → folder ∉ scanner.excludedFolders := by
  cases parts with
  | nil => simp [getCategory]
  | cons folder rest =>
    rw [getCategory]
    by_cases excluded : folder ∈ scanner.excludedFolders <;> simp [excluded]

/-- The scan lists a function as quarantined, with a ticket, if it is scanned and the text
shows that. -/
theorem listed_iff (scanner : TestScanner) (file : TestFile) (function : AST) (ticket : Text) :
    (∃ info, testInfo scanner file function = some info ∧ info.isQuarantined = true ∧
        info.jiraTicket = ticket) ↔
      ∃ lineNumber, IsScanned scanner file function lineNumber ∧
        IsDisplayed scanner file function lineNumber ticket := by
  simp only [testInfo, isDisplayed_iff, Option.bind_eq_some_iff, Option.map_eq_some_iff]
  constructor
  · rintro ⟨-, ⟨category, isCategory, ⟨name, lineNumber⟩, isTest, rfl⟩, quarantined, reported⟩
    refine ⟨lineNumber, ⟨?_, name, isTest⟩, quarantined, reported⟩
    exact (getCategory_isSome_iff scanner file.parts).mp
      (Option.isSome_iff_exists.mpr ⟨category, isCategory⟩)
  · rintro ⟨lineNumber, ⟨included, name, isTest⟩, quarantined, reported⟩
    obtain ⟨category, isCategory⟩ := Option.isSome_iff_exists.mp
      ((getCategory_isSome_iff scanner file.parts).mpr included)
    exact ⟨_, ⟨category, isCategory, (name, lineNumber), isTest, rfl⟩, quarantined, reported⟩

/-- The scan agrees with the decorators of a function exactly if the text laid out above
it, or above the class that decides, does. -/
theorem scan_agrees_iff (scanner : TestScanner) (file : TestFile) (function : AST) :
    ScanAgrees scanner file function ↔ LayoutAgrees scanner file function := by
  constructor
  · rintro ⟨marked, tickets⟩
    constructor
    case sound =>
      intro lineNumber ticket scanned displayed
      obtain ⟨info, found, quarantined, rfl⟩ :=
        (listed_iff scanner file function ticket).mpr ⟨lineNumber, scanned, displayed⟩
      exact tickets info found quarantined
    case complete =>
      intro decorator applies
      obtain ⟨info, found, quarantined⟩ := marked.mpr ⟨decorator, applies⟩
      obtain ⟨lineNumber, scanned, displayed⟩ :=
        (listed_iff scanner file function info.jiraTicket).mp ⟨info, found, quarantined, rfl⟩
      exact ⟨lineNumber, info.jiraTicket, scanned, displayed⟩
  · rintro ⟨sound, complete⟩
    have tickets : ∀ info, testInfo scanner file function = some info →
        info.isQuarantined = true → ∃ decorator, QuarantinedBy file function decorator ∧
          info.jiraTicket = decoratorTicket scanner file decorator := by
      intro info found quarantined
      obtain ⟨lineNumber, scanned, displayed⟩ :=
        (listed_iff scanner file function info.jiraTicket).mp ⟨info, found, quarantined, rfl⟩
      exact sound lineNumber info.jiraTicket scanned displayed
    refine ⟨⟨?_, ?_⟩, tickets⟩
    · rintro ⟨info, found, quarantined⟩
      obtain ⟨decorator, applies, -⟩ := tickets info found quarantined
      exact ⟨decorator, applies⟩
    · rintro ⟨decorator, applies⟩
      obtain ⟨lineNumber, ticket, scanned, displayed⟩ := complete decorator applies
      obtain ⟨info, found, quarantined, -⟩ :=
        (listed_iff scanner file function ticket).mpr ⟨lineNumber, scanned, displayed⟩
      exact ⟨info, found, quarantined⟩

/-- `@pytest.mark.xfail(reason=…, run=False)` in a tree. -/
def xfailDecorator : AST :=
  .call ⟨1, 1, 1⟩
    (.attribute ⟨2, 1, 1⟩ (.attribute ⟨3, 1, 1⟩ (.name ⟨4, 1, 1⟩ "pytest" .load) "mark") "xfail") []
    [.keyword ⟨5, 1, 1⟩ (some "reason") (.name ⟨6, 1, 1⟩ "REASON" .load),
     .keyword ⟨7, 1, 1⟩ (some "run") (.constant ⟨8, 1, 1⟩ (.bool false))]

/-- A decorator with a test id. -/
def polarionDecorator : AST :=
  .call ⟨9, 2, 2⟩
    (.attribute ⟨10, 2, 2⟩ (.attribute ⟨11, 2, 2⟩ (.name ⟨12, 2, 2⟩ "pytest" .load) "mark")
      "polarion")
    [.constant ⟨13, 2, 2⟩ (.str "CNV-7")] []

/-- A test with both decorators. -/
def flakyTest : AST :=
  .functionDef ⟨0, 3, 4⟩ false "test_a"
    (.arguments ⟨14, 3, 3⟩ [] [] none [] [] none []) [.other ⟨15, 4, 4⟩ .pass []]
    [xfailDecorator, polarionDecorator] none

/-- A quarantined test without a ticket in its reason, with a test case id below. -/
def flakyFile : TestFile where
  parts := ["network".toList, "test_flaky.py".toList]
  content := unlines
    ["@pytest.mark.xfail(reason=f\"\x7bQUARANTINED\x7d: flaky\", run=False)",
      "@pytest.mark.polarion(\"CNV-7\")", "def test_a():", "    pass"]
  tree := [flakyTest]
  segment decorator :=
    if decorator.id = 1 then
      "pytest.mark.xfail(reason=f\"\x7bQUARANTINED\x7d: flaky\", run=False)".toList
    else "pytest.mark.polarion(\"CNV-7\")".toList
  reasonText _ := "quarantined: flaky".toList

/-- A scanner without exclusions. -/
def plainScanner : TestScanner where
  excludedFolders := []
  folderMappings := ∅
  digit := Char.isDigit
  reasonOf _ := "flaky".toList

/-- The id of the test case is reported as the ticket of the quarantine. -/
theorem polarion_id_reported :
    (testInfo plainScanner flakyFile flakyTest).map TestInfo.jiraTicket = some "CNV-7".toList ∧
      ¬ ScanAgrees plainScanner flakyFile flakyTest := by
  have found : testInfo plainScanner flakyFile flakyTest =
      some ⟨"test_a", 3, "network".toList, true, "flaky".toList, "CNV-7".toList⟩ := by
    decide +kernel
  refine ⟨by rw [found]; rfl, ?_⟩
  rintro ⟨-, tickets⟩
  obtain ⟨decorator, ⟨isQuarantine, applied⟩, same⟩ := tickets _ found rfl
  rcases applied with own | ⟨cls, ⟨inFile, isClass, -⟩, -⟩
  · rcases List.mem_pair.mp own with rfl | rfl
    · revert same
      decide +kernel
    · cases isQuarantine
  · have noClass : ∀ node ∈ flakyFile.nodes, (asClass node).isSome = false := by
      decide +kernel
    rw [noClass cls inFile] at isClass
    cases isClass

end VirtTestTools.Suite
