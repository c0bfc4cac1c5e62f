import VirtTestTools.Placeholders.Definitions
import VirtTestTools.Policy.StpLinks
import VirtTestTools.Substitutions

/-!
# The documentation of a test

`check_test_std.py` asks of a test a description, the sections `Steps` and `Expected`,
preconditions at the test or around it, and a link to a ticket or a test plan. A
section counts only if it has a line that is more than a link or a filler such as
`TBD`.
-/

namespace VirtTestTools.Placeholders

open Policy Text

/-- `str.lower` on ASCII. The texts are compared with words in which no other character has a
lower case. -/
def lowerAscii (text : Text) : Text := text.map Char.toLower

/-- The section names of `_SECTION_HEADER`. -/
def sectionNames : List Text :=
  ["Preconditions", "Steps", "Expected", "Markers", "Parametrize"].map String.toList

/-- The two groups of a match of `_SECTION_HEADER`: the name as it is written, and the rest of the
line. No name is the beginning of another. -/
def sectionHeader (line : Text) : Option (Text × Text) :=
  let opening := line.dropWhile isSpace
  sectionNames.findSome? fun name =>
    match literalIgnoringCase name opening with
    | some (':' :: rest) => some (opening.take name.length, rest.dropWhile isSpace)
    | _ => none

/-- What `_sections` has gathered: the lines of the description, the lines of each section, and
the section it is in. -/
structure SectionScan where
  description : List Text := []
  sections : Dict Text (List Text) := ∅
  current : Option Text := none

/-- `sections[name].append(line)`, also for a new section. -/
def appendLine (sections : Dict Text (List Text)) (name line : Text) : Dict Text (List Text) :=
  sections.set name ((sections.get name).getD [] ++ [line])

/-- One line of the loop of `_sections`. -/
def scanSection (scan : SectionScan) (line : Text) : SectionScan :=
  match sectionHeader line with
  | some (name, rest) =>
    { scan with
      sections := appendLine scan.sections (lowerAscii name) rest
      current := some (lowerAscii name) }
  | none =>
    match scan.current with
    | none => { scan with description := scan.description ++ [line] }
    | some name => { scan with sections := appendLine scan.sections name line }

/-- `_sections`. -/
def docSections (docstring : Text) : Text × Dict Text (List Text) :=
  let scan := (splitlines docstring).foldl scanSection {}
  (['\n'].intercalate scan.description, scan.sections)

/-- `_JIRA_SKIP_MARKER`. -/
def jiraSkipMarker : String := "# <skip-jira-utils-check>"

/-- `_PLACEHOLDERS`. -/
def fillers : List Text := ["", "-", ".", "n/a", "none", "tba", "tbd", "todo"].map String.toList

/-- `str.strip` with a set of characters. -/
def stripCharacters (characters text : Text) : Text :=
  rstripCharacters characters (text.dropWhile fun character => decide (character ∈ characters))

section

variable (isDecimal : Char → Bool)

/-- The text behind the bullet or number of an item, if it has one. -/
def afterItemMark (text : Text) : Text :=
  match text with
  | [] => []
  | first :: rest =>
    if first ∈ ['-', '*', '+'] then rest
    else if isDecimal first then
      match rest.dropWhile isDecimal with
      | '.' :: behind | ')' :: behind => behind
      | _ => text
    else text

/-- `_SECTION_ITEM_PREFIX.sub("", line)`. The pattern matches at the start only. -/
def dropItemPrefix (line : Text) : Text :=
  (afterItemMark isDecimal (line.dropWhile isSpace)).dropWhile isSpace

/-- `_TRACKING_URL.sub("", line)`. -/
def withoutUrls (line : Text) : Text :=
  substitute (fun _ text => (trackingUrl text).map List.length) [] line

/-- The content of a line as `_meaningful` compares it. -/
def lineContent (line : Text) : Text :=
  let withoutMarker := (split jiraSkipMarker.toList (withoutUrls line)).flatten
  let content := lowerAscii (stripCharacters " \t\r\n-*.)0123456789:".toList
    (dropItemPrefix isDecimal withoutMarker))
  if content ∈ ["jira", "rfe", "stp"].map String.toList then [] else content

/-- `_meaningful`. -/
def meaningful (lines : List Text) : Bool :=
  lines.any fun line => decide (lineContent isDecimal line ∉ fillers)

/-- A match of `_JIRA_URL` at the start of a text. -/
def opensJiraUrl (text : Text) : Bool :=
  match (afterScheme text).bind fun host =>
      (literalIgnoringCase "issues.redhat.com/browse/".toList host).or
        (literalIgnoringCase "redhat.atlassian.net/browse/".toList host) with
  | some (first :: rest) =>
    let inProject := fun character : Char => isLetter character || character.isDigit
    isLetter first && !(rest.takeWhile inProject).isEmpty &&
      match rest.dropWhile inProject with
      | '-' :: digit :: _ => isDecimal digit
      | _ => false
  | _ => false

/-- `_jira_lines_missing_skip_marker`. -/
def jiraLinesMissingSkipMarker (docstring : Text) : Bool :=
  (splitlines docstring).any fun line =>
    line.tails.any (opensJiraUrl isDecimal) && !contains jiraSkipMarker.toList line

/-- What the check asks of the documentation of a test, in its order. -/
inductive Requirement
  | description
  | steps
  | expected
  | preconditions
  | tracking
deriving DecidableEq

namespace Requirement

/-- The requirements in the order of the check. -/
def all : List Requirement := [.description, .steps, .expected, .preconditions, .tracking]

/-- The message about a test that does not meet it. -/
def message : Requirement → String
  | description => "add a nonempty test description before the STD sections"
  | steps => "add a nonempty Steps: section to the test docstring"
  | expected => "add a nonempty Expected: section to the test docstring"
  | preconditions => "add nonempty Preconditions: at test, enclosing class, or module level"
  | tracking => "add an STP link or Jira/RFE tracking URL to the test, class, or module docstring"

/-- The docstring has a section that says something. -/
def hasSection (name docstring : String) : Bool :=
  meaningful isDecimal (((docSections docstring.toList).2.get name.toList).getD [])

/-- Whether the docstrings of a test, its own first, meet the requirement. -/
def isMet (docs : List String) : Requirement → Bool
  | description => meaningful isDecimal [(docSections (docs.headD "").toList).1]
  | steps => hasSection isDecimal "steps" (docs.headD "")
  | expected => hasSection isDecimal "expected" (docs.headD "")
  | preconditions => docs.any (hasSection isDecimal "preconditions")
  | tracking => hasTrackingUrl isDecimal (docs.map String.toList)

end Requirement

/-- A violation at a test definition. -/
def TestDefinition.violation (definition : TestDefinition) (filePath : Path) (message : String) :
    PolicyViolation where
  filePath := filePath
  lineNumber := some definition.test.node.info.lineno
  message := FsText.ofString ("test-std/" ++ definition.qualifiedName ++ ": " ++ message)

/-- `_documentation_violations`: one for each requirement that is not met. -/
def documentationViolations (filePath : Path) (definition : TestDefinition) :
    List PolicyViolation :=
  (Requirement.all.filter fun requirement => !requirement.isMet isDecimal definition.docs).map
    fun requirement => definition.violation filePath requirement.message

/-- `_new_test_documentation_violations`: the link must stand in the docstring of the test. -/
def newTestDocumentationViolations (filePath : Path) (definition : TestDefinition) :
    List PolicyViolation :=
  let ownDoc := definition.docs.headD ""
  (documentationViolations isDecimal filePath definition).filter (fun violation =>
      violation.message != (definition.violation filePath Requirement.tracking.message).message) ++
    if !hasTrackingUrl isDecimal [ownDoc.toList] then
      [definition.violation filePath
        "add an STP link or Jira/RFE tracking URL to the test docstring"]
    else if jiraLinesMissingSkipMarker isDecimal ownDoc.toList then
      [definition.violation filePath ("add " ++ jiraSkipMarker ++ " to this Jira line")]
    else []

variable {isDecimal}

/-- Every requirement is checked. -/
theorem Requirement.mem_all (requirement : Requirement) : requirement ∈ Requirement.all := by
  cases requirement <;> decide

/-- Different requirements have different messages. -/
theorem Requirement.message_injective : Function.Injective Requirement.message := by
  intro left right same
  cases left <;> cases right <;> first | rfl | exact absurd same (by decide)

/-- Definitions with the same name have the same message exactly for the same text. -/
theorem TestDefinition.violation_message_inj {left right : TestDefinition}
    (named : left.qualifiedName = right.qualifiedName) (filePath : Path) (first second : String) :
    (left.violation filePath first).message = (right.violation filePath second).message ↔
      first = second := by
  constructor
  · intro same
    have texts := FsText.ofText_injective same
    rw [named] at texts
    simp only [String.toList_append] at texts
    exact String.toList_inj.mp (List.append_cancel_left texts)
  · rintro rfl
    rw [TestDefinition.violation, TestDefinition.violation, named]

/-- A requirement is reported at a definition exactly if it is not met there. -/
theorem message_mem_documentationViolations {filePath : Path} {left right : TestDefinition}
    (named : left.qualifiedName = right.qualifiedName) (requirement : Requirement) :
    (left.violation filePath requirement.message).message ∈
        (documentationViolations isDecimal filePath right).map PolicyViolation.message ↔
      requirement.isMet isDecimal right.docs = false := by
  simp only [documentationViolations, List.map_map, List.mem_map, List.mem_filter,
    Function.comp_apply, Bool.not_eq_true']
  constructor
  · rintro ⟨other, ⟨-, missing⟩, same⟩
    have texts := (TestDefinition.violation_message_inj named.symm filePath _ _).mp same
    rwa [← Requirement.message_injective texts]
  · intro missing
    exact ⟨requirement, ⟨requirement.mem_all, missing⟩,
      (TestDefinition.violation_message_inj named.symm filePath _ _).mpr rfl⟩

end

end VirtTestTools.Placeholders
