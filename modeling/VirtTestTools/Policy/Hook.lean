import Mathlib.Data.List.Lex
import Mathlib.Data.Prod.Lex
import VirtTestTools.Collecting
import VirtTestTools.KeySort
import VirtTestTools.Placeholders.StdCheck
import VirtTestTools.Policy.DiscoveryAgreement
import VirtTestTools.Policy.LinterDirectives
import VirtTestTools.Policy.SourceChecks
import VirtTestTools.Policy.StpLinks

/-!
# A run of the policy hook

`check_policy.py` is the entry point of five hooks, one for each family of checks.
A run splits its arguments into file names and families, takes the staged changes
from git, collects the violations of the selected families and prints them in the
order of their paths, lines and messages.

The families for paths and for the manifest look at the whole index. The other
ones are limited to the supplied files, but one file is not checked by itself: the
resource classes that a source is checked against come from the modules that any
of the supplied files imports.
-/

namespace VirtTestTools.Policy

open Text

/-! ## Arguments and reports -/

/-- What ends a run before it reports. -/
inductive RunError
  | systemExit (message : FsText)
  | git (error : PolicyError)
  | check (error : HookError)
deriving DecidableEq

/-- The option that selects a family. -/
def checkOption : Text := "--check".toList

/-- The loop of `parse_check_arguments`: the file names and the selected families, unless the last
option has no family. -/
def splitArguments : List Text → Option (List Text × List Text)
  | [] => some ([], [])
  | argument :: rest =>
    if argument = checkOption then
      match rest with
      | [] => none
      | family :: rest =>
        (splitArguments rest).map fun split => (split.1, family :: split.2)
    else (splitArguments rest).map fun split => (argument :: split.1, split.2)

/-- `str` of a list of texts. -/
def listText (repr : FsText → FsText) (texts : List Text) : FsText :=
  FsText.ofString "[" ++
    List.intercalate (FsText.ofString ", ") (texts.map fun text => repr (FsText.ofText text)) ++
      FsText.ofString "]"

/-- `parse_check_arguments`. -/
def parseCheckArguments (repr : FsText → FsText) (programName : String) (checkFamilies : List Text)
    (arguments : List Text) : Except RunError (List Text × List Text) :=
  match splitArguments arguments with
  | none =>
    .error (.systemExit (FsText.ofString programName ++
      FsText.ofString ": --check requires a check family name"))
  | some (fileNames, selected) =>
    let unknown := (selected.filter (· ∉ checkFamilies)).dedup
    if unknown.isEmpty then .ok (fileNames, if selected.isEmpty then checkFamilies else selected)
    else
      .error (.systemExit (FsText.ofString programName ++
        FsText.ofString ": unknown check family: " ++
          listText repr (sortedBy (fun family => family.map Char.toNat) unknown)))

/-- `str(violation)`. -/
def PolicyViolation.text (violation : PolicyViolation) : FsText :=
  violation.filePath.asPosix ++
    (violation.lineNumber.elim [] fun line =>
      FsText.ofString ":" ++ FsText.ofString (toString line)) ++
      FsText.ofString ": " ++ violation.message

/-- The key by which `report_violations` sorts. -/
def PolicyViolation.key (violation : PolicyViolation) : List Nat ×ₗ Bool ×ₗ Nat ×ₗ List Nat :=
  toLex (violation.filePath.asPosix.codes, toLex (violation.lineNumber.isNone,
    toLex (violation.lineNumber.getD 0, violation.message.codes)))

/-- What a run leaves: the printed violations, in order. -/
structure Report where
  violations : List PolicyViolation

/-- `report_violations`. -/
def reportViolations (violations : List PolicyViolation) : Report :=
  ⟨sortedBy PolicyViolation.key violations⟩

/-- The lines on standard error. -/
def Report.printed (report : Report) : List FsText := report.violations.map PolicyViolation.text

/-- The exit status. -/
def Report.status (report : Report) : Nat := if report.violations.isEmpty then 0 else 1

/-! ## Paths -/

/-- `path.parts`, where a root is a part. -/
def Path.allParts (path : Path) : List FsText :=
  if path.root = 0 then path.parts else List.replicate path.root Path.slash :: path.parts

/-- `check_site_path`. -/
def checkSitePath (filePath : Path) : Option PolicyViolation :=
  if filePath.allParts.take 2 = [FsText.ofString "docs", FsText.ofString "site"] then
    some ⟨filePath, none, FsText.ofString "docs/site/ is generated and must not be modified"⟩
  else none

/-- `is_top_level_test`. -/
def isTopLevelTest (filePath : Path) : Bool :=
  decide (filePath.allParts.length = 2) &&
    decide (filePath.allParts.head? = some (FsText.ofString "tests")) &&
    decide (filePath.suffix = pythonSuffix) &&
    ((FsText.ofString "test_").isPrefixOf filePath.name ||
      (FsText.ofString "_test.py").isSuffixOf filePath.name)

/-- `check_top_level_test_path`. -/
def checkTopLevelTestPath (filePath : Path) : Option PolicyViolation :=
  if isTopLevelTest filePath then
    some ⟨filePath, none,
      FsText.ofString "test files must be placed in a feature subdirectory under tests/"⟩
  else none

/-- The message for a staged symbolic link. -/
def symlinkMessage (filePath : Path) : String :=
  if filePath = exceptionsPath then
    "policy: the exception manifest must be a real file; commit the actual manifest so its " ++
      "records are checked"
  else
    "policy: staged Python symlinks are not allowed; commit the real file so its source is checked"

/-- `sorted(paths)` of a set of paths. -/
def sortedPaths (paths : List Path) : List Path := sortedBy Path.codes paths.dedup

/-- `_path_policy_violations`. -/
def pathPolicyViolations (staged : StagedChanges) : List PolicyViolation :=
  (sortedPaths (staged.changedPaths ++ staged.deletedPaths)).flatMap (fun path =>
      (checkSitePath path).toList ++ (checkTopLevelTestPath path).toList) ++
    (sortedPaths (staged.symlinkedPaths.filter fun path =>
      path.suffix = pythonSuffix ∨ path = exceptionsPath)).map (fun path =>
        ⟨path, none, FsText.ofString (symlinkMessage path)⟩) ++
    if exceptionsPath ∈ staged.deletedPaths then
      [⟨exceptionsPath, none,
        FsText.ofString "linter-directives: the exception manifest must not be deleted"⟩]
    else []

/-! ## The families for files -/

/-- The answer to the request for the tree of the design documents. -/
inductive TreeListing
  /-- The command fails. -/
  | failed (error : Text)
  /-- It cannot be run, or its output is not the JSON that is expected. -/
  | unreadable (error : Text)
  | listed (paths : List Text) (truncated : Bool)

/-- `_merged_stp_paths`, or the text of its `RuntimeError`. -/
def mergedStpPaths : TreeListing → Except Text (List Text)
  | .failed error => .error error
  | .unreadable error => .error ("design-docs tree listing failed: ".toList ++ error)
  | .listed paths truncated =>
    if truncated then .error "design-docs tree listing was truncated by the GitHub API".toList
    else .ok paths

/-- What a run reads: git, the worktree, the parser, the installed `ocp_resources` and the design
documents. -/
structure Checkout where
  git : Git
  /-- `git show` of the manifest in the index and in HEAD. -/
  showIndex : Shown
  showHead : Shown
  library : Library
  /-- `ast.parse`, and the tokens; `none` is a `SyntaxError`. -/
  parse : Text → Option ParsedSource
  isDecimal : Char → Bool
  dump : AST → Text
  /-- `read_text` of the regular files. -/
  worktree : Path → Option Text
  repository : Repository
  dependency : Dependency
  order : ImportOrder repository.indexSourceReader
  designDocs : TreeListing

namespace Checkout

variable (checkout : Checkout)

/-- A source that has to parse. -/
def parsed (source : Text) : Except RunError ParsedSource :=
  (checkout.parse source).elim (.error (.check .syntaxError)) .ok

/-- A version that may be missing and has to parse if it is there. -/
def parsedOptional : Option Text → Except RunError (Option ParsedSource)
  | none => .ok none
  | some source => checkout.parsed source >>= fun parsed => .ok (some parsed)

/-- `_check_python_file`. -/
def checkPythonFile (filePath : Path) (addedLines : AddedLines) (source headSource : Option Text)
    (resourceClasses : List (List String)) : Except RunError (List PolicyViolation) :=
  if filePath.suffix = pythonSuffix then
    match source.or (checkout.worktree filePath) with
    | none => .ok []
    | some fileSource =>
      if addedLines = some [] ∧ headSource = none then .ok []
      else
        checkout.parsed fileSource >>= fun parsed =>
          checkout.parsedOptional headSource >>= fun head =>
            .ok (checkPythonSource filePath parsed addedLines head resourceClasses)
  else .ok []

/-- `check_file`. -/
def checkFile (filePath : Path) (staged : Bool) (addedLines : AddedLines)
    (source headSource : Option Text) (resourceClasses : List (List String)) :
    Except RunError (List PolicyViolation) :=
  let paths :=
    if staged then (checkTopLevelTestPath filePath).toList ++ (checkSitePath filePath).toList
    else []
  let effective :=
    if staged ∧ source.isSome ∧ addedLines = some [] ∧ headSource = none then none else addedLines
  checkout.checkPythonFile filePath effective source headSource resourceClasses >>= fun found =>
    .ok (paths ++ found)

section

variable (staged : StagedChanges)

/-- The modules that a staged file imports, of the packages that may have resource classes. -/
def relevantModules (filePath : Path) : Except RunError (List (List String)) :=
  checkout.parsed ((staged.sources.get filePath).getD []) >>= fun parsed =>
    .ok ((importedModuleNames (moduleName filePath) parsed.tree).filter fun name =>
      name.head?.any (["libs", "tests", "utilities", "ocp_resources"].contains ·))

/-- The resource classes of the modules that staged files import. -/
def resourceClasses (pythonPaths : List Path) : Except RunError (List (List String)) :=
  Outcome.collect (checkout.relevantModules staged) pythonPaths >>= fun modules =>
    if modules.isEmpty then .ok []
    else
      (discoverTargeted checkout.dependency checkout.order modules).elim
        (.error (.check .syntaxError)) .ok

/-- The check of one supplied file in `_python_source_violations`. -/
def sourceViolations (resourceClasses : List (List String)) (filePath : Path) :
    Except RunError (List PolicyViolation) :=
  if filePath ∈ staged.deletedPaths ∨ filePath ∈ staged.symlinkedPaths then .ok []
  else
    checkout.checkFile filePath false (resolvedAddedLines staged filePath)
      (staged.sources.get filePath) (staged.headSources.get filePath) resourceClasses

/-- `_python_source_violations`. -/
def pythonSourceViolations (filePaths : List Path) : Except RunError (List PolicyViolation) :=
  checkout.resourceClasses staged (stagedPythonPaths staged filePaths) >>= fun classes =>
    Outcome.collect (checkout.sourceViolations staged classes) filePaths

/-- A text with its tree. -/
def source (text : Text) : Source := ⟨text, (checkout.parse text).map ParsedSource.tree⟩

/-- The check of one file in `_test_std_violations`. -/
def stdViolations (filePath : Path) : Except RunError (List PolicyViolation) :=
  let headSource :=
    if filePath ∈ staged.renamedPaths then none else staged.headSources.get filePath
  (Placeholders.checkTestStd checkout.isDecimal checkout.dump filePath
    (checkout.source ((staged.sources.get filePath).getD []))
    (headSource.map checkout.source)).elim (.error (.check .syntaxError)) .ok

/-- `_test_std_violations`. -/
def testStdViolations (pythonPaths : List Path) : Except RunError (List PolicyViolation) :=
  Outcome.collect (checkout.stdViolations staged) pythonPaths

/-- The references of a staged file; those of tooling sources do not count. -/
def referencesOf (filePath : Path) : Option (Dict Text Nat) :=
  if filePath.firstPart = some (FsText.ofString "tests") then
    let references := stpReferences ((staged.sources.get filePath).getD [])
      (resolvedAddedLines staged filePath)
    if references.items.isEmpty then none else some references
  else none

/-- `file_references`. -/
def fileReferences (pythonPaths : List Path) : Dict Path (Dict Text Nat) :=
  Dict.empty.update (pythonPaths.filterMap fun filePath =>
    (referencesOf staged filePath).map fun references => (filePath, references))

/-- `unverified_stp_violation`. -/
def unverifiedStpViolation (error : Text) (filePath : Path) : PolicyViolation :=
  ⟨filePath, none, FsText.ofString ("stp-links: could not verify STP documents against " ++
    "RedHatQE/openshift-virtualization-tests-design-docs: ") ++ FsText.ofText error⟩

/-- `_stp_links_violations`. -/
def stpLinksViolations (pythonPaths : List Path) : List PolicyViolation :=
  if (fileReferences staged pythonPaths).items.isEmpty then []
  else
    match mergedStpPaths checkout.designDocs with
    | .error error => (fileReferences staged pythonPaths).keys.map (unverifiedStpViolation error)
    | .ok mergedPaths =>
      (fileReferences staged pythonPaths).items.flatMap fun item =>
        checkStpLinks item.1 item.2 mergedPaths

end

end Checkout

/-! ## The run -/

/-- The families of checks, in the order of `_CHECK_FAMILIES`. -/
inductive CheckFamily
  | pathPolicy
  | linterDirectives
  | pythonSource
  | testStd
  | stpLinks
deriving DecidableEq

namespace CheckFamily

/-- The name of a family. -/
def name : CheckFamily → Text
  | pathPolicy => "path-policy".toList
  | linterDirectives => "linter-directives".toList
  | pythonSource => "python-source".toList
  | testStd => "test-std".toList
  | stpLinks => "stp-links".toList

/-- The families in the order of a run. -/
def all : List CheckFamily := [pathPolicy, linterDirectives, pythonSource, testStd, stpLinks]

end CheckFamily

namespace Checkout

variable (checkout : Checkout)

/-- What a family reports. -/
def familyViolations (staged : StagedChanges) (filePaths : List Path) :
    CheckFamily → Except RunError (List PolicyViolation)
  | .pathPolicy => .ok (pathPolicyViolations staged)
  | .linterDirectives =>
    (linterDirectivesViolations checkout.library checkout.showIndex checkout.showHead staged
      (stagedPythonSources staged) (stagedPythonPaths staged filePaths)).mapError .check
  | .pythonSource => checkout.pythonSourceViolations staged filePaths
  | .testStd => checkout.testStdViolations staged (stagedPythonPaths staged filePaths)
  | .stpLinks => .ok (checkout.stpLinksViolations staged (stagedPythonPaths staged filePaths))

/-- `main`. -/
def main (arguments : List Text) : Except RunError Report :=
  parseCheckArguments checkout.library.repr "check_policy" (CheckFamily.all.map CheckFamily.name)
      arguments >>= fun (fileNames, selected) =>
    (stagedChanges checkout.git).mapError RunError.git >>= fun staged =>
      Outcome.collect (checkout.familyViolations staged (fileNames.map Path.ofText))
          (CheckFamily.all.filter (·.name ∈ selected)) >>= fun violations =>
        .ok (reportViolations violations)

end Checkout

end VirtTestTools.Policy
