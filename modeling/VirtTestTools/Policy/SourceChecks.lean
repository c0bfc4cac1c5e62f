import VirtTestTools.Policy.TestBasics

/-!
# The checks of a source

`check_python_source` puts the rules of the hooks together: the analysis of scopes is
made once and given to all of them, and the added lines filter what they report. The
result of the module is that the filter is a ratchet: a source that passes with some
added lines passes with fewer. The reported violations themselves are not monotone,
because an asynchronous function that is reported hides its body.
-/

namespace VirtTestTools.Policy

/-- The character of a name in a path. A surrogate, which no identifier has, is written as a private
character. -/
def FsChar.toChar : FsChar → Char
  | .char character => character
  | .escaped byte => Char.ofNat (0xF700 + byte.toNat)

/-- A text of the file system as a name. -/
def FsText.toName (text : FsText) : String := String.ofList (text.map FsChar.toChar)

/-- `file_path.with_suffix("").parts`, for a path that has a name. -/
def Path.stemParts (path : Path) : List String :=
  let rootParts := if path.root = 0 then [] else [List.replicate path.root Path.slash]
  let stem := path.name.take (path.name.length - path.suffix.length)
  (rootParts ++ path.parts.dropLast ++ [stem]).map FsText.toName

/-- `module_name`. -/
def moduleName (filePath : Path) : List String :=
  if filePath.stemParts.getLast? = some "__init__" then filePath.stemParts.dropLast
  else filePath.stemParts

/-- Whether the file is the one of a package. -/
def isPackageFile (filePath : Path) : Bool := filePath.name = FsText.ofString "__init__.py"

/-- The analysis of a file. -/
def fileScopes (filePath : Path) (tree : List AST) : ScopeBuilder :=
  scopes tree (moduleName filePath) (isPackageFile filePath)

/-- The order that puts violations without a line last. -/
def byPresenceAndLine (left right : PolicyViolation) : Bool :=
  match left.lineNumber, right.lineNumber with
  | none, some _ => false
  | some left, some right => decide (left ≤ right)
  | _, none => true

/-- `_check_source_tree`, which is `check_python_source` for a source that parses. -/
def checkPythonSource (filePath : Path) (source : ParsedSource) (added : AddedLines)
    (head : Option ParsedSource) (resourceClasses : List (List String)) : List PolicyViolation :=
  let scopes := fileScopes filePath source.tree
  let headScopes := head.map fun headSource => (headSource, fileScopes filePath headSource.tree)
  (scopes.checkModuleAssignments filePath source.tree added ++
    scopes.checkAstNodes filePath source.tree added ++
    checkResourceClients filePath source scopes added headScopes resourceClasses ++
    checkTestBasics filePath source.tree scopes.resolvedNames
      (scopes.nodeOrDependencyIntersects added) added).mergeSort byPresenceAndLine

section

variable (filePath : Path) (source : ParsedSource) (head : Option ParsedSource)
  (resourceClasses : List (List String))

/-- A source passes when it passes each part of the check. -/
theorem checkPythonSource_eq_nil_iff (added : AddedLines) :
    checkPythonSource filePath source added head resourceClasses = [] ↔
      (fileScopes filePath source.tree).checkModuleAssignments filePath source.tree added = [] ∧
      (fileScopes filePath source.tree).checkAstNodes filePath source.tree added = [] ∧
      checkResourceClients filePath source (fileScopes filePath source.tree) added
        (head.map fun headSource => (headSource, fileScopes filePath headSource.tree))
        resourceClasses = [] ∧
      checkTestBasics filePath source.tree (fileScopes filePath source.tree).resolvedNames
        ((fileScopes filePath source.tree).nodeOrDependencyIntersects added) added = [] := by
  unfold checkPythonSource
  rw [mergeSort_eq_nil_iff]
  simp only [List.append_eq_nil_iff, and_assoc]

/-- A source that passes with some added lines passes with any of them. -/
theorem checkPythonSource_eq_nil_of_within {narrow wide : AddedLines} (within : narrow.Within wide)
    (clean : checkPythonSource filePath source wide head resourceClasses = []) :
    checkPythonSource filePath source narrow head resourceClasses = [] := by
  rw [checkPythonSource_eq_nil_iff] at clean ⊢
  obtain ⟨assignments, nodes, clients, basics⟩ := clean
  refine ⟨?_, ?_, ?_, ?_⟩
  · exact List.eq_nil_of_subset_nil
      (assignments ▸ ScopeBuilder.checkModuleAssignments_subset within filePath source.tree)
  · exact List.eq_nil_of_subset_nil
      (nodes ▸ ScopeBuilder.checkAstNodes_subset within filePath source.tree)
  · exact checkResourceClients_eq_nil filePath source _ within _ resourceClasses clients
  · exact checkTestBasics_eq_nil (ScopeBuilder.nodeOrDependencyIntersects_mono within) within basics

/-- The added lines are a ratchet: what passes with some lines passes with fewer, and a file that
passes whole passes for every diff.

Proof: the rules of the policy and those of the basics but the last report more with more lines.
The comments of clients use up the same allowances when nothing is reported, and the visitor
enters the same functions. -/
theorem added_lines_ratchet :
    (∀ narrow wide : AddedLines, narrow.Within wide →
      checkPythonSource filePath source wide head resourceClasses = [] →
      checkPythonSource filePath source narrow head resourceClasses = []) ∧
    (checkPythonSource filePath source none head resourceClasses = [] →
      ∀ added, checkPythonSource filePath source added head resourceClasses = []) := by
  constructor
  · intro narrow wide within clean
    exact checkPythonSource_eq_nil_of_within filePath source head resourceClasses within clean
  · intro clean added
    apply checkPythonSource_eq_nil_of_within filePath source head resourceClasses _ clean
    intro line _
    rfl

end

/-- A test that sleeps: `import time`, and `time.sleep(1)` in the body of a function. -/
def sleepingTest : ParsedSource where
  tree :=
    [.importStmt ⟨1, 1, 1⟩ [⟨"time", none⟩],
      .functionDef ⟨2, 3, 4⟩ false "test_vm" (.arguments ⟨3, 3, 3⟩ [] [] none [] [] none [])
        [.exprStmt ⟨4, 4, 4⟩
          (.call ⟨5, 4, 4⟩ (.attribute ⟨6, 4, 4⟩ (.name ⟨7, 4, 4⟩ "time" .load) "sleep")
            [.constant ⟨8, 4, 4⟩ (.int 1)] [])] [] none]
  tokens := []
  colOffset := fun _ => 0
  dump := fun _ => []

/-- A module that only imports. -/
def importingTest : ParsedSource := { sleepingTest with tree := sleepingTest.tree.take 1 }

/-- The path of a test. -/
def testFile : Path := Path.ofText "tests/virt/test_vm.py".toList

/-- A legacy call passes while its line and its import are left alone, and then with no added lines
too; a module without any finding passes for every diff. -/
theorem sleeping_test_passes :
    checkPythonSource testFile sleepingTest (some [3]) none [] = [] ∧
      checkPythonSource testFile sleepingTest (some []) none [] = [] ∧
      ∀ added, checkPythonSource testFile importingTest added none [] = [] := by
  have passes : checkPythonSource testFile sleepingTest (some [3]) none [] = [] := by
    rw [checkPythonSource_eq_nil_iff]
    unfold checkResourceClients checkTestBasics
    rw [mergeSort_eq_nil_iff, mergeSort_eq_nil_iff]
    decide +kernel
  have whole : checkPythonSource testFile importingTest none none [] = [] := by
    rw [checkPythonSource_eq_nil_iff]
    unfold checkResourceClients checkTestBasics
    rw [mergeSort_eq_nil_iff, mergeSort_eq_nil_iff]
    decide +kernel
  refine ⟨passes, ?_, ?_⟩
  · exact (added_lines_ratchet testFile sleepingTest none []).1 (some []) (some [3])
      (fun line inside => by simp [AddedLines.has] at inside) passes
  · exact (added_lines_ratchet testFile importingTest none []).2 whole

end VirtTestTools.Policy
