import VirtTestTools.Analyzer.Markers
import VirtTestTools.Analyzer.Impact

/-!
# Discovery and the test's own file

`discover_marked_tests` registers a test for every node id that pytest prints.
The registered name is the last piece of the node id, without the class; the
self-modification branch of `_check_test_impact` expects the class in front. For
class-based tests the two encodings disagree, and the branch then asks whether
a top-level symbol with the method's name was modified.
-/

namespace VirtTestTools.Analyzer

open Text

/-- The test registered for a node id. -/
def testOfNodeId (nodeId : Text) : MarkedTest :=
  let parts := split "::".toList nodeId
  { filePath := Path.ofText (parts.headD [])
    testName := String.ofList (parts.getLastD [])
    nodeId := String.ofList nodeId }

/-- One line of pytest's collection output. -/
def registerLine (world : World) (markedTests : Dict String MarkedTest) (line : Text) :
    Dict String MarkedTest :=
  let nodeId := strip line
  if contains "::".toList nodeId && !startsWith [' '] nodeId then
    let markedTest := testOfNodeId nodeId
    if world.present markedTest.filePath then markedTests.set markedTest.nodeId markedTest
    else markedTests
  else markedTests

/-- The tests registered from the output of `pytest --collect-only -q`. -/
def collectedTests (world : World) (stdout : Text) : Dict String MarkedTest :=
  (splitlines stdout).foldl (registerLine world) ∅

/-- `discover_marked_tests`: pytest's collection, or the syntax-based fallback
when pytest is not available or collects nothing. -/
def discoverMarkedTests (world : World) (markerNames : List String) (stdout : Option Text) :
    Dict String MarkedTest :=
  match stdout with
  | none => fallbackDiscoverMarkedTests world markerNames ∅
  | some stdout =>
    let found := collectedTests world stdout
    if found.items.isEmpty then fallbackDiscoverMarkedTests world markerNames found else found

/-- Every registered test is the one its node id determines. -/
theorem registered_of_nodeId (world : World) (lines : List Text)
    (markedTests : Dict String MarkedTest)
    (known : ∀ nodeId markedTest, markedTests.get nodeId = some markedTest →
      markedTest = testOfNodeId nodeId.toList)
    (nodeId : String) (markedTest : MarkedTest)
    (found : (lines.foldl (registerLine world) markedTests).get nodeId = some markedTest) :
    markedTest = testOfNodeId nodeId.toList := by
  induction lines generalizing markedTests with
  | nil => exact known nodeId markedTest found
  | cons line rest inductionHypothesis =>
    refine inductionHypothesis (registerLine world markedTests line) ?_ found
    intro other registered present
    simp only [registerLine] at present
    split at present
    · split at present
      · rw [Dict.get_set] at present
        split at present
        · rename_i same
          have shape := Option.some.inj present
          rw [same, ← shape]
          simp [testOfNodeId]
        · exact known other registered present
      · exact known other registered present
    · exact known other registered present

/-- A collected test is read off its node id. -/
theorem collectedTests_get (world : World) (stdout : Text) (nodeId : String)
    (markedTest : MarkedTest)
    (found : (collectedTests world stdout).get nodeId = some markedTest) :
    markedTest = testOfNodeId nodeId.toList := by
  refine registered_of_nodeId world (splitlines stdout) ∅ ?_ nodeId markedTest found
  intro other registered present
  exact absurd present (by simp [show (∅ : Dict String MarkedTest).get other = none from rfl])

/-- A registered name never contains the class separator, so it parses as a
plain function whose name is cut at the parametrization bracket. -/
theorem parseTestName_of_nodeId (nodeId : Text) :
    parseTestName (testOfNodeId nodeId).testName =
      (none, String.ofList
        (((split "::".toList nodeId).getLastD []).takeWhile (· != '['))) := by
  have piece : (split "::".toList nodeId).getLastD [] ∈ split "::".toList nodeId := by
    rw [List.getLastD_eq_getLast?, List.getLast?_eq_some_getLast (split_ne_nil _ _)]
    exact List.getLast_mem _
  have plain := split_pieces "::".toList nodeId _ (by decide) piece
  simp only [testOfNodeId, parseTestName, String.toList_ofList, plain, Bool.false_eq_true,
    ↓reduceIte]

/-- A pytest node id of a method, `file::Class::method` with a parametrization
suffix that is empty or opens with a bracket. The suffix is arbitrary text. -/
structure MethodNodeId where
  file : Text
  className : Text
  method : Text
  suffix : Text
  fileSeparated : contains "::".toList (file ++ [':']) = false
  classPlain : ':' ∉ className
  methodPlain : ':' ∉ method
  methodUnbracketed : '[' ∉ method
  bracketed : suffix = [] ∨ ∃ rest, suffix = '[' :: rest

namespace MethodNodeId

/-- The node id as pytest prints it. -/
def text (nodeId : MethodNodeId) : Text :=
  nodeId.file ++ "::".toList ++ (nodeId.className ++ "::".toList ++ (nodeId.method ++ nodeId.suffix))

/-- The function name that remains of the node id after discovery: the method,
unless the suffix itself contains a separator. -/
def registeredFunction (nodeId : MethodNodeId) : String :=
  String.ofList
    (((split "::".toList (nodeId.method ++ nodeId.suffix)).getLastD []).takeWhile (· != '['))

/-- A node id is split into its file, its class and its method. -/
theorem split_text (nodeId : MethodNodeId) :
    split "::".toList nodeId.text =
      nodeId.file :: nodeId.className :: split "::".toList (nodeId.method ++ nodeId.suffix) := by
  have className := contains_double_of_not_mem ':' nodeId.className nodeId.classPlain
  rw [text]
  refine (split_double ':' nodeId.file _ nodeId.fileSeparated).trans ?_
  exact congrArg (nodeId.file :: ·) (split_double ':' nodeId.className _ className)

/-- The file of a node id is its first piece. -/
theorem filePath_of_text (nodeId : MethodNodeId) :
    (testOfNodeId nodeId.text).filePath = Path.ofText nodeId.file := by
  simp only [testOfNodeId, split_text, List.headD_cons]

/-- The parsed name of a registered method test has no class. -/
theorem parseTestName_of_text (nodeId : MethodNodeId) :
    parseTestName (testOfNodeId nodeId.text).testName = (none, nodeId.registeredFunction) := by
  have last : (split "::".toList nodeId.text).getLastD [] =
      (split "::".toList (nodeId.method ++ nodeId.suffix)).getLastD [] := by
    obtain ⟨first, rest, shape⟩ :=
      List.exists_cons_of_ne_nil (split_ne_nil "::".toList (nodeId.method ++ nodeId.suffix))
    rw [split_text, shape]
    rfl
  rw [parseTestName_of_nodeId, last, registeredFunction]

/-- When the suffix contains no separator, discovery keeps the method's name. -/
theorem registeredFunction_eq_method (nodeId : MethodNodeId)
    (plain : contains "::".toList (nodeId.method ++ nodeId.suffix) = false) :
    nodeId.registeredFunction = String.ofList nodeId.method := by
  have cut : nodeId.suffix.takeWhile (· != '[') = [] := by
    rcases nodeId.bracketed with empty | ⟨rest, bracket⟩
    · rw [empty]
      rfl
    · rw [bracket]
      rfl
  rw [registeredFunction, split_absent _ _ plain]
  simp only [List.getLastD_cons, List.getLastD_nil]
  rw [List.takeWhile_append_of_pos, cut, List.append_nil]
  intro character member
  exact bne_iff_ne.mpr fun equal => nodeId.methodUnbracketed (equal ▸ member)

end MethodNodeId

/-- For a test whose name parses without a class, the self-modification branch
asks for a modified top-level symbol of the function's name. -/
theorem selfModification_isSome_of_unqualified (ctx : ImpactContext) (markedTest : MarkedTest)
    (changedFile : Path) (classification : SymbolClassification) (function : String)
    (cached : ctx.classification changedFile = some classification)
    (parsed : parseTestName markedTest.testName = (none, function)) :
    (selfModification ctx markedTest changedFile).isSome = true ↔
      function ∈ classification.modifiedSymbols := by
  simp [selfModification_isSome, cached, OwnSymbolModified, parsed]

/-- Selection of a changed class-based test. For a test that discovery registers
from the node id of a method, and a classification in which its class is
modified without narrowing the method away, the test is reported for every
changed set with its file exactly when the classification also lists a modified
top-level symbol with the name that discovery kept.

Proof: the registered name is the last piece of the node id, which parses
without a class; the self-modification branch then consults only that name. -/
theorem class_test_selected_iff (ctx : ImpactContext) (markerNames : List String) (stdout : Text)
    (nodeId : MethodNodeId) (registered markedTest : MarkedTest)
    (classification : SymbolClassification)
    (collected : (collectedTests ctx.world stdout).items ≠ [])
    (found : (discoverMarkedTests ctx.world markerNames (some stdout)).get
      (String.ofList nodeId.text) = some registered)
    (sameFile : markedTest.filePath = registered.filePath)
    (sameName : markedTest.testName = registered.testName)
    (cached : ctx.classification (Path.ofText nodeId.file) = some classification)
    (_modified : String.ofList nodeId.className ∈ classification.modifiedSymbols)
    (_unnarrowed : ∀ members,
      classification.modifiedMembers.get (String.ofList nodeId.className) = some members →
        String.ofList nodeId.method ∈ members) :
    (∀ changedSet : List Path, Path.ofText nodeId.file ∈ changedSet →
      (checkTestImpact ctx markedTest.nodeId markedTest changedSet).isSome = true) ↔
      nodeId.registeredFunction ∈ classification.modifiedSymbols := by
  have fromPytest : discoverMarkedTests ctx.world markerNames (some stdout) =
      collectedTests ctx.world stdout := by
    simp [discoverMarkedTests, List.isEmpty_iff, collected]
  rw [fromPytest] at found
  have shape : registered = testOfNodeId nodeId.text := by
    simpa using collectedTests_get ctx.world stdout (String.ofList nodeId.text) registered found
  have file : markedTest.filePath = Path.ofText nodeId.file := by
    rw [sameFile, shape, nodeId.filePath_of_text]
  have parsed : parseTestName markedTest.testName = (none, nodeId.registeredFunction) := by
    rw [sameName, shape, nodeId.parseTestName_of_text]
  rw [reported_forall_iff, changedFileImpact, if_pos file.symm]
  exact selfModification_isSome_of_unqualified ctx markedTest (Path.ofText nodeId.file)
    classification nodeId.registeredFunction cached parsed

/-- The world of a checkout that holds one file. -/
def singleFileWorld (path : Path) (source : Source) : World where
  unicode := ascii
  present other := decide (other = path)
  files := [path]
  filesPresent := by simp
  source other := if other = path then some source else none
  gitDiff _ _ := none
  baseFile _ := .missing

/-- The node id `tests/test_vm.py::TestVm::test_start[ocs]`. -/
def startNodeId : MethodNodeId where
  file := "tests/test_vm.py".toList
  className := "TestVm".toList
  method := "test_start".toList
  suffix := "[ocs]".toList
  fileSeparated := by decide
  classPlain := by decide
  methodPlain := by decide
  methodUnbracketed := by decide
  bracketed := Or.inr ⟨"ocs]".toList, rfl⟩

/-- The class of the sample node id. -/
theorem startNodeId_className : String.ofList startNodeId.className = "TestVm" :=
  String.ofList_toList

/-- The method of the sample node id. -/
theorem startNodeId_method : String.ofList startNodeId.method = "test_start" :=
  String.ofList_toList

/-- A context in which the test's file has the given modified symbols and the
class narrows to the started method. -/
def startContext (modifiedSymbols : List String) : ImpactContext where
  world := singleFileWorld ["tests", "test_vm.py"] ⟨[], some []⟩
  modifiedSymbolsCache := (Dict.empty).set ["tests", "test_vm.py"]
    (some
      { modifiedSymbols := modifiedSymbols
        newSymbols := []
        modifiedMembers := (Dict.empty).set "TestVm" ["test_start"] })

/-- The condition is met when the file also has a modified function
`test_start` outside the class. -/
theorem class_test_selected_with_namesake :
    (checkTestImpact (startContext ["TestVm", "test_start"]) (String.ofList startNodeId.text)
      (testOfNodeId startNodeId.text) [Path.ofText startNodeId.file]).isSome = true := by
  have member : String.ofList startNodeId.className ∈ ["TestVm", "test_start"] := by
    rw [startNodeId_className]
    exact List.mem_cons_self
  have unnarrowed : ∀ members, ((Dict.empty).set "TestVm" ["test_start"]).get
      (String.ofList startNodeId.className) = some members →
      String.ofList startNodeId.method ∈ members := by
    intro members entry
    rw [startNodeId_className, Dict.get_set, if_pos rfl, Option.some.injEq] at entry
    rw [startNodeId_method, ← entry]
    exact List.mem_cons_self
  exact (class_test_selected_iff (startContext ["TestVm", "test_start"]) [] startNodeId.text
    startNodeId (testOfNodeId startNodeId.text) (testOfNodeId startNodeId.text) _
    (by decide) (by rfl) rfl rfl (by rfl) member unnarrowed).mpr (by decide) _
    (List.mem_singleton.mpr rfl)

/-- A modified class and a modified method, and the test is not reported. -/
theorem class_test_not_selected :
    (discoverMarkedTests (startContext ["TestVm"]).world [] (some startNodeId.text)).get
        (String.ofList startNodeId.text) = some (testOfNodeId startNodeId.text) ∧
      (∃ classification,
        (startContext ["TestVm"]).classification (Path.ofText startNodeId.file) =
          some classification ∧
        "TestVm" ∈ classification.modifiedSymbols ∧
        classification.modifiedMembers.get "TestVm" = some ["test_start"]) ∧
      checkTestImpact (startContext ["TestVm"]) (String.ofList startNodeId.text)
        (testOfNodeId startNodeId.text) [Path.ofText startNodeId.file] = none := by
  refine ⟨by rfl, ⟨_, by rfl, by decide, by rfl⟩, by decide⟩

end VirtTestTools.Analyzer
