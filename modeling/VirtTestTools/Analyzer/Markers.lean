import VirtTestTools.Analyzer.Model

/-!
# Markers in a test module

How the analyzer finds marked tests without pytest: the expression is reduced
to the set of names in it, and a test counts as marked when one of the names is
written as `pytest.mark.<name>` in the module's `pytestmark`, on its class, on
itself, or in the marks of one of its parameters.
-/

namespace VirtTestTools.Analyzer

open Text

/-- `extract_marker_names`: the words of the expression that are no operators. -/
def extractMarkerNames (unicode : Unicode) (markerExpression : Text) : List String :=
  ((words unicode markerExpression).map String.ofList).filter
    (fun token => decide (token ∉ ["and", "or", "not"]))

/-- `is_marker`: `pytest.mark.<name>`, bare or called. -/
def isMarker (markerNames : List String) : AST → Bool
  | .attribute _ (.attribute _ (.name _ id _) mark) attr =>
    decide (id = "pytest" ∧ mark = "mark" ∧ attr ∈ markerNames)
  | .call _ func _ _ => isMarker markerNames func
  | _ => false

/-- A marker, or a marker among the elements of a list. -/
def isMarkerOrList (markerNames : List String) : AST → Bool
  | .list _ elts => elts.any (isMarker markerNames)
  | value => isMarker markerNames value

/-- A marker, or a marker among the elements of a tuple. -/
def isMarkerOrTuple (markerNames : List String) : AST → Bool
  | .tuple _ elts => elts.any (isMarker markerNames)
  | value => isMarker markerNames value

/-- `check_pytestmark_assignment`. -/
def checkPytestmarkAssignment (markerNames : List String) : AST → Bool
  | .assign _ [.name _ id _] value =>
    decide (id = "pytestmark") && isMarkerOrList markerNames value
  | _ => false

/-- The values a call gives to a keyword. -/
def keywordValues (arg : String) (keywords : List AST) : List AST :=
  keywords.filterMap fun
    | .keyword _ (some other) value => if other = arg then some value else none
    | _ => none

/-- The values of `marks` in a `pytest.param` call; other parameters have none. -/
def marksValues : AST → List AST
  | .call _ (.attribute _ (.name _ id _) attr) _ keywords =>
    if id = "pytest" ∧ attr = "param" then keywordValues "marks" keywords else []
  | _ => []

/-- `has_marker_in_param`: a `pytest.param` call whose `marks` hold a marker. -/
def hasMarkerInParam (markerNames : List String) (node : AST) : Bool :=
  (marksValues node).any (isMarkerOrTuple markerNames)

/-- The positional and keyword arguments of a `pytest.mark.parametrize` call. -/
def parametrizeArguments : AST → Option (List AST × List AST)
  | .call _ (.attribute _ (.attribute _ (.name _ id _) mark) attr) args keywords =>
    if id = "pytest" ∧ mark = "mark" ∧ attr = "parametrize" then some (args, keywords) else none
  | _ => none

/-- The elements of a list or tuple display. -/
def displayElements : AST → List AST
  | .list _ elts | .tuple _ elts => elts
  | _ => []

/-- The elements of the second positional argument. -/
def secondArgumentElements : List AST → List AST
  | _ :: values :: _ => displayElements values
  | _ => []

/-- `check_parametrize_marks`: the second positional argument of
`pytest.mark.parametrize` is a list or tuple holding a marked parameter. -/
def checkParametrizeMarks (markerNames : List String) (decorator : AST) : Bool :=
  match parametrizeArguments decorator with
  | none => false
  | some (args, _) => (secondArgumentElements args).any (hasMarkerInParam markerNames)

/-- `name.startswith("test_")`. -/
def isTestName (name : String) : Bool := startsWith "test_".toList name.toList

/-- Whether a decorator marks the function it decorates. -/
def marksFunction (markerNames : List String) (decorator : AST) : Bool :=
  isMarker markerNames decorator || checkParametrizeMarks markerNames decorator

/-- The test methods of a class body that satisfy a condition on decorators. -/
def testMethods (className : String) (accepts : List AST → Bool) (body : List AST) : List String :=
  body.filterMap fun
    | .functionDef _ _ name _ _ decoratorList _ =>
      if isTestName name && accepts decoratorList then some (className ++ "::" ++ name) else none
    | _ => none

/-- The tests one top-level statement contributes, given whether the module as
a whole is marked. -/
def markedTestsOf (markerNames : List String) (moduleHasMarker : Bool) : AST → List String
  | .functionDef _ _ name _ _ decoratorList _ =>
    if isTestName name && (moduleHasMarker || decoratorList.any (marksFunction markerNames)) then
      [name]
    else []
  | .classDef _ name _ _ body decoratorList =>
    testMethods name
      (fun methodDecorators =>
        moduleHasMarker || decoratorList.any (isMarker markerNames) ||
          methodDecorators.any (marksFunction markerNames))
      body
  | _ => []

/-- The tests of `_process_test_file_for_markers`, by qualified name. -/
def markedTestNames (markerNames : List String) (tree : List AST) : List String :=
  tree.flatMap (markedTestsOf markerNames (tree.any (checkPytestmarkAssignment markerNames)))

/-- `f"{rel_path}::{test_name}"`. -/
def nodeIdOf (testFile : Path) (testName : String) : String :=
  testFile.display ++ "::" ++ testName

/-- `_process_test_file_for_markers`; an unreadable file contributes nothing. -/
def processTestFileForMarkers (world : World) (markerNames : List String) (testFile : Path) :
    List MarkedTest :=
  match world.tree testFile with
  | none => []
  | some tree =>
    (markedTestNames markerNames tree).map fun testName =>
      { filePath := testFile, testName := testName, nodeId := nodeIdOf testFile testName }

/-- The files `tests_dir.rglob` yields for the two test file patterns. -/
def testFiles (world : World) : List Path :=
  world.files.filter fun path =>
    decide (path.head? = some "tests") && decide (1 < path.length) &&
      (startsWith "test_".toList path.name.toList && endsWith ".py".toList path.name.toList ||
        endsWith "_test.py".toList path.name.toList)

/-- Register a test unless its node id is known already. -/
def registerNew (markedTests : Dict String MarkedTest) (markedTest : MarkedTest) :
    Dict String MarkedTest :=
  if markedTests.has markedTest.nodeId then markedTests
  else markedTests.set markedTest.nodeId markedTest

/-- `_fallback_discover_marked_tests`. -/
def fallbackDiscoverMarkedTests (world : World) (markerNames : List String)
    (markedTests : Dict String MarkedTest) : Dict String MarkedTest :=
  ((testFiles world).flatMap (processTestFileForMarkers world markerNames)).foldl
    registerNew markedTests

end VirtTestTools.Analyzer
