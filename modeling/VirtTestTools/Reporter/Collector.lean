import Mathlib.Data.List.Lex
import VirtTestTools.Collecting
import VirtTestTools.KeySort
import VirtTestTools.Placeholders.Reports
import VirtTestTools.Reporter.ItemNames
import VirtTestTools.Reporter.MarkerFilter
import VirtTestTools.Reporter.Push

/-!
# Collecting placeholder tests

The manual reporter takes the placeholder tests of the scan and reads each file again for what
stands around them: docstrings, markers, fixtures and Polarion IDs. Tests are looked up by
name, so of several definitions with one name the last is read, whichever the scan has found.
A lookup that fails is an error.
-/

namespace VirtTestTools.Reporter

open Text Placeholders

/-! ## What is read of a definition -/

/-- A placeholder test with its context. -/
structure FullTestDetail extends PlaceholderTestDetail where
  filePath : String
  className : Option String
  methodName : String
  moduleDocstring : Option String
  classDocstring : Option String
  testDocstring : Option String
  moduleMarkers : List Text
  classMarkers : List Text
  classFixtures : List String
  testMarkers : List Text
  rpName : Text

/-- The body and the decorators of a class or a function. -/
structure Definition where
  body : List AST
  decoratorList : List AST

/-- `_extract_docstring`, of a body. -/
def extractDocstring : List AST → Option String
  | .exprStmt _ (.constant _ (.str value)) :: _ => some value
  | _ => none

/-- `_is_pytest_mark_attr`: the name of the marker. -/
def isPytestMarkAttr : AST → Option String
  | .attribute _ (.attribute _ (.name _ id _) mark) marker =>
    if id = "pytest" ∧ mark = "mark" then some marker else none
  | _ => none

/-- The text of a string constant. -/
def stringConstant : AST → Option String
  | .constant _ (.str value) => some value
  | _ => none

/-- The arguments of a call of a marker. -/
def markerArguments (name : String) : AST → Option (List AST)
  | .call _ func args _ => if isPytestMarkAttr func = some name then some args else none
  | _ => none

/-- `_extract_usefixtures`. -/
def extractUsefixtures (decorators : List AST) : List String :=
  (decorators.filterMap (markerArguments "usefixtures")).flatten.filterMap stringConstant

/-- `_extract_polarion_id`. -/
def extractPolarionId (decorators : List AST) : Option String :=
  (decorators.filterMap (markerArguments "polarion")).findSome? fun
    | [argument] => stringConstant argument
    | _ => none

/-- `_extract_marker_name_from_element`. -/
def extractMarkerNameFromElement : AST → Option String
  | .call _ func _ _ => isPytestMarkAttr func
  | element => isPytestMarkAttr element

/-- The target `pytestmark` of an assignment. -/
def isPytestmark : AST → Bool
  | .name _ id _ => id = "pytestmark"
  | _ => false

/-- What an assignment to `pytestmark` names. -/
def pytestmarkNames : AST → List String
  | .list _ elts => elts.filterMap extractMarkerNameFromElement
  | value => (extractMarkerNameFromElement value).toList

/-- `_extract_module_markers`: an assignment counts once for each target `pytestmark`. -/
def extractModuleMarkers (tree : List AST) : List Text :=
  (tree.flatMap fun
    | .assign _ targets value =>
      (targets.filter isPytestmark).flatMap fun _ => pytestmarkNames value
    | _ => []).map String.toList

/-! ## Lookups -/

/-- The entry of a class in the table of classes. -/
def classItem : AST → Option (String × Definition)
  | .classDef _ name _ _ body decoratorList => some (name, ⟨body, decoratorList⟩)
  | _ => none

/-- The entry of a function in a table of functions. -/
def functionItem : AST → Option (String × Definition)
  | .functionDef _ _ name _ body decoratorList _ => some (name, ⟨body, decoratorList⟩)
  | _ => none

/-- `class_nodes`. -/
def classNodes (tree : List AST) : Dict String Definition :=
  Dict.update ∅ (tree.filterMap classItem)

/-- `standalone_functions` of a module, or `method_nodes` of a class. -/
def functionNodes (body : List AST) : Dict String Definition :=
  Dict.update ∅ (body.filterMap functionItem)

/-! ## Collection -/

/-- An exception, by whether the code around its source catches it. -/
inductive Raised
  | caught (exc : Text)
  | uncaught (exc : Text)

/-- What ends the collection: its own `RuntimeError`, or an exception that passes through. -/
inductive CollectorError
  | runtimeError (text : Text)
  | uncaught (exc : Text)

/-- What the collection reads besides the scan. -/
structure CollectorInput where
  testsDir : List ScannedPath
  /-- The tree of a file when it is read again. -/
  reread : String → Except Raised (List AST)
  /-- The path of a file below the parent of the tests directory. -/
  fullPath : String → Text
  /-- The text of what `ast.literal_eval` returns for an argument in a file. Only a `ValueError`
  is caught. -/
  literalEval : String → AST → Except Raised Text
  /-- `ast.dump` of an argument in a file. -/
  dump : String → AST → Except Text Text

/-- The texts of the errors. -/
def unreadableText (fullPath exc : Text) : Text :=
  "Failed to read/parse placeholder file ".toList ++ fullPath ++ ": ".toList ++ exc

/-- The error for a class that the file does not have. -/
def noClassText (name : String) (fullPath : Text) : Text :=
  "Scanner/AST mismatch: class '".toList ++ name.toList ++
    "' reported by scan_placeholder_tests but not found in AST of ".toList ++ fullPath

/-- The error for a method that the class does not have. -/
def noMethodText (method cls : String) (fullPath : Text) : Text :=
  "Scanner/AST mismatch: method '".toList ++ method.toList ++ "' in class '".toList ++ cls.toList ++
    "' reported by scan_placeholder_tests but not found in AST of ".toList ++ fullPath

/-- The error for a standalone test that the file does not have. -/
def noStandaloneText (test : String) (fullPath : Text) : Text :=
  "Scanner/AST mismatch: standalone test '".toList ++ test.toList ++
    "' reported by scan_placeholder_tests but not found in AST of ".toList ++ fullPath

section Collection

variable (input : CollectorInput)

/-- `_safe_arg_repr`. -/
def safeArgRepr (filePath : String) (arg : AST) : Except CollectorError Text :=
  match input.literalEval filePath arg with
  | .ok text => .ok text
  | .error (.uncaught exc) => .error (.uncaught exc)
  | .error (.caught _) =>
    match input.dump filePath arg with
    | .ok text => .ok text
    | .error exc => .error (.uncaught exc)

/-- The marker of a decorator with its arguments, if it is one of pytest. -/
def decoratorMarker (filePath : String) : AST → Except CollectorError (List Text)
  | .call _ func args _ =>
    match isPytestMarkAttr func with
    | none => .ok []
    | some marker => do
      let argsRepr := ", ".toList.intercalate (← args.mapM (safeArgRepr input filePath))
      return [if argsRepr.isEmpty then marker.toList
        else marker.toList ++ "(".toList ++ argsRepr ++ ")".toList]
  | decorator => .ok ((isPytestMarkAttr decorator).map String.toList).toList

/-- `_extract_markers`. -/
def extractMarkers (filePath : String) (decorators : List AST) :
    Except CollectorError (List Text) :=
  Outcome.collect (decoratorMarker input filePath) decorators

/-- A class of the scan with its last definition and its markers. -/
structure CollectedClass where
  name : String
  definition : Definition
  markers : List Text

/-- The detail of a test; `cls` is its class, if it has one. -/
def testDetail (filePath : String) (tree : List AST) (cls : Option CollectedClass) (test : String)
    (definition : Definition) (testMarkers : List Text) : FullTestDetail :=
  let nodeId := filePath.toList ++ "::".toList ++
    (match cls with
    | some named => named.name.toList ++ "::".toList ++ test.toList
    | none => test.toList)
  { nodeId
    polarionId := (extractPolarionId definition.decoratorList).map String.toList
    filePath
    className := cls.map CollectedClass.name
    methodName := test
    moduleDocstring := extractDocstring tree
    classDocstring := cls.bind fun named => extractDocstring named.definition.body
    testDocstring := extractDocstring definition.body
    moduleMarkers := extractModuleMarkers tree
    classMarkers := (cls.map CollectedClass.markers).getD []
    classFixtures :=
      (cls.map fun named => extractUsefixtures named.definition.decoratorList).getD []
    testMarkers
    rpName := nodeIdToRpName nodeId }

/-- The test with the last definition of its name, or the error with the given text. -/
def collectTest (filePath : String) (tree : List AST) (cls : Option CollectedClass)
    (nodes : Dict String Definition) (missing : Text) (test : String) :
    Except CollectorError (List FullTestDetail) :=
  match nodes.get test with
  | none => .error (.runtimeError missing)
  | some definition => do
    let testMarkers ← extractMarkers input filePath definition.decoratorList
    return [testDetail filePath tree cls test definition testMarkers]

/-- The tests of a class of the scan. -/
def collectClass (filePath : String) (tree : List AST) (cls : PlaceholderClass) :
    Except CollectorError (List FullTestDetail) :=
  match (classNodes tree).get cls.name with
  | none => .error (.runtimeError (noClassText cls.name (input.fullPath filePath)))
  | some definition => do
    let markers ← extractMarkers input filePath definition.decoratorList
    Outcome.collect (fun method =>
      collectTest input filePath tree (some ⟨cls.name, definition, markers⟩)
        (functionNodes definition.body)
        (noMethodText method cls.name (input.fullPath filePath)) method) cls.testMethods

/-- A standalone test of the scan. -/
def collectStandalone (filePath : String) (tree : List AST) (test : String) :
    Except CollectorError (List FullTestDetail) :=
  collectTest input filePath tree none (functionNodes tree)
    (noStandaloneText test (input.fullPath filePath)) test

/-- The tests of a file of the scan. -/
def collectFile (file : PlaceholderFile) : Except CollectorError (List FullTestDetail) :=
  match input.reread file.filePath with
  | .error (.uncaught exc) => .error (.uncaught exc)
  | .error (.caught exc) =>
    .error (.runtimeError (unreadableText (input.fullPath file.filePath) exc))
  | .ok tree => do
    let classes ← Outcome.collect (collectClass input file.filePath tree) file.classes
    let standalone ←
      Outcome.collect (collectStandalone input file.filePath tree) file.standaloneTests
    return classes ++ standalone

variable (unicode : Unicode) (lowering : Lowering) (order : SetOrder)

/-- The markers of a test that a filter looks at. -/
def FullTestDetail.markers (detail : FullTestDetail) : DetailMarkers :=
  ⟨detail.moduleMarkers, detail.classMarkers, detail.testMarkers⟩

/-- `_matches_keyword_filter`. -/
def matchesKeywordFilter (detail : FullTestDetail) (keywordFilter : Text) : Bool :=
  contains (lowering.lower keywordFilter) (lowering.lower detail.nodeId)

/-- What both filters let through; a filter that is empty is none. -/
def passesFilters (markerFilter keywordFilter : Option Text) (detail : FullTestDetail) : Bool :=
  ((markerFilter.filter (· ≠ [])).all
      (matchesMarkerFilter unicode lowering order detail.markers)) &&
    (keywordFilter.filter (· ≠ [])).all (matchesKeywordFilter lowering detail)

/-- `collect_placeholder_details`. -/
def collectPlaceholderDetails (markerFilter keywordFilter : Option Text) :
    Except CollectorError (List FullTestDetail) := do
  let details ← Outcome.collect (collectFile input) (scanPlaceholderTests input.testsDir)
  return sortedBy (fun detail => detail.nodeId.map Char.toNat)
    (details.filter (passesFilters unicode lowering order markerFilter keywordFilter))

end Collection

/-! ## Lookups of the scan -/

/-- A name that some item has is found, with the value of such an item. -/
theorem exists_get_of_mem (items : List (String × Definition)) (name : String)
    (definition : Definition) (inside : (name, definition) ∈ items) :
    ∃ found, (Dict.update ∅ items).get name = some found := by
  apply Option.ne_none_iff_exists'.mp
  rw [ne_eq, Dict.get_update_eq_none]
  rintro ⟨-, absent⟩
  exact absent _ inside rfl

/-- If names are given once, a name is found with its own value. -/
theorem get_of_distinct (items : List (String × Definition)) (distinct : (items.map Prod.fst).Nodup)
    (name : String) (definition : Definition) (inside : (name, definition) ∈ items) :
    (Dict.update ∅ items).get name = some definition := by
  rw [Dict.get_eq_some_iff, Dict.items_update_of_distinct]
  · exact List.mem_append_right _ inside
  · exact distinct

/-- A listed function is defined by a statement, with a docstring alone. -/
theorem exists_function (flag : String → Bool) (body : List AST) (name : String)
    (listed : name ∈ marked flag true (testFunctions body)) :
    ∃ statement ∈ body, ∃ test, testFunction statement = some test ∧ isPlaceholderBody test = true ∧
      test.name = name := by
  obtain ⟨test, selected, named⟩ := List.mem_map.mp listed
  rw [List.mem_filter, Bool.and_eq_true, beq_iff_eq] at selected
  obtain ⟨statement, inside, function⟩ := List.mem_filterMap.mp selected.1
  exact ⟨statement, inside, test, function, selected.2.2, named⟩

/-- A test function is in the table of functions. -/
theorem functionItem_of_test (statement : AST) (test : TestFunction)
    (function : testFunction statement = some test) :
    ∃ decoratorList, functionItem statement = some (test.name, ⟨test.body, decoratorList⟩) := by
  unfold testFunction at function
  split at function
  · split at function
    · cases function
      exact ⟨_, rfl⟩
    · cases function
  · cases function

/-- A body that is a docstring has one. -/
theorem exists_docstring (test : TestFunction) (placeholder : isPlaceholderBody test = true) :
    ∃ docstring, extractDocstring test.body = some docstring := by
  have first (statement : AST) (rest : List AST) (isDoc : isDocstring statement = true) :
      ∃ docstring, extractDocstring (statement :: rest) = some docstring := by
    unfold isDocstring at isDoc
    split at isDoc
    · exact ⟨_, rfl⟩
    · cases isDoc
  unfold isPlaceholderBody at placeholder
  split at placeholder
  · rename_i only body
    rw [body]
    exact first only [] placeholder
  · rename_i opening second body
    rw [body]
    exact first opening [second] (Bool.and_eq_true_iff.mp placeholder).1
  · cases placeholder

/-- A listed class is defined by a statement, and its methods in the body of that. -/
theorem exists_class (moduleIsPlaceholder : Bool) (tree : List AST) (cls : PlaceholderClass)
    (listed : cls ∈ tree.filterMap (classEntry moduleIsPlaceholder)) :
    ∃ statement ∈ tree, ∃ definition, classItem statement = some (cls.name, definition) ∧
      ∀ method ∈ cls.testMethods, ∃ flag,
        method ∈ marked flag true (testFunctions definition.body) := by
  obtain ⟨statement, inside, entry⟩ := List.mem_filterMap.mp listed
  have methods := (listed_classEntry moduleIsPlaceholder statement).1
  refine ⟨statement, inside, ?_⟩
  rw [entry] at methods
  cases statement with
  | classDef info name bases keywords body decoratorList =>
    have named : cls.name = name := by
      dsimp only [classEntry, placeholderClass] at entry
      split at entry
      · cases entry
      · cases entry
        rfl
    subst named
    refine ⟨_, rfl, ?_⟩
    intro method found
    have same : cls.testMethods = _ := methods
    rw [same] at found
    exact ⟨_, found⟩
  | _ => cases entry

/-! ## What is collected -/

section Collected

variable (input : CollectorInput)

/-- The files are the same when they are read again. -/
def Unchanged : Prop :=
  ∀ file ∈ input.testsDir, ∀ source tree, file.content = some source → source.tree = some tree →
    input.reread file.relativePath = .ok tree

/-- An argument can be written: it is a literal, or it is refused with a `ValueError` and can be
dumped. -/
def IsRepresentable (filePath : String) (arg : AST) : Prop :=
  (∃ text, input.literalEval filePath arg = .ok text) ∨
    (∃ exc, input.literalEval filePath arg = .error (.caught exc)) ∧
      ∃ text, input.dump filePath arg = .ok text

/-- The arguments of a decorator that are written. -/
def markArguments : AST → List AST
  | .call _ func args _ => if (isPytestMarkAttr func).isSome then args else []
  | _ => []

/-- The markers of a definition can be written. -/
def Representable (filePath : String) (definition : Definition) : Prop :=
  ∀ decorator ∈ definition.decoratorList, ∀ arg ∈ markArguments decorator,
    IsRepresentable input filePath arg

/-- A name is that of a function, the last of which has markers that can be written. -/
def IsLookedUp (filePath : String) (nodes : Dict String Definition) (test : String) : Prop :=
  ∃ definition, nodes.get test = some definition ∧ Representable input filePath definition

/-- The last definition of a listed class has functions with the names of the listed methods, and
markers that can be written, like these functions. -/
def KeepsMethods (filePath : String) (tree : List AST) (cls : PlaceholderClass) : Prop :=
  ∃ node, (classNodes tree).get cls.name = some node ∧ Representable input filePath node ∧
    ∀ method ∈ cls.testMethods, IsLookedUp input filePath (functionNodes node.body) method

/-- The classes of an entry are kept when the file is read again, and the markers of the last
definitions of its standalone tests can be written. -/
structure CanBeCollected (tree : List AST) (entry : PlaceholderFile) : Prop where
  classes : ∀ cls ∈ entry.classes, KeepsMethods input entry.filePath tree cls
  standalone : ∀ test ∈ entry.standaloneTests, ∀ definition,
    (functionNodes tree).get test = some definition →
      Representable input entry.filePath definition

/-- The text of an argument is returned exactly when the argument is representable. -/
theorem safeArgRepr_returns_iff (filePath : String) (arg : AST) :
    (∃ text, safeArgRepr input filePath arg = .ok text) ↔ IsRepresentable input filePath arg := by
  unfold safeArgRepr IsRepresentable
  rcases input.literalEval filePath arg with (exc | exc) | text
  · cases input.dump filePath arg <;> simp
  · simp
  · simp

/-- A decorator is read when the arguments of its marker are representable. -/
theorem decoratorMarker_returns_iff (filePath : String) (decorator : AST) :
    (∃ markers, decoratorMarker input filePath decorator = .ok markers) ↔
      ∀ arg ∈ markArguments decorator, IsRepresentable input filePath arg := by
  have plain (names : List Text) (args : List AST) (empty : args = []) :
      (∃ markers, (.ok names : Except CollectorError (List Text)) = .ok markers) ↔
        ∀ arg ∈ args, IsRepresentable input filePath arg := by
    rw [empty]
    exact ⟨fun _ _ inside => absurd inside List.not_mem_nil, fun _ => ⟨names, rfl⟩⟩
  cases decorator with
  | call info func args keywords =>
    rw [decoratorMarker, markArguments]
    cases isPytestMarkAttr func with
    | none => exact plain _ _ rfl
    | some marker =>
      simp only [Option.isSome_some, ↓reduceIte, ← safeArgRepr_returns_iff,
        ← Outcome.mapM_returns, Outcome.bind_eq_ok]
      constructor
      · rintro ⟨markers, reprs, ran, -⟩
        exact ⟨reprs, ran⟩
      · rintro ⟨reprs, ran⟩
        exact ⟨_, reprs, ran, rfl⟩
  | _ => exact plain _ _ rfl

/-- The markers of a definition are read when its decorators are representable. -/
theorem extractMarkers_returns_iff (filePath : String) (definition : Definition) :
    (∃ markers, extractMarkers input filePath definition.decoratorList = .ok markers) ↔
      Representable input filePath definition := by
  rw [extractMarkers, Outcome.collect_returns_iff, Representable]
  exact forall₂_congr fun decorator _ => decoratorMarker_returns_iff input filePath decorator

/-- A test is collected when its definition is found and can be written. -/
theorem collectTest_returns_iff (filePath : String) (tree : List AST) (cls : Option CollectedClass)
    (nodes : Dict String Definition) (missing : Text) (test : String) :
    (∃ details, collectTest input filePath tree cls nodes missing test = .ok details) ↔
      IsLookedUp input filePath nodes test := by
  unfold collectTest IsLookedUp
  cases nodes.get test with
  | none => simp
  | some definition =>
    simp only [Option.some.injEq, exists_eq_left', ← extractMarkers_returns_iff,
      Outcome.bind_eq_ok]
    constructor
    · rintro ⟨_, markers, ran, -⟩
      exact ⟨markers, ran⟩
    · rintro ⟨markers, ran⟩
      exact ⟨_, markers, ran, rfl⟩

/-- A test that is collected has the last definition of its name. -/
theorem collectTest_eq_ok (filePath : String) (tree : List AST) (cls : Option CollectedClass)
    (nodes : Dict String Definition) (missing : Text) (test : String)
    (details : List FullTestDetail)
    (collected : collectTest input filePath tree cls nodes missing test = .ok details) :
    ∃ definition markers, nodes.get test = some definition ∧
      details = [testDetail filePath tree cls test definition markers] := by
  unfold collectTest at collected
  split at collected
  · cases collected
  · rename_i definition found
    simp only [Outcome.bind_eq_ok] at collected
    obtain ⟨markers, -, whole⟩ := collected
    cases whole
    exact ⟨definition, markers, found, rfl⟩

/-- The file behind an entry of the scan. -/
theorem exists_scanned (unchanged : Unchanged input) (entry : PlaceholderFile)
    (inside : entry ∈ scanPlaceholderTests input.testsDir) :
    ∃ file ∈ input.testsDir, ∃ source tree, file.content = some source ∧
      source.tree = some tree ∧
        collectPlaceholders tree file.relativePath (statementsHaveTestFalse tree) = some entry ∧
        entry.filePath = file.relativePath ∧ input.reread entry.filePath = .ok tree := by
  obtain ⟨file, listed, scanned⟩ := List.mem_filterMap.mp inside
  have path := scanFile_path file entry scanned
  rw [scanFile, Option.bind_eq_some_iff] at scanned
  obtain ⟨source, content, found⟩ := scanned
  unfold scannedFile at found
  split at found
  · obtain ⟨tree, parsed, collected⟩ := Option.bind_eq_some_iff.mp found
    refine ⟨file, listed, source, tree, content, parsed, collected, path, ?_⟩
    rw [path]
    exact unchanged file listed source tree content parsed
  · cases found

/-- The classes of an entry are those of its module. -/
theorem classes_of_scanned (tree : List AST) (path : String) (entry : PlaceholderFile)
    (scanned : collectPlaceholders tree path (statementsHaveTestFalse tree) = some entry) :
    entry.classes = tree.filterMap (classEntry (statementsHaveTestFalse tree)) ∧
      entry.standaloneTests = marked (flagged (statementsHaveTestFalse tree) tree) true
        (testFunctions tree) := by
  have classes := listed_classes tree path
  have functions := (listed_standalone tree path).1
  rw [scanned] at classes functions
  exact ⟨classes, functions⟩

/-- A class is collected when it keeps its methods. -/
theorem collectClass_returns_iff (path : String) (tree : List AST) (cls : PlaceholderClass) :
    (∃ details, collectClass input path tree cls = .ok details) ↔
      KeepsMethods input path tree cls := by
  unfold collectClass KeepsMethods
  cases (classNodes tree).get cls.name with
  | none => simp
  | some node =>
    simp only [Option.some.injEq, exists_eq_left', ← extractMarkers_returns_iff,
      Outcome.bind_eq_ok]
    constructor
    · rintro ⟨details, markers, ran, collected⟩
      refine ⟨⟨markers, ran⟩, fun method found => ?_⟩
      exact (collectTest_returns_iff input path tree _ _ _ method).mp
        ((Outcome.collect_returns_iff _ _).mp ⟨details, collected⟩ method found)
    · rintro ⟨⟨markers, ran⟩, lookups⟩
      obtain ⟨details, collected⟩ := (Outcome.collect_returns_iff (fun method =>
        collectTest input path tree (some ⟨cls.name, node, markers⟩) (functionNodes node.body)
          (noMethodText method cls.name (input.fullPath path)) method) cls.testMethods).mpr
        fun method found =>
          (collectTest_returns_iff input path tree _ _ _ method).mpr (lookups method found)
      exact ⟨details, markers, ran, collected⟩

/-- The methods of a class that is collected have their last definitions. -/
theorem mem_collectClass (path : String) (tree : List AST) (cls : PlaceholderClass)
    (details : List FullTestDetail) (collected : collectClass input path tree cls = .ok details) :
    ∃ node markers, (classNodes tree).get cls.name = some node ∧
      Outcome.collect (fun method =>
        collectTest input path tree (some ⟨cls.name, node, markers⟩) (functionNodes node.body)
          (noMethodText method cls.name (input.fullPath path)) method) cls.testMethods =
        .ok details := by
  unfold collectClass at collected
  split at collected
  · cases collected
  · rename_i node found
    rw [Outcome.bind_eq_ok] at collected
    obtain ⟨markers, -, ran⟩ := collected
    exact ⟨node, markers, found, ran⟩

/-- The lookup of a standalone test does not fail. -/
theorem exists_standalone (tree : List AST) (test : String)
    (listed : test ∈
      marked (flagged (statementsHaveTestFalse tree) tree) true (testFunctions tree)) :
    ∃ definition, (functionNodes tree).get test = some definition := by
  obtain ⟨statement, inside, function, isTest, -, named⟩ := exists_function _ tree test listed
  obtain ⟨decorators, item⟩ := functionItem_of_test statement function isTest
  rw [named] at item
  exact exists_get_of_mem (tree.filterMap functionItem) test _
    (List.mem_filterMap.mpr ⟨statement, inside, item⟩)

/-- A file fails at a class that is defined again without its methods, at a marker that cannot be
written, and at nothing else. -/
theorem collectFile_returns_iff (tree : List AST) (path : String) (entry : PlaceholderFile)
    (scanned : collectPlaceholders tree path (statementsHaveTestFalse tree) = some entry)
    (again : input.reread entry.filePath = .ok tree) :
    (∃ details, collectFile input entry = .ok details) ↔ CanBeCollected input tree entry := by
  have classes : (∃ details, Outcome.collect (collectClass input entry.filePath tree)
      entry.classes = .ok details) ↔
        ∀ cls ∈ entry.classes, KeepsMethods input entry.filePath tree cls := by
    simp only [Outcome.collect_returns_iff, collectClass_returns_iff]
  have standalone : (∃ details, Outcome.collect (collectStandalone input entry.filePath tree)
      entry.standaloneTests = .ok details) ↔
        ∀ test ∈ entry.standaloneTests, ∀ definition,
          (functionNodes tree).get test = some definition →
            Representable input entry.filePath definition := by
    simp only [Outcome.collect_returns_iff, collectStandalone, collectTest_returns_iff]
    apply forall₂_congr
    intro test listed
    rw [(classes_of_scanned tree path entry scanned).2] at listed
    obtain ⟨found, lookup⟩ := exists_standalone tree test listed
    simp only [IsLookedUp, lookup, Option.some.injEq, exists_eq_left', forall_eq']
  rw [collectFile, again]
  simp only [Outcome.bind_eq_ok]
  constructor
  · rintro ⟨details, ofClasses, ranClasses, ofTests, ranTests, -⟩
    exact ⟨classes.mp ⟨ofClasses, ranClasses⟩, standalone.mp ⟨ofTests, ranTests⟩⟩
  · rintro ⟨keeps, found⟩
    obtain ⟨ofClasses, ranClasses⟩ := classes.mpr keeps
    obtain ⟨ofTests, ranTests⟩ := standalone.mpr found
    exact ⟨_, ofClasses, ranClasses, ofTests, ranTests, rfl⟩

/-- The node ids of a collected class are those of the scan. -/
theorem collectClass_nodeIds (path : String) (tree : List AST) (cls : PlaceholderClass)
    (details : List FullTestDetail) (collected : collectClass input path tree cls = .ok details) :
    (details.map fun detail => detail.nodeId) =
      cls.testMethods.map fun method =>
        path.toList ++ "::".toList ++ (cls.name.toList ++ "::".toList ++ method.toList) := by
  obtain ⟨node, markers, -, ran⟩ := mem_collectClass input path tree cls details collected
  rw [← List.flatMap_singleton' (cls.testMethods.map _), List.flatMap_map]
  apply Outcome.map_collect _ _ _ _ _ _ ran
  intro method _ part yields
  obtain ⟨definition, testMarkers, -, rfl⟩ :=
    collectTest_eq_ok input path tree _ _ _ method part yields
  rfl

/-- The node ids of a file are those that are reported for it. -/
theorem collectFile_nodeIds (entry : PlaceholderFile) (details : List FullTestDetail)
    (collected : collectFile input entry = .ok details) :
    (details.map fun detail => detail.nodeId) = placeholderTests.nodeIds entry := by
  unfold collectFile at collected
  split at collected
  · cases collected
  · cases collected
  · rename_i tree _
    simp only [Outcome.bind_eq_ok] at collected
    obtain ⟨classes, ofClasses, standalone, ofTests, whole⟩ := collected
    cases whole
    have first := Outcome.map_collect (fun detail : FullTestDetail => detail.nodeId) _ _ _
      (fun cls _ part yields => collectClass_nodeIds input entry.filePath tree cls part yields) _
      ofClasses
    have second := Outcome.map_collect (fun detail : FullTestDetail => detail.nodeId)
      (fun test => [entry.filePath.toList ++ "::".toList ++ test.toList]) _ _ (by
        intro test _ part yields
        obtain ⟨definition, testMarkers, -, rfl⟩ :=
          collectTest_eq_ok input entry.filePath tree _ _ _ test part yields
        rfl) _ ofTests
    have entries : placeholderTests.nodeIds entry =
        (entry.classes.flatMap fun cls => cls.testMethods.map fun method =>
          entry.filePath.toList ++ "::".toList ++
            (cls.name.toList ++ "::".toList ++ method.toList)) ++
          entry.standaloneTests.flatMap fun test =>
            [entry.filePath.toList ++ "::".toList ++ test.toList] := by
      rw [Category.nodeIds, Category.entries, List.map_append, List.map_flatMap]
      simp only [List.map_map]
      exact congrArg _ List.map_eq_flatMap
    rw [List.map_append, first, second, entries]

/-! ### Collection as a whole -/

variable (unicode : Unicode) (lowering : Lowering) (order : SetOrder)

/-- A collection that ends returns the selected details of all files, sorted. -/
theorem collected_iff (markerFilter keywordFilter : Option Text) (details : List FullTestDetail) :
    collectPlaceholderDetails input unicode lowering order markerFilter keywordFilter =
        .ok details ↔
      ∃ all, Outcome.collect (collectFile input) (scanPlaceholderTests input.testsDir) = .ok all ∧
        sortedBy (fun detail => detail.nodeId.map Char.toNat)
          (all.filter (passesFilters unicode lowering order markerFilter keywordFilter)) =
            details := by
  rw [collectPlaceholderDetails, Outcome.bind_eq_ok]
  simp only [pure, Except.pure, Except.ok.injEq]

/-- Without filters every test is selected. -/
theorem passesFilters_none (detail : FullTestDetail) :
    passesFilters unicode lowering order none none detail = true := rfl

/-- The node ids that are collected are those that the statistics report. -/
theorem collected_nodeIds (all : List FullTestDetail)
    (collected :
      Outcome.collect (collectFile input) (scanPlaceholderTests input.testsDir) = .ok all)
    (distinct : (input.testsDir.map ScannedPath.relativePath).Nodup) :
    (all.map fun detail => detail.nodeId) =
      (outputJson (scanPlaceholderTests input.testsDir)).placeholder.listed := by
  have reported : (outputJson (scanPlaceholderTests input.testsDir)).placeholder.listed =
      (scanPlaceholderTests input.testsDir).flatMap placeholderTests.nodeIds :=
    placeholderTests.listed_report _ (scan_paths_nodup input.testsDir distinct)
  rw [reported]
  exact Outcome.map_collect _ _ _ _
    (fun entry _ part yields => collectFile_nodeIds input entry part yields) _ collected

/-- Whatever the filters are, the collection succeeds if every class and every standalone test that
is listed keeps what is listed in the last definition of its name, with markers that can be written.
It is then the unfiltered one without what the filters hold back, and that is what the statistics
report, in the order of the node ids.

Proof: lookups and markers are all that fails. Sorting does not see what has been left out. -/
theorem collected_as_reported (distinct : (input.testsDir.map ScannedPath.relativePath).Nodup)
    (unchanged : Unchanged input) (markerFilter keywordFilter : Option Text) :
    ((∃ details, collectPlaceholderDetails input unicode lowering order markerFilter keywordFilter =
        .ok details) ↔
      ∀ entry ∈ scanPlaceholderTests input.testsDir, ∀ tree,
        input.reread entry.filePath = .ok tree → CanBeCollected input tree entry) ∧
      ∀ details, collectPlaceholderDetails input unicode lowering order markerFilter keywordFilter =
          .ok details →
        ∃ all, collectPlaceholderDetails input unicode lowering order none none = .ok all ∧
          details = all.filter (passesFilters unicode lowering order markerFilter keywordFilter) ∧
          (all.map fun detail => detail.nodeId) = sortedBy (List.map Char.toNat)
            (outputJson (scanPlaceholderTests input.testsDir)).placeholder.listed ∧
          all.length =
            (outputJson (scanPlaceholderTests input.testsDir)).placeholder.totalTests := by
  constructor
  · have runs : (∃ details,
        collectPlaceholderDetails input unicode lowering order markerFilter keywordFilter =
          .ok details) ↔
        ∃ all, Outcome.collect (collectFile input) (scanPlaceholderTests input.testsDir) =
          .ok all := by
      simp only [collected_iff]
      constructor
      · rintro ⟨_, all, collected, -⟩
        exact ⟨all, collected⟩
      · rintro ⟨all, collected⟩
        exact ⟨_, all, collected, rfl⟩
    rw [runs, Outcome.collect_returns_iff]
    apply forall₂_congr
    intro entry inside
    obtain ⟨file, -, source, tree, -, -, scanned, -, again⟩ :=
      exists_scanned input unchanged entry inside
    rw [collectFile_returns_iff input tree file.relativePath entry scanned again]
    constructor
    · intro keeps other same
      rw [again, Except.ok.injEq] at same
      subst same
      exact keeps
    · exact fun keeps => keeps tree again
  · intro details collected
    rw [collected_iff] at collected
    obtain ⟨all, ran, rfl⟩ := collected
    have everything : all.filter (passesFilters unicode lowering order none none) = all :=
      List.filter_eq_self.mpr fun detail _ => passesFilters_none unicode lowering order detail
    have nodeIds := collected_nodeIds input all ran distinct
    refine ⟨sortedBy (fun detail => detail.nodeId.map Char.toNat) all, ?_, ?_, ?_, ?_⟩
    · rw [collected_iff]
      exact ⟨all, ran, congrArg _ everything⟩
    · rw [sortedBy_filter]
    · rw [map_sortedBy (fun detail : FullTestDetail => detail.nodeId) (List.map Char.toNat),
        nodeIds]
    · have totals := (placeholderTests.report_totals _
        (scan_paths_nodup input.testsDir distinct)).1
      rw [length_sortedBy, ← List.length_map (fun detail : FullTestDetail => detail.nodeId),
        nodeIds]
      exact totals.symm

/-! ### Names that are given once -/

/-- No name is given twice, to classes or to functions of the module, or to methods of a class. -/
structure DistinctNames (tree : List AST) : Prop where
  classes : ((tree.filterMap classItem).map Prod.fst).Nodup
  functions : ((tree.filterMap functionItem).map Prod.fst).Nodup
  methods : ∀ item ∈ tree.filterMap classItem,
    ((item.2.body.filterMap functionItem).map Prod.fst).Nodup

/-- The markers of all classes, methods and functions can be written. -/
structure WritableMarkers (filePath : String) (tree : List AST) : Prop where
  classes : ∀ item ∈ tree.filterMap classItem, Representable input filePath item.2
  functions : ∀ item ∈ tree.filterMap functionItem, Representable input filePath item.2
  methods : ∀ item ∈ tree.filterMap classItem, ∀ method ∈ item.2.body.filterMap functionItem,
    Representable input filePath method.2

/-- The statements among which a test is defined. -/
def IsScope (tree : List AST) (className : Option String) (body : List AST) : Prop :=
  match className with
  | none => body = tree
  | some name => ∃ statement ∈ tree, ∃ decoratorList,
      classItem statement = some (name, ⟨body, decoratorList⟩)

/-- A detail has the docstring of a placeholder of its scope, the only function of its name there.
-/
def Documents (tree : List AST) (detail : FullTestDetail) : Prop :=
  ∃ body, IsScope tree detail.className body ∧
    ∃ statement ∈ body, ∃ test, testFunction statement = some test ∧
      isPlaceholderBody test = true ∧ test.name = detail.methodName ∧
        detail.testDocstring = extractDocstring test.body ∧ detail.testDocstring ≠ none

/-- A listed test is looked up as it is defined. -/
theorem lookup_of_distinct (flag : String → Bool) (body : List AST)
    (distinct : ((body.filterMap functionItem).map Prod.fst).Nodup) (name : String)
    (listed : name ∈ marked flag true (testFunctions body)) :
    ∃ statement ∈ body, ∃ test decoratorList, testFunction statement = some test ∧
      isPlaceholderBody test = true ∧ test.name = name ∧
        (functionNodes body).get name = some ⟨test.body, decoratorList⟩ ∧
        (name, ⟨test.body, decoratorList⟩) ∈ body.filterMap functionItem := by
  obtain ⟨statement, inside, test, isTest, placeholder, named⟩ :=
    exists_function flag body name listed
  obtain ⟨decoratorList, item⟩ := functionItem_of_test statement test isTest
  rw [named] at item
  have isFunction : (name, ⟨test.body, decoratorList⟩) ∈ body.filterMap functionItem :=
    List.mem_filterMap.mpr ⟨statement, inside, item⟩
  exact ⟨statement, inside, test, decoratorList, isTest, placeholder, named,
    get_of_distinct _ distinct name _ isFunction, isFunction⟩

/-- A placeholder has a docstring. -/
theorem hasDocstring (test : TestFunction) (placeholder : isPlaceholderBody test = true) :
    extractDocstring test.body ≠ none := by
  obtain ⟨docstring, isDoc⟩ := exists_docstring test placeholder
  rw [isDoc]
  exact Option.some_ne_none docstring

/-- A class that the scan lists is collected, with the docstrings of its tests. -/
theorem collectClass_documents (path : String) (tree : List AST) (distinct : DistinctNames tree)
    (writable : WritableMarkers input path tree) (cls : PlaceholderClass)
    (listed : cls ∈ tree.filterMap (classEntry (statementsHaveTestFalse tree))) :
    KeepsMethods input path tree cls ∧
      ∀ details, collectClass input path tree cls = .ok details →
        ∀ detail ∈ details, detail.filePath = path ∧ Documents tree detail := by
  obtain ⟨statement, inside, definition, item, methods⟩ := exists_class _ tree cls listed
  have isItem : (cls.name, definition) ∈ tree.filterMap classItem :=
    List.mem_filterMap.mpr ⟨statement, inside, item⟩
  have lookup : (classNodes tree).get cls.name = some definition :=
    get_of_distinct _ distinct.classes _ _ isItem
  constructor
  · refine ⟨definition, lookup, writable.classes _ isItem, ?_⟩
    intro method found
    obtain ⟨flag, isListed⟩ := methods method found
    obtain ⟨statement, here, test, decoratorList, isTest, -, named, looked, isFunction⟩ :=
      lookup_of_distinct flag definition.body (distinct.methods _ isItem) method isListed
    exact ⟨_, looked, writable.methods _ isItem _ isFunction⟩
  · intro details collected detail isDetail
    obtain ⟨node, markers, foundNode, ran⟩ := mem_collectClass input path tree cls details collected
    rw [lookup, Option.some.injEq] at foundNode
    subst foundNode
    obtain ⟨method, found, part, yields, isPart⟩ := Outcome.mem_collect _ _ _ ran detail isDetail
    obtain ⟨flag, isListed⟩ := methods method found
    obtain ⟨function, here, test, decoratorList, isTest, placeholder, named, looked, -⟩ :=
      lookup_of_distinct flag definition.body (distinct.methods _ isItem) method isListed
    obtain ⟨last, testMarkers, isLast, rfl⟩ :=
      collectTest_eq_ok input path tree _ _ _ method part yields
    rw [looked, Option.some.injEq] at isLast
    subst isLast
    rw [List.mem_singleton] at isPart
    subst isPart
    exact ⟨rfl, definition.body, ⟨statement, inside, definition.decoratorList, item⟩, function,
      here, test, isTest, placeholder, named, rfl, hasDocstring test placeholder⟩

/-- A standalone test that the scan lists is collected with its docstring. -/
theorem collectStandalone_documents (path : String) (tree : List AST)
    (distinct : DistinctNames tree)
    (name : String)
    (listed : name ∈ marked (flagged (statementsHaveTestFalse tree) tree) true (testFunctions tree))
    (details : List FullTestDetail)
    (collected : collectStandalone input path tree name = .ok details) :
    ∀ detail ∈ details, detail.filePath = path ∧ Documents tree detail := by
  intro detail isDetail
  obtain ⟨function, here, test, decoratorList, isTest, placeholder, named, looked, -⟩ :=
    lookup_of_distinct _ tree distinct.functions name listed
  obtain ⟨last, testMarkers, isLast, rfl⟩ :=
    collectTest_eq_ok input path tree _ _ _ name details collected
  rw [looked, Option.some.injEq] at isLast
  subst isLast
  rw [List.mem_singleton] at isDetail
  subst isDetail
  exact ⟨rfl, tree, rfl, function, here, test, isTest, placeholder, named, rfl,
    hasDocstring test placeholder⟩

/-- A file of the scan is collected with the docstrings of its tests. -/
theorem collectFile_documents (tree : List AST) (distinct : DistinctNames tree) (path : String)
    (entry : PlaceholderFile) (writable : WritableMarkers input entry.filePath tree)
    (scanned : collectPlaceholders tree path (statementsHaveTestFalse tree) = some entry)
    (again : input.reread entry.filePath = .ok tree) :
    (∃ details, collectFile input entry = .ok details) ∧
      ∀ details, collectFile input entry = .ok details →
        ∀ detail ∈ details, detail.filePath = entry.filePath ∧ Documents tree detail := by
  obtain ⟨classes, functions⟩ := classes_of_scanned tree path entry scanned
  constructor
  · rw [collectFile_returns_iff input tree path entry scanned again]
    constructor
    · rw [classes]
      exact fun cls listed =>
        (collectClass_documents input entry.filePath tree distinct writable cls listed).1
    · rw [functions]
      intro test listed definition lookup
      obtain ⟨statement, here, function, decoratorList, isTest, -, named, looked, isFunction⟩ :=
        lookup_of_distinct _ tree distinct.functions test listed
      rw [looked, Option.some.injEq] at lookup
      subst lookup
      exact writable.functions _ isFunction
  · intro details collected detail inside
    rw [collectFile, again] at collected
    simp only [Outcome.bind_eq_ok] at collected
    obtain ⟨ofClasses, ranClasses, ofTests, ranTests, whole⟩ := collected
    cases whole
    rcases List.mem_append.mp inside with isMethod | isTest
    · obtain ⟨cls, listed, part, yields, isPart⟩ :=
        Outcome.mem_collect _ _ _ ranClasses detail isMethod
      rw [classes] at listed
      exact (collectClass_documents input entry.filePath tree distinct writable cls listed).2 part
        yields detail isPart
    · obtain ⟨test, listed, part, yields, isPart⟩ :=
        Outcome.mem_collect _ _ _ ranTests detail isTest
      rw [functions] at listed
      exact collectStandalone_documents input entry.filePath tree distinct test listed part yields
        detail isPart

/-- Where names are given once and markers can be written, the collection succeeds, and every
collected test has the docstring of the placeholder that the scan has found. -/
theorem collected_documented (unchanged : Unchanged input)
    (distinct : ∀ file ∈ input.testsDir, ∀ source tree, file.content = some source →
      source.tree = some tree → DistinctNames tree)
    (writable : ∀ file ∈ input.testsDir, ∀ source tree, file.content = some source →
      source.tree = some tree → WritableMarkers input file.relativePath tree)
    (markerFilter keywordFilter : Option Text) :
    ∃ details,
      collectPlaceholderDetails input unicode lowering order markerFilter keywordFilter =
        .ok details ∧
      ∀ detail ∈ details, ∃ tree, input.reread detail.filePath = .ok tree ∧
        Documents tree detail := by
  have files : ∀ entry ∈ scanPlaceholderTests input.testsDir,
      (∃ details, collectFile input entry = .ok details) ∧
        ∀ details, collectFile input entry = .ok details → ∀ detail ∈ details,
          ∃ tree, input.reread detail.filePath = .ok tree ∧ Documents tree detail := by
    intro entry inside
    obtain ⟨file, listed, source, tree, content, parsed, scanned, samePath, again⟩ :=
      exists_scanned input unchanged entry inside
    have markers := writable file listed source tree content parsed
    rw [← samePath] at markers
    obtain ⟨runs, documents⟩ := collectFile_documents input tree
      (distinct file listed source tree content parsed) file.relativePath entry markers scanned
      again
    refine ⟨runs, ?_⟩
    intro details collected detail isDetail
    obtain ⟨path, documented⟩ := documents details collected detail isDetail
    rw [← path] at again
    exact ⟨tree, again, documented⟩
  obtain ⟨all, ran⟩ := (Outcome.collect_returns_iff (collectFile input)
    (scanPlaceholderTests input.testsDir)).mpr fun entry inside => (files entry inside).1
  refine ⟨_, (collected_iff input unicode lowering order _ _ _).mpr ⟨all, ran, rfl⟩, ?_⟩
  intro detail inside
  rw [mem_sortedBy] at inside
  obtain ⟨entry, listed, part, yields, isPart⟩ :=
    Outcome.mem_collect _ _ _ ran detail (List.mem_of_mem_filter inside)
  exact (files entry listed).2 part yields detail isPart

end Collected

/-! ## Collected placeholders -/

/-- The tests directory with two modules, which are read again as they are. Of the arguments only
string constants are literals. -/
def diskInput : CollectorInput where
  testsDir := diskTests
  reread path := .ok (if path = "tests/storage/test_disk.py" then diskModule else pingModule)
  fullPath path := "/work/".toList ++ path.toList
  literalEval _
    | .constant _ (.str value) => .ok value.toList
    | _ => .error (.caught "malformed node or string".toList)
  dump _ _ := .ok "Name(id='name', ctx=Load())".toList

/-- What holds of both modules holds of every file that is scanned. -/
theorem forall_diskInput (holds : String → List AST → Prop)
    (disk : holds "tests/storage/test_disk.py" diskModule)
    (ping : holds "tests/network/test_ping.py" pingModule) :
    ∀ file ∈ diskInput.testsDir, ∀ source tree, file.content = some source →
      source.tree = some tree → holds file.relativePath tree := by
  intro file inside source tree content parsed
  rcases List.mem_pair.mp (inside : file ∈ [_, _]) with rfl | rfl
  · cases content
    cases parsed
    exact disk
  · cases content
    cases parsed
    exact ping

/-- The sample directory is read again as it was scanned. -/
theorem diskInput_unchanged : Unchanged diskInput :=
  forall_diskInput (fun path tree => diskInput.reread path = .ok tree) rfl rfl

/-- The names of the tests are collected as they are reported. -/
theorem disk_collected_as_reported :
    ((∃ details, collectPlaceholderDetails diskInput ascii asciiLowering dedupOrder
          (some "polarion # the documented ones".toList) none = .ok details) ↔
      ∀ entry ∈ scanPlaceholderTests diskInput.testsDir, ∀ tree,
        diskInput.reread entry.filePath = .ok tree → CanBeCollected diskInput tree entry) ∧
      ∀ details, collectPlaceholderDetails diskInput ascii asciiLowering dedupOrder
            (some "polarion # the documented ones".toList) none = .ok details →
        ∃ all, collectPlaceholderDetails diskInput ascii asciiLowering dedupOrder none none =
            .ok all ∧
          details = all.filter (passesFilters ascii asciiLowering dedupOrder
            (some "polarion # the documented ones".toList) none) ∧
          (all.map fun detail => detail.nodeId) = sortedBy (List.map Char.toNat)
            (outputJson (scanPlaceholderTests diskInput.testsDir)).placeholder.listed ∧
          all.length =
            (outputJson (scanPlaceholderTests diskInput.testsDir)).placeholder.totalTests :=
  collected_as_reported diskInput ascii asciiLowering dedupOrder (by decide) diskInput_unchanged
    (some "polarion # the documented ones".toList) none

/-- No name is defined twice in the sample modules. -/
theorem diskModules_distinct (tree : List AST) (isModule : tree = diskModule ∨ tree = pingModule) :
    DistinctNames tree := by
  rcases isModule with rfl | rfl
  · constructor
    · decide
    · decide
    · intro item inside
      have only : item = ("TestDisk", _) := List.mem_singleton.mp inside
      subst only
      decide
  · constructor
    · decide
    · decide
    · intro item inside
      cases inside

/-- Definitions without decorators have markers that can be written. -/
theorem representable_undecorated (input : CollectorInput) (filePath : String) (body : List AST) :
    Representable input filePath ⟨body, []⟩ := fun _ inside => by cases inside

/-- The markers of the first sample module can be written. -/
theorem diskModule_writable : WritableMarkers diskInput "tests/storage/test_disk.py" diskModule := by
  constructor
  · intro item inside
    have only : item = ("TestDisk", _) := List.mem_singleton.mp inside
    subst only
    exact representable_undecorated _ _ _
  · intro item inside
    cases inside
  · intro item inside method found
    have only : item = ("TestDisk", _) := List.mem_singleton.mp inside
    subst only
    rcases List.mem_pair.mp (found : method ∈ [_, _]) with rfl | rfl
    · exact representable_undecorated _ _ _
    · exact representable_undecorated _ _ _

/-- The marker of the second sample module can be written. -/
theorem pingModule_writable : WritableMarkers diskInput "tests/network/test_ping.py" pingModule := by
  constructor
  · intro item inside
    cases inside
  · intro item inside
    have only : item = ("test_ping", _) := List.mem_singleton.mp inside
    subst only
    intro decorator isDecorator arg isArgument
    have mark := List.mem_singleton.mp isDecorator
    subst mark
    have id := List.mem_singleton.mp (isArgument : arg ∈ [_])
    subst id
    exact Or.inl ⟨"CNV-7".toList, rfl⟩
  · intro item inside
    cases inside

/-- The sample directory is collected, by the general theorem. -/
theorem disk_collected_documented :
    ∃ details,
      collectPlaceholderDetails diskInput ascii asciiLowering dedupOrder none
        (some "disk".toList) = .ok details ∧
      ∀ detail ∈ details, ∃ tree, diskInput.reread detail.filePath = .ok tree ∧
        Documents tree detail :=
  collected_documented diskInput ascii asciiLowering dedupOrder diskInput_unchanged
    (forall_diskInput (fun _ => DistinctNames) (diskModules_distinct _ (Or.inl rfl))
      (diskModules_distinct _ (Or.inr rfl)))
    (forall_diskInput (WritableMarkers diskInput) diskModule_writable pingModule_writable) none
    (some "disk".toList)

end VirtTestTools.Reporter
