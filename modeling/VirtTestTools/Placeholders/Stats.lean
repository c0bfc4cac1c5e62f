import VirtTestTools.Syntax

/-!
# The statistics of placeholder tests

`std_placeholder_stats.py` lists for each test file the tests that carry
`__test__ = False`: those with a body that is only a docstring as placeholders,
the others as disabled. It looks at the statements of a module and of its classes,
not at what stands inside an `if` or a `try`.
-/

namespace VirtTestTools.Placeholders

open Text

/-- A function definition whose name starts with `test_`. -/
structure TestFunction where
  node : AST
  name : String
  body : List AST

/-- The test functions among statements. -/
def testFunction : AST → Option TestFunction
  | node@(.functionDef _ _ name _ body ..) =>
    if startsWith "test_".toList name.toList then some ⟨node, name, body⟩ else none
  | _ => none

/-- The test functions among some statements. -/
def testFunctions (statements : List AST) : List TestFunction := statements.filterMap testFunction

/-- The target is `__test__`, or `target_name.__test__` when a name is given. -/
def isFlag (targetName : Option String) : AST → Bool
  | .name _ id _ => targetName.isNone && id = "__test__"
  | .attribute _ (.name _ id _) attr => targetName = some id && attr = "__test__"
  | _ => false

/-- `_statements_have_test_false`. -/
def statementsHaveTestFalse (statements : List AST) (targetName : Option String := none) : Bool :=
  statements.any fun
    | .assign _ targets (.constant _ (.bool false)) => targets.any (isFlag targetName)
    | _ => false

/-- An expression statement with a string. -/
def isDocstring : AST → Bool
  | .exprStmt _ (.constant _ (.str _)) => true
  | _ => false

/-- A `pass` statement. -/
def isPass : AST → Bool
  | .other _ .pass _ => true
  | _ => false

/-- `_is_placeholder_body`. -/
def isPlaceholderBody (test : TestFunction) : Bool :=
  match test.body with
  | [only] => isDocstring only
  | [first, second] => isDocstring first && isPass second
  | _ => false

/-- `PlaceholderClass`. -/
structure PlaceholderClass where
  name : String
  testMethods : List String
  disabledMethods : List String
deriving DecidableEq

/-- `PlaceholderFile`. -/
structure PlaceholderFile where
  filePath : String
  classes : List PlaceholderClass := []
  standaloneTests : List String := []
  disabledStandaloneTests : List String := []
deriving DecidableEq

/-- `get_test_methods_from_class`. -/
def getTestMethodsFromClass (body : List AST) : List String :=
  ((testFunctions body).filter isPlaceholderBody).map TestFunction.name

/-- `get_disabled_methods_from_class`. -/
def getDisabledMethodsFromClass (body : List AST) : List String :=
  ((testFunctions body).filter (!isPlaceholderBody ·)).map TestFunction.name

/-- One method of a class without a marker of its own: the placeholder names and the disabled
names so far are extended when the class body says `method_name.__test__ = False`. -/
def collectMethod (body : List AST) (names : List String × List String) (statement : AST) :
    List String × List String :=
  match testFunction statement with
  | none => names
  | some method =>
    if statementsHaveTestFalse body (some method.name) then
      if isPlaceholderBody method then (names.1 ++ [method.name], names.2)
      else (names.1, names.2 ++ [method.name])
    else names

/-- The placeholder names and the disabled names of a class. -/
def classMethods (moduleIsPlaceholder : Bool) (body : List AST) : List String × List String :=
  if moduleIsPlaceholder || statementsHaveTestFalse body then
    (getTestMethodsFromClass body, getDisabledMethodsFromClass body)
  else body.foldl (collectMethod body) ([], [])

/-- The entry of a class, if it lists anything. -/
def placeholderClass (moduleIsPlaceholder : Bool) (name : String) (body : List AST) :
    Option PlaceholderClass :=
  let names := classMethods moduleIsPlaceholder body
  if names.1.isEmpty && names.2.isEmpty then none else some ⟨name, names.1, names.2⟩

/-- One statement of the module. -/
def collectStatement (tree : List AST) (moduleIsPlaceholder : Bool) (placeholder : PlaceholderFile)
    (statement : AST) : PlaceholderFile :=
  match statement with
  | .classDef _ name _ _ body _ =>
    { placeholder with
      classes := placeholder.classes ++ (placeholderClass moduleIsPlaceholder name body).toList }
  | _ =>
    match testFunction statement with
    | none => placeholder
    | some test =>
      if moduleIsPlaceholder || statementsHaveTestFalse tree (some test.name) then
        if isPlaceholderBody test then
          { placeholder with standaloneTests := placeholder.standaloneTests ++ [test.name] }
        else
          { placeholder with
            disabledStandaloneTests := placeholder.disabledStandaloneTests ++ [test.name] }
      else placeholder

/-- `_collect_placeholders`. -/
def collectPlaceholders (tree : List AST) (relativePath : String) (moduleIsPlaceholder : Bool) :
    Option PlaceholderFile :=
  let placeholder :=
    tree.foldl (collectStatement tree moduleIsPlaceholder) { filePath := relativePath }
  if placeholder.classes.isEmpty && placeholder.standaloneTests.isEmpty &&
      placeholder.disabledStandaloneTests.isEmpty then
    none
  else some placeholder

/-- `TEST_ATTR`. -/
def testAttr : Text := "__test__".toList

/-- What `scan_placeholder_tests` collects for a file: nothing if the attribute does not stand in its
text, or if it does not parse. -/
def scannedFile (source : Source) (relativePath : String) : Option PlaceholderFile :=
  if contains testAttr source.text then
    source.tree.bind fun tree => collectPlaceholders tree relativePath (statementsHaveTestFalse tree)
  else none

/-- What an entry lists under one heading; without an entry there is nothing. -/
def listed {ρ α : Type} (select : ρ → List α) (entry : Option ρ) : List α :=
  (entry.map select).getD []

/-! ## What is listed -/

section

variable (tree body : List AST) (moduleIsPlaceholder : Bool)

/-- A test of a scope is flagged from outside or by an assignment to its attribute. -/
def flagged (inherited : Bool) (body : List AST) (name : String) : Bool :=
  inherited || statementsHaveTestFalse body (some name)

/-- The names of the selected tests whose body is on one side. -/
def listing (select : String → Bool) (divide : TestFunction → Bool) (side : Bool)
    (tests : List TestFunction) : List String :=
  (tests.filter fun test => select test.name && divide test == side).map TestFunction.name

/-- A listed name is selected and on its side. -/
theorem mem_listing {select : String → Bool} {divide : TestFunction → Bool} {side : Bool}
    {tests : List TestFunction} {name : String} :
    name ∈ listing select divide side tests ↔
      ∃ test ∈ tests, test.name = name ∧ select name = true ∧ divide test = side := by
  simp only [listing, List.mem_map, List.mem_filter, Bool.and_eq_true, beq_iff_eq]
  constructor
  · rintro ⟨test, ⟨inside, selected, here⟩, rfl⟩
    exact ⟨test, inside, rfl, selected, here⟩
  · rintro ⟨test, inside, rfl, selected, here⟩
    exact ⟨test, ⟨inside, selected, here⟩, rfl⟩

/-- The names of the flagged tests, apart by their bodies. -/
def marked (flagged : String → Bool) (isPlaceholder : Bool) (tests : List TestFunction) :
    List String :=
  listing flagged isPlaceholderBody isPlaceholder tests

/-- The marked tests of two lists. -/
theorem marked_append (flagged : String → Bool) (isPlaceholder : Bool)
    (first second : List TestFunction) :
    marked flagged isPlaceholder (first ++ second) =
      marked flagged isPlaceholder first ++ marked flagged isPlaceholder second := by
  unfold marked listing
  rw [List.filter_append, List.map_append]

/-- The test functions of the first statement and of the rest. -/
theorem testFunctions_cons (statement : AST) (rest : List AST) :
    testFunctions (statement :: rest) = (testFunction statement).toList ++ testFunctions rest := by
  unfold testFunctions
  rw [List.filterMap_cons]
  cases testFunction statement <;> rfl

/-- The loop over the methods collects those the class body flags. -/
theorem foldl_collectMethod (statements : List AST) (names : List String × List String) :
    statements.foldl (collectMethod body) names =
      (names.1 ++ marked (flagged false body) true (testFunctions statements),
        names.2 ++ marked (flagged false body) false (testFunctions statements)) := by
  induction statements generalizing names with
  | nil => simp [testFunctions, marked, listing]
  | cons statement rest inductionHypothesis =>
    have step : collectMethod body names statement =
        (names.1 ++ marked (flagged false body) true (testFunction statement).toList,
          names.2 ++ marked (flagged false body) false (testFunction statement).toList) := by
      unfold collectMethod
      cases testFunction statement with
      | none => simp [marked, listing]
      | some method =>
        cases flag : statementsHaveTestFalse body (some method.name) <;>
          cases placeholder : isPlaceholderBody method <;>
          simp [marked, listing, flagged, flag, placeholder]
    rw [List.foldl_cons, inductionHypothesis, step, testFunctions_cons, marked_append,
      marked_append, List.append_assoc, List.append_assoc]

/-- The names of a class are those of the tests that the module, the class or the method itself
flags. -/
theorem classMethods_eq :
    classMethods moduleIsPlaceholder body =
      (marked (flagged (moduleIsPlaceholder || statementsHaveTestFalse body) body) true
          (testFunctions body),
        marked (flagged (moduleIsPlaceholder || statementsHaveTestFalse body) body) false
          (testFunctions body)) := by
  unfold classMethods
  by_cases inherited : (moduleIsPlaceholder || statementsHaveTestFalse body) = true
  · simp [inherited, marked, listing, flagged, getTestMethodsFromClass, getDisabledMethodsFromClass]
  · rw [if_neg inherited, foldl_collectMethod, Bool.eq_false_iff.mpr inherited]
    simp

/-- One statement adds the function it defines, if that is flagged; a class changes neither list
of functions. -/
theorem collectStatement_standalone (placeholder : PlaceholderFile) (statement : AST) :
    (collectStatement tree moduleIsPlaceholder placeholder statement).standaloneTests =
        placeholder.standaloneTests ++
          marked (flagged moduleIsPlaceholder tree) true (testFunction statement).toList ∧
      (collectStatement tree moduleIsPlaceholder placeholder statement).disabledStandaloneTests =
        placeholder.disabledStandaloneTests ++
          marked (flagged moduleIsPlaceholder tree) false (testFunction statement).toList := by
  unfold collectStatement
  split
  · simp [testFunction, marked, listing]
  · cases testFunction statement with
    | none => simp [marked, listing]
    | some test =>
      have same : (moduleIsPlaceholder || statementsHaveTestFalse tree (some test.name)) =
          flagged moduleIsPlaceholder tree test.name := rfl
      simp only [same]
      cases flag : flagged moduleIsPlaceholder tree test.name <;>
        cases isPlaceholder : isPlaceholderBody test <;> simp [marked, listing, flag,
          isPlaceholder]

/-- The loop over the module collects the flagged functions. -/
theorem foldl_collectStatement (statements : List AST) (placeholder : PlaceholderFile) :
    (statements.foldl (collectStatement tree moduleIsPlaceholder) placeholder).standaloneTests =
        placeholder.standaloneTests ++
          marked (flagged moduleIsPlaceholder tree) true (testFunctions statements) ∧
      (statements.foldl (collectStatement tree moduleIsPlaceholder)
          placeholder).disabledStandaloneTests =
        placeholder.disabledStandaloneTests ++
          marked (flagged moduleIsPlaceholder tree) false (testFunctions statements) := by
  induction statements generalizing placeholder with
  | nil => simp [testFunctions, marked, listing]
  | cons statement rest inductionHypothesis =>
    obtain ⟨placeholders, disabled⟩ := collectStatement_standalone tree
      moduleIsPlaceholder placeholder statement
    rw [List.foldl_cons, (inductionHypothesis _).1, (inductionHypothesis _).2, placeholders,
      disabled, testFunctions_cons, marked_append, marked_append, List.append_assoc,
      List.append_assoc]
    exact ⟨rfl, rfl⟩

/-- The entry of a statement in the list of classes. -/
def classEntry : AST → Option PlaceholderClass
  | .classDef _ name _ _ body _ => placeholderClass moduleIsPlaceholder name body
  | _ => none

/-- The body of a class; other statements have no methods. -/
def classBody : AST → List AST
  | .classDef _ _ _ _ body _ => body
  | _ => []

/-- The entry of a class lists its flagged methods. -/
theorem listed_classEntry (statement : AST) :
    listed PlaceholderClass.testMethods (classEntry moduleIsPlaceholder statement) =
        marked (flagged (moduleIsPlaceholder || statementsHaveTestFalse (classBody statement))
          (classBody statement)) true (testFunctions (classBody statement)) ∧
      listed PlaceholderClass.disabledMethods (classEntry moduleIsPlaceholder statement) =
        marked (flagged (moduleIsPlaceholder || statementsHaveTestFalse (classBody statement))
          (classBody statement)) false (testFunctions (classBody statement)) := by
  cases statement with
  | classDef info name bases keywords body decoratorList =>
    have names := classMethods_eq body moduleIsPlaceholder
    dsimp only [classEntry, placeholderClass, classBody]
    rw [names]
    split
    · rename_i empty
      simp only [Bool.and_eq_true, List.isEmpty_iff] at empty
      rw [empty.1, empty.2]
      exact ⟨rfl, rfl⟩
    · exact ⟨rfl, rfl⟩
  | _ => exact ⟨rfl, rfl⟩

/-- The loop over the module collects the entries of its classes. -/
theorem foldl_collectStatement_classes (statements : List AST) (placeholder : PlaceholderFile) :
    (statements.foldl (collectStatement tree moduleIsPlaceholder) placeholder).classes =
      placeholder.classes ++ statements.filterMap (classEntry moduleIsPlaceholder) := by
  induction statements generalizing placeholder with
  | nil => simp
  | cons statement rest inductionHypothesis =>
    have step : (collectStatement tree moduleIsPlaceholder placeholder statement).classes =
        placeholder.classes ++ (classEntry moduleIsPlaceholder statement).toList := by
      unfold collectStatement classEntry
      split
      · rfl
      · split
        · simp
        · split
          · split <;> simp
          · simp
    rw [List.foldl_cons, inductionHypothesis, step, List.filterMap_cons]
    cases classEntry moduleIsPlaceholder statement <;> simp

/-- The classes of a file are listed in order, each with the names of its flagged methods. -/
theorem listed_classes (relativePath : String) :
    listed PlaceholderFile.classes
        (collectPlaceholders tree relativePath (statementsHaveTestFalse tree)) =
      tree.filterMap (classEntry (statementsHaveTestFalse tree)) := by
  have collected := foldl_collectStatement_classes tree (statementsHaveTestFalse tree) tree
    { filePath := relativePath }
  unfold collectPlaceholders
  dsimp only
  split
  · rename_i empty
    simp only [Bool.and_eq_true, List.isEmpty_iff] at empty
    rw [empty.1.1] at collected
    simpa [listed] using collected
  · simpa [listed] using collected

/-- The standalone tests of a file are the flagged functions of the module. -/
theorem listed_standalone (relativePath : String) :
    listed PlaceholderFile.standaloneTests
        (collectPlaceholders tree relativePath (statementsHaveTestFalse tree)) =
        marked (flagged (statementsHaveTestFalse tree) tree) true (testFunctions tree) ∧
      listed PlaceholderFile.disabledStandaloneTests
        (collectPlaceholders tree relativePath (statementsHaveTestFalse tree)) =
        marked (flagged (statementsHaveTestFalse tree) tree) false (testFunctions tree) := by
  have collected := foldl_collectStatement tree (statementsHaveTestFalse tree) tree
    { filePath := relativePath }
  unfold collectPlaceholders
  dsimp only
  split
  · -- an entry is left out only when all its lists are empty
    rename_i empty
    simp only [Bool.and_eq_true, List.isEmpty_iff] at empty
    rw [empty.1.2, empty.2] at collected
    simpa [listed] using collected
  · simpa [listed] using collected

end

end VirtTestTools.Placeholders
