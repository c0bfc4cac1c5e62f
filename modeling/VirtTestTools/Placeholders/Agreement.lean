import VirtTestTools.Placeholders.Definitions

/-!
# Where the two classifications agree

The statistics and the documentation check decide by themselves which tests are
disabled and which of them are placeholders. They read the flags differently: the
first looks for any plain assignment of `False` among the direct statements, the
second for the last boolean assignment of the scope, annotated ones and those inside
control flow included. They also differ in what may follow the docstring of a
placeholder, and in whether tests inside control flow belong to the module.

Tests are compared by their qualified names: the name of a function of the module, and the
names of a class of the module and a method of it. The statistics do not look at a file
that does not have the attribute in its text.
-/

namespace VirtTestTools.Placeholders

open Text
open AST (scopeStatements)

/-! ## The flags -/

/-- The boolean constant that a statement assigns to a flag. -/
def assigns (flag : Option String) (statement : AST) : Option Bool :=
  match assignedBoolean statement with
  | none => none
  | some (targets, value) => if targets.any (isFlag flag) then some value else none

/-- The last of the statements that assign a boolean constant to the flag assigns `False`. -/
def ClearedLast (flag : Option String) (statements : List AST) : Prop :=
  ∃ before statement after, statements = before ++ statement :: after ∧
    assigns flag statement = some false ∧ ∀ later ∈ after, assigns flag later = none

/-- Among several targets one that is the flag decides. -/
theorem foldl_targets (flag : Option String) (assigned : Bool) (targets : List AST)
    (value : Option Bool) :
    targets.foldl (fun value target => if isFlag flag target then some assigned else value) value =
      if targets.any (isFlag flag) then some assigned else value := by
  induction targets generalizing value with
  | nil => rfl
  | cons target rest inductionHypothesis =>
    rw [List.foldl_cons, inductionHypothesis, List.any_cons]
    cases isFlag flag target <;> simp

/-- A statement assigns the flag, or leaves its value. -/
theorem assignFlag_eq (flag : Option String) (value : Option Bool) (statement : AST) :
    assignFlag flag value statement = (assigns flag statement).or value := by
  unfold assignFlag assigns
  cases assignedBoolean statement with
  | none => rfl
  | some assignment =>
    dsimp only
    rw [foldl_targets]
    split <;> rfl

/-- The flag is cleared last in the rest, or by the first statement. -/
theorem clearedLast_cons (flag : Option String) (first : AST) (rest : List AST) :
    ClearedLast flag (first :: rest) ↔
      ClearedLast flag rest ∨
        assigns flag first = some false ∧ ∀ later ∈ rest, assigns flag later = none := by
  constructor
  · rintro ⟨before, statement, after, split, cleared, silent⟩
    cases before with
    | nil =>
      obtain ⟨rfl, rfl⟩ := List.cons.inj split
      exact Or.inr ⟨cleared, silent⟩
    | cons _ before =>
      obtain ⟨rfl, rfl⟩ := List.cons.inj split
      exact Or.inl ⟨before, statement, after, rfl, cleared, silent⟩
  · rintro (⟨before, statement, after, rfl, cleared, silent⟩ | ⟨cleared, silent⟩)
    · exact ⟨first :: before, statement, after, rfl, cleared, silent⟩
    · exact ⟨[], first, rest, rfl, cleared, silent⟩

/-- The loop ends with `False` when the last assignment to the flag says so, or when there is none
and it started with it. -/
theorem foldl_assignFlag_eq_false_iff (flag : Option String) (statements : List AST)
    (value : Option Bool) :
    statements.foldl (assignFlag flag) value = some false ↔
      ClearedLast flag statements ∨
        value = some false ∧ ∀ later ∈ statements, assigns flag later = none := by
  induction statements generalizing value with
  | nil => simp [ClearedLast]
  | cons first rest inductionHypothesis =>
    rw [List.foldl_cons, inductionHypothesis, assignFlag_eq, clearedLast_cons]
    cases assigned : assigns flag first with
    | none => simp [assigned]
    | some constant => simp [assigned]

/-- The flag is read as false exactly when it is cleared last. -/
theorem booleanAssignment_eq_false_iff (flag : Option String) (statements : List AST) :
    booleanAssignment statements flag = some false ↔ ClearedLast flag statements := by
  unfold booleanAssignment
  rw [foldl_assignFlag_eq_false_iff]
  simp

/-- Some of the flags, each with the statements it is looked for in, is set to `False` by a plain
assignment among these statements. -/
def PlainlyCleared (flags : List (Option String × List AST)) : Prop :=
  ∃ flag ∈ flags, statementsHaveTestFalse flag.2 flag.1 = true

/-- For some of the flags the last boolean assignment of the scope sets it to `False`. -/
def Cleared (flags : List (Option String × List AST)) : Prop :=
  ∃ flag ∈ flags, ClearedLast flag.1 (scopeStatements flag.2)

/-- The flags that disable a function of the module. -/
def functionFlags (tree : List AST) (name : String) : List (Option String × List AST) :=
  [(none, tree), (some name, tree)]

/-- The flags that disable a method of a class of the module. -/
def methodFlags (tree body : List AST) (name : String) : List (Option String × List AST) :=
  [(none, tree), (none, body), (some name, body)]

/-- The statistics take a function as disabled when its flags are plainly cleared. -/
theorem flagged_function_iff (tree : List AST) (name : String) :
    flagged (statementsHaveTestFalse tree) tree name = true ↔
      PlainlyCleared (functionFlags tree name) := by
  simp [flagged, PlainlyCleared, functionFlags]

/-- The statistics take a method as disabled when its flags are plainly cleared. -/
theorem flagged_method_iff (tree body : List AST) (name : String) :
    flagged (statementsHaveTestFalse tree || statementsHaveTestFalse body) body name = true ↔
      PlainlyCleared (methodFlags tree body name) := by
  simp [flagged, PlainlyCleared, methodFlags, or_assoc]

/-- The check takes a function as disabled when its flags are cleared. -/
theorem switchedOff_function_iff (tree : List AST) (name : String) :
    switchedOff (moduleDisabled tree) (scopeStatements tree) name = true ↔
      Cleared (functionFlags tree name) := by
  simp [switchedOff, moduleDisabled, Cleared, functionFlags, booleanAssignment_eq_false_iff]

/-- The check takes a method as disabled when its flags are cleared. -/
theorem switchedOff_method_iff (tree body : List AST) (name : String) :
    switchedOff (moduleDisabled tree || booleanAssignment (scopeStatements body) == some false)
        (scopeStatements body) name = true ↔
      Cleared (methodFlags tree body name) := by
  simp [switchedOff, moduleDisabled, Cleared, methodFlags, booleanAssignment_eq_false_iff,
    or_assoc]

/-! ## The tests of a module -/

/-- A test of a module under its qualified name, with the flags that disable it. -/
structure WrittenTest where
  path : List String
  flags : List (Option String × List AST)
  test : TestFunction

/-- The functions of a module and the methods of its classes, among the statements of a body that
are looked at. -/
def writtenTests (statements : List AST → List AST) (tree : List AST) : List WrittenTest :=
  (testFunctions (statements tree)).map (fun test =>
      ⟨[test.name], functionFlags tree test.name, test⟩) ++
    (statements tree).flatMap fun statement =>
      (testFunctions (statements (classBody statement))).map fun test =>
        ⟨[className statement, test.name], methodFlags tree (classBody statement) test.name, test⟩

/-- The tests directly in the module and directly in the classes there. -/
def directTests : List AST → List WrittenTest := writtenTests id

/-- The tests of the module and of its classes, those inside control flow included. -/
def scopeTests : List AST → List WrittenTest := writtenTests scopeStatements

/-- The qualified names that an entry of the statistics lists, apart by their bodies. -/
def listedPaths (isPlaceholder : Bool) (entry : Option PlaceholderFile) : List (List String) :=
  (listed (if isPlaceholder then PlaceholderFile.standaloneTests
      else PlaceholderFile.disabledStandaloneTests) entry).map ([·]) ++
    (listed PlaceholderFile.classes entry).flatMap fun cls =>
      (if isPlaceholder then cls.testMethods else cls.disabledMethods).map ([cls.name, ·])

/-- The qualified names of the disabled functions and methods among definitions, apart by their
bodies. -/
def definedPaths (isPlaceholder : Bool) (definitions : List TestDefinition) : List (List String) :=
  disabledAt 0 isPlaceholder definitions ++ disabledAt 1 isPlaceholder definitions

/-- Selected tests of a scope under their qualified names. -/
theorem mem_map_listing {select : String → Bool} {flags : String → List (Option String × List AST)}
    {holds : List (Option String × List AST) → Prop}
    (selected : ∀ name, select name = true ↔ holds (flags name)) {divide : TestFunction → Bool}
    {side : Bool} {tests : List TestFunction} {path : List String} (parents : List String) :
    path ∈ (listing select divide side tests).map (parents ++ [·]) ↔
      ∃ written ∈ tests.map fun test =>
          (⟨parents ++ [test.name], flags test.name, test⟩ : WrittenTest),
        written.path = path ∧ holds written.flags ∧ divide written.test = side := by
  simp only [List.mem_map, mem_listing, selected]
  constructor
  · rintro ⟨_, ⟨test, inside, rfl, held, here⟩, rfl⟩
    exact ⟨_, ⟨test, inside, rfl⟩, rfl, held, here⟩
  · rintro ⟨_, ⟨test, inside, rfl⟩, rfl, held, here⟩
    exact ⟨_, ⟨test, inside, rfl, held, here⟩, rfl⟩

/-- What holds of the tests of a module holds of the functions or of the methods of a class. -/
theorem exists_writtenTest {statements : List AST → List AST} {tree : List AST}
    {holds : WrittenTest → Prop} :
    (∃ written ∈ writtenTests statements tree, holds written) ↔
      (∃ written ∈ (testFunctions (statements tree)).map fun test =>
          (⟨[] ++ [test.name], functionFlags tree test.name, test⟩ : WrittenTest), holds written) ∨
        ∃ statement ∈ statements tree,
          ∃ written ∈ (testFunctions (statements (classBody statement))).map fun test =>
            (⟨[className statement] ++ [test.name],
              methodFlags tree (classBody statement) test.name, test⟩ : WrittenTest), holds written := by
  unfold writtenTests
  simp only [List.mem_append, List.mem_flatMap, or_and_right, exists_or]
  apply or_congr Iff.rfl
  constructor
  · rintro ⟨written, ⟨statement, inside, here⟩, held⟩
    exact ⟨statement, inside, written, here, held⟩
  · rintro ⟨statement, inside, written, here, held⟩
    exact ⟨written, ⟨statement, inside, here⟩, held⟩

/-- The methods that the entry of a class statement lists, under its name. -/
theorem mem_classEntry (moduleIsPlaceholder isPlaceholder : Bool) (statement : AST)
    (path : List String) :
    (∃ cls, classEntry moduleIsPlaceholder statement = some cls ∧
        path ∈ (if isPlaceholder then cls.testMethods else cls.disabledMethods).map
          ([cls.name, ·])) ↔
      path ∈ (marked (flagged (moduleIsPlaceholder || statementsHaveTestFalse (classBody statement))
        (classBody statement)) isPlaceholder (testFunctions (classBody statement))).map
          ([className statement] ++ [·]) := by
  obtain ⟨placeholders, disabled⟩ := listed_classEntry moduleIsPlaceholder statement
  cases entry : classEntry moduleIsPlaceholder statement with
  | none =>
    rw [entry] at placeholders disabled
    cases isPlaceholder <;> simp [← placeholders, ← disabled, listed]
  | some cls =>
    have sameName : cls.name = className statement := by
      cases statement with
      | classDef info name bases keywords body decoratorList =>
        simp only [classEntry, placeholderClass] at entry
        split at entry
        · cases entry
        · cases entry
          rfl
      | _ => cases entry
    rw [entry] at placeholders disabled
    cases isPlaceholder <;> simp [← placeholders, ← disabled, listed, sameName]

/-- The statistics list the tests directly in a module or a class of which a flag is plainly
cleared. -/
theorem mem_listedPaths (tree : List AST) (relativePath : String) (isPlaceholder : Bool)
    (path : List String) :
    path ∈ listedPaths isPlaceholder
        (collectPlaceholders tree relativePath (statementsHaveTestFalse tree)) ↔
      ∃ written ∈ directTests tree, written.path = path ∧ PlainlyCleared written.flags ∧
        isPlaceholderBody written.test = isPlaceholder := by
  obtain ⟨placeholders, disabled⟩ := listed_standalone tree relativePath
  have standalone : listed (if isPlaceholder then PlaceholderFile.standaloneTests
        else PlaceholderFile.disabledStandaloneTests)
      (collectPlaceholders tree relativePath (statementsHaveTestFalse tree)) =
        marked (flagged (statementsHaveTestFalse tree) tree) isPlaceholder (testFunctions tree) := by
    cases isPlaceholder
    · exact disabled
    · exact placeholders
  rw [directTests, exists_writtenTest, listedPaths, standalone, listed_classes, List.mem_append]
  apply or_congr
  · exact mem_map_listing (flagged_function_iff tree) []
  · simp only [List.mem_flatMap, List.mem_filterMap, id_eq]
    constructor
    · rintro ⟨cls, ⟨statement, inside, entry⟩, here⟩
      have method := (mem_classEntry _ isPlaceholder statement path).mp ⟨cls, entry, here⟩
      exact ⟨statement, inside, (mem_map_listing
        (flagged_method_iff tree (classBody statement)) [className statement]).mp method⟩
    · rintro ⟨statement, inside, written⟩
      have method := (mem_map_listing
        (flagged_method_iff tree (classBody statement)) [className statement]).mpr written
      obtain ⟨cls, entry, here⟩ := (mem_classEntry _ isPlaceholder statement path).mpr method
      exact ⟨cls, ⟨statement, inside, entry⟩, here⟩

/-- The documentation check computes the tests of the module and of its classes of which a flag is
cleared. -/
theorem mem_definedPaths (tree : List AST) (isPlaceholder : Bool) (path : List String) :
    path ∈ definedPaths isPlaceholder (definitions tree) ↔
      ∃ written ∈ scopeTests tree, written.path = path ∧ Cleared written.flags ∧
        docstringOnly written.test = isPlaceholder := by
  rw [scopeTests, exists_writtenTest, definedPaths, disabledAt_definitions, disabledAt_classes,
    List.mem_append]
  apply or_congr
  · exact mem_map_listing (switchedOff_function_iff tree) []
  · rw [List.mem_flatMap]
    apply exists_congr
    intro statement
    apply and_congr_right
    intro _
    rw [disabledAt_moduleClass]
    exact mem_map_listing (switchedOff_method_iff tree (classBody statement))
      [className statement]

/-! ## The two classifications -/

/-- The two classifications of a file agree: they give the same qualified names of placeholders
and the same qualified names of other disabled tests. -/
def ClassificationsAgree (source : Source) (relativePath : String) (tree : List AST) : Prop :=
  ∀ isPlaceholder path,
    path ∈ listedPaths isPlaceholder (scannedFile source relativePath) ↔
      path ∈ definedPaths isPlaceholder (definitions tree)

/-- The marks in a file are read alike. A test directly in the module or a class, of which a flag is
plainly cleared in a file that has the attribute in its text, stands for a test of the same name of
which a flag is cleared, and the other way round; its body is one docstring, with one `pass` at most,
exactly if the docstring of the other is followed by `pass` and `...` only. -/
structure MarkedAlike (text : Text) (tree : List AST) : Prop where
  noticed : ∀ direct ∈ directTests tree, contains testAttr text = true →
    PlainlyCleared direct.flags → ∃ written ∈ scopeTests tree, written.path = direct.path ∧
      Cleared written.flags ∧ docstringOnly written.test = isPlaceholderBody direct.test
  listed : ∀ written ∈ scopeTests tree, Cleared written.flags →
    contains testAttr text = true ∧ ∃ direct ∈ directTests tree, direct.path = written.path ∧
      PlainlyCleared direct.flags ∧ isPlaceholderBody direct.test = docstringOnly written.test

/-- A test function at a line with a docstring and the given further statements. -/
def documentedTest (number line : Nat) (name : String) (rest : List AST) : AST :=
  .functionDef ⟨number, line, line + 1 + rest.length⟩ false name
    (.arguments ⟨number + 1, line, line⟩ [] [] none [] [] none [])
    (.exprStmt ⟨number + 2, line + 1, line + 1⟩
      (.constant ⟨number + 3, line + 1, line + 1⟩ (.str "Expected behaviour.")) :: rest) [] none

/-- `__test__` assigned at a line. -/
def flagAssignment (number line : Nat) (value : Bool) : AST :=
  .assign ⟨number, line, line⟩ [.name ⟨number + 1, line, line⟩ "__test__" .store]
    (.constant ⟨number + 2, line, line⟩ (.bool value))

/-- A module with one placeholder test behind `__test__ = False`. -/
def plainSource : Source where
  text := unlines ["__test__ = False", "", "", "def test_migration():",
    "    \"\"\"Expected behaviour.\"\"\""]
  tree := some [flagAssignment 1 1 false, documentedTest 10 4 "test_migration" []]

/-- A module with one placeholder test behind `__test__: bool = False`. -/
def annotatedSource : Source where
  text := unlines ["__test__: bool = False", "", "", "def test_migration():",
    "    \"\"\"Expected behaviour.\"\"\""]
  tree := some
    [.annAssign ⟨1, 1, 1⟩ (.name ⟨2, 1, 1⟩ "__test__" .store) (.name ⟨3, 1, 1⟩ "bool" .load)
        (some (.constant ⟨4, 1, 1⟩ (.bool false))),
      documentedTest 10 4 "test_migration" []]

/-- A module that sets `__test__ = False` and later `__test__ = True`. -/
def enabledSource : Source where
  text := unlines ["__test__ = False", "__test__ = True", "", "", "def test_migration():",
    "    \"\"\"Expected behaviour.\"\"\""]
  tree := some
    [flagAssignment 1 1 false, flagAssignment 4 2 true, documentedTest 10 5 "test_migration" []]

/-- A disabled module with a test whose docstring is followed by `...`. -/
def ellipsisSource : Source where
  text := unlines ["__test__ = False", "", "", "def test_migration():",
    "    \"\"\"Expected behaviour.\"\"\"", "    ..."]
  tree := some
    [flagAssignment 1 1 false, documentedTest 10 4 "test_migration"
      [.exprStmt ⟨20, 6, 6⟩ (.constant ⟨21, 6, 6⟩ .ellipsis)]]

end VirtTestTools.Placeholders
