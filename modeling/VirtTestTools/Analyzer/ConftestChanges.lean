import VirtTestTools.Analyzer.Impact

/-!
# Changes of a conftest

`_check_test_impact` follows a changed `conftest.py` into tests at the level of
functions: from modified fixtures and modified helper functions to the fixtures
that call them, and from there through fixture requests. `pytest_plugins` is the
only variable it looks at, and calls between helpers are not followed. The main
result states exactly which tests are reported; the example after it is a
conftest in which a variable and a helper behind another helper change.
-/

namespace VirtTestTools.Analyzer

open Text

/-- A function the base version has, as far as the base version is known. -/
def InBase (world : World) (path : Path) (name : String) : Prop :=
  ∀ oldSymbols oldClassMembers,
    getOldFileSymbols world path = some (oldSymbols, oldClassMembers) → name ∈ oldSymbols

/-- The names that the base version has. -/
theorem mem_inBaseVersion (world : World) (path : Path) (names : List String) (name : String) :
    name ∈ inBaseVersion world path names ↔ name ∈ names ∧ InBase world path name := by
  unfold inBaseVersion InBase
  cases getOldFileSymbols world path with
  | none => simp
  | some old => simp [Prod.ext_iff]

/-- A fixture is touched by a change of the listed functions: it is one of them,
or its body calls one that is not a fixture. -/
def TouchedBy (ctx : ImpactContext) (path : Path) (names : List String) (source : String) : Prop :=
  ∃ name ∈ names, InBase ctx.world path name ∧
    (name ∈ allFixtures ctx.world path ∧ name = source ∨
      name ∉ allFixtures ctx.world path ∧
        ∃ fixture, ctx.fixtures.get source = some fixture ∧ name ∈ fixture.functionCalls)

/-- The modified fixtures and the callers of modified functions together are the
touched fixtures. -/
theorem touchedBy_iff (ctx : ImpactContext) (path : Path) (names : List String)
    (source : String) :
    source ∈ (inBaseVersion ctx.world path names).filter (· ∈ allFixtures ctx.world path) ∨
        source ∈ callersOf ((inBaseVersion ctx.world path names).filter
          (· ∉ allFixtures ctx.world path)) ctx.fixtures ↔
      TouchedBy ctx path names source := by
  simp only [TouchedBy, mem_callersOf, List.mem_filter, mem_inBaseVersion, decide_eq_true_eq]
  constructor
  · rintro (⟨⟨member, base⟩, isFixture⟩ | ⟨fixture, found, name, called, ⟨member, base⟩, other⟩)
    · exact ⟨source, member, base, Or.inl ⟨isFixture, rfl⟩⟩
    · exact ⟨name, member, base, Or.inr ⟨other, fixture, found, called⟩⟩
  · rintro ⟨name, member, base, ⟨isFixture, rfl⟩ | ⟨other, fixture, found, called⟩⟩
    · exact Or.inl ⟨⟨member, base⟩, isFixture⟩
    · exact Or.inr ⟨fixture, found, name, called, ⟨member, base⟩, other⟩

/-- Reporting of a conftest change. Let a conftest among the test's dependencies
change, with known modified functions and a known classification of its symbols.
The test is reported for every changed set with the conftest exactly when
`pytest_plugins` changed or the fixtures of the test reach, through requests, a
fixture that is a modified function of the base version or calls one by name.

Proof: `conftestImpact_isSome` reduces the branch to the affected fixtures, and
these are the request predecessors of the touched ones. -/
theorem conftest_change_reported_iff (ctx : ImpactContext) (markedTest : MarkedTest)
    (changedFile : Path) (fileStatus : Option FileStatus) (names : List String)
    (classification : SymbolClassification)
    (dependency : changedFile ∈ markedTest.dependencies)
    (conftest : changedFile.isConftest = true)
    (foreign : changedFile ≠ markedTest.filePath)
    (status : ctx.world.prFileStatuses.bind (fun statuses => statuses.get changedFile) = fileStatus)
    (present : fileStatus ≠ some .added ∧ fileStatus ≠ some .renamed)
    (functions : getModifiedFunctionNames ctx.world changedFile = some names)
    (symbols : extractModifiedSymbols ctx.world changedFile fileStatus = some classification) :
    (∀ changedSet : List Path, changedFile ∈ changedSet →
      (checkTestImpact ctx markedTest.nodeId markedTest changedSet).isSome = true) ↔
      "pytest_plugins" ∈ classification.modifiedSymbols ++ classification.newSymbols ∨
        ∃ requested ∈ markedTest.fixtures, ∃ source, TouchedBy ctx changedFile names source ∧
          Uses ctx.fixtures requested source := by
  rw [reported_forall_iff, changedFileImpact, if_neg foreign, if_pos dependency, if_pos conftest,
    conftestImpact_isSome, ConftestChangeReaches, status]
  have items : extractModifiedItemsFromConftest ctx.world changedFile fileStatus =
      if "pytest_plugins" ∈ classification.modifiedSymbols ++ classification.newSymbols then none
      else some
        ((inBaseVersion ctx.world changedFile names).filter
            (· ∈ allFixtures ctx.world changedFile),
          (inBaseVersion ctx.world changedFile names).filter
            (· ∉ allFixtures ctx.world changedFile)) := by
    simp only [extractModifiedItemsFromConftest, present.1, present.2, or_self, ↓reduceIte,
      functions, symbols]
  rw [items]
  split
  · rename_i structural
    simp [structural]
  · rename_i unstructural
    simp only [unstructural, false_or, ← touchedBy_iff]
    constructor
    · intro reaches
      exact reaches _ _ rfl
    · intro reaches modifiedFixtures modifiedFunctions same
      cases same
      exact reaches

/-- The names an expression or statement reads or binds. -/
def referencedNames (nodes : List AST) : List String :=
  (AST.preorderAll nodes).filterMap fun
    | .name _ id _ => some id
    | _ => none

/-- The body of a top-level function. -/
def functionBody (tree : List AST) (function : String) : Option (List AST) :=
  tree.findSome? fun
    | .functionDef _ _ name _ body _ _ => if name = function then some body else none
    | _ => none

/-- A function of the file references a name directly or through a chain of
functions of the same file. -/
inductive References (tree : List AST) (name : String) : String → Prop
  | direct {function : String} {body : List AST} (found : functionBody tree function = some body)
      (named : name ∈ referencedNames body) : References tree name function
  | helper {function next : String} {body : List AST}
      (found : functionBody tree function = some body) (named : next ∈ referencedNames body)
      (rest : References tree name next) : References tree name function

/-- The parameters of a function: none, or `*names`. -/
def parameters (line : Nat) (vararg : Option String) : AST :=
  .arguments ⟨10 * line + 1, line, line⟩ [] []
    (vararg.map fun name => .arg ⟨10 * line + 2, line, line⟩ name none) [] [] none []

/-- A function whose body returns one expression. -/
def returning (line : Nat) (name : String) (vararg : Option String) (decorators : List AST)
    (value : AST) : AST :=
  .functionDef ⟨10 * line, line, line + 1⟩ false name (parameters line vararg)
    [.returnStmt ⟨10 * line + 3, line + 1, line + 1⟩ (some value)] decorators none

/-- A name that is read. -/
def load (line : Nat) (id : String) : AST := .name ⟨10 * line + 4, line, line⟩ id .load

/-- A call without arguments. -/
def callOf (line : Nat) (id : String) : AST :=
  .call ⟨10 * line + 5, line, line⟩ (load line id) [] []

/-- The decorator `@pytest.fixture`. -/
def fixtureMark (line : Nat) : AST :=
  .attribute ⟨10 * line + 6, line, line⟩ (load line "pytest") "fixture"

/-- A conftest: a variable, a helper that reads it, a helper that calls the
first one, and three fixtures. The two versions differ in the variable's value
and in the head of `wait`. -/
def timeoutText (value arguments : String) : Text :=
  unlines ["import pytest", "TIMEOUT = " ++ value, "def wait(" ++ arguments ++ "):",
    "    return TIMEOUT", "def start():", "    return wait()",
    "@pytest.fixture", "def timeout():", "    return TIMEOUT",
    "@pytest.fixture", "def running():", "    return start()",
    "@pytest.fixture", "def waiting():", "    return wait()"]

/-- A conftest with a constant, two functions and three fixtures. -/
def timeoutTree (vararg : Option String) : List AST :=
  [ .importStmt ⟨1, 1, 1⟩ [⟨"pytest", none⟩],
    .assign ⟨2, 2, 2⟩ [.name ⟨3, 2, 2⟩ "TIMEOUT" .store] (.constant ⟨4, 2, 2⟩ .other),
    returning 3 "wait" vararg [] (load 4 "TIMEOUT"),
    returning 5 "start" none [] (callOf 6 "wait"),
    returning 8 "timeout" none [fixtureMark 7] (load 9 "TIMEOUT"),
    returning 11 "running" none [fixtureMark 10] (callOf 12 "start"),
    returning 14 "waiting" none [fixtureMark 13] (callOf 15 "wait") ]

/-- The diff of the two versions, as the pull request API delivers it. -/
def timeoutDiff : Text :=
  unlines ["@@ -1,6 +1,6 @@", " import pytest", "-TIMEOUT = 10", "-def wait():",
    "+TIMEOUT = 20", "+def wait(*_):", "     return TIMEOUT", " def start():",
    "     return wait()"]

/-- The checkout of a pull request that changes the conftest. -/
def timeoutWorld : World where
  unicode := Text.ascii
  present path := decide (path = ["tests", "conftest.py"])
  source path :=
    if path = ["tests", "conftest.py"] then
      some ⟨timeoutText "20" "*_", some (timeoutTree (some "_"))⟩
    else none
  gitDiff _ _ := none
  baseFile _ := .found ⟨timeoutText "10" "", some (timeoutTree none)⟩
  githubPrInfo := true
  isCheckout := true
  getPrFileDiff _ := timeoutDiff

/-- The context of the change. -/
def timeoutContext : ImpactContext where
  world := timeoutWorld
  fixtures := fixtureDefinitions ["tests", "conftest.py"] (timeoutTree (some "_"))

/-- A test that requests one of the fixtures. -/
def timeoutTest (fixture : String) : MarkedTest where
  filePath := ["tests", "test_vm.py"]
  testName := "test_vm"
  nodeId := "tests/test_vm.py::test_vm"
  dependencies := [["tests", "test_vm.py"], ["tests", "conftest.py"]]
  fixtures := [fixture]

/-- The constant and a function are modified. -/
theorem timeoutWorld_symbols : ∃ classification,
    extractModifiedSymbols timeoutWorld ["tests", "conftest.py"] none = some classification ∧
      classification.modifiedSymbols = ["TIMEOUT", "wait"] ∧ classification.newSymbols = [] := by
  have computed : (extractModifiedSymbols timeoutWorld ["tests", "conftest.py"] none).map
      (fun classification => (classification.modifiedSymbols, classification.newSymbols)) =
      some (["TIMEOUT", "wait"], []) := by
    decide +kernel
  obtain ⟨classification, found, symbols⟩ := Option.map_eq_some_iff.mp computed
  exact ⟨classification, found, congrArg Prod.fst symbols, congrArg Prod.snd symbols⟩

/-- A fixture that calls the modified helper itself is followed. -/
theorem conftest_change_reported_by_call :
    (checkTestImpact timeoutContext "tests/test_vm.py::test_vm" (timeoutTest "waiting")
      [["tests", "conftest.py"]]).isSome = true := by
  obtain ⟨classification, symbols, -⟩ := timeoutWorld_symbols
  have touched : TouchedBy timeoutContext ["tests", "conftest.py"] ["wait", "wait"] "waiting" := by
    refine ⟨"wait", by decide, ?_, Or.inr ⟨by decide, _, rfl, by decide⟩⟩
    intro oldSymbols oldClassMembers known
    have same : ["TIMEOUT", "wait", "start", "timeout", "running", "waiting"] = oldSymbols :=
      congrArg Prod.fst (Option.some.inj known)
    simp [← same]
  exact (conftest_change_reported_iff timeoutContext (timeoutTest "waiting")
    ["tests", "conftest.py"] none ["wait", "wait"] classification (by decide) (by decide) (by decide) rfl
    (by decide) (by decide +kernel) symbols).mpr
    (Or.inr ⟨"waiting", by decide, "waiting", touched, .refl⟩) _ (List.mem_singleton.mpr rfl)

/-- A variable and a helper change, both analyses return exactly these, and
neither the test of the fixture that reads the variable nor the test of the
fixture that reaches the helper through another one is reported. -/
theorem conftest_change_not_reported :
    getModifiedFunctionNames timeoutWorld ["tests", "conftest.py"] = some ["wait", "wait"] ∧
      (∃ classification,
        extractModifiedSymbols timeoutWorld ["tests", "conftest.py"] none = some classification ∧
          classification.modifiedSymbols = ["TIMEOUT", "wait"] ∧
          classification.newSymbols = []) ∧
      References (timeoutTree (some "_")) "TIMEOUT" "timeout" ∧
      References (timeoutTree (some "_")) "wait" "running" ∧
      checkTestImpact timeoutContext "tests/test_vm.py::test_vm" (timeoutTest "timeout")
        [["tests", "conftest.py"]] = none ∧
      checkTestImpact timeoutContext "tests/test_vm.py::test_vm" (timeoutTest "running")
        [["tests", "conftest.py"]] = none :=
  ⟨by decide +kernel, timeoutWorld_symbols, .direct rfl (by decide),
    .helper rfl (show "start" ∈ _ by decide) (.direct rfl (by decide)), by decide +kernel,
    by decide +kernel⟩

end VirtTestTools.Analyzer
