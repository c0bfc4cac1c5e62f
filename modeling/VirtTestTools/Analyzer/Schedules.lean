import VirtTestTools.Analyzer.Result
import VirtTestTools.Analyzer.ConftestChanges

/-!
# Thread schedules

The three thread pools of the analysis: one task for each conftest file, one for
the dependencies of each test, one for the impact on each test. The results of
the last two are stored under the test they belong to. The fixtures of the
conftest files go into one dictionary by fixture name, in the order in which the
files happen to complete; of two conftest files with a fixture of the same name,
the one that completes last is the one every later stage sees.

The report is independent of the schedule if no two conftest files share a
fixture name.
-/

namespace VirtTestTools.Analyzer

open Text

/-- The contexts answer every lookup alike. Their tables may list their items in
different orders. -/
structure SameLookups (left right : ImpactContext) : Prop where
  world : left.world = right.world
  fixtures : ∀ name, left.fixtures.get name = right.fixtures.get name
  symbolImports : ∀ path,
    left.conftestSymbolImports.get path = right.conftestSymbolImports.get path
  opaqueDeps : ∀ path, left.conftestOpaqueDeps.get path = right.conftestOpaqueDeps.get path
  classification : ∀ path, left.classification path = right.classification path

namespace SameLookups

variable {left right : ImpactContext} (same : SameLookups left right)

include same

/-- The same fixtures are requested by the same ones. -/
theorem requests : Requests left.fixtures = Requests right.fixtures := by
  funext name requested
  simp only [Requests, same.fixtures]

/-- The same fixtures are used. -/
theorem uses : Uses left.fixtures = Uses right.fixtures := by
  rw [Uses, Uses, same.requests]

/-- The same symbols are called by the fixtures that are used. -/
theorem usedFixtureCalls (markedTest : MarkedTest) (conftestPath : Path) (symbols : List String) :
    UsedFixtureCalls left markedTest conftestPath symbols ↔
      UsedFixtureCalls right markedTest conftestPath symbols := by
  simp only [UsedFixtureCalls, same.fixtures, same.uses]

/-- The same names are imported. -/
theorem namedImports (conftestPath : Path) :
    namedImports left conftestPath = Analyzer.namedImports right conftestPath := by
  simp only [Analyzer.namedImports, same.symbolImports]

/-- The same imports are opaque. -/
theorem opaqueImports (conftestPath : Path) :
    opaqueImports left conftestPath = Analyzer.opaqueImports right conftestPath := by
  simp only [Analyzer.opaqueImports, same.opaqueDeps]

/-- The same paths flag a test. -/
theorem pathFlags (markedTest : MarkedTest) (changedFile conftestPath : Path) :
    PathFlags left markedTest changedFile conftestPath ↔
      PathFlags right markedTest changedFile conftestPath := by
  simp only [PathFlags, OpaqueFlags, TransitiveFlags, same.opaqueImports, same.namedImports,
    same.classification, same.usedFixtureCalls, same.world]

/-- The same conftests have a path of imports. -/
theorem hasImportPath (changedFile conftestPath : Path) :
    HasImportPath left changedFile conftestPath ↔
      HasImportPath right changedFile conftestPath := by
  simp only [HasImportPath, same.opaqueImports, same.namedImports, same.world]

/-- The same fixtures call the modified functions. -/
theorem callers (modifiedFunctions : List String) (name : String) :
    name ∈ callersOf modifiedFunctions left.fixtures ↔
      name ∈ callersOf modifiedFunctions right.fixtures := by
  simp only [mem_callersOf, same.fixtures]

/-- A change of a conftest reaches the same tests. -/
theorem conftestChangeReaches (markedTest : MarkedTest) (changedFile : Path) :
    ConftestChangeReaches left markedTest changedFile ↔
      ConftestChangeReaches right markedTest changedFile := by
  simp only [ConftestChangeReaches, same.callers, same.uses, same.world]

/-- The same symbols are left. -/
theorem narrowedSymbols (markedTest : MarkedTest) (classification : SymbolClassification)
    (imported : List String) :
    narrowedSymbols left markedTest classification imported =
      Analyzer.narrowedSymbols right markedTest classification imported := by
  simp only [Analyzer.narrowedSymbols, narrowByCalls, narrowByMembers, same.world]

/-- The same symbols flag a test. -/
theorem symbolImpact (markedTest : MarkedTest) (changedFile : Path) (imported : List String) :
    (symbolImpact left markedTest changedFile imported).isSome =
      (Analyzer.symbolImpact right markedTest changedFile imported).isSome := by
  unfold Analyzer.symbolImpact
  rw [same.classification]
  cases right.classification changedFile with
  | none => rfl
  | some classification =>
    simp only [same.narrowedSymbols]
    split
    · simp only [Option.isSome_map]
      rw [Bool.eq_iff_iff, List.find?_isSome, List.find?_isSome]
      simp only [Dict.mem_items_congr left.fixtures right.fixtures same.fixtures]
    · rfl

/-- Contexts with the same lookups judge a changed file alike. -/
theorem changedFileImpact (markedTest : MarkedTest) (changedFile : Path) :
    (changedFileImpact left markedTest changedFile).isSome = true ↔
      (Analyzer.changedFileImpact right markedTest changedFile).isSome = true := by
  unfold Analyzer.changedFileImpact
  split
  · simp only [selfModification_isSome, same.classification]
  · split
    · split
      · simp only [conftestImpact_isSome, same.conftestChangeReaches]
      · split
        · rw [same.symbolImpact]
        · simp only [checkConftestPathway, pathwayLoop_isSome, same.pathFlags,
            same.hasImportPath]
    · rfl

end SameLookups

/-- The state of the analyzer when the pools start: discovered tests, registered
under their own node ids, and the fixtures that pytest listed for them. The
conftest files and everything they define come from the world. -/
structure DiscoveredTests where
  world : World
  markerExpression : String
  markedTests : Dict String MarkedTest
  registered : ∀ item ∈ markedTests.items, item.2.nodeId = item.1
  fixtureUsage : Dict String (List String) := ∅

/-- The orders in which the tasks of the three pools complete. -/
structure Schedule (discovered : DiscoveredTests) where
  conftests : Completion (findConftestFiles discovered.world)
  dependencies : Completion discovered.markedTests.keys
  impacts : Completion discovered.markedTests.keys

/-- What the task of one test returns to `analyze_dependencies`. -/
structure DependencyAnalysis where
  dependencies : List Path
  fixtures : List String
  symbolImports : Dict Path (List String)

/-- `_analyze_single_test_dependencies`. -/
def analyzeSingleTestDependencies (world : World) (markerNames : List String)
    (markedTest : MarkedTest) : DependencyAnalysis where
  dependencies := testDependencies world markedTest.filePath
  fixtures := extractFixturesFromFile world markerNames markedTest.filePath
  symbolImports := extractSymbolImportsFromFile world markedTest.filePath

/-- The update of one test with the result of its task. -/
def updateTest (fixtureUsage : Dict String (List String)) (markedTest : MarkedTest)
    (analysis : DependencyAnalysis) : MarkedTest :=
  { markedTest with
    dependencies := markedTest.dependencies ++ analysis.dependencies
    fixtures := markedTest.fixtures ++ analysis.fixtures ++
      (fixtureUsage.get markedTest.nodeId).getD []
    symbolImports := analysis.symbolImports.items.foldl
      (fun symbolImports entry =>
        symbolImports.set entry.1 ((symbolImports.get entry.1).getD [] ++ entry.2))
      markedTest.symbolImports }

namespace DiscoveredTests

variable (discovered : DiscoveredTests)

/-- The names in the marker expression. -/
def markerNames : List String :=
  extractMarkerNames discovered.world.unicode discovered.markerExpression.toList

/-- The results of `analyze_dependencies`, in completion order. -/
def dependencyResults (completed : List String) : Dict String DependencyAnalysis :=
  (Dict.empty).update (completed.filterMap fun nodeId =>
    ((discovered.markedTests.get nodeId).map
      (analyzeSingleTestDependencies discovered.world discovered.markerNames)).map
        fun analysis => (nodeId, analysis))

/-- The state after `build_fixture_dependency_graph` and `analyze_dependencies`. -/
def analyzeDependencies (schedule : Schedule discovered) : AnalyzerState where
  world := discovered.world
  markerExpression := discovered.markerExpression
  markedTests := discovered.markedTests.applyAll (updateTest discovered.fixtureUsage)
    (discovered.dependencyResults schedule.dependencies.order).items
  fixtures := Dict.mergeAll (fun conftest => (processConftestWithImports discovered.world conftest).1)
    schedule.conftests.order
  conftestSymbolImports := (Dict.empty).update (schedule.conftests.order.map fun conftest =>
    (conftest, (processConftestWithImports discovered.world conftest).2.1))
  conftestOpaqueDeps := (Dict.empty).update (schedule.conftests.order.map fun conftest =>
    (conftest, (processConftestWithImports discovered.world conftest).2.2))

/-- The whole analysis under a schedule. -/
def analyze (schedule : Schedule discovered) (changedFiles : List Path) : AnalysisResult :=
  (discovered.analyzeDependencies schedule).analyzeImpact changedFiles schedule.impacts.order

variable {discovered}

/-- Under every schedule each test is updated once, with its own result. -/
theorem get_markedTests (schedule : Schedule discovered) (nodeId : String) :
    (discovered.analyzeDependencies schedule).markedTests.get nodeId =
      (discovered.markedTests.get nodeId).map
        (analyzeTest discovered.world discovered.markerNames discovered.fixtureUsage) := by
  simp only [analyzeDependencies, Dict.get_applyAll, dependencyResults]
  rw [Dict.get_update_filterMap]
  cases stored : discovered.markedTests.get nodeId with
  | none => split <;> simp
  | some markedTest =>
    have known : nodeId ∈ schedule.dependencies.order := by
      rw [schedule.dependencies.mem_order]
      exact of_decide_eq_true ((Dict.has_iff _ _).mpr ⟨markedTest, stored⟩)
    rw [if_pos known]
    rfl

/-- A schedule does not change which tests are analysed. -/
theorem keys_markedTests (schedule : Schedule discovered) :
    (discovered.analyzeDependencies schedule).markedTests.keys = discovered.markedTests.keys :=
  Dict.keys_applyAll _ _ _

/-- The completion order of the third pool, seen from the state it works on. -/
def impactOrder (schedule : Schedule discovered) :
    Completion (discovered.analyzeDependencies schedule).markedTests.keys where
  order := schedule.impacts.order
  complete := by
    rw [keys_markedTests]
    exact schedule.impacts.complete

end DiscoveredTests

namespace AnalyzerRun

variable (run : AnalyzerRun)

/-- What the pools of a run start from. -/
def discovered : DiscoveredTests where
  world := run.world
  markerExpression := run.markerExpression
  markedTests := discoverMarkedTests run.world run.markerNames run.stdout
  registered := fun item member =>
    (discoverMarkedTests_discovered run.world run.markerNames run.stdout item member).1.symm
  fixtureUsage := run.fixtureUsage

/-- The schedules with the run's own order of the conftest files. -/
def schedule (dependencies impacts : Completion run.discovered.markedTests.keys) :
    Schedule run.discovered where
  conftests := ⟨run.conftestOrder, run.ordered⟩
  dependencies := dependencies
  impacts := impacts

/-- A run is the analysis under any schedule with its order of conftest files. -/
theorem reports_iff_analyze (changedFiles : List Path) (nodeId : String)
    (dependencies impacts : Completion run.discovered.markedTests.keys) :
    run.reports changedFiles nodeId = true ↔
      nodeId ∈ (run.discovered.analyze (run.schedule dependencies impacts) changedFiles).nodeIds := by
  have analyzed := (run.discovered.analyzeDependencies
    (run.schedule dependencies impacts)).mem_nodeIds changedFiles
      (DiscoveredTests.impactOrder (run.schedule dependencies impacts)) nodeId
  rw [DiscoveredTests.get_markedTests] at analyzed
  refine Iff.trans ?_ analyzed.symm
  constructor
  · intro reported
    obtain ⟨affected, listed, named⟩ := List.any_eq_true.mp reported
    obtain ⟨markedTest, member, flagged⟩ := List.mem_filterMap.mp listed
    have same : markedTest.nodeId = nodeId :=
      (nodeId_of_checkTestImpact _ _ _ _ _ flagged).symm.trans (of_decide_eq_true named)
    obtain ⟨item, found, ⟨key, -⟩, rfl⟩ := run.exists_discovered markedTest member
    have registered : item.1 = nodeId := key.trans same
    refine ⟨_, ?_, (run.reports_iff changedFiles _ member).mp (same ▸ reported)⟩
    rw [← registered]
    exact congrArg _ ((Dict.get_eq_some_iff _ item.1 item.2).mpr found)
  · rintro ⟨markedTest, stored, changedFile, changed, flagged⟩
    obtain ⟨registered, found, rfl⟩ := Option.map_eq_some_iff.mp stored
    have item := (Dict.get_eq_some_iff _ nodeId registered).mp found
    have member := run.analyzed_mem_markedTests (nodeId, registered) item
    have reported := (run.reports_iff changedFiles _ member).mpr ⟨changedFile, changed, flagged⟩
    have same : registered.nodeId = nodeId := run.discovered.registered (nodeId, registered) item
    rw [← same]
    exact reported

end AnalyzerRun

/-- No two conftest files define a fixture of the same name. -/
def DistinctFixtureNames (world : World) : Prop :=
  ∀ left ∈ findConftestFiles world, ∀ right ∈ findConftestFiles world, ∀ name,
    (processConftestWithImports world left).1.has name = true →
      (processConftestWithImports world right).1.has name = true → left = right

/-- Without shared fixture names two schedules lead to the same lookups. -/
theorem sameLookups_of_distinct (discovered : DiscoveredTests)
    (distinct : DistinctFixtureNames discovered.world) (first second : Schedule discovered)
    (changedSet : List Path) :
    SameLookups ((discovered.analyzeDependencies first).impactContext changedSet)
      ((discovered.analyzeDependencies second).impactContext changedSet) where
  world := rfl
  fixtures := by
    refine Dict.get_mergeAll_perm _ _ _
      (first.conftests.complete.trans second.conftests.complete.symm) ?_
    intro left leftMember right rightMember
    exact distinct left ((first.conftests.mem_order left).mp leftMember) right
      ((first.conftests.mem_order right).mp rightMember)
  symbolImports := by
    intro path
    simp only [AnalyzerState.impactContext, DiscoveredTests.analyzeDependencies,
      Dict.get_update_map, Completion.mem_order]
  opaqueDeps := by
    intro path
    simp only [AnalyzerState.impactContext, DiscoveredTests.analyzeDependencies,
      Dict.get_update_map, Completion.mem_order]
  classification := fun _ => rfl

/-- Scheduling independence. If no two conftest files define a fixture of the
same name, every two schedules report the same node ids and agree on whether
tests are to be run.

Proof: the second and the third pool store results by node id, by
`get_markedTests` and `mem_nodeIds`. The merged tables of the first pool answer
lookups alike, and a verdict depends on the tables through lookups only. -/
theorem schedule_irrelevant (discovered : DiscoveredTests)
    (distinct : DistinctFixtureNames discovered.world) (changedFiles : List Path)
    (first second : Schedule discovered) :
    (discovered.analyze first changedFiles).nodeIds =
        (discovered.analyze second changedFiles).nodeIds ∧
      (discovered.analyze first changedFiles).shouldRunTests =
        (discovered.analyze second changedFiles).shouldRunTests := by
  have members : ∀ (schedule : Schedule discovered) (nodeId : String),
      nodeId ∈ (discovered.analyze schedule changedFiles).nodeIds ↔
        ∃ markedTest, (discovered.markedTests.get nodeId).map (analyzeTest discovered.world
            discovered.markerNames discovered.fixtureUsage) = some markedTest ∧
          ∃ changedFile ∈ changedFiles, (changedFileImpact
            ((discovered.analyzeDependencies schedule).impactContext [changedFile]) markedTest
              changedFile).isSome = true := by
    intro schedule nodeId
    have reported := (discovered.analyzeDependencies schedule).mem_nodeIds changedFiles
      (DiscoveredTests.impactOrder schedule) nodeId
    rw [DiscoveredTests.get_markedTests] at reported
    exact reported
  have sameIds : (discovered.analyze first changedFiles).nodeIds =
      (discovered.analyze second changedFiles).nodeIds := by
    ext nodeId
    rw [members, members]
    refine exists_congr fun markedTest => and_congr_right fun _ =>
      exists_congr fun changedFile => and_congr_right fun _ => ?_
    apply SameLookups.changedFileImpact
    exact sameLookups_of_distinct discovered distinct first second [changedFile]
  refine ⟨sameIds, ?_⟩
  rw [Bool.eq_iff_iff]
  simp only [DiscoveredTests.analyze, AnalyzerState.shouldRunTests_iff]
  exact not_congr (Eq.congr_left sameIds)

/-- A one-line function that requests fixtures by its parameters. -/
def requesting (line : Nat) (name : String) (requested : List String) (decorators : List AST) :
    AST :=
  .functionDef ⟨10 * line, line, line⟩ false name
    (.arguments ⟨10 * line + 1, line, line⟩ []
      (requested.map fun parameter => .arg ⟨10 * line + 2, line, line⟩ parameter none)
      none [] [] none [])
    [.returnStmt ⟨10 * line + 3, line, line⟩ (some (.constant ⟨10 * line + 4, line, line⟩ .other))]
    decorators none

/-- A conftest with one fixture. -/
def conftestText (name parameters value : String) : Text :=
  unlines ["import pytest", "@pytest.fixture",
    "def " ++ name ++ "(" ++ parameters ++ "): return " ++ value]

/-- A conftest with one fixture. -/
def conftestTree (name : String) (requested : List String) : List AST :=
  [.importStmt ⟨1, 1, 1⟩ [⟨"pytest", none⟩], requesting 3 name requested [fixtureMark 2]]

/-- A pull request that changes the fixture `disk` of the top conftest. The one
below, next to the test, defines `vm`, which requests `disk`. A conftest of
another directory defines a fixture of the given name, which requests nothing. -/
def diskWorld (elsewhere : String) : World where
  unicode := ascii
  present path := decide (path ∈
    [["tests", "conftest.py"], ["tests", "compute", "conftest.py"],
      ["tests", "network", "conftest.py"], ["tests", "compute", "test_vm.py"]])
  files := [["tests", "conftest.py"], ["tests", "compute", "conftest.py"],
    ["tests", "network", "conftest.py"], ["tests", "compute", "test_vm.py"]]
  source path :=
    if path = ["tests", "conftest.py"] then
      some ⟨conftestText "disk" "" "2", some (conftestTree "disk" [])⟩
    else if path = ["tests", "compute", "conftest.py"] then
      some ⟨conftestText "vm" "disk" "1", some (conftestTree "vm" ["disk"])⟩
    else if path = ["tests", "network", "conftest.py"] then
      some ⟨conftestText elsewhere "" "1", some (conftestTree elsewhere [])⟩
    else if path = ["tests", "compute", "test_vm.py"] then
      some ⟨unlines ["def test_vm(vm): return 1"], some [requesting 1 "test_vm" ["vm"] []]⟩
    else none
  gitDiff _ _ := none
  baseFile path :=
    if path = ["tests", "conftest.py"] then
      .found ⟨conftestText "disk" "" "1", some (conftestTree "disk" [])⟩
    else .missing
  githubPrInfo := true
  isCheckout := true
  getPrFileDiff path :=
    if path = ["tests", "conftest.py"] then
      unlines ["@@ -1,3 +1,3 @@", " import pytest", " @pytest.fixture", "-def disk(): return 1",
        "+def disk(): return 2"]
    else []

/-- The one test, which requests `vm`. -/
def diskTests (elsewhere : String) : DiscoveredTests where
  world := diskWorld elsewhere
  markerExpression := "smoke"
  markedTests := (Dict.empty).set "tests/compute/test_vm.py::test_vm"
    (testOfNodeId "tests/compute/test_vm.py::test_vm".toList)
  registered := by decide

/-- The conftest files complete in the given order. -/
def diskSchedule (elsewhere : String)
    (conftests : Completion (findConftestFiles (diskWorld elsewhere))) :
    Schedule (diskTests elsewhere) where
  conftests := conftests
  dependencies := .inOrder _
  impacts := .inOrder _

/-- With distinct fixture names the reverse order of completion reports the same
test. -/
theorem distinct_fixtures_reported_alike :
    ((diskTests "nic").analyze (diskSchedule "nic" (.inOrder _))
        [["tests", "conftest.py"]]).nodeIds =
      ((diskTests "nic").analyze (diskSchedule "nic" (.reversed _))
        [["tests", "conftest.py"]]).nodeIds := by
  have distinct : DistinctFixtureNames (diskWorld "nic") := by
    have files : findConftestFiles (diskWorld "nic") =
        [["tests", "conftest.py"], ["tests", "compute", "conftest.py"],
          ["tests", "network", "conftest.py"]] := by
      decide
    have fixtures : ∀ conftest ∈ findConftestFiles (diskWorld "nic"), ∀ name,
        (processConftestWithImports (diskWorld "nic") conftest).1.has name = true →
          (name, conftest) ∈ [("disk", ["tests", "conftest.py"]),
            ("vm", ["tests", "compute", "conftest.py"]),
            ("nic", ["tests", "network", "conftest.py"])] := by
      rw [files]
      intro conftest member name defined
      have known := of_decide_eq_true defined
      simp only [List.mem_cons, List.not_mem_nil, or_false] at member
      rcases member with rfl | rfl | rfl <;>
        exact List.mem_singleton.mp known ▸ by decide
    intro left leftMember right rightMember name inLeft inRight
    have leftKnown := fixtures left leftMember name inLeft
    have rightKnown := fixtures right rightMember name inRight
    simp only [List.mem_cons, List.not_mem_nil, or_false, Prod.mk.injEq] at leftKnown rightKnown
    rcases leftKnown with ⟨rfl, rfl⟩ | ⟨rfl, rfl⟩ | ⟨rfl, rfl⟩ <;> simp at rightKnown <;>
      exact rightKnown.symm
  exact (schedule_irrelevant (diskTests "nic") distinct [["tests", "conftest.py"]] _ _).1

/-- Two conftest files define `vm`. If the one next to the test completes before
the other, the test is not reported; if it completes after it, the test is. -/
theorem shared_fixture_reported_by_order :
    ((diskTests "vm").analyze (diskSchedule "vm" (.inOrder _))
        [["tests", "conftest.py"]]).nodeIds = ∅ ∧
      ((diskTests "vm").analyze (diskSchedule "vm" (.inOrder _))
        [["tests", "conftest.py"]]).shouldRunTests = false ∧
      ((diskTests "vm").analyze (diskSchedule "vm" (.reversed _))
        [["tests", "conftest.py"]]).nodeIds = {"tests/compute/test_vm.py::test_vm"} ∧
      ((diskTests "vm").analyze (diskSchedule "vm" (.reversed _))
        [["tests", "conftest.py"]]).shouldRunTests = true := by
  refine ⟨by decide +kernel, by decide +kernel, by decide +kernel, by decide +kernel⟩

end VirtTestTools.Analyzer
