import VirtTestTools.Analyzer.ImportPathways
import VirtTestTools.Analyzer.Discovery

/-!
# A run of the analyzer

The stages of `run_local_mode` and `run_github_mode` after the changed files are
known: discovery, the fixture graph of all conftest files, the dependencies of
each test, and the impact of the changed files. What the threads of the source
do in some order is a list in an arbitrary order here.

Dependencies are resolved against the analysed checkout, so a run never depends
on a file that the change removes. Consequently the removal of a module is
invisible to the tests that import it.
-/

namespace VirtTestTools.Analyzer

open Text

/-- `_extract_fixtures_from_file`. -/
def extractFixturesFromFile (world : World) (markerNames : List String) (path : Path) :
    List String :=
  match world.tree path with
  | none => []
  | some tree => (AST.preorderAll tree).flatMap (fixtureUses (isMarker markerNames))

/-- `MAX_CONFTEST_SEARCH_ITERATIONS`. -/
def maxConftestSearchIterations : Nat := 100

/-- The directories above a file, the nearest first, up to the root. -/
def ancestors (path : Path) : List Path := path.dropLast.inits.reverse

/-- `_find_relevant_conftests_helper`. -/
def findRelevantConftests (world : World) (testFile : Path) : List Path :=
  ((ancestors testFile).take maxConftestSearchIterations).filterMap fun directory =>
    let conftest := directory ++ ["conftest.py"]
    if world.present conftest then some conftest else none

/-- The loop state of the transitive import analysis. -/
structure ImportScan where
  dependencies : List Path
  visited : List Path := []
  toVisit : List Path := []

/-- One file of a level: its imports that are new are recorded and queued. -/
def ImportScan.step (world : World) (scan : ImportScan) (depFile : Path) : ImportScan :=
  if depFile ∈ scan.visited ∨ depFile.suffix ≠ ".py".toList then scan
  else
    let resolved := (resolveImportsHelper world (extractImportsFromFile world depFile)).dedup
    let fresh := resolved.filter (· ∉ scan.dependencies)
    { dependencies := scan.dependencies ++ fresh
      visited := depFile :: scan.visited
      toVisit := scan.toVisit ++ fresh }

/-- The levels of the transitive import analysis. -/
def ImportScan.levels (world : World) : Nat → ImportScan → ImportScan
  | 0, scan => scan
  | depth + 1, scan =>
    if scan.toVisit.isEmpty then scan
    else
      ImportScan.levels world depth
        (scan.toVisit.foldl (ImportScan.step world) { scan with toVisit := [] })

/-- `MAX_TRANSITIVE_IMPORT_DEPTH`. -/
def maxTransitiveImportDepth : Nat := 2

/-- The dependencies part of `_analyze_single_test_dependencies`: the test file,
its imports, the conftest files above it, and two levels of their imports. -/
def testDependencies (world : World) (testFile : Path) : List Path :=
  let direct := testFile :: resolveImportsHelper world (extractImportsFromFile world testFile) ++
    findRelevantConftests world testFile
  (ImportScan.levels world maxTransitiveImportDepth
    { dependencies := direct, toVisit := direct.dedup }).dependencies

/-- The update of one test in `analyze_dependencies`, with the fixtures that
`pytest --setup-plan` listed for it. -/
def analyzeTest (world : World) (markerNames : List String)
    (fixtureUsage : Dict String (List String)) (markedTest : MarkedTest) : MarkedTest :=
  { markedTest with
    dependencies := markedTest.dependencies ++ testDependencies world markedTest.filePath
    fixtures := markedTest.fixtures ++
      extractFixturesFromFile world markerNames markedTest.filePath ++
      (fixtureUsage.get markedTest.nodeId).getD []
    symbolImports := (extractSymbolImportsFromFile world markedTest.filePath).items.foldl
      (fun symbolImports entry =>
        symbolImports.set entry.1 ((symbolImports.get entry.1).getD [] ++ entry.2))
      markedTest.symbolImports }

/-- `_find_conftest_files`. -/
def findConftestFiles (world : World) : List Path :=
  world.files.filter (fun path => path.isConftest && decide (path.head? = some "tests")) ++
    [["conftest.py"]].filter world.present

/-- `_process_conftest_with_imports`. -/
def processConftestWithImports (world : World) (conftest : Path) :
    Dict String Fixture × Dict Path (List String) × List Path :=
  match world.tree conftest with
  | none => (∅, ∅, [])
  | some tree =>
    (fixtureDefinitions conftest tree, resolveVisitorSymbolImports world (visitImportsAll tree {}))

/-- What `analyze_impact` reads of a `MarkerTestAnalyzer`, and of the outside
world through it. -/
structure AnalyzerState where
  world : World
  markerExpression : String
  markedTests : Dict String MarkedTest
  fixtures : Dict String Fixture
  conftestSymbolImports : Dict Path (Dict Path (List String))
  conftestOpaqueDeps : Dict Path (List Path)

namespace AnalyzerState

variable (state : AnalyzerState)

/-- The file status the pull request reports, if it reports any. -/
def fileStatus (path : Path) : Option FileStatus :=
  state.world.prFileStatuses.bind (fun statuses => statuses.get path)

/-- The classifications of the changed Python files that are no conftest. -/
def modifiedSymbolsCache (changedSet : List Path) : Dict Path (Option SymbolClassification) :=
  (Dict.empty).update
    ((changedSet.filter (fun path =>
      decide (path.suffix = ".py".toList) && !path.isConftest)).map fun path =>
        (path, extractModifiedSymbols state.world path (state.fileStatus path)))

/-- What the task of each test is given. -/
def impactContext (changedSet : List Path) : ImpactContext where
  world := state.world
  fixtures := state.fixtures
  conftestSymbolImports := state.conftestSymbolImports
  conftestOpaqueDeps := state.conftestOpaqueDeps
  modifiedSymbolsCache := state.modifiedSymbolsCache changedSet

/-- The classification of a changed file is the same for every changed set with
it. -/
theorem classification_eq (changedSet : List Path) (path : Path) (member : path ∈ changedSet) :
    (state.impactContext changedSet).classification path =
      (state.impactContext [path]).classification path := by
  simp only [ImpactContext.classification, impactContext, modifiedSymbolsCache,
    Dict.get_update_map, List.mem_filter, member, List.mem_singleton, true_and]

/-- A changed file is judged in the same way whatever else changes. -/
theorem changedFileImpact_eq (changedSet : List Path) (changedFile : Path)
    (member : changedFile ∈ changedSet) (markedTest : MarkedTest) :
    changedFileImpact (state.impactContext changedSet) markedTest changedFile =
      changedFileImpact (state.impactContext [changedFile]) markedTest changedFile :=
  changedFileImpact_congr (state.impactContext [changedFile])
    (state.modifiedSymbolsCache changedSet) changedFile
    (state.classification_eq changedSet changedFile member) markedTest

end AnalyzerState

/-- What one run of the analyzer is given. `conftestOrder` is the order in which
the conftest files finish processing; `stdout` is pytest's collection output. -/
structure AnalyzerRun where
  world : World
  markerExpression : String
  stdout : Option Text
  fixtureUsage : Dict String (List String)
  conftestOrder : List Path
  ordered : conftestOrder.Perm (findConftestFiles world)

namespace AnalyzerRun

/-- The names in the marker expression. -/
def markerNames (run : AnalyzerRun) : List String :=
  extractMarkerNames run.world.unicode run.markerExpression.toList

/-- The analyzer after `analyze_dependencies`: the discovered tests with their dependencies,
and the merged data of the conftest files. -/
def state (run : AnalyzerRun) : AnalyzerState where
  world := run.world
  markerExpression := run.markerExpression
  markedTests := (discoverMarkedTests run.world run.markerNames run.stdout).filterMap
    fun _ markedTest => some (analyzeTest run.world run.markerNames run.fixtureUsage markedTest)
  fixtures := run.conftestOrder.foldl
    (fun fixtures conftest =>
      fixtures.update (processConftestWithImports run.world conftest).1.items) ∅
  conftestSymbolImports := (Dict.empty).update
    (run.conftestOrder.map fun conftest =>
      (conftest, (processConftestWithImports run.world conftest).2.1))
  conftestOpaqueDeps := (Dict.empty).update
    (run.conftestOrder.map fun conftest =>
      (conftest, (processConftestWithImports run.world conftest).2.2))

/-- The marked tests after `analyze_dependencies`. -/
def markedTests (run : AnalyzerRun) : List MarkedTest :=
  run.state.markedTests.items.map Prod.snd

/-- What every test is checked against. -/
def impactContext (run : AnalyzerRun) (changedSet : List Path) : ImpactContext :=
  run.state.impactContext changedSet

/-- `affected_tests` of `analyze_impact`. -/
def affectedTests (run : AnalyzerRun) (changedFiles : List Path) : List AffectedTest :=
  run.markedTests.filterMap fun markedTest =>
    checkTestImpact (run.impactContext changedFiles.dedup) markedTest.nodeId markedTest
      changedFiles.dedup

/-- Whether a run reports the test with the given node id. -/
def reports (run : AnalyzerRun) (changedFiles : List Path) (nodeId : String) : Bool :=
  (run.affectedTests changedFiles).any (fun affected => decide (affected.nodeId = nodeId))

end AnalyzerRun

/-- Modules resolve to files of the checkout only. -/
theorem present_of_resolveImports (world : World) (imports : List String) (path : Path)
    (member : path ∈ resolveImportsHelper world imports) : world.present path = true := by
  obtain ⟨module, -, resolved⟩ := List.mem_filterMap.mp member
  exact List.find?_some resolved

/-- A relevant conftest is in the checkout. -/
theorem present_of_relevantConftest (world : World) (testFile path : Path)
    (member : path ∈ findRelevantConftests world testFile) : world.present path = true := by
  obtain ⟨directory, -, found⟩ := List.mem_filterMap.mp member
  simp only [Option.ite_none_right_eq_some, Option.some.injEq] at found
  exact found.2 ▸ found.1

/-- One file of the transitive analysis adds files of the checkout only. -/
theorem ImportScan.step_present (world : World) (scan : ImportScan) (depFile : Path)
    (known : ∀ path ∈ scan.dependencies, world.present path = true) :
    ∀ path ∈ (scan.step world depFile).dependencies, world.present path = true := by
  unfold ImportScan.step
  split
  · exact known
  · intro path member
    rcases List.mem_append.mp member with old | fresh
    · exact known path old
    · exact present_of_resolveImports world _ path
        (List.mem_dedup.mp (List.mem_filter.mp fresh).1)

/-- A level adds files of the checkout only. -/
theorem ImportScan.level_present (world : World) (level : List Path) (scan : ImportScan)
    (known : ∀ path ∈ scan.dependencies, world.present path = true) :
    ∀ path ∈ (level.foldl (ImportScan.step world) scan).dependencies,
      world.present path = true := by
  apply List.foldlRecOn (motive := fun current : ImportScan =>
    ∀ path ∈ current.dependencies, world.present path = true)
  · exact known
  · intro current kept depFile _
    exact current.step_present world depFile kept

/-- All levels add files of the checkout only. -/
theorem ImportScan.levels_present (world : World) (depth : Nat) (scan : ImportScan)
    (known : ∀ path ∈ scan.dependencies, world.present path = true) :
    ∀ path ∈ (ImportScan.levels world depth scan).dependencies, world.present path = true := by
  induction depth generalizing scan with
  | zero => exact known
  | succ depth inductionHypothesis =>
    simp only [ImportScan.levels]
    split
    · exact known
    · exact inductionHypothesis _ (ImportScan.level_present world _ _ known)

/-- A test of the checkout depends on files of the checkout only. -/
theorem testDependencies_present (world : World) (testFile : Path)
    (present : world.present testFile = true) :
    ∀ path ∈ testDependencies world testFile, world.present path = true := by
  refine ImportScan.levels_present world _ _ ?_
  intro path member
  simp only [List.cons_append, List.mem_cons, List.mem_append] at member
  rcases member with rfl | imported | conftest
  · exact present
  · exact present_of_resolveImports world _ path imported
  · exact present_of_relevantConftest world testFile path conftest

/-- What discovery guarantees of an entry: it is registered under its own node
id, its file exists and no dependency is recorded yet. -/
def Discovered (world : World) (item : String × MarkedTest) : Prop :=
  item.1 = item.2.nodeId ∧ world.present item.2.filePath = true ∧ item.2.dependencies = []

/-- A line of the output registers a discovered test. -/
theorem registerLine_discovered (world : World) (markedTests : Dict String MarkedTest)
    (line : Text) (known : ∀ item ∈ markedTests.items, Discovered world item) :
    ∀ item ∈ (registerLine world markedTests line).items, Discovered world item := by
  simp only [registerLine]
  split
  · split
    · rename_i present
      exact Dict.forall_items_set markedTests _ _ known ⟨rfl, present, rfl⟩
    · exact known
  · exact known

/-- The collected tests are discovered. -/
theorem collectedTests_discovered (world : World) (stdout : Text) :
    ∀ item ∈ (collectedTests world stdout).items, Discovered world item := by
  apply List.foldlRecOn (motive := fun markedTests : Dict String MarkedTest =>
    ∀ item ∈ markedTests.items, Discovered world item)
  · intro item member
    cases member
  · intro markedTests known line _
    exact registerLine_discovered world markedTests line known

/-- New tests are registered as they were found. -/
theorem registerNew_discovered (world : World) (found : List MarkedTest)
    (markedTests : Dict String MarkedTest)
    (present : ∀ markedTest ∈ found,
      world.present markedTest.filePath = true ∧ markedTest.dependencies = [])
    (known : ∀ item ∈ markedTests.items, Discovered world item) :
    ∀ item ∈ (found.foldl registerNew markedTests).items, Discovered world item := by
  apply List.foldlRecOn (motive := fun current : Dict String MarkedTest =>
    ∀ item ∈ current.items, Discovered world item)
  · exact known
  · intro current kept markedTest listed
    rw [registerNew]
    split
    · exact kept
    · exact Dict.forall_items_set current _ _ kept ⟨rfl, present markedTest listed⟩

/-- The fallback reads tests from files that the checkout lists. -/
theorem processTestFile_present (world : World) (markerNames : List String) (testFile : Path)
    (listed : testFile ∈ testFiles world) :
    ∀ markedTest ∈ processTestFileForMarkers world markerNames testFile,
      world.present markedTest.filePath = true ∧ markedTest.dependencies = [] := by
  have present := world.filesPresent testFile (List.mem_filter.mp listed).1
  unfold processTestFileForMarkers
  split
  · simp
  · intro markedTest member
    obtain ⟨testName, -, rfl⟩ := List.mem_map.mp member
    exact ⟨present, rfl⟩

/-- The marked tests are discovered. -/
theorem discoverMarkedTests_discovered (world : World) (markerNames : List String)
    (stdout : Option Text) :
    ∀ item ∈ (discoverMarkedTests world markerNames stdout).items, Discovered world item := by
  have fallback : ∀ markedTests : Dict String MarkedTest,
      (∀ item ∈ markedTests.items, Discovered world item) →
        ∀ item ∈ (fallbackDiscoverMarkedTests world markerNames markedTests).items,
          Discovered world item := by
    intro markedTests known
    refine registerNew_discovered world _ markedTests ?_ known
    intro markedTest member
    obtain ⟨testFile, listed, found⟩ := List.mem_flatMap.mp member
    exact processTestFile_present world markerNames testFile listed markedTest found
  cases stdout with
  | none =>
    refine fallback ∅ ?_
    intro item member
    cases member
  | some stdout =>
    simp only [discoverMarkedTests]
    split
    · exact fallback _ (collectedTests_discovered world stdout)
    · exact collectedTests_discovered world stdout

namespace AnalyzerRun

variable (run : AnalyzerRun)

/-- A discovered entry is analyzed to a marked test. -/
theorem analyzed_mem_markedTests (item : String × MarkedTest)
    (found : item ∈ (discoverMarkedTests run.world run.markerNames run.stdout).items) :
    analyzeTest run.world run.markerNames run.fixtureUsage item.2 ∈ run.markedTests :=
  List.mem_map.mpr ⟨_, List.mem_filterMap.mpr ⟨item, found, rfl⟩, rfl⟩

/-- A marked test comes from a discovered entry. -/
theorem exists_discovered (markedTest : MarkedTest) (member : markedTest ∈ run.markedTests) :
    ∃ item ∈ (discoverMarkedTests run.world run.markerNames run.stdout).items,
      Discovered run.world item ∧
        analyzeTest run.world run.markerNames run.fixtureUsage item.2 = markedTest := by
  obtain ⟨entry, analyzed, same⟩ := List.mem_map.mp member
  obtain ⟨item, found, shape⟩ := List.mem_filterMap.mp analyzed
  cases shape
  exact ⟨item, found, discoverMarkedTests_discovered run.world run.markerNames run.stdout item
    found, same⟩

/-- The file of a marked test and every file it depends on exist in the analysed
checkout. -/
theorem markedTest_present (markedTest : MarkedTest) (member : markedTest ∈ run.markedTests) :
    run.world.present markedTest.filePath = true ∧
      ∀ path ∈ markedTest.dependencies, run.world.present path = true := by
  obtain ⟨item, -, ⟨-, present, unanalyzed⟩, rfl⟩ := run.exists_discovered markedTest member
  refine ⟨present, ?_⟩
  intro path dependency
  simp only [analyzeTest, unanalyzed, List.nil_append] at dependency
  exact testDependencies_present run.world item.2.filePath present path dependency

/-- Marked tests with one node id are the same test. -/
theorem markedTest_unique (left right : MarkedTest) (leftMember : left ∈ run.markedTests)
    (rightMember : right ∈ run.markedTests) (same : left.nodeId = right.nodeId) :
    left = right := by
  obtain ⟨leftItem, leftFound, ⟨leftKey, -⟩, rfl⟩ := run.exists_discovered left leftMember
  obtain ⟨rightItem, rightFound, ⟨rightKey, -⟩, rfl⟩ := run.exists_discovered right rightMember
  have sameKey : leftItem.1 = rightItem.1 := by
    rw [leftKey, rightKey]
    exact same
  have leftGet := (Dict.get_eq_some_iff _ leftItem.1 leftItem.2).mpr leftFound
  have rightGet := (Dict.get_eq_some_iff _ rightItem.1 rightItem.2).mpr rightFound
  rw [sameKey, rightGet, Option.some.injEq] at leftGet
  rw [leftGet]

/-- An affected test has the node id it is checked under. -/
theorem nodeId_of_checkTestImpact (ctx : ImpactContext) (nodeId : String)
    (markedTest : MarkedTest) (changedSet : List Path) (affected : AffectedTest)
    (flagged : checkTestImpact ctx nodeId markedTest changedSet = some affected) :
    affected.nodeId = nodeId := by
  simp only [checkTestImpact] at flagged
  split at flagged
  · cases flagged
  · rw [← Option.some.inj flagged]

/-- No changed file hides another: a test is reported exactly when the run with
one of the changed files alone reports it. -/
theorem reports_iff (changedFiles : List Path) (markedTest : MarkedTest)
    (member : markedTest ∈ run.markedTests) :
    run.reports changedFiles markedTest.nodeId = true ↔
      ∃ changedFile ∈ changedFiles,
        (changedFileImpact (run.impactContext [changedFile]) markedTest changedFile).isSome =
          true := by
  have listed : run.reports changedFiles markedTest.nodeId = true ↔
      (checkTestImpact (run.impactContext changedFiles.dedup) markedTest.nodeId markedTest
        changedFiles.dedup).isSome = true := by
    simp only [reports, affectedTests, List.any_eq_true, List.mem_filterMap, decide_eq_true_eq]
    constructor
    · rintro ⟨affected, ⟨other, otherMember, flagged⟩, same⟩
      rw [nodeId_of_checkTestImpact _ _ _ _ _ flagged] at same
      rw [run.markedTest_unique other markedTest otherMember member same] at flagged
      rw [flagged]
      rfl
    · intro flagged
      obtain ⟨affected, shape⟩ := Option.isSome_iff_exists.mp flagged
      exact ⟨affected, ⟨markedTest, member, shape⟩,
        nodeId_of_checkTestImpact _ _ _ _ _ shape⟩
  rw [listed, checkTestImpact_isSome]
  simp only [List.mem_dedup]
  refine exists_congr fun changedFile => and_congr_right fun changed => ?_
  rw [impactContext, impactContext,
    run.state.changedFileImpact_eq changedFiles.dedup changedFile (List.mem_dedup.mpr changed)]

/-- A file that the checkout does not have flags no test. -/
theorem absent_never_flags (ctx : ImpactContext) (changedFile : Path) (markedTest : MarkedTest)
    (member : markedTest ∈ run.markedTests) (absent : run.world.present changedFile = false) :
    changedFileImpact ctx markedTest changedFile = none := by
  obtain ⟨own, dependencies⟩ := run.markedTest_present markedTest member
  have foreign : changedFile ≠ markedTest.filePath := by
    rintro rfl
    simp [absent] at own
  have independent : changedFile ∉ markedTest.dependencies := by
    intro dependency
    exact absurd (dependencies changedFile dependency) (by simp [absent])
  rw [changedFileImpact, if_neg foreign, if_neg independent]

end AnalyzerRun

end VirtTestTools.Analyzer
