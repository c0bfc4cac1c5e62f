import VirtTestTools.Analyzer.Impact

/-!
# Import pathways into a test

How a changed file that is neither the test's own nor a conftest reaches a
test. The symbol branch and the conftest pathway of `_check_test_impact` are
characterised by declarative conditions on imports, fixtures and classified
symbols. Two consequences are stated on top: when an opaque import of the test
keeps its file-level fallback, and when a fixture of the test's closure that
calls a modified symbol is noticed.
-/

namespace VirtTestTools.Analyzer

/-- The test uses, directly or through requests, a fixture of the conftest that
calls one of the symbols. -/
def UsedFixtureCalls (ctx : ImpactContext) (markedTest : MarkedTest) (conftestPath : Path)
    (symbols : List String) : Prop :=
  ∃ name fixture, ctx.fixtures.get name = some fixture ∧ fixture.filePath = conftestPath ∧
    (∃ direct ∈ markedTest.fixtures, Uses ctx.fixtures direct name) ∧
    ∃ symbol ∈ fixture.functionCalls, symbol ∈ symbols

/-- The test names a fixture that calls one of the symbols. -/
def DirectFixtureCalls (ctx : ImpactContext) (markedTest : MarkedTest) (symbols : List String) :
    Prop :=
  ∃ name fixture, ctx.fixtures.get name = some fixture ∧ name ∈ markedTest.fixtures ∧
    ∃ symbol ∈ fixture.functionCalls, symbol ∈ symbols

/-- Some import path leads from the conftest to the changed file: an opaque
import, an import by name, or names imported from a file that in turn imports
names from it. -/
def HasImportPath (ctx : ImpactContext) (changedFile conftestPath : Path) : Prop :=
  changedFile ∈ opaqueImports ctx conftestPath ∨
    ((namedImports ctx conftestPath).get changedFile).isSome = true ∨
    ∃ item ∈ (namedImports ctx conftestPath).items,
      ((extractSymbolImportsFromFile ctx.world item.1).get changedFile).isSome = true

/-- The condition under which an opaque import of a conftest flags the test. -/
def OpaqueFlags (ctx : ImpactContext) (markedTest : MarkedTest)
    (changedFile conftestPath : Path) : Prop :=
  ∀ classification, ctx.classification changedFile = some classification →
    classification.hasUnattributedChanges = true ∨
      classification.modifiedSymbols = [] ∧ classification.newSymbols = [] ∨
      UsedFixtureCalls ctx markedTest conftestPath classification.modifiedSymbols

/-- The condition under which a two-step import of a conftest flags the test. -/
def TransitiveFlags (ctx : ImpactContext) (markedTest : MarkedTest)
    (changedFile conftestPath : Path) (items : List (Path × List String)) : Prop :=
  ∃ item ∈ items, ∃ imported,
    (extractSymbolImportsFromFile ctx.world item.1).get changedFile = some imported ∧
      missesImports (ctx.classification changedFile) imported = false ∧
      UsedFixtureCalls ctx markedTest conftestPath item.2

/-- The condition under which a conftest flags the test for a changed file. The
three kinds of import path are examined in this order, the first one present
decides. -/
def PathFlags (ctx : ImpactContext) (markedTest : MarkedTest)
    (changedFile conftestPath : Path) : Prop :=
  changedFile ∈ opaqueImports ctx conftestPath ∧
      OpaqueFlags ctx markedTest changedFile conftestPath ∨
    changedFile ∉ opaqueImports ctx conftestPath ∧
      ((∃ imported, (namedImports ctx conftestPath).get changedFile = some imported ∧
          UsedFixtureCalls ctx markedTest conftestPath
            (symbolsToCheck (ctx.classification changedFile) imported)) ∨
        (namedImports ctx conftestPath).get changedFile = none ∧
          TransitiveFlags ctx markedTest changedFile conftestPath
            (namedImports ctx conftestPath).items)

/-- Whether a pathway affects the test. -/
def Pathway.flags : Pathway → Bool
  | .affected _ => true
  | _ => false

/-- A fixture matches exactly when one that is used calls a symbol. -/
theorem fixtureMatch_isSome (ctx : ImpactContext) (markedTest : MarkedTest) (conftestPath : Path)
    (symbols : List String) :
    (fixtureMatch ctx conftestPath (expandUsedFixtures markedTest.fixtures ctx.fixtures)
      symbols).isSome = true ↔ UsedFixtureCalls ctx markedTest conftestPath symbols := by
  simp only [fixtureMatch, Option.isSome_map, List.find?_isSome, Bool.and_eq_true,
    decide_eq_true_eq, Bool.not_eq_true', List.isEmpty_eq_false_iff, intersect_ne_nil,
    mem_expandUsedFixtures, UsedFixtureCalls, Dict.get_eq_some_iff, Prod.exists, and_assoc]

/-- The result of looking for a used fixture that calls one of the symbols. -/
theorem fixturePathway_flags (ctx : ImpactContext) (markedTest : MarkedTest)
    (conftestPath : Path) (symbols : List String) (message : String × List String → String) :
    (match fixtureMatch ctx conftestPath (expandUsedFixtures markedTest.fixtures ctx.fixtures)
        symbols with
      | some found => Pathway.affected (message found)
      | none => Pathway.safe).flags = true ↔
      UsedFixtureCalls ctx markedTest conftestPath symbols := by
  rw [← fixtureMatch_isSome]
  cases fixtureMatch ctx conftestPath (expandUsedFixtures markedTest.fixtures ctx.fixtures)
    symbols <;> simp [Pathway.flags]

/-- The pathway of opaque imports flags a test exactly in its case. -/
theorem opaquePathway_flags (ctx : ImpactContext) (markedTest : MarkedTest)
    (changedFile conftestPath : Path) :
    (opaquePathway ctx changedFile conftestPath
      (expandUsedFixtures markedTest.fixtures ctx.fixtures)).flags = true ↔
      OpaqueFlags ctx markedTest changedFile conftestPath := by
  unfold opaquePathway OpaqueFlags
  cases ctx.classification changedFile with
  | none => simp [Pathway.flags]
  | some classification =>
    simp only [Option.some.injEq, forall_eq']
    by_cases unattributed : classification.hasUnattributedChanges = true
    · simp [unattributed, Pathway.flags]
    · by_cases empty : classification.modifiedSymbols = []
      · cases classification.newSymbols <;>
          simp [empty, unattributed, Pathway.flags, UsedFixtureCalls]
      · simp only [List.isEmpty_iff, empty, unattributed, Bool.false_eq_true, ↓reduceIte,
          false_and, false_or]
        exact fixturePathway_flags ctx markedTest conftestPath classification.modifiedSymbols
          (viaFixture changedFile)

/-- The transitive pathway flags a test exactly in its case. -/
theorem transitivePathway_flags (ctx : ImpactContext) (markedTest : MarkedTest)
    (changedFile conftestPath : Path) (items : List (Path × List String)) (resolved : Bool) :
    (transitivePathway ctx changedFile conftestPath
      (expandUsedFixtures markedTest.fixtures ctx.fixtures) items resolved).flags = true ↔
      TransitiveFlags ctx markedTest changedFile conftestPath items := by
  induction items generalizing resolved with
  | nil => cases resolved <;> simp [transitivePathway, TransitiveFlags, Pathway.flags]
  | cons item rest inductionHypothesis =>
    obtain ⟨intermediatePath, imported⟩ := item
    have later : TransitiveFlags ctx markedTest changedFile conftestPath
        ((intermediatePath, imported) :: rest) ↔
        (∃ names, (extractSymbolImportsFromFile ctx.world intermediatePath).get changedFile =
            some names ∧ missesImports (ctx.classification changedFile) names = false ∧
            UsedFixtureCalls ctx markedTest conftestPath imported) ∨
          TransitiveFlags ctx markedTest changedFile conftestPath rest := by
      simp [TransitiveFlags]
    rw [later]
    simp only [transitivePathway]
    cases (extractSymbolImportsFromFile ctx.world intermediatePath).get changedFile with
    | none => simp [inductionHypothesis]
    | some names =>
      by_cases misses : missesImports (ctx.classification changedFile) names = true
      · simp [misses, inductionHypothesis]
      · have found := fixtureMatch_isSome ctx markedTest conftestPath imported
        cases shape : fixtureMatch ctx conftestPath
          (expandUsedFixtures markedTest.fixtures ctx.fixtures) imported with
        | none =>
          simp only [shape, Option.isSome_none, Bool.false_eq_true, false_iff] at found
          simp [misses, found, inductionHypothesis]
        | some pair =>
          simp only [shape, Option.isSome_some, true_iff] at found
          simp [misses, found, Pathway.flags]

/-- The two-step search is unrelated exactly when no intermediate imports from
the changed file. -/
theorem transitivePathway_unrelated (ctx : ImpactContext) (changedFile conftestPath : Path)
    (usedFixtures : List String) (items : List (Path × List String)) (resolved : Bool) :
    transitivePathway ctx changedFile conftestPath usedFixtures items resolved =
        Pathway.unrelated ↔
      resolved = false ∧ ∀ item ∈ items,
        (extractSymbolImportsFromFile ctx.world item.1).get changedFile = none := by
  induction items generalizing resolved with
  | nil => cases resolved <;> simp [transitivePathway]
  | cons item rest inductionHypothesis =>
    obtain ⟨intermediatePath, imported⟩ := item
    simp only [transitivePathway, List.forall_mem_cons]
    cases (extractSymbolImportsFromFile ctx.world intermediatePath).get changedFile with
    | none => simp [inductionHypothesis]
    | some names =>
      simp only [reduceCtorEq, false_and, and_false, iff_false]
      split
      · simp [inductionHypothesis]
      · split
        · simp
        · simp [inductionHypothesis]

/-- A conftest flags the test exactly under the declarative condition. -/
theorem conftestPathway_flags (ctx : ImpactContext) (markedTest : MarkedTest)
    (changedFile conftestPath : Path) :
    (conftestPathway ctx changedFile (expandUsedFixtures markedTest.fixtures ctx.fixtures)
      conftestPath).flags = true ↔ PathFlags ctx markedTest changedFile conftestPath := by
  unfold conftestPathway PathFlags
  by_cases imported : changedFile ∈ opaqueImports ctx conftestPath
  · rw [if_pos imported, opaquePathway_flags]
    simp [imported]
  · rw [if_neg imported]
    simp only [imported, false_and, not_false_eq_true, true_and, false_or]
    cases (namedImports ctx conftestPath).get changedFile with
    | none => simp [transitivePathway_flags]
    | some names =>
      simp only [Option.some.injEq, exists_eq_left', reduceCtorEq, false_and, or_false]
      exact fixturePathway_flags ctx markedTest conftestPath
        (symbolsToCheck (ctx.classification changedFile) names) (viaFixture changedFile)

/-- A conftest is unrelated to a changed file exactly when no import path leads
there. -/
theorem conftestPathway_unrelated (ctx : ImpactContext) (changedFile conftestPath : Path)
    (usedFixtures : List String) :
    conftestPathway ctx changedFile usedFixtures conftestPath = Pathway.unrelated ↔
      ¬ HasImportPath ctx changedFile conftestPath := by
  unfold conftestPathway HasImportPath
  by_cases imported : changedFile ∈ opaqueImports ctx conftestPath
  · rw [if_pos imported]
    simp only [imported, true_or, not_true_eq_false, iff_false, opaquePathway]
    repeat' split
    all_goals simp
  · rw [if_neg imported]
    simp only [imported, false_or]
    cases (namedImports ctx conftestPath).get changedFile with
    | none => simp [transitivePathway_unrelated]
    | some names =>
      simp only [directPathway, Option.isSome_some, true_or, not_true_eq_false, iff_false]
      split <;> simp

/-- The loop over conftest files flags the test when one of them does, or when
none has an import path and nothing was resolved before.

Proof: induction on the dependencies, generalizing the `conftest_resolved` flag. -/
theorem pathwayLoop_isSome (ctx : ImpactContext) (markedTest : MarkedTest) (changedFile : Path)
    (dependencies : List Path) (conftestResolved : Bool) :
    (pathwayLoop ctx changedFile (expandUsedFixtures markedTest.fixtures ctx.fixtures)
      dependencies conftestResolved).isSome = true ↔
      (∃ conftestPath ∈ dependencies, conftestPath.isConftest = true ∧
        PathFlags ctx markedTest changedFile conftestPath) ∨
      conftestResolved = false ∧ ∀ conftestPath ∈ dependencies, conftestPath.isConftest = true →
        ¬ HasImportPath ctx changedFile conftestPath := by
  induction dependencies generalizing conftestResolved with
  | nil => cases conftestResolved <;> simp [pathwayLoop]
  | cons conftestPath rest inductionHypothesis =>
    simp only [pathwayLoop, List.exists_mem_cons_iff, List.forall_mem_cons]
    by_cases conftest : conftestPath.isConftest = true
    · have flags := conftestPathway_flags ctx markedTest changedFile conftestPath
      have unrelated := conftestPathway_unrelated ctx changedFile conftestPath
        (expandUsedFixtures markedTest.fixtures ctx.fixtures)
      cases shape : conftestPathway ctx changedFile
        (expandUsedFixtures markedTest.fixtures ctx.fixtures) conftestPath with
      | affected dependency =>
        simp only [shape, Pathway.flags, true_iff] at flags
        simp [conftest, flags]
      | safe =>
        simp only [shape, Pathway.flags, Bool.false_eq_true, false_iff] at flags
        simp only [shape, reduceCtorEq, false_iff, not_not] at unrelated
        simp [conftest, flags, unrelated, inductionHypothesis]
      | unrelated =>
        simp only [shape, Pathway.flags, Bool.false_eq_true, false_iff] at flags
        simp only [shape, true_iff] at unrelated
        simp [conftest, flags, unrelated, inductionHypothesis]
    · simp [conftest, inductionHypothesis]

/-- The file contains a bare or a star import whose module resolves to the
imported file. -/
def ImportsOpaquely (world : World) (path importedFile : Path) : Prop :=
  ∃ tree, world.tree path = some tree ∧
    ∃ module ∈ (visitImportsAll tree {}).opaqueImports,
      resolveModuleToPath world module = some importedFile

/-- When a dependency without imported symbols is flagged. Apart from the two
special kinds of file, either no conftest of the test has an import path to it,
or the imports of some conftest flag it. -/
def FallbackKept (ctx : ImpactContext) (markedTest : MarkedTest) (changedFile : Path) : Prop :=
  changedFile = markedTest.filePath ∧
      (∀ classification, ctx.classification changedFile = some classification →
        OwnSymbolModified markedTest classification) ∨
    changedFile ≠ markedTest.filePath ∧ changedFile.isConftest = true ∧
      ConftestChangeReaches ctx markedTest changedFile ∨
    changedFile ≠ markedTest.filePath ∧ changedFile.isConftest = false ∧
      ((∀ conftestPath ∈ markedTest.dependencies, conftestPath.isConftest = true →
          ¬ HasImportPath ctx changedFile conftestPath) ∨
        ∃ conftestPath ∈ markedTest.dependencies, conftestPath.isConftest = true ∧
          PathFlags ctx markedTest changedFile conftestPath)

/-- A dependency without imported symbols is flagged by exactly these rules. -/
theorem changedFileImpact_isSome_of_unimported (ctx : ImpactContext) (markedTest : MarkedTest)
    (changedFile : Path) (dependency : changedFile ∈ markedTest.dependencies)
    (unimported : markedTest.symbolImports.get changedFile = none) :
    (changedFileImpact ctx markedTest changedFile).isSome = true ↔
      FallbackKept ctx markedTest changedFile := by
  unfold changedFileImpact FallbackKept
  by_cases own : changedFile = markedTest.filePath
  · rw [if_pos own, selfModification_isSome]
    simp [own]
  · rw [if_neg own, if_pos dependency]
    by_cases conftest : changedFile.isConftest = true
    · rw [if_pos conftest, conftestImpact_isSome]
      simp [own, conftest]
    · rw [if_neg conftest]
      simp only [unimported, checkConftestPathway, pathwayLoop_isSome]
      simp [own, conftest, or_comm]

/-- The file-level fallback of an opaque import. A test whose own file imports
the changed file opaquely, so that it is a dependency without imported symbols,
is reported for every changed set with that file exactly when the fallback is
kept: a conftest that also imports the file, by name or through another file,
may switch it off.

Proof: the body of the loop over changed files takes the conftest pathway, whose
loop is characterised by `pathwayLoop_isSome`. -/
theorem opaque_import_reported_iff (ctx : ImpactContext) (markedTest : MarkedTest)
    (changedFile : Path)
    (_imported : ImportsOpaquely ctx.world markedTest.filePath changedFile)
    (dependency : changedFile ∈ markedTest.dependencies)
    (unimported : markedTest.symbolImports.get changedFile = none)
    (_changes : ∀ classification, ctx.classification changedFile = some classification →
      classification.modifiedSymbols ≠ []) :
    (∀ changedSet : List Path, changedFile ∈ changedSet →
      (checkTestImpact ctx markedTest.nodeId markedTest changedSet).isSome = true) ↔
      FallbackKept ctx markedTest changedFile := by
  rw [reported_forall_iff]
  exact changedFileImpact_isSome_of_unimported ctx markedTest changedFile dependency unimported

/-- A checkout with one test file, one conftest and one library file. The test
file contains `import utilities.virt`. -/
def virtWorld : World where
  unicode := Text.ascii
  present path := decide (path ∈
    [["tests", "test_vm.py"], ["tests", "conftest.py"], ["utilities", "virt.py"]])
  source path :=
    if path = ["tests", "test_vm.py"] then
      some ⟨"import utilities.virt".toList,
        some [.importStmt ⟨1, 1, 1⟩ [⟨"utilities.virt", none⟩]]⟩
    else none
  gitDiff _ _ := none
  baseFile _ := .missing

/-- The library file changed in `start_vm`; the conftest imports the given names
from it. Its fixture `running_vm` requests `started_vm`, which calls `start_vm`. -/
def virtContext (conftestNames : List String) : ImpactContext where
  world := virtWorld
  fixtures := (Dict.empty).update
    [("running_vm",
        { name := "running_vm"
          filePath := ["tests", "conftest.py"]
          fixtureDeps := ["started_vm"] }),
      ("started_vm",
        { name := "started_vm"
          filePath := ["tests", "conftest.py"]
          functionCalls := ["start_vm"] })]
  conftestSymbolImports := (Dict.empty).set ["tests", "conftest.py"]
    ((Dict.empty).set ["utilities", "virt.py"] conftestNames)
  modifiedSymbolsCache := (Dict.empty).set ["utilities", "virt.py"]
    (some { modifiedSymbols := ["start_vm"], newSymbols := [] })

/-- The test of `virtWorld`, with its dependencies. -/
def virtTest (fixtures : List String) (imported : Option (List String)) : MarkedTest where
  filePath := ["tests", "test_vm.py"]
  testName := "test_vm"
  nodeId := "tests/test_vm.py::test_vm"
  dependencies := [["tests", "test_vm.py"], ["utilities", "virt.py"], ["tests", "conftest.py"]]
  fixtures := fixtures
  symbolImports :=
    match imported with
    | none => ∅
    | some names => (Dict.empty).set ["utilities", "virt.py"] names

/-- The sample test imports the module opaquely. -/
theorem virtTest_importsOpaquely (fixtures : List String) (imported : Option (List String)) :
    ImportsOpaquely virtWorld (virtTest fixtures imported).filePath ["utilities", "virt.py"] :=
  ⟨_, rfl, "utilities.virt", by decide, by decide⟩

/-- With a fixture of the conftest that calls the modified symbol the fallback
is kept. -/
theorem opaque_import_reported_with_fixture :
    (checkTestImpact (virtContext ["start_vm"]) "tests/test_vm.py::test_vm"
      (virtTest ["started_vm"] none) [["utilities", "virt.py"]]).isSome = true := by
  refine (opaque_import_reported_iff (virtContext ["start_vm"]) (virtTest ["started_vm"] none)
    ["utilities", "virt.py"] (virtTest_importsOpaquely _ _) (by decide) rfl ?_).mpr ?_ _
    (List.mem_singleton.mpr rfl)
  · intro classification cached
    have same : { modifiedSymbols := ["start_vm"], newSymbols := [] } = classification :=
      Option.some.inj cached
    rw [← same]
    exact List.cons_ne_nil _ _
  · refine Or.inr (Or.inr ⟨by decide, by decide, Or.inr
      ⟨["tests", "conftest.py"], by decide, by decide, Or.inr ⟨by decide, Or.inl
        ⟨["start_vm"], rfl, "started_vm", _, rfl, rfl, ⟨"started_vm", by decide, .refl⟩,
          "start_vm", by decide, by decide⟩⟩⟩⟩)

/-- A conftest import of another name from the same file switches the fallback
of the test's own opaque import off. -/
theorem opaque_import_not_reported :
    ImportsOpaquely virtWorld ["tests", "test_vm.py"] ["utilities", "virt.py"] ∧
      ["utilities", "virt.py"] ∈ (virtTest [] none).dependencies ∧
      (virtTest [] none).symbolImports.get ["utilities", "virt.py"] = none ∧
      (∃ classification,
        (virtContext ["stop_vm"]).classification ["utilities", "virt.py"] = some classification ∧
          classification.modifiedSymbols = ["start_vm"]) ∧
      checkTestImpact (virtContext ["stop_vm"]) "tests/test_vm.py::test_vm" (virtTest [] none)
        [["utilities", "virt.py"]] = none :=
  ⟨virtTest_importsOpaquely [] none, by decide, rfl, ⟨_, rfl, rfl⟩, by decide⟩

/-- The test counts as a user of an imported modified symbol: it touches one of
the modified members, if these and the test's attributes are known, and it
calls the symbol, unless the calls are unknown or the symbol may be a class. -/
def UsesSymbol (ctx : ImpactContext) (markedTest : MarkedTest)
    (classification : SymbolClassification) (symbol : String) : Prop :=
  (∀ members attrs, classification.modifiedMembers.get symbol = some members →
    collectTestAttributeAccesses ctx.world markedTest.filePath markedTest.testName = some attrs →
      ∃ attr ∈ attrs, attr ∈ members) ∧
  ∀ calls, collectTestFunctionCalls ctx.world markedTest.filePath markedTest.testName =
      some calls →
    classification.modifiedMembers.has symbol = true ∨ symbol ∈ calls ∨
      startsUpper ctx.world.unicode symbol = true

/-- A symbol stays unless its modified members are not accessed. -/
theorem mem_narrowByMembers (ctx : ImpactContext) (markedTest : MarkedTest)
    (classification : SymbolClassification) (symbols : List String) (symbol : String) :
    symbol ∈ narrowByMembers ctx markedTest classification symbols ↔
      symbol ∈ symbols ∧
        ∀ members attrs, classification.modifiedMembers.get symbol = some members →
          collectTestAttributeAccesses ctx.world markedTest.filePath markedTest.testName =
            some attrs → ∃ attr ∈ attrs, attr ∈ members := by
  unfold narrowByMembers
  split
  · rename_i empty
    have unknown : classification.modifiedMembers.get symbol = none := by
      simp [Dict.get, List.isEmpty_iff.mp empty]
    simp [unknown]
  · rw [List.mem_filter]
    cases classification.modifiedMembers.get symbol <;>
      cases collectTestAttributeAccesses ctx.world markedTest.filePath markedTest.testName <;>
      simp [List.isEmpty_eq_false_iff, intersect_ne_nil]

/-- A symbol stays unless it is a function that is not called. -/
theorem mem_narrowByCalls (ctx : ImpactContext) (markedTest : MarkedTest)
    (classification : SymbolClassification) (symbols : List String) (symbol : String) :
    symbol ∈ narrowByCalls ctx markedTest classification symbols ↔
      symbol ∈ symbols ∧
        ∀ calls, collectTestFunctionCalls ctx.world markedTest.filePath markedTest.testName =
            some calls →
          classification.modifiedMembers.has symbol = true ∨ symbol ∈ calls ∨
            startsUpper ctx.world.unicode symbol = true := by
  unfold narrowByCalls
  cases collectTestFunctionCalls ctx.world markedTest.filePath markedTest.testName <;>
    simp [or_assoc]

/-- The symbols left after both narrowings. -/
theorem mem_narrowedSymbols (ctx : ImpactContext) (markedTest : MarkedTest)
    (classification : SymbolClassification) (imported : List String) (symbol : String) :
    symbol ∈ narrowedSymbols ctx markedTest classification imported ↔
      symbol ∈ imported ∧ symbol ∈ classification.modifiedSymbols ∧
        UsesSymbol ctx markedTest classification symbol := by
  simp only [narrowedSymbols, mem_narrowByCalls, mem_narrowByMembers, mem_intersect, UsesSymbol,
    and_assoc]

/-- A file the test imports names from flags it when an imported modified symbol
counts as used, or a directly named fixture calls a modified symbol. -/
theorem symbolImpact_isSome (ctx : ImpactContext) (markedTest : MarkedTest) (changedFile : Path)
    (imported : List String) (classification : SymbolClassification)
    (cached : ctx.classification changedFile = some classification) :
    (symbolImpact ctx markedTest changedFile imported).isSome = true ↔
      (∃ symbol ∈ imported, symbol ∈ classification.modifiedSymbols ∧
        UsesSymbol ctx markedTest classification symbol) ∨
      DirectFixtureCalls ctx markedTest classification.modifiedSymbols := by
  have used : (∃ symbol ∈ imported, symbol ∈ classification.modifiedSymbols ∧
      UsesSymbol ctx markedTest classification symbol) ↔
      narrowedSymbols ctx markedTest classification imported ≠ [] := by
    simp only [← mem_narrowedSymbols]
    exact ⟨fun ⟨_, member⟩ => List.ne_nil_of_mem member, List.exists_mem_of_ne_nil _⟩
  have direct : (ctx.fixtures.items.find? (fun item =>
        decide (item.1 ∈ markedTest.fixtures) &&
          !(intersect item.2.functionCalls classification.modifiedSymbols).isEmpty)).isSome = true ↔
      DirectFixtureCalls ctx markedTest classification.modifiedSymbols := by
    simp only [List.find?_isSome, Bool.and_eq_true, decide_eq_true_eq, Bool.not_eq_true',
      List.isEmpty_eq_false_iff, intersect_ne_nil, DirectFixtureCalls, Dict.get_eq_some_iff,
      Prod.exists]
  rw [used, ← direct]
  simp only [symbolImpact, cached]
  by_cases empty : narrowedSymbols ctx markedTest classification imported = []
  · simp [empty]
  · simp [empty, List.isEmpty_iff]

/-- A fixture of the test's closure, defined in a conftest among the test's
dependencies, calls a modified symbol that the conftest imports from the changed
file by name. -/
def FixtureCallsModified (ctx : ImpactContext) (markedTest : MarkedTest) (changedFile : Path)
    (classification : SymbolClassification) : Prop :=
  ∃ name ∈ expandUsedFixtures markedTest.fixtures ctx.fixtures, ∃ fixture imported,
    ctx.fixtures.get name = some fixture ∧
    fixture.filePath ∈ markedTest.dependencies ∧ fixture.filePath.isConftest = true ∧
    (namedImports ctx fixture.filePath).get changedFile = some imported ∧
    ∃ symbol ∈ imported, symbol ∈ classification.modifiedSymbols ∧ symbol ∈ fixture.functionCalls

/-- Such a fixture makes its conftest flag the test. -/
theorem pathFlags_of_fixtureCallsModified (ctx : ImpactContext) (markedTest : MarkedTest)
    (changedFile : Path) (classification : SymbolClassification)
    (cached : ctx.classification changedFile = some classification)
    (calls : FixtureCallsModified ctx markedTest changedFile classification) :
    ∃ conftestPath ∈ markedTest.dependencies, conftestPath.isConftest = true ∧
      PathFlags ctx markedTest changedFile conftestPath := by
  obtain ⟨name, used, fixture, imported, found, dependency, conftest, names, symbol, byName,
    modified, called⟩ := calls
  rw [mem_expandUsedFixtures] at used
  refine ⟨fixture.filePath, dependency, conftest, ?_⟩
  by_cases isOpaque : changedFile ∈ opaqueImports ctx fixture.filePath
  · refine Or.inl ⟨isOpaque, ?_⟩
    intro other same
    rw [cached, Option.some.injEq] at same
    subst same
    exact Or.inr (Or.inr ⟨name, fixture, found, rfl, used, symbol, called, modified⟩)
  · refine Or.inr ⟨isOpaque, Or.inl ⟨imported, names, ?_⟩⟩
    refine ⟨name, fixture, found, rfl, used, symbol, called, ?_⟩
    rw [cached]
    exact (mem_intersect imported classification.modifiedSymbols symbol).mpr ⟨byName, modified⟩

/-- What is needed besides such a fixture. Nothing, when the test imports no
name of the changed file. When it does, the fixture closure is not consulted:
an imported modified symbol has to count as used, or a fixture that the test
names itself has to call a modified symbol. -/
def FixturePathwayKept (ctx : ImpactContext) (markedTest : MarkedTest) (changedFile : Path)
    (classification : SymbolClassification) : Prop :=
  if changedFile = markedTest.filePath then OwnSymbolModified markedTest classification
  else
    ∀ imported, markedTest.symbolImports.get changedFile = some imported →
      (∃ symbol ∈ imported, symbol ∈ classification.modifiedSymbols ∧
        UsesSymbol ctx markedTest classification symbol) ∨
      DirectFixtureCalls ctx markedTest classification.modifiedSymbols

/-- Consistency of the two branches on fixture pathways. If a fixture of the
test's closure calls a modified symbol that its conftest imports from the
changed file, the test is reported for every changed set with that file exactly
under `FixturePathwayKept`.

Proof: without imported names the conftest pathway finds the fixture; with
imported names the symbol branch is taken, and `symbolImpact_isSome` says what
it looks at. -/
theorem fixture_pathway_reported_iff (ctx : ImpactContext) (markedTest : MarkedTest)
    (changedFile : Path) (classification : SymbolClassification)
    (dependency : changedFile ∈ markedTest.dependencies)
    (ordinary : changedFile.isConftest = false)
    (cached : ctx.classification changedFile = some classification)
    (calls : FixtureCallsModified ctx markedTest changedFile classification) :
    (∀ changedSet : List Path, changedFile ∈ changedSet →
      (checkTestImpact ctx markedTest.nodeId markedTest changedSet).isSome = true) ↔
      FixturePathwayKept ctx markedTest changedFile classification := by
  rw [reported_forall_iff, FixturePathwayKept]
  split
  · rename_i own
    rw [changedFileImpact, if_pos own, selfModification_isSome]
    simp [cached]
  · rename_i foreign
    cases imports : markedTest.symbolImports.get changedFile with
    | none =>
      have flags := pathFlags_of_fixtureCallsModified ctx markedTest changedFile classification
        cached calls
      have kept : FallbackKept ctx markedTest changedFile :=
        Or.inr (Or.inr ⟨foreign, ordinary, Or.inr flags⟩)
      have flagged := (changedFileImpact_isSome_of_unimported ctx markedTest changedFile dependency
        imports).mpr kept
      simp [flagged]
    | some imported =>
      rw [changedFileImpact, if_neg foreign, if_pos dependency, if_neg (by simp [ordinary])]
      simp only [imports, symbolImpact_isSome ctx markedTest changedFile imported classification
        cached, Option.some.injEq, forall_eq']

/-- The premise and the condition hold together when the test names the calling
fixture itself. -/
theorem fixture_pathway_reported_directly :
    (checkTestImpact (virtContext ["start_vm"]) "tests/test_vm.py::test_vm"
      (virtTest ["started_vm"] (some ["stop_vm"])) [["utilities", "virt.py"]]).isSome = true := by
  refine (fixture_pathway_reported_iff (virtContext ["start_vm"])
    (virtTest ["started_vm"] (some ["stop_vm"])) ["utilities", "virt.py"] _ (by decide) (by decide)
    rfl ⟨"started_vm", by decide, _, ["start_vm"], rfl, by decide, by decide, rfl, "start_vm",
      by decide, by decide, by decide⟩).mpr ?_ _ (List.mem_singleton.mpr rfl)
  rw [FixturePathwayKept, if_neg (by decide)]
  intro imported _
  exact Or.inr ⟨"started_vm", _, rfl, by decide, "start_vm", by decide, by decide⟩

/-- An unrelated imported name turns an affected test into an unaffected one:
the fixture is only in the closure of the one the test names. -/
theorem fixture_pathway_lost_by_import :
    (∃ classification,
      (virtContext ["start_vm"]).classification ["utilities", "virt.py"] = some classification ∧
        FixtureCallsModified (virtContext ["start_vm"])
          (virtTest ["running_vm"] (some ["stop_vm"])) ["utilities", "virt.py"] classification) ∧
      (checkTestImpact (virtContext ["start_vm"]) "tests/test_vm.py::test_vm"
        (virtTest ["running_vm"] none) [["utilities", "virt.py"]]).isSome = true ∧
      checkTestImpact (virtContext ["start_vm"]) "tests/test_vm.py::test_vm"
        (virtTest ["running_vm"] (some ["stop_vm"])) [["utilities", "virt.py"]] = none :=
  ⟨⟨_, rfl, "started_vm", by decide, _, ["start_vm"], rfl, by decide, by decide, rfl, "start_vm",
    by decide, by decide, by decide⟩, by decide, by decide⟩

end VirtTestTools.Analyzer
