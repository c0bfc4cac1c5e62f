import VirtTestTools.Analyzer.Symbols
import VirtTestTools.Analyzer.FixtureGraph

/-!
# Whether a changed file affects a test

The per-test decision `_check_test_impact` with its four branches: the test's
own file, a changed `conftest.py`, a file the test imports symbols from, and a
file reached only through the conftest files of the test's hierarchy. Messages
are kept, because they are what the analyzer reports.

A branch answers `none` when it does not flag the test, and the dependency
descriptions it appends otherwise.
-/

namespace VirtTestTools.Analyzer

/-- What `_check_test_impact` is given besides the test and the changed files. -/
structure ImpactContext where
  world : World
  fixtures : Dict String Fixture := ∅
  conftestSymbolImports : Dict Path (Dict Path (List String)) := ∅
  conftestOpaqueDeps : Dict Path (List Path) := ∅
  modifiedSymbolsCache : Dict Path (Option SymbolClassification) := ∅

/-- The cached classification of a changed file; an absent entry and a failed
analysis are treated alike. -/
def ImpactContext.classification (ctx : ImpactContext) (changedFile : Path) :
    Option SymbolClassification :=
  (ctx.modifiedSymbolsCache.get changedFile).join

/-- An entry of `affected_tests`. -/
structure AffectedTest where
  nodeId : String
  testName : String
  testFile : String
  dependencies : List String
deriving DecidableEq

/-- `", ".join(sorted(symbols))`. -/
def joinSorted (symbols : List String) : String :=
  String.intercalate ", " (symbols.dedup.insertionSort (· ≤ ·))

/-- `_get_modified_function_names`; `none` when no diff could be retrieved. In
checkout mode an empty pull request diff falls back to the local one. -/
def getModifiedFunctionNames (world : World) (path : Path) : Option (List String) :=
  let parse := parseDiffForFunctions world.unicode
  match world.prDiffsCache.bind (fun cache => cache.get path) with
  | some cached => some (parse cached)
  | none =>
    if world.githubPrInfo && !(world.getPrFileDiff path).isEmpty then
      some (parse (world.getPrFileDiff path))
    else if world.githubPrInfo && !world.isCheckout then none
    else (world.gitDiff 3 path).map parse

/-- Names of the fixtures a file defines, at any depth. -/
def allFixtures (world : World) (path : Path) : List String :=
  match world.tree path with
  | none => []
  | some tree => ((AST.preorderAll tree).filterMap (fixtureOf path)).map Fixture.name

/-- Filter out functions that the base version does not have, when it is known. -/
def inBaseVersion (world : World) (path : Path) (names : List String) : List String :=
  match getOldFileSymbols world path with
  | none => names
  | some (oldSymbols, _) => names.filter (· ∈ oldSymbols)

/-- `_extract_modified_items_from_conftest`: the modified fixtures and the
modified other functions, or `none` for a structural change. -/
def extractModifiedItemsFromConftest (world : World) (changedFile : Path)
    (fileStatus : Option FileStatus) : Option (List String × List String) :=
  if fileStatus = some .added ∨ fileStatus = some .renamed then some ([], [])
  else
    match getModifiedFunctionNames world changedFile with
    | none =>
      if world.present changedFile then some (allFixtures world changedFile, []) else some ([], [])
    | some names =>
      match extractModifiedSymbols world changedFile fileStatus with
      | none => none
      | some classification =>
        if "pytest_plugins" ∈ classification.modifiedSymbols ++ classification.newSymbols then none
        else
          let fixtureNames := allFixtures world changedFile
          let existing := inBaseVersion world changedFile names
          some (existing.filter (· ∈ fixtureNames), existing.filter (· ∉ fixtureNames))

/-- The first fixture of a conftest that is used and calls one of the symbols,
with the symbols it calls. -/
def fixtureMatch (ctx : ImpactContext) (conftestPath : Path) (usedFixtures symbols : List String) :
    Option (String × List String) :=
  (ctx.fixtures.items.find? (fun item =>
    decide (item.2.filePath = conftestPath) && decide (item.1 ∈ usedFixtures) &&
      !(intersect item.2.functionCalls symbols).isEmpty)).map
    (fun item => (item.1, intersect item.2.functionCalls symbols))

/-- What one conftest says about a changed file: no import path to it, a path
that was resolved as safe, or a path that affects the test. -/
inductive Pathway
  | unrelated
  | safe
  | affected (dependency : String)
deriving DecidableEq

/-- The message of a match through a fixture. -/
def viaFixture (changedFile : Path) (found : String × List String) : String :=
  changedFile.display ++ " (via fixture " ++ found.1 ++ ": " ++ joinSorted found.2 ++ ")"

/-- A conftest that imports the changed file opaquely. -/
def opaquePathway (ctx : ImpactContext) (changedFile conftestPath : Path)
    (usedFixtures : List String) : Pathway :=
  let flagged := Pathway.affected
    (changedFile.display ++ " (opaque import via " ++ conftestPath.display ++ ")")
  match ctx.classification changedFile with
  | none => flagged
  | some classification =>
    if classification.modifiedSymbols.isEmpty then
      if !classification.newSymbols.isEmpty && !classification.hasUnattributedChanges then .safe
      else flagged
    else if classification.hasUnattributedChanges then flagged
    else
      match fixtureMatch ctx conftestPath usedFixtures classification.modifiedSymbols with
      | some found => .affected (viaFixture changedFile found)
      | none => .safe

/-- The symbols to look for in fixtures: the imported ones, restricted to the
modified ones when these are known. -/
def symbolsToCheck (classification : Option SymbolClassification) (imported : List String) :
    List String :=
  match classification with
  | none => imported
  | some classification => intersect imported classification.modifiedSymbols

/-- A conftest that imports names from the changed file. -/
def directPathway (ctx : ImpactContext) (changedFile conftestPath : Path)
    (usedFixtures conftestImported : List String) : Pathway :=
  match fixtureMatch ctx conftestPath usedFixtures
    (symbolsToCheck (ctx.classification changedFile) conftestImported) with
  | some found => .affected (viaFixture changedFile found)
  | none => .safe

/-- Whether the change is known to miss every name the intermediate imports. -/
def missesImports (classification : Option SymbolClassification) (imported : List String) : Bool :=
  match classification with
  | none => false
  | some classification => (intersect imported classification.modifiedSymbols).isEmpty

/-- A conftest that imports from intermediate files: each intermediate that
imports names from the changed file is examined in turn. -/
def transitivePathway (ctx : ImpactContext) (changedFile conftestPath : Path)
    (usedFixtures : List String) : List (Path × List String) → Bool → Pathway
  | [], resolved => if resolved then .safe else .unrelated
  | (intermediatePath, imported) :: rest, resolved =>
    match (extractSymbolImportsFromFile ctx.world intermediatePath).get changedFile with
    | none => transitivePathway ctx changedFile conftestPath usedFixtures rest resolved
    | some intermediateImported =>
      if missesImports (ctx.classification changedFile) intermediateImported then
        transitivePathway ctx changedFile conftestPath usedFixtures rest true
      else
        match fixtureMatch ctx conftestPath usedFixtures imported with
        | some found =>
          .affected (changedFile.display ++ " (via " ++ intermediatePath.display ++
            " -> fixture " ++ found.1 ++ ": " ++ joinSorted found.2 ++ ")")
        | none => transitivePathway ctx changedFile conftestPath usedFixtures rest true

/-- The names a conftest imports, by file. -/
def namedImports (ctx : ImpactContext) (conftestPath : Path) : Dict Path (List String) :=
  (ctx.conftestSymbolImports.get conftestPath).getD ∅

/-- The files a conftest imports opaquely. -/
def opaqueImports (ctx : ImpactContext) (conftestPath : Path) : List Path :=
  (ctx.conftestOpaqueDeps.get conftestPath).getD []

/-- One conftest of the test's hierarchy. -/
def conftestPathway (ctx : ImpactContext) (changedFile : Path) (usedFixtures : List String)
    (conftestPath : Path) : Pathway :=
  if changedFile ∈ opaqueImports ctx conftestPath then
    opaquePathway ctx changedFile conftestPath usedFixtures
  else
    match (namedImports ctx conftestPath).get changedFile with
    | none => transitivePathway ctx changedFile conftestPath usedFixtures
        (namedImports ctx conftestPath).items false
    | some imported => directPathway ctx changedFile conftestPath usedFixtures imported

/-- The loop of `_check_conftest_pathway` over the test's dependencies. -/
def pathwayLoop (ctx : ImpactContext) (changedFile : Path) (usedFixtures : List String) :
    List Path → Bool → Option (List String)
  | [], conftestResolved => if conftestResolved then none else some [changedFile.display]
  | conftestPath :: rest, conftestResolved =>
    if conftestPath.isConftest then
      match conftestPathway ctx changedFile usedFixtures conftestPath with
      | .affected dependency => some [dependency]
      | .safe => pathwayLoop ctx changedFile usedFixtures rest true
      | .unrelated => pathwayLoop ctx changedFile usedFixtures rest conftestResolved
    else pathwayLoop ctx changedFile usedFixtures rest conftestResolved

/-- `_check_conftest_pathway`. -/
def checkConftestPathway (ctx : ImpactContext) (changedFile : Path) (markedTest : MarkedTest) :
    Option (List String) :=
  pathwayLoop ctx changedFile (expandUsedFixtures markedTest.fixtures ctx.fixtures)
    markedTest.dependencies false

/-- The self-modification branch: the test's own file changed. -/
def selfModification (ctx : ImpactContext) (markedTest : MarkedTest) (changedFile : Path) :
    Option (List String) :=
  match ctx.classification changedFile with
  | none => some [changedFile.display ++ " (test file modified)"]
  | some classification =>
    let (className, methodName) := parseTestName markedTest.testName
    let symbol := className.getD methodName
    let narrowedAway :=
      match classification.modifiedMembers.get symbol with
      | none => false
      | some members => className.isSome && decide (methodName ∉ members)
    if symbol ∈ classification.modifiedSymbols ∧ narrowedAway = false then
      some [changedFile.display ++ " (test modified: " ++ symbol ++ ")"]
    else none

/-- The conftest branch: fixture-level analysis of a changed conftest. -/
def conftestImpact (ctx : ImpactContext) (markedTest : MarkedTest) (changedFile : Path) :
    Option (List String) :=
  let fileStatus := ctx.world.prFileStatuses.bind (fun statuses => statuses.get changedFile)
  match extractModifiedItemsFromConftest ctx.world changedFile fileStatus with
  | none => some [changedFile.display ++ " (pytest_plugins changed — structural)"]
  | some (modifiedFixtures, modifiedFunctions) =>
    let affectedFixtures :=
      getAffectedFixturesHelper modifiedFixtures modifiedFunctions ctx.fixtures
    let commonFixtures := intersect markedTest.fixtures affectedFixtures
    if commonFixtures.isEmpty then none
    else some [changedFile.display ++ " (fixtures: " ++ joinSorted commonFixtures ++ ")"]

/-- Member-level narrowing of the imported modified symbols. -/
def narrowByMembers (ctx : ImpactContext) (markedTest : MarkedTest)
    (classification : SymbolClassification) (commonSymbols : List String) : List String :=
  if classification.modifiedMembers.items.isEmpty then commonSymbols
  else
    let testAttrs :=
      collectTestAttributeAccesses ctx.world markedTest.filePath markedTest.testName
    commonSymbols.filter fun symbol =>
      match classification.modifiedMembers.get symbol, testAttrs with
      | some members, some attrs => !(intersect attrs members).isEmpty
      | _, _ => true

/-- Function-call narrowing: a symbol the test does not call is dropped unless
it has member information or looks like a class. -/
def narrowByCalls (ctx : ImpactContext) (markedTest : MarkedTest)
    (classification : SymbolClassification) (commonSymbols : List String) : List String :=
  match collectTestFunctionCalls ctx.world markedTest.filePath markedTest.testName with
  | none => commonSymbols
  | some testCalls =>
    commonSymbols.filter fun symbol =>
      classification.modifiedMembers.has symbol || decide (symbol ∈ testCalls) ||
        startsUpper ctx.world.unicode symbol

/-- The imported symbols that count as used by the test after both narrowings. -/
def narrowedSymbols (ctx : ImpactContext) (markedTest : MarkedTest)
    (classification : SymbolClassification) (imported : List String) : List String :=
  narrowByCalls ctx markedTest classification
    (narrowByMembers ctx markedTest classification
      (intersect imported classification.modifiedSymbols))

/-- The branch for a file the test imports symbols from. -/
def symbolImpact (ctx : ImpactContext) (markedTest : MarkedTest) (changedFile : Path)
    (imported : List String) : Option (List String) :=
  match ctx.classification changedFile with
  | none => some [changedFile.display]
  | some classification =>
    let commonSymbols := narrowedSymbols ctx markedTest classification imported
    if commonSymbols.isEmpty then
      (ctx.fixtures.items.find? (fun item =>
        decide (item.1 ∈ markedTest.fixtures) &&
          !(intersect item.2.functionCalls classification.modifiedSymbols).isEmpty)).map
        (fun item => [changedFile.display ++ " (via fixture: " ++ item.1 ++ ")"])
    else some [changedFile.display ++ " (symbols: " ++ joinSorted commonSymbols ++ ")"]

/-- The body of the loop over changed files. -/
def changedFileImpact (ctx : ImpactContext) (markedTest : MarkedTest) (changedFile : Path) :
    Option (List String) :=
  if changedFile = markedTest.filePath then selfModification ctx markedTest changedFile
  else if changedFile ∈ markedTest.dependencies then
    if changedFile.isConftest then conftestImpact ctx markedTest changedFile
    else
      match markedTest.symbolImports.get changedFile with
      | some imported => symbolImpact ctx markedTest changedFile imported
      | none => checkConftestPathway ctx changedFile markedTest
  else none

/-- `_check_test_impact`. -/
def checkTestImpact (ctx : ImpactContext) (nodeId : String) (markedTest : MarkedTest)
    (changedSet : List Path) : Option AffectedTest :=
  let matching := changedSet.filterMap (changedFileImpact ctx markedTest)
  if matching.isEmpty then none
  else
    some
      { nodeId := nodeId
        testName := markedTest.testName
        testFile := markedTest.filePath.display
        dependencies := matching.flatten }

/-- A test is reported exactly when some changed file flags it. No branch lets
one changed file hide another. -/
theorem checkTestImpact_isSome (ctx : ImpactContext) (nodeId : String) (markedTest : MarkedTest)
    (changedSet : List Path) :
    (checkTestImpact ctx nodeId markedTest changedSet).isSome = true ↔
      ∃ changedFile ∈ changedSet, (changedFileImpact ctx markedTest changedFile).isSome = true := by
  simp only [checkTestImpact]
  split
  · rename_i none_match
    rw [List.isEmpty_iff, List.filterMap_eq_nil_iff] at none_match
    simp only [Option.isSome_none, Bool.false_eq_true, false_iff, not_exists, not_and]
    intro changedFile member flagged
    simp [none_match changedFile member] at flagged
  · rename_i some_match
    rw [List.isEmpty_iff, List.filterMap_eq_nil_iff] at some_match
    simp only [Option.isSome_some, true_iff]
    by_contra unflagged
    refine some_match fun changedFile member => ?_
    rw [← Option.not_isSome_iff_eq_none]
    exact fun flagged => unflagged ⟨changedFile, member, flagged⟩

/-- Reporting for every changed set that contains a file is the same as that
file flagging the test on its own. -/
theorem reported_forall_iff (ctx : ImpactContext) (nodeId : String) (markedTest : MarkedTest)
    (changedFile : Path) :
    (∀ changedSet : List Path, changedFile ∈ changedSet →
      (checkTestImpact ctx nodeId markedTest changedSet).isSome = true) ↔
      (changedFileImpact ctx markedTest changedFile).isSome = true := by
  simp only [checkTestImpact_isSome]
  constructor
  · intro always
    obtain ⟨only, member, flagged⟩ := always [changedFile] (by simp)
    rwa [List.mem_singleton.mp member] at flagged
  · intro flagged changedSet member
    exact ⟨changedFile, member, flagged⟩

section Congruence

variable (ctx : ImpactContext) (cache : Dict Path (Option SymbolClassification))
  (changedFile : Path)
  (same : { ctx with modifiedSymbolsCache := cache }.classification changedFile =
    ctx.classification changedFile)

include same

/-- The transitive pathway reads the cache at the changed file only. -/
theorem transitivePathway_congr (conftestPath : Path) (usedFixtures : List String)
    (items : List (Path × List String)) (resolved : Bool) :
    transitivePathway { ctx with modifiedSymbolsCache := cache } changedFile conftestPath
        usedFixtures items resolved =
      transitivePathway ctx changedFile conftestPath usedFixtures items resolved := by
  induction items generalizing resolved with
  | nil => rfl
  | cons item rest inductionHypothesis =>
    simp only [transitivePathway, same, inductionHypothesis]
    rfl

/-- The pathway of a conftest reads the cache at the changed file only. -/
theorem conftestPathway_congr (usedFixtures : List String) (conftestPath : Path) :
    conftestPathway { ctx with modifiedSymbolsCache := cache } changedFile usedFixtures
        conftestPath =
      conftestPathway ctx changedFile usedFixtures conftestPath := by
  simp only [conftestPathway, opaquePathway, directPathway, same,
    transitivePathway_congr ctx cache changedFile same]
  rfl

/-- The loop over conftests reads the cache at the changed file only. -/
theorem pathwayLoop_congr (usedFixtures : List String) (dependencies : List Path)
    (conftestResolved : Bool) :
    pathwayLoop { ctx with modifiedSymbolsCache := cache } changedFile usedFixtures dependencies
        conftestResolved =
      pathwayLoop ctx changedFile usedFixtures dependencies conftestResolved := by
  induction dependencies generalizing conftestResolved with
  | nil => rfl
  | cons conftestPath rest inductionHypothesis =>
    simp only [pathwayLoop, conftestPathway_congr ctx cache changedFile same, inductionHypothesis]

/-- The verdict on a changed file depends on no other file's classification. -/
theorem changedFileImpact_congr (markedTest : MarkedTest) :
    changedFileImpact { ctx with modifiedSymbolsCache := cache } markedTest changedFile =
      changedFileImpact ctx markedTest changedFile := by
  simp only [changedFileImpact, selfModification, symbolImpact, checkConftestPathway, same,
    pathwayLoop_congr ctx cache changedFile same]
  rfl

end Congruence

/-- Whether the symbol of the test itself is among the modified ones: its class
or, without a class, its function. Member information about a class must
mention the method. -/
def OwnSymbolModified (markedTest : MarkedTest) (classification : SymbolClassification) : Prop :=
  let (className, methodName) := parseTestName markedTest.testName
  className.getD methodName ∈ classification.modifiedSymbols ∧
    ∀ members, classification.modifiedMembers.get (className.getD methodName) = some members →
      className.isSome = true → methodName ∈ members

/-- A change of the test's own file flags it when its own symbol is modified. -/
theorem selfModification_isSome (ctx : ImpactContext) (markedTest : MarkedTest)
    (changedFile : Path) :
    (selfModification ctx markedTest changedFile).isSome = true ↔
      ∀ classification, ctx.classification changedFile = some classification →
        OwnSymbolModified markedTest classification := by
  cases cached : ctx.classification changedFile with
  | none => simp [selfModification, cached]
  | some classification =>
    rcases parsed : parseTestName markedTest.testName with ⟨className, methodName⟩
    simp only [selfModification, cached, OwnSymbolModified, parsed, Option.some.injEq,
      forall_eq']
    by_cases member : className.getD methodName ∈ classification.modifiedSymbols
    · cases classification.modifiedMembers.get (className.getD methodName) with
      | none => simp [member]
      | some members => cases className <;> simp_all
    · simp [member]

/-- The change of a conftest is structural, or some fixture of the test
transitively requests a modified fixture or one that calls a modified function. -/
def ConftestChangeReaches (ctx : ImpactContext) (markedTest : MarkedTest) (changedFile : Path) :
    Prop :=
  ∀ modifiedFixtures modifiedFunctions,
    extractModifiedItemsFromConftest ctx.world changedFile
      (ctx.world.prFileStatuses.bind (fun statuses => statuses.get changedFile)) =
        some (modifiedFixtures, modifiedFunctions) →
    ∃ requested ∈ markedTest.fixtures, ∃ source,
      (source ∈ modifiedFixtures ∨ source ∈ callersOf modifiedFunctions ctx.fixtures) ∧
        Uses ctx.fixtures requested source

/-- A change of a conftest flags a test when it reaches a fixture of the test. -/
theorem conftestImpact_isSome (ctx : ImpactContext) (markedTest : MarkedTest)
    (changedFile : Path) :
    (conftestImpact ctx markedTest changedFile).isSome = true ↔
      ConftestChangeReaches ctx markedTest changedFile := by
  unfold ConftestChangeReaches
  cases items : extractModifiedItemsFromConftest ctx.world changedFile
    (ctx.world.prFileStatuses.bind (fun statuses => statuses.get changedFile)) with
  | none => simp [conftestImpact, items]
  | some pair =>
    obtain ⟨modifiedFixtures, modifiedFunctions⟩ := pair
    have common := intersect_ne_nil markedTest.fixtures
      (getAffectedFixturesHelper modifiedFixtures modifiedFunctions ctx.fixtures)
    simp only [mem_getAffectedFixturesHelper] at common
    have unique : ∀ statement : List String → List String → Prop,
        (∀ left right, some (modifiedFixtures, modifiedFunctions) = some (left, right) →
          statement left right) ↔ statement modifiedFixtures modifiedFunctions := by
      intro statement
      constructor
      · intro all
        exact all _ _ rfl
      · rintro holds left right same
        cases same
        exact holds
    rw [unique, ← common]
    simp only [conftestImpact, items]
    split
    · rename_i empty
      simp [List.isEmpty_iff.mp empty]
    · rename_i nonempty
      simpa [List.isEmpty_iff] using nonempty

end VirtTestTools.Analyzer
