import VirtTestTools.Analyzer.Narrowing

/-!
# Removed modules

A change removes a module, and a test of the new version still imports it. Imports
are resolved against the analysed checkout, which has no file for the module, so the
removal is never among the dependencies of the test. What reports the test, if
anything does, are the other changed files.

`ChangeReaches` says for every kind of changed file when it reports a test: the test's
own file, a conftest, a file the test imports names from, a file it imports otherwise.
-/

namespace VirtTestTools.Analyzer

open Text

/-- A changed file alone reports a test. The test's own file does if its own symbol is
modified, or the change is not understood. Any other file has to be a dependency: a
conftest whose change reaches a fixture of the test, a file with imported modified symbols
that count as used or that a named fixture calls, or a file for which the fallback is kept. -/
def ChangeReaches (ctx : ImpactContext) (markedTest : MarkedTest) (changedFile : Path) : Prop :=
  if changedFile = markedTest.filePath then
    ∀ classification, ctx.classification changedFile = some classification →
      OwnSymbolModified markedTest classification
  else
    changedFile ∈ markedTest.dependencies ∧
      if changedFile.isConftest then ConftestChangeReaches ctx markedTest changedFile
      else
        match markedTest.symbolImports.get changedFile with
        | none => FallbackKept ctx markedTest changedFile
        | some imported =>
          ∀ classification, ctx.classification changedFile = some classification →
            (∃ symbol ∈ imported, symbol ∈ classification.modifiedSymbols ∧
              UsesSymbol ctx markedTest classification symbol) ∨
            DirectFixtureCalls ctx markedTest classification.modifiedSymbols

/-- The body of the loop over changed files flags a test for exactly these changes.

Proof: by cases on the kind of file, in the order of the source. -/
theorem changedFileImpact_isSome (ctx : ImpactContext) (markedTest : MarkedTest)
    (changedFile : Path) :
    (changedFileImpact ctx markedTest changedFile).isSome = true ↔
      ChangeReaches ctx markedTest changedFile := by
  unfold ChangeReaches
  by_cases own : changedFile = markedTest.filePath
  · rw [changedFileImpact, if_pos own, if_pos own, selfModification_isSome]
  · rw [if_neg own]
    by_cases dependency : changedFile ∈ markedTest.dependencies
    · by_cases conftest : changedFile.isConftest = true
      · rw [changedFileImpact, if_neg own, if_pos dependency, if_pos conftest, if_pos conftest,
          conftestImpact_isSome]
        exact (and_iff_right dependency).symm
      · rw [if_neg conftest]
        cases imports : markedTest.symbolImports.get changedFile with
        | none =>
          rw [changedFileImpact_isSome_of_unimported ctx markedTest changedFile dependency imports]
          exact (and_iff_right dependency).symm
        | some imported =>
          rw [changedFileImpact, if_neg own, if_pos dependency, if_neg conftest, imports]
          cases cached : ctx.classification changedFile with
          | none => simp [symbolImpact, cached, dependency]
          | some classification =>
            simp only [symbolImpact_isSome ctx markedTest changedFile imported classification cached,
              dependency, true_and, Option.some.injEq, forall_eq']
    · rw [changedFileImpact, if_neg own, if_neg dependency]
      simp [dependency]

/-- The tree contains an absolute import, at any depth, of a module that the
path may stand for. -/
def ContainsImportOf (tree : List AST) (path : Path) : Prop :=
  ∃ node ∈ AST.preorderAll tree,
    match node with
    | .importStmt _ names => ∃ imported ∈ names, path ∈ moduleFiles imported.name
    | .importFrom _ (some module) _ 0 => path ∈ moduleFiles module
    | _ => False

namespace AnalyzerRun

/-- The base version has the file, and the analysed checkout has not. -/
def Removes (run : AnalyzerRun) (path : Path) : Prop :=
  (∃ base, run.world.baseFile path = .found base) ∧ run.world.present path = false

/-- A marked test of the checkout whose file still imports the module of a path. -/
def StillImports (run : AnalyzerRun) (markedTest : MarkedTest) (path : Path) : Prop :=
  markedTest ∈ run.markedTests ∧
    ∃ tree, run.world.tree markedTest.filePath = some tree ∧ ContainsImportOf tree path

/-- A file that the checkout does not have reaches no test. -/
theorem not_changeReaches_of_absent (run : AnalyzerRun) (ctx : ImpactContext) (changedFile : Path)
    (markedTest : MarkedTest) (member : markedTest ∈ run.markedTests)
    (absent : run.world.present changedFile = false) :
    ¬ChangeReaches ctx markedTest changedFile := by
  rw [← changedFileImpact_isSome, run.absent_never_flags ctx changedFile markedTest member absent]
  exact Bool.false_ne_true

end AnalyzerRun

/-- Removed modules. Let a change remove a file, and let a marked test still import its
module. A run whose changed files include the removed one reports the test exactly when some
other changed file reaches it.

Proof: the removed file is neither the test's own file nor a dependency, since
both exist in the checkout. -/
theorem removed_module_reported_iff (run : AnalyzerRun) (removedFile : Path)
    (before after : List Path) (removed : run.Removes removedFile) :
    ∀ markedTest, run.StillImports markedTest removedFile →
      (run.reports (before ++ removedFile :: after) markedTest.nodeId = true ↔
        ∃ changedFile ∈ before ++ after,
          ChangeReaches (run.impactContext [changedFile]) markedTest changedFile) := by
  rintro markedTest ⟨member, -⟩
  rw [run.reports_iff _ markedTest member]
  simp only [changedFileImpact_isSome]
  constructor
  · rintro ⟨changedFile, changed, reaches⟩
    have other : changedFile ≠ removedFile := by
      rintro rfl
      exact run.not_changeReaches_of_absent _ changedFile markedTest member removed.2 reaches
    refine ⟨changedFile, ?_, reaches⟩
    simpa [other] using changed
  · rintro ⟨changedFile, changed, reaches⟩
    refine ⟨changedFile, ?_, reaches⟩
    rw [List.mem_append] at changed ⊢
    exact changed.imp_right (List.mem_cons_of_mem _)

/-- The sample test file is in the checkout. -/
theorem testFile_present :
    ∀ path ∈ [["tests", "test_vm.py"]], decide (path = ["tests", "test_vm.py"]) = true := by
  decide

/-- A checkout with one test file, which still imports `lib`. The file `lib.py`
exists in the base version only. -/
def removalWorld : World where
  unicode := ascii
  present path := decide (path = ["tests", "test_vm.py"])
  files := [["tests", "test_vm.py"]]
  filesPresent := testFile_present
  source path :=
    if path = ["tests", "test_vm.py"] then
      some ⟨unlines ["import lib"], some [.importStmt ⟨1, 1, 1⟩ [⟨"lib", none⟩]]⟩
    else none
  gitDiff _ _ := none
  baseFile path := if path = ["lib.py"] then .found ⟨unlines ["A = 1"], some []⟩ else .missing

/-- The run over this checkout, in which pytest collects one test. -/
def removalRun : AnalyzerRun where
  world := removalWorld
  markerExpression := "smoke"
  stdout := some (unlines ["tests/test_vm.py::test_vm"])
  fixtureUsage := ∅
  conftestOrder := findConftestFiles removalWorld
  ordered := .refl _

/-- The test of this run. -/
def removalTest : MarkedTest :=
  analyzeTest removalWorld removalRun.markerNames ∅ (testOfNodeId "tests/test_vm.py::test_vm".toList)

/-- The sample test is marked. -/
theorem removalTest_member : removalTest ∈ removalRun.markedTests :=
  List.mem_of_mem_head? (by rfl)

/-- Its file imports the removed module. -/
theorem removalTest_imports :
    ContainsImportOf [.importStmt ⟨1, 1, 1⟩ [⟨"lib", none⟩]] ["lib.py"] :=
  ⟨.importStmt ⟨1, 1, 1⟩ [⟨"lib", none⟩], List.mem_singleton.mpr rfl, ⟨"lib", none⟩, by decide,
    by decide⟩

/-- The module is removed. -/
theorem removalRun_removes : removalRun.Removes ["lib.py"] := ⟨⟨_, rfl⟩, by decide⟩

/-- The sample test still imports it. -/
theorem removalRun_stillImports : removalRun.StillImports removalTest ["lib.py"] :=
  ⟨removalTest_member, _, rfl, removalTest_imports⟩

/-- If the test file changes as well, that change is what reports the test. -/
theorem removed_module_reported_by_other_change :
    removalRun.reports [["lib.py"], ["tests", "test_vm.py"]] removalTest.nodeId = true := by
  refine (removed_module_reported_iff removalRun ["lib.py"] [] [["tests", "test_vm.py"]]
    removalRun_removes removalTest removalRun_stillImports).mpr ?_
  refine ⟨["tests", "test_vm.py"], List.mem_singleton.mpr rfl, ?_⟩
  rw [← changedFileImpact_isSome]
  decide +kernel

/-- With the removal as the only change the importing test is not reported. -/
theorem removed_module_not_reported :
    removalRun.Removes ["lib.py"] ∧ removalRun.StillImports removalTest ["lib.py"] ∧
      removalRun.reports [["lib.py"]] removalTest.nodeId = false :=
  ⟨removalRun_removes, removalRun_stillImports, by decide +kernel⟩

end VirtTestTools.Analyzer
