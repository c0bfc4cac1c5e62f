import VirtTestTools.Futures
import VirtTestTools.Analyzer.Run

/-!
# The result of an impact analysis

`analyze_impact` over an arbitrary state of the analyzer: the tests, the merged
fixture table and the import tables of the conftest files need not come from a
discovery. Every test is checked by a task of its own, and the affected tests are
listed in the order in which these tasks complete.

The reported tests distribute over the changed files. Each changed file is
judged on its own, so the report for two sets of files together is the union of
the two reports.
-/

namespace VirtTestTools.Analyzer

/-- `AnalysisResult`. -/
structure AnalysisResult where
  shouldRunTests : Bool
  reason : String
  markerExpression : String
  affectedTests : List AffectedTest
  changedFiles : List String
  totalTests : Nat

/-- The node ids that a result reports. -/
def AnalysisResult.nodeIds (result : AnalysisResult) : Finset String :=
  (result.affectedTests.map AffectedTest.nodeId).toFinset

namespace AnalyzerState

variable (state : AnalyzerState)

/-- The task of one test. -/
def testImpact (changedSet : List Path) (nodeId : String) : Option AffectedTest :=
  (state.markedTests.get nodeId).bind fun markedTest =>
    checkTestImpact (state.impactContext changedSet) nodeId markedTest changedSet

/-- `analyze_impact`, with the node ids in the order in which their tasks
complete. -/
def analyzeImpact (changedFiles : List Path) (completed : List String) : AnalysisResult :=
  let affectedTests := completed.filterMap (state.testImpact changedFiles.dedup)
  { shouldRunTests := !affectedTests.isEmpty
    reason :=
      if affectedTests.isEmpty then "No changes affect test dependencies"
      else
        "Changes affect " ++ toString affectedTests.length ++
          " test(s) with marker expression: " ++ state.markerExpression
    markerExpression := state.markerExpression
    affectedTests := affectedTests
    changedFiles := changedFiles.map Path.display
    totalTests := state.markedTests.items.length }

/-- The task of a test reports it exactly when one of the changed files alone
flags it. -/
theorem testImpact_isSome (changedSet : List Path) (nodeId : String) :
    (state.testImpact changedSet nodeId).isSome = true ↔
      ∃ markedTest, state.markedTests.get nodeId = some markedTest ∧
        ∃ changedFile ∈ changedSet,
          (changedFileImpact (state.impactContext [changedFile]) markedTest changedFile).isSome =
            true := by
  unfold testImpact
  cases state.markedTests.get nodeId with
  | none => simp
  | some markedTest =>
    simp only [Option.bind_some, Option.some.injEq, exists_eq_left', checkTestImpact_isSome]
    refine exists_congr fun changedFile => and_congr_right fun member => ?_
    rw [state.changedFileImpact_eq changedSet changedFile member]

/-- The task of a test reports nothing but that test. -/
theorem nodeId_of_testImpact (changedSet : List Path) (nodeId : String) (affected : AffectedTest)
    (flagged : state.testImpact changedSet nodeId = some affected) :
    affected.nodeId = nodeId := by
  obtain ⟨markedTest, -, found⟩ := Option.bind_eq_some_iff.mp flagged
  exact AnalyzerRun.nodeId_of_checkTestImpact _ nodeId markedTest changedSet affected found

/-- The reported node ids: those of the tests that some changed file flags. -/
theorem mem_nodeIds (changedFiles : List Path) (completion : Completion state.markedTests.keys)
    (nodeId : String) :
    nodeId ∈ (state.analyzeImpact changedFiles completion.order).nodeIds ↔
      ∃ markedTest, state.markedTests.get nodeId = some markedTest ∧
        ∃ changedFile ∈ changedFiles,
          (changedFileImpact (state.impactContext [changedFile]) markedTest changedFile).isSome =
            true := by
  have reported : nodeId ∈ (state.analyzeImpact changedFiles completion.order).nodeIds ↔
      (state.testImpact changedFiles.dedup nodeId).isSome = true := by
    simp only [AnalysisResult.nodeIds, analyzeImpact, List.mem_toFinset, List.mem_map,
      List.mem_filterMap]
    constructor
    · rintro ⟨affected, ⟨completed, -, flagged⟩, rfl⟩
      rw [state.nodeId_of_testImpact _ completed affected flagged, flagged]
      rfl
    · intro flagged
      obtain ⟨affected, found⟩ := Option.isSome_iff_exists.mp flagged
      obtain ⟨markedTest, stored, -⟩ := Option.bind_eq_some_iff.mp found
      have known : nodeId ∈ state.markedTests.keys :=
        of_decide_eq_true ((Dict.has_iff _ _).mpr ⟨markedTest, stored⟩)
      exact ⟨affected, ⟨nodeId, (completion.mem_order nodeId).mpr known, found⟩,
        state.nodeId_of_testImpact _ nodeId affected found⟩
  rw [reported, testImpact_isSome]
  simp only [List.mem_dedup]

/-- Tests are to be run exactly when some node id is reported. -/
theorem shouldRunTests_iff (changedFiles : List Path) (completed : List String) :
    (state.analyzeImpact changedFiles completed).shouldRunTests = true ↔
      (state.analyzeImpact changedFiles completed).nodeIds ≠ ∅ := by
  simp [analyzeImpact, AnalysisResult.nodeIds, List.toFinset_eq_empty_iff]

/-- Impact distributes over changed files. The node ids reported for two sets of
changed files together are those reported for the first or for the second,
whatever the orders in which the three analyses complete their tasks; and a
larger set of changed files never reports fewer tests.

Proof: a test is reported exactly when one of the changed files alone flags it,
by `mem_nodeIds`. -/
theorem impact_distributes (left right : List Path)
    (leftOrder rightOrder unionOrder : Completion state.markedTests.keys) :
    (state.analyzeImpact (left ++ right) unionOrder.order).nodeIds =
        (state.analyzeImpact left leftOrder.order).nodeIds ∪
          (state.analyzeImpact right rightOrder.order).nodeIds ∧
      ∀ larger : List Path, left ⊆ larger →
        (state.analyzeImpact left leftOrder.order).nodeIds ⊆
          (state.analyzeImpact larger unionOrder.order).nodeIds := by
  constructor
  · ext nodeId
    simp only [Finset.mem_union, mem_nodeIds, List.mem_append]
    constructor
    · rintro ⟨markedTest, stored, changedFile, inLeft | inRight, flagged⟩
      · exact Or.inl ⟨markedTest, stored, changedFile, inLeft, flagged⟩
      · exact Or.inr ⟨markedTest, stored, changedFile, inRight, flagged⟩
    · rintro (⟨markedTest, stored, changedFile, member, flagged⟩ |
        ⟨markedTest, stored, changedFile, member, flagged⟩)
      · exact ⟨markedTest, stored, changedFile, Or.inl member, flagged⟩
      · exact ⟨markedTest, stored, changedFile, Or.inr member, flagged⟩
  · intro larger contained nodeId
    simp only [mem_nodeIds]
    rintro ⟨markedTest, stored, changedFile, member, flagged⟩
    exact ⟨markedTest, stored, changedFile, contained member, flagged⟩

end AnalyzerState

end VirtTestTools.Analyzer
