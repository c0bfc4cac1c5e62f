import VirtTestTools.Levels
import VirtTestTools.Analyzer.Run

/-!
# The bounded import search

The dependencies of a test are its file, what that imports, the conftest files above it,
and the files these import through a bounded number of further imports. The source keeps
them in sets and goes through the sets in whatever order they are iterated, so the search
is stated here for every order and every bound: it finds exactly the files at most that
many imports away, whatever cycles the imports have.
-/

namespace VirtTestTools.Analyzer

/-- The dependencies of a test before the transitive imports are followed. -/
def initialDependencies (world : World) (testFile : Path) : List Path :=
  testFile :: resolveImportsHelper world (extractImportsFromFile world testFile) ++
    findRelevantConftests world testFile

/-- The files a file imports: the set `resolved` of the loop. -/
def importedFiles (world : World) (depFile : Path) : List Path :=
  (resolveImportsHelper world (extractImportsFromFile world depFile)).dedup

/-- `dep_file.suffix == ".py"`. -/
def isPythonFile (depFile : Path) : Bool := decide (depFile.suffix = ".py".toList)

/-- An import edge whose source is a Python file. -/
def Imports (world : World) (depFile resolvedFile : Path) : Prop :=
  depFile.suffix = ".py".toList ∧
    resolvedFile ∈ resolveImportsHelper world (extractImportsFromFile world depFile)

/-- The orders in which one run iterates the initial set and the imports of each file. -/
structure IterationOrder (world : World) (testFile : Path) where
  toVisit : List Path
  resolved : Path → List Path
  listsInitial : toVisit.Perm (initialDependencies world testFile).dedup
  listsImports : ∀ depFile, (resolved depFile).Perm (importedFiles world depFile)

/-- The dependencies `_analyze_single_test_dependencies` computes in these orders when
`max_depth` is the given bound. -/
def dependenciesInOrder {world : World} {testFile : Path} (order : IterationOrder world testFile)
    (maxDepth : Nat) : List Path :=
  (Levels.run isPythonFile order.resolved maxDepth
    { known := initialDependencies world testFile, found := order.toVisit }).known

/-- The edges of the search are the import edges, in every order. -/
theorem edge_iff_imports {world : World} {testFile : Path} (order : IterationOrder world testFile)
    (depFile resolvedFile : Path) :
    Levels.Edge isPythonFile order.resolved depFile resolvedFile ↔
      Imports world depFile resolvedFile := by
  unfold Levels.Edge Imports
  rw [(order.listsImports depFile).mem_iff, importedFiles, List.mem_dedup, isPythonFile,
    decide_eq_true_eq]

/-- The dependencies are the initial ones and the files that at most the given number of
imports lead to, in every order of iteration. -/
theorem bounded_import_search_exact (world : World) (testFile : Path)
    (order : IterationOrder world testFile) (maxDepth : Nat) (path : Path) :
    path ∈ dependenciesInOrder order maxDepth ↔
      path ∈ initialDependencies world testFile ∨
        ∃ source ∈ initialDependencies world testFile, ∃ steps ≤ maxDepth,
          Levels.ReachesIn (Imports world) steps source path := by
  have edges : Levels.Edge isPythonFile order.resolved = Imports world := by
    funext depFile resolvedFile
    exact propext (edge_iff_imports order depFile resolvedFile)
  have started : ∀ file, file ∈ order.toVisit ↔ file ∈ initialDependencies world testFile := by
    intro file
    rw [order.listsInitial.mem_iff, List.mem_dedup]
  rw [dependenciesInOrder, Levels.mem_run_known maxDepth _ (Levels.invariant_start _ _ started),
    edges]
  constructor
  · exact .inr
  · rintro (initial | reached)
    · exact ⟨path, initial, 0, Nat.zero_le _, rfl⟩
    · exact reached

/-! ## The order of the model -/

/-- The order in which the model of the run lists the sets. -/
def listingOrder (world : World) (testFile : Path) : IterationOrder world testFile where
  toVisit := (initialDependencies world testFile).dedup
  resolved := importedFiles world
  listsInitial := .refl _
  listsImports _ := .refl _

/-- The loop state of the import analysis as one of the search by levels. -/
def ImportScan.toLevels (scan : ImportScan) : Levels Path :=
  ⟨scan.dependencies, scan.visited, scan.toVisit⟩

/-- A step of the scan is a visit of the search by levels. -/
theorem toLevels_step (world : World) (scan : ImportScan) (depFile : Path) :
    (scan.step world depFile).toLevels =
      Levels.visit isPythonFile (importedFiles world) scan.toLevels depFile := by
  have condition : (depFile ∈ scan.toLevels.visited ∨ isPythonFile depFile = false) ↔
      (depFile ∈ scan.visited ∨ depFile.suffix ≠ ".py".toList) := by
    rw [isPythonFile, decide_eq_false_iff_not]
    rfl
  rw [ImportScan.step, Levels.visit]
  by_cases passed : depFile ∈ scan.visited ∨ depFile.suffix ≠ ".py".toList
  · rw [if_pos passed, if_pos (condition.mpr passed)]
  · rw [if_neg passed, if_neg (fun skipped => passed (condition.mp skipped)),
      importedFiles, Levels.foldl_note_eq _ _ (List.nodup_dedup _)]
    -- the two sides decide membership by different instances
    simp only [ImportScan.toLevels]
    congr <;> funext file <;> congr

/-- A level of the scan is a level of the search. -/
theorem toLevels_foldl_step (world : World) (files : List Path) (scan : ImportScan) :
    (files.foldl (ImportScan.step world) scan).toLevels =
      files.foldl (Levels.visit isPythonFile (importedFiles world)) scan.toLevels := by
  induction files generalizing scan with
  | nil => rfl
  | cons depFile rest inductionHypothesis =>
    rw [List.foldl_cons, List.foldl_cons, inductionHypothesis, toLevels_step]

/-- The levels of the scan are those of the search. -/
theorem toLevels_levels (world : World) (depth : Nat) (scan : ImportScan) :
    (scan.levels world depth).toLevels =
      Levels.run isPythonFile (importedFiles world) depth scan.toLevels := by
  induction depth generalizing scan with
  | zero => rfl
  | succ depth inductionHypothesis =>
    rw [ImportScan.levels, Levels.run]
    change _ = if scan.toVisit.isEmpty then _ else _
    by_cases exhausted : scan.toVisit.isEmpty = true
    · rw [if_pos exhausted, if_pos exhausted]
    · rw [if_neg exhausted, if_neg exhausted, inductionHypothesis, toLevels_foldl_step]
      rfl

/-- The dependencies in the run of the analyzer are those of the search, listed in one
of the orders. -/
theorem testDependencies_eq (world : World) (testFile : Path) :
    testDependencies world testFile =
      dependenciesInOrder (listingOrder world testFile) maxTransitiveImportDepth :=
  congrArg Levels.known (toLevels_levels world maxTransitiveImportDepth
    ⟨initialDependencies world testFile, [], (initialDependencies world testFile).dedup⟩)

end VirtTestTools.Analyzer
