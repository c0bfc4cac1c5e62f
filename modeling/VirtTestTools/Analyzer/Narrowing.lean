import Mathlib.Logic.Relation
import VirtTestTools.Analyzer.Run

/-!
# Narrowing by calls

A changed file that a test imports names from flags the test only for those modified
names that the test counts as using. The count looks at the test function alone and
compares the exported name with the names of its calls. A test may use the name
otherwise: under the name it has locally, through another function of its file, or
without calling it.

The module relates the two. `Referenced` is what a use is, the import statements are
those that are executed, and the result says for which tests the use is noticed.
-/

namespace VirtTestTools.Analyzer

mutual

/-- The import statements below a node that are executed at run time. -/
def importStatements : AST → List AST
  | node@(.importStmt ..) | node@(.importFrom ..) => [node]
  | .ifStmt _ test body orelse =>
    if isTypeCheckingGuard test then importStatementsAll orelse
    else importStatementsAll body ++ importStatementsAll orelse
  | .functionDef _ _ _ _ body _ _ => importStatementsAll body
  | .classDef _ _ _ _ body _ => importStatementsAll body
  | .forStmt _ _ _ _ body orelse => importStatementsAll body ++ importStatementsAll orelse
  | .whileStmt _ _ body orelse => importStatementsAll body ++ importStatementsAll orelse
  | .tryStmt _ _ body handlers orelse finalbody =>
    importStatementsAll body ++ importStatementsAll handlers ++ importStatementsAll orelse ++
      importStatementsAll finalbody
  | .exceptHandler _ _ _ body => importStatementsAll body
  | .matchStmt _ _ cases => importStatementsAll cases
  | .matchCase _ _ _ body => importStatementsAll body
  | .other _ _ children => importStatementsAll children
  | _ => []

/-- The import statements of a list of nodes. -/
def importStatementsAll : List AST → List AST
  | [] => []
  | node :: rest => importStatements node ++ importStatementsAll rest

end

/-- The visitor at one import statement. -/
def ImportVisitor.visitStatement (visitor : ImportVisitor) : AST → ImportVisitor
  | .importStmt _ names => visitor.visitImport names
  | .importFrom _ module names level => visitor.visitImportFrom module names level
  | _ => visitor

mutual

/-- The import visitor visits these statements, in their order. -/
theorem visitImports_eq (node : AST) (visitor : ImportVisitor) :
    visitImports node visitor =
      (importStatements node).foldl ImportVisitor.visitStatement visitor := by
  match node with
  | .importStmt .. | .importFrom .. => rfl
  | .ifStmt _ test body orelse =>
    rw [visitImports, importStatements]
    split
    · exact visitImportsAll_eq orelse visitor
    · rw [List.foldl_append, visitImportsAll_eq orelse, visitImportsAll_eq body]
  | .functionDef _ _ _ _ body _ _ => exact visitImportsAll_eq body visitor
  | .classDef _ _ _ _ body _ => exact visitImportsAll_eq body visitor
  | .forStmt _ _ _ _ body orelse =>
    rw [visitImports, importStatements, List.foldl_append, visitImportsAll_eq orelse,
      visitImportsAll_eq body]
  | .whileStmt _ _ body orelse =>
    rw [visitImports, importStatements, List.foldl_append, visitImportsAll_eq orelse,
      visitImportsAll_eq body]
  | .tryStmt _ _ body handlers orelse finalbody =>
    rw [visitImports, importStatements, List.foldl_append, List.foldl_append, List.foldl_append,
      visitImportsAll_eq finalbody, visitImportsAll_eq orelse, visitImportsAll_eq handlers,
      visitImportsAll_eq body]
  | .exceptHandler _ _ _ body => exact visitImportsAll_eq body visitor
  | .matchStmt _ _ cases => exact visitImportsAll_eq cases visitor
  | .matchCase _ _ _ body => exact visitImportsAll_eq body visitor
  | .other _ _ children => exact visitImportsAll_eq children visitor
  | .name .. | .attribute .. | .call .. | .keyword .. | .constant .. | .starred .. | .list ..
  | .tuple .. | .namedExpr .. | .ifExp .. | .lambda .. | .comp .. | .dictComp ..
  | .comprehension .. | .arguments .. | .arg .. | .assign .. | .annAssign .. | .augAssign ..
  | .globalStmt .. | .nonlocalStmt .. | .breakStmt .. | .continueStmt .. | .returnStmt ..
  | .raiseStmt .. | .exprStmt .. => rfl

/-- Nodes are visited as their import statements. -/
theorem visitImportsAll_eq (nodes : List AST) (visitor : ImportVisitor) :
    visitImportsAll nodes visitor =
      (importStatementsAll nodes).foldl ImportVisitor.visitStatement visitor := by
  match nodes with
  | [] => rfl
  | node :: rest =>
    rw [visitImportsAll, importStatementsAll, List.foldl_append, visitImports_eq node visitor,
      visitImportsAll_eq rest]

end

/-- A statement forgets no module. -/
theorem ImportVisitor.imports_subset_visitStatement (visitor : ImportVisitor) (statement : AST) :
    visitor.imports ⊆ (visitor.visitStatement statement).imports := by
  cases statement with
  | importStmt info names => exact List.subset_append_left _ _
  | importFrom info module names level =>
    simp only [visitStatement, visitImportFrom]
    split
    · exact List.Subset.refl _
    · split
      · exact List.Subset.refl _
      · split
        · exact List.subset_append_left _ _
        · exact List.subset_append_left _ _
  | _ => exact List.Subset.refl _

/-- Further statements keep the imports. -/
theorem ImportVisitor.imports_subset_foldl (statements : List AST) (visitor : ImportVisitor) :
    visitor.imports ⊆ (statements.foldl visitStatement visitor).imports := by
  apply List.foldlRecOn (motive := fun current : ImportVisitor =>
    visitor.imports ⊆ current.imports)
  · exact List.Subset.refl _
  · intro current kept statement _
    exact List.Subset.trans kept (current.imports_subset_visitStatement statement)

/-- An absolute import by name adds its module. -/
theorem ImportVisitor.module_mem_visitImportFrom (visitor : ImportVisitor) (module : String)
    (names : List Alias) (named : module ≠ "") :
    module ∈ (visitor.visitImportFrom (some module) names 0).imports := by
  simp only [visitImportFrom, named, decide_false, lt_self_iff_false, Bool.or_self,
    Bool.false_eq_true, ↓reduceIte]
  split
  · simp
  · simp

/-- The module of an executed import by name is among the imports of the tree. -/
theorem module_mem_imports (tree : List AST) (info : Info) (module : String) (names : List Alias)
    (named : module ≠ "")
    (executed : .importFrom info (some module) names 0 ∈ importStatementsAll tree) :
    module ∈ (visitImportsAll tree {}).imports := by
  obtain ⟨before, after, split⟩ := List.append_of_mem executed
  rw [visitImportsAll_eq, split, List.foldl_append, List.foldl_cons]
  apply ImportVisitor.imports_subset_foldl after
  exact ImportVisitor.module_mem_visitImportFrom _ module names named

/-- No dependency is lost at a file of the transitive analysis, -/
theorem ImportScan.dependencies_subset_step (world : World) (scan : ImportScan) (depFile : Path) :
    scan.dependencies ⊆ (scan.step world depFile).dependencies := by
  unfold ImportScan.step
  split
  · exact List.Subset.refl _
  · exact List.subset_append_left _ _

/-- A level keeps the dependencies. -/
theorem ImportScan.dependencies_subset_level (world : World) (level : List Path)
    (scan : ImportScan) :
    scan.dependencies ⊆ (level.foldl (ImportScan.step world) scan).dependencies := by
  apply List.foldlRecOn (motive := fun current : ImportScan =>
    scan.dependencies ⊆ current.dependencies)
  · exact List.Subset.refl _
  · intro current kept depFile _
    exact List.Subset.trans kept (current.dependencies_subset_step world depFile)

/-- and none in all of its levels. -/
theorem ImportScan.dependencies_subset_levels (world : World) (depth : Nat) (scan : ImportScan) :
    scan.dependencies ⊆ (ImportScan.levels world depth scan).dependencies := by
  induction depth generalizing scan with
  | zero => exact List.Subset.refl _
  | succ depth inductionHypothesis =>
    simp only [ImportScan.levels]
    split
    · exact List.Subset.refl _
    · have level := ImportScan.dependencies_subset_level world scan.toVisit
        { scan with toVisit := [] }
      exact List.Subset.trans level (inductionHypothesis _)

/-- The file imports the symbol from the imported file under a local name, by
`from module import symbol` or `from module import symbol as localName`. The statement
is executed; under a type-checking guard it would bind nothing. -/
def ImportsByName (world : World) (path importedFile : Path) (symbol localName : String) : Prop :=
  ∃ tree info module names, ∃ imported ∈ names,
    world.tree path = some tree ∧
    .importFrom info (some module) names 0 ∈ importStatementsAll tree ∧ module ≠ "" ∧
    resolveModuleToPath world module = some importedFile ∧
    imported.name = symbol ∧ imported.asname.getD symbol = localName

/-- The analysis makes such a file a dependency of the test. -/
theorem dependency_of_importsByName (world : World) (markerNames : List String)
    (fixtureUsage : Dict String (List String)) (discovered : MarkedTest) (importedFile : Path)
    (symbol localName : String)
    (imports : ImportsByName world discovered.filePath importedFile symbol localName) :
    importedFile ∈ (analyzeTest world markerNames fixtureUsage discovered).dependencies := by
  obtain ⟨tree, info, module, names, -, -, parsed, executed, named, resolved, -, -⟩ := imports
  have listed : module ∈ extractImportsFromFile world discovered.filePath := by
    rw [extractImportsFromFile, parsed]
    exact module_mem_imports tree info module names named executed
  have direct : importedFile ∈
      resolveImportsHelper world (extractImportsFromFile world discovered.filePath) :=
    List.mem_filterMap.mpr ⟨module, listed, resolved⟩
  apply List.mem_append_right
  apply ImportScan.dependencies_subset_levels
  exact List.mem_append_left _ (List.mem_cons_of_mem _ direct)

/-- The statements of a function. -/
def definitionBody : AST → List AST
  | .functionDef _ _ _ _ body _ _ => body
  | _ => []

/-- A definition of the test, with its parent: a function of its name, inside the
class that qualifies it. -/
def DefinesTest (tree : List AST) (testName : String) (definition : Option AST × AST) : Prop :=
  definition ∈ AST.walk tree ∧
    (∃ info isAsync args body decoratorList returns,
      definition.2 = .functionDef info isAsync (parseTestName testName).2 args body decoratorList
        returns) ∧
    ∀ className, (parseTestName testName).1 = some className →
      ∃ info bases keywords body decoratorList,
        definition.1 = some (.classDef info className bases keywords body decoratorList)

/-- Whether a definition with this parent is a member of a class. -/
def InClass : Option AST → Prop
  | some (.classDef ..) => True
  | _ => False

/-- One function of the file calls another: by its name or, if it is a method,
through `self`. Any class of the file may be the one that `self` has it from. -/
def CallsWithin (tree : List AST) (caller callee : Option AST × AST) : Prop :=
  callee ∈ AST.walk tree ∧
    ∃ info isAsync name args body decoratorList returns,
      callee.2 = .functionDef info isAsync name args body decoratorList returns ∧
      ∃ site func arguments keywords,
        .call site func arguments keywords ∈ AST.preorderAll (definitionBody caller.2) ∧
        ((¬ InClass callee.1 ∧ ∃ position ctx, func = .name position name ctx) ∨
          InClass callee.1 ∧ ∃ position owner ctx,
            func = .attribute position (.name owner "self" ctx) name)

/-- The test refers to the local name, in its own body or in that of a function of
its file that it reaches by calls. -/
def Referenced (world : World) (markedTest : MarkedTest) (localName : String) : Prop :=
  ∃ tree, world.tree markedTest.filePath = some tree ∧
    ∃ definition function, DefinesTest tree markedTest.testName definition ∧
      Relation.ReflTransGen (CallsWithin tree) definition function ∧
      ∃ info, .name info localName .load ∈ AST.preorderAll (definitionBody function.2)

/-- What keeps the test reported. With no imported name on record the file-level
fallback decides. Otherwise the test is kept by its own symbol, if its own file
changed, or by its fixtures, if a conftest did; and for any other file by an
imported modified symbol that counts as used, or by a fixture that the test names
itself and that calls a modified symbol. -/
def NarrowingKept (ctx : ImpactContext) (markedTest : MarkedTest) (changedFile : Path)
    (classification : SymbolClassification) : Prop :=
  match markedTest.symbolImports.get changedFile with
  | none => FallbackKept ctx markedTest changedFile
  | some imported =>
    if changedFile = markedTest.filePath then OwnSymbolModified markedTest classification
    else if changedFile.isConftest = true then ConftestChangeReaches ctx markedTest changedFile
    else
      (∃ symbol ∈ imported, symbol ∈ classification.modifiedSymbols ∧
        UsesSymbol ctx markedTest classification symbol) ∨
      DirectFixtureCalls ctx markedTest classification.modifiedSymbols

/-- The verdict on a dependency whose changes were classified. -/
theorem changedFileImpact_isSome_of_dependency (ctx : ImpactContext) (markedTest : MarkedTest)
    (changedFile : Path) (classification : SymbolClassification)
    (dependency : changedFile ∈ markedTest.dependencies)
    (cached : ctx.classification changedFile = some classification) :
    (changedFileImpact ctx markedTest changedFile).isSome = true ↔
      NarrowingKept ctx markedTest changedFile classification := by
  unfold NarrowingKept
  cases imports : markedTest.symbolImports.get changedFile with
  | none => exact changedFileImpact_isSome_of_unimported ctx markedTest changedFile dependency imports
  | some imported =>
    rw [changedFileImpact]
    by_cases own : changedFile = markedTest.filePath
    · rw [if_pos own, selfModification_isSome, cached]
      simp [own]
    · rw [if_neg own, if_pos dependency]
      by_cases conftest : changedFile.isConftest = true
      · rw [if_pos conftest, conftestImpact_isSome]
        simp [own, conftest]
      · rw [if_neg conftest, imports]
        simp only [own, conftest, ↓reduceIte, Bool.false_eq_true]
        exact symbolImpact_isSome ctx markedTest changedFile imported classification cached

/-- Soundness of call narrowing. Let a test import a symbol by name, and let the
symbol be modified in the imported file. If the test refers to the local name, it is
reported for every changed set with that file exactly under `NarrowingKept`.

Proof: the import is executed, so the file is a dependency of the analysed test. -/
theorem referenced_symbol_reported_iff (ctx : ImpactContext) (markerNames : List String)
    (fixtureUsage : Dict String (List String)) (discovered markedTest : MarkedTest)
    (changedFile : Path) (classification : SymbolClassification) (symbol localName : String)
    (analyzed : analyzeTest ctx.world markerNames fixtureUsage discovered = markedTest)
    (imports : ImportsByName ctx.world markedTest.filePath changedFile symbol localName)
    (cached : ctx.classification changedFile = some classification)
    (_modified : symbol ∈ classification.modifiedSymbols)
    (_referenced : Referenced ctx.world markedTest localName) :
    (∀ changedSet : List Path, changedFile ∈ changedSet →
      (checkTestImpact ctx markedTest.nodeId markedTest changedSet).isSome = true) ↔
      NarrowingKept ctx markedTest changedFile classification := by
  subst analyzed
  have dependency := dependency_of_importsByName ctx.world markerNames fixtureUsage discovered
    changedFile symbol localName imports
  rw [reported_forall_iff]
  exact changedFileImpact_isSome_of_dependency ctx _ changedFile classification dependency cached

/-- A checkout with a library file and one test file with the given statements. -/
def bootWorld (statements : List AST) : World where
  unicode := Text.ascii
  present path := decide (path ∈ [["tests", "test_vm.py"], ["utilities", "virt.py"]])
  source path :=
    if path = ["tests", "test_vm.py"] then some ⟨[], some statements⟩ else none
  gitDiff _ _ := none
  baseFile _ := .missing

/-- The library file changed in `start_vm`. -/
def bootContext (statements : List AST) : ImpactContext where
  world := bootWorld statements
  modifiedSymbolsCache := (Dict.empty).set ["utilities", "virt.py"]
    (some { modifiedSymbols := ["start_vm"], newSymbols := [] })

/-- The test `test_vm` of the test file, analysed. -/
def bootTest (statements : List AST) : MarkedTest :=
  analyzeTest (bootWorld statements) [] ∅
    { filePath := ["tests", "test_vm.py"]
      testName := "test_vm"
      nodeId := "tests/test_vm.py::test_vm" }

/-- `from utilities.virt import start_vm`, with a local name or without. -/
def importStartVm (asname : Option String) : AST :=
  .importFrom ⟨1, 1, 1⟩ (some "utilities.virt") [⟨"start_vm", asname⟩] 0

/-- A function without parameters that consists of one expression. -/
def defineFunction (id : Nat) (name : String) (value : AST) : AST :=
  .functionDef ⟨id, id, id⟩ false name (.arguments ⟨id + 1, id, id⟩ [] [] none [] [] none [])
    [.exprStmt ⟨id + 2, id, id⟩ value] [] none

/-- The call of a name with names as arguments. -/
def callWith (id : Nat) (name : String) (arguments : List String) : AST :=
  .call ⟨id, id, id⟩ (.name ⟨id + 1, id, id⟩ name .load)
    (arguments.map fun argument => .name ⟨id + 2, id, id⟩ argument .load) []

/-- The test calls the symbol under another name. -/
def aliasStatements : List AST :=
  [importStartVm (some "boot"), defineFunction 10 "test_vm" (callWith 20 "boot" [])]

/-- The test calls a function of its file that calls the symbol. -/
def helperStatements : List AST :=
  [importStartVm none, defineFunction 10 "boot" (callWith 20 "start_vm" []),
    defineFunction 30 "test_vm" (callWith 40 "boot" [])]

/-- The test hands the symbol to another function. -/
def valueStatements : List AST :=
  [importStartVm none, defineFunction 10 "test_vm" (callWith 20 "retry" ["start_vm"])]

/-- The test calls the symbol. -/
def callStatements : List AST :=
  [importStartVm none, defineFunction 10 "test_vm" (callWith 20 "start_vm" [])]

/-- The sample test imports the function by its name. -/
theorem bootTest_imports (asname : Option String) (rest : List AST) :
    ImportsByName (bootWorld (importStartVm asname :: rest)) ["tests", "test_vm.py"]
      ["utilities", "virt.py"] "start_vm" (asname.getD "start_vm") :=
  ⟨_, _, "utilities.virt", _, ⟨"start_vm", asname⟩, List.mem_singleton.mpr rfl, rfl,
    List.mem_cons_self, by decide, rfl, rfl, rfl⟩

/-- A test among the nodes is defined in the file. -/
theorem definesTest_of_mem (statements : List AST) (id : Nat) (value : AST)
    (member : (none, defineFunction id "test_vm" value) ∈ AST.walk statements) :
    DefinesTest statements "test_vm" (none, defineFunction id "test_vm" value) :=
  ⟨member, ⟨_, _, _, _, _, _, rfl⟩, by
    intro className qualified
    cases qualified⟩

/-- The call of the symbol by its name is noticed. -/
theorem called_symbol_reported :
    (checkTestImpact (bootContext callStatements) (bootTest callStatements).nodeId
      (bootTest callStatements) [["utilities", "virt.py"]]).isSome = true := by
  refine (referenced_symbol_reported_iff (bootContext callStatements) [] ∅ _
    (bootTest callStatements) ["utilities", "virt.py"] _ "start_vm" "start_vm" rfl
    (bootTest_imports none _) rfl (List.mem_singleton.mpr rfl) ?_).mpr ?_ _
    (List.mem_singleton.mpr rfl)
  · exact ⟨callStatements, rfl, _, _,
      definesTest_of_mem callStatements 10 _ (List.mem_of_getElem? (i := 1) rfl), .refl,
      ⟨21, 20, 20⟩, List.mem_of_getElem? (i := 2) rfl⟩
  · refine Or.inl ⟨"start_vm", by decide, List.mem_singleton.mpr rfl, ?_, ?_⟩
    · intro members attrs known
      cases known
    · intro calls found
      cases found
      exact Or.inr (Or.inl (by decide))

/-- The test imports `start_vm` and refers to it, and is not reported. -/
def UseUnnoticed (statements : List AST) (localName : String) : Prop :=
  ImportsByName (bootWorld statements) (bootTest statements).filePath ["utilities", "virt.py"]
      "start_vm" localName ∧
    (∃ classification,
      (bootContext statements).classification ["utilities", "virt.py"] = some classification ∧
        "start_vm" ∈ classification.modifiedSymbols) ∧
    Referenced (bootWorld statements) (bootTest statements) localName ∧
    checkTestImpact (bootContext statements) (bootTest statements).nodeId (bootTest statements)
      [["utilities", "virt.py"]] = none

/-- A use under another name, through a function of the file or as a value is not
noticed. -/
theorem used_symbol_not_reported :
    UseUnnoticed aliasStatements "boot" ∧ UseUnnoticed helperStatements "start_vm" ∧
      UseUnnoticed valueStatements "start_vm" := by
  refine ⟨?_, ?_, ?_⟩
  · refine ⟨bootTest_imports (some "boot") _, ⟨_, rfl, List.mem_singleton.mpr rfl⟩, ?_,
      by decide +kernel⟩
    exact ⟨aliasStatements, rfl, _, _,
      definesTest_of_mem _ 10 _ (List.mem_of_getElem? (i := 1) rfl), .refl, ⟨21, 20, 20⟩,
      List.mem_of_getElem? (i := 2) rfl⟩
  · refine ⟨bootTest_imports none _, ⟨_, rfl, List.mem_singleton.mpr rfl⟩, ?_, by decide +kernel⟩
    have calls : CallsWithin helperStatements
        (none, defineFunction 30 "test_vm" (callWith 40 "boot" []))
        (none, defineFunction 10 "boot" (callWith 20 "start_vm" [])) := by
      refine ⟨List.mem_of_getElem? (i := 1) rfl, _, _, "boot", _, _, _, _, rfl, _, _, _, _,
        List.mem_of_getElem? (i := 1) rfl, Or.inl ⟨?_, _, _, rfl⟩⟩
      exact id
    exact ⟨helperStatements, rfl, _, _,
      definesTest_of_mem _ 30 _ (List.mem_of_getElem? (i := 2) rfl), .single calls, ⟨21, 20, 20⟩,
      List.mem_of_getElem? (i := 2) rfl⟩
  · refine ⟨bootTest_imports none _, ⟨_, rfl, List.mem_singleton.mpr rfl⟩, ?_, by decide +kernel⟩
    exact ⟨valueStatements, rfl, _, _,
      definesTest_of_mem _ 10 _ (List.mem_of_getElem? (i := 1) rfl), .refl, ⟨22, 20, 20⟩,
      List.mem_of_getElem? (i := 3) rfl⟩

end VirtTestTools.Analyzer
