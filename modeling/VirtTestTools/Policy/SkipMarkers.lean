import VirtTestTools.Policy.AddedLines
import VirtTestTools.Policy.Violations

/-!
# Skip markers and forbidden calls

The rules of `check_policy.py` itself: no client is constructed, no test is skipped,
and no marker that skips tests is applied by a decorator, a parameter set or a
module's `pytestmark`. A marker may be hidden behind names and inside expressions;
`_is_forbidden_pytestmark_value` follows both.
-/

namespace VirtTestTools.Policy

open Traversal

/-- A violation at the first line of a node. -/
def violationAt (filePath : Path) (node : AST) (message : String) : PolicyViolation :=
  ⟨filePath, some node.info.lineno, FsText.ofString message⟩

/-- The message of a violation. -/
theorem message_violationAt (filePath : Path) (node : AST) (message : String) :
    (violationAt filePath node message).message = FsText.ofString message := rfl

/-- The nodes of a module in the order of `ast.walk`. -/
def walked (tree : List AST) : List AST := (AST.walk tree).map Prod.snd

/-- Whether the node is an expression. -/
def isExpression : AST → Bool
  | .name .. | .attribute .. | .call .. | .constant .. | .starred .. | .list .. | .tuple ..
  | .namedExpr .. | .ifExp .. | .lambda .. | .comp .. | .dictComp .. => true
  | .other _ cls _ =>
    match cls with
    | .boolOp | .binOp _ | .unaryOp | .dict | .set | .await | .yield | .yieldFrom | .compare _
    | .formattedValue _ | .joinedStr | .subscript | .slice => true
    | _ => false
  | _ => false

/-- The iterated expressions of generators. -/
def generatorIters (generators : List AST) : List AST :=
  generators.filterMap fun
    | .comprehension _ _ _ iter _ => some iter
    | _ => none

/-- The conditions of generators. -/
def generatorIfs (generators : List AST) : List AST :=
  generators.flatMap fun
    | .comprehension _ _ _ _ ifs => ifs
    | _ => []

/-- `_pytestmark_value_children`. -/
def pytestmarkValueChildren : AST → List AST
  | .comp _ _ elt generators => elt :: generatorIters generators ++ generatorIfs generators
  | .dictComp _ key value generators =>
    key :: value :: generatorIters generators ++ generatorIfs generators
  | node => node.children.filter isExpression

/-- The marker of a decorator: of a call the called function. -/
def markerOf : AST → AST
  | .call _ func .. => func
  | node => node

/-- The three kinds of assignments. -/
def isAssignment : AST → Bool
  | .assign .. | .annAssign .. | .augAssign .. => true
  | _ => false

/-- `_pytestmark_value`. -/
def pytestmarkValue : AST → Option AST
  | .assign _ targets value => if targets.any isPytestmark then some value else none
  | .annAssign _ target _ value => if isPytestmark target then value else none
  | .augAssign _ target value => if isPytestmark target then some value else none
  | _ => none
where
  /-- The target is the name `pytestmark`. -/
  isPytestmark : AST → Bool
    | .name _ id _ => id = "pytestmark"
    | _ => false

/-- `DYNAMIC_CLIENT_MESSAGE`. -/
def dynamicClientMessage : String :=
  "reuse the DynamicClient passed through the call path instead of constructing one"

/-- The message about skip markers of decorators and parameter sets. -/
def skipMarkerMessage : String := "pytest.mark.skip and pytest.mark.skipif are forbidden"

namespace ScopeBuilder

variable (scopes : ScopeBuilder)

/-- The tests of `_is_forbidden_skip_decorator` before it follows a value: the marker resolves to a
forbidden one, or a name is imported as one. -/
def forbiddenHere (state : List Nat × AST) : Bool :=
  scopes.namesForbiddenSkip (markerOf state.2) ||
    (scopes.freshBindings state.1 (markerOf state.2)).any fun binding =>
      match binding.importedName with
      | none => false
      | some name => forbiddenSkipMarkers.contains name

/-- The expressions with which `_is_forbidden_pytestmark_value` goes on. -/
def forbiddenNext (state : List Nat × AST) : List (List Nat × AST) :=
  scopes.boundValues state.1 (markerOf state.2) ++
    (pytestmarkValueChildren state.2).map fun child => (state.1, child)

/-- `_is_forbidden_pytestmark_value`, while some bindings are being resolved. -/
def forbiddenValueFrom (state : List Nat × AST) : Bool :=
  search scopes.pendingSize scopes.forbiddenNext scopes.forbiddenHere state

/-- `_is_forbidden_pytestmark_value`. -/
def isForbiddenPytestmarkValue (node : AST) : Bool := scopes.forbiddenValueFrom ([], node)

/-- `_is_forbidden_skip_decorator`. -/
def isForbiddenSkipDecorator (node : AST) : Bool :=
  scopes.forbiddenHere ([], node) ||
    (scopes.boundValues [] (markerOf node)).any scopes.forbiddenValueFrom

/-- `_call_message`. -/
def callMessage (func : AST) : Option String :=
  if scopes.isDynamicClientCall func then some dynamicClientMessage
  else if scopes.isPytestSkipCall func then some "pytest.skip() is forbidden"
  else none

/-- The value of the first keyword with a name. -/
def keywordValue (name : String) (keywords : List AST) : Option AST :=
  keywords.findSome? fun
    | .keyword _ arg value => if arg = some name then some value else none
    | _ => none

/-- `_pytest_param_marker_message`. -/
def pytestParamMarkerMessage (func : AST) (keywords : List AST) : Option String :=
  if (scopes.resolvedNames func).contains ["pytest", "param"] then
    match keywordValue "marks" keywords with
    | none => none
    | some marks => if scopes.isForbiddenPytestmarkValue marks then some skipMarkerMessage else none
  else none

/-- The message about a call, if there is one, and the expression it depends on. -/
def callFinding (node func : AST) (keywords : List AST) : Option String × AST :=
  match scopes.callMessage func with
  | some message => (some message, func)
  | none => (scopes.pytestParamMarkerMessage func keywords, node)

/-- `_check_call`, for a call and its parts. -/
def checkCall (filePath : Path) (added : AddedLines) (node func : AST) (keywords : List AST) :
    List PolicyViolation :=
  let finding := scopes.callFinding node func keywords
  if scopes.nodeOrDependencyIntersects added node finding.2 then
    finding.1.toList.map (violationAt filePath node)
  else []

/-- `_check_decorators`. -/
def checkDecorators (filePath : Path) (added : AddedLines) (decoratorList : List AST) :
    List PolicyViolation :=
  (decoratorList.filter fun decorator =>
    scopes.isForbiddenSkipDecorator decorator &&
      scopes.nodeOrDependencyIntersects added decorator decorator).map
    fun decorator => violationAt filePath decorator skipMarkerMessage

/-- `_check_ast_node`. -/
def checkAstNode (filePath : Path) (added : AddedLines) (node : AST) : List PolicyViolation :=
  match node with
  | .call _ func _ keywords => scopes.checkCall filePath added node func keywords
  | .classDef _ _ _ _ _ decoratorList | .functionDef _ _ _ _ _ decoratorList _ =>
    scopes.checkDecorators filePath added decoratorList
  | _ => []

/-- `_check_ast_nodes`. -/
def checkAstNodes (filePath : Path) (tree : List AST) (added : AddedLines) :
    List PolicyViolation :=
  (walked tree).flatMap (scopes.checkAstNode filePath added)

/-- `_check_module_pytestmark`. -/
def checkModulePytestmark (filePath : Path) (added : AddedLines) (node : AST) :
    Option PolicyViolation :=
  match pytestmarkValue node with
  | none => none
  | some value =>
    if scopes.isForbiddenPytestmarkValue value &&
        scopes.nodeOrDependencyIntersects added node value then
      some (violationAt filePath node "module-level pytestmark skip markers are forbidden")
    else none

/-- `_check_module_assignments`: the assignments that stand in the scope of the module. -/
def checkModuleAssignments (filePath : Path) (tree : List AST) (added : AddedLines) :
    List PolicyViolation :=
  ((walked tree).filter fun node =>
    isAssignment node && scopes.nodeScopes.get node.id = some 0).filterMap
      (scopes.checkModulePytestmark filePath added)

/-! ## Termination of the search for markers -/

/-- The iterables and conditions of generators are smaller. -/
theorem size_lt_of_mem_generators {generators : List AST} {node : AST}
    (parts : ∀ generator ∈ generators, generator.size < node.size) :
    (∀ iter ∈ generatorIters generators, iter.size < node.size) ∧
      ∀ condition ∈ generatorIfs generators, condition.size < node.size := by
  constructor
  · intro iter inside
    obtain ⟨generator, generatorInside, isIter⟩ := List.mem_filterMap.mp inside
    have outer := parts generator generatorInside
    cases generator with
    | comprehension info isAsync target own ifs =>
      obtain rfl := Option.some.inj isIter
      have inner : own.size < (AST.comprehension info isAsync target own ifs).size :=
        AST.size_lt_of_mem_children (by simp [AST.children])
      omega
    | _ => exact absurd isIter (by simp)
  · intro condition inside
    obtain ⟨generator, generatorInside, isCondition⟩ := List.mem_flatMap.mp inside
    have outer := parts generator generatorInside
    cases generator with
    | comprehension info isAsync target iter ifs =>
      have inner : condition.size < (AST.comprehension info isAsync target iter ifs).size := by
        apply AST.size_lt_of_mem_children
        simp only [AST.children, List.mem_cons]
        exact Or.inr (Or.inr isCondition)
      omega
    | _ => exact absurd isCondition List.not_mem_nil

/-- The children of a value are smaller. -/
theorem size_lt_of_mem_pytestmarkValueChildren {node child : AST}
    (inside : child ∈ pytestmarkValueChildren node) : child.size < node.size := by
  unfold pytestmarkValueChildren at inside
  split at inside
  · rename_i info kind elt generators
    have parts : ∀ part ∈ elt :: generators, part.size < (AST.comp info kind elt generators).size :=
      fun part here => AST.size_lt_of_mem_children here
    obtain ⟨iters, ifs⟩ := size_lt_of_mem_generators fun generator here =>
      parts generator (List.mem_cons_of_mem _ here)
    simp only [List.cons_append, List.mem_cons, List.mem_append] at inside
    obtain rfl | isIter | isIf := inside
    · exact parts _ List.mem_cons_self
    · exact iters child isIter
    · exact ifs child isIf
  · rename_i info key value generators
    have parts : ∀ part ∈ key :: value :: generators,
        part.size < (AST.dictComp info key value generators).size :=
      fun part here => AST.size_lt_of_mem_children here
    obtain ⟨iters, ifs⟩ := size_lt_of_mem_generators fun generator here =>
      parts generator (List.mem_cons_of_mem _ (List.mem_cons_of_mem _ here))
    simp only [List.cons_append, List.mem_cons, List.mem_append] at inside
    obtain rfl | rfl | isIter | isIf := inside
    · exact parts _ List.mem_cons_self
    · exact parts _ (List.mem_cons_of_mem _ List.mem_cons_self)
    · exact iters child isIter
    · exact ifs child isIf
  · exact AST.size_lt_of_mem_children (List.mem_of_mem_filter inside)

variable {scopes}

/-- The search for a forbidden name goes on with something smaller. -/
theorem descends_forbiddenNext : Descends scopes.pendingSize scopes.forbiddenNext := by
  intro state inner inside
  obtain bound | child := List.mem_append.mp inside
  · exact pendingSize_lt_of_mem_boundValues bound state.2
  · obtain ⟨child, childInside, rfl⟩ := List.mem_map.mp child
    have smaller := size_lt_of_mem_pytestmarkValueChildren childInside
    unfold pendingSize
    dsimp only
    omega

/-- The recursion of `_is_forbidden_pytestmark_value`, as the source writes it. -/
theorem forbiddenValueFrom_eq (resolving : List Nat) (node : AST) :
    scopes.forbiddenValueFrom (resolving, node) =
      ((scopes.forbiddenHere (resolving, node) ||
        (scopes.boundValues resolving (markerOf node)).any scopes.forbiddenValueFrom) ||
        (pytestmarkValueChildren node).any fun child =>
          scopes.forbiddenValueFrom (resolving, child)) := by
  unfold forbiddenValueFrom
  rw [search_eq descends_forbiddenNext]
  simp [forbiddenNext, List.any_append, List.any_map, Function.comp_def, Bool.or_assoc]

/-! ## More lines, more violations -/

section

variable {narrow wide : AddedLines} (within : narrow.Within wide) (filePath : Path)

include within

/-- With more added lines more calls are reported. -/
theorem checkCall_subset (node func : AST) (keywords : List AST) :
    scopes.checkCall filePath narrow node func keywords ⊆
      scopes.checkCall filePath wide node func keywords := by
  intro violation found
  unfold checkCall at found ⊢
  dsimp only at found ⊢
  split at found
  · rename_i hit
    rw [if_pos (nodeOrDependencyIntersects_mono within _ _ hit)]
    exact found
  · exact absurd found List.not_mem_nil

/-- With more added lines more decorators are reported. -/
theorem checkDecorators_subset (decoratorList : List AST) :
    scopes.checkDecorators filePath narrow decoratorList ⊆
      scopes.checkDecorators filePath wide decoratorList := by
  apply List.map_subset
  intro decorator found
  simp only [List.mem_filter, Bool.and_eq_true] at found ⊢
  obtain ⟨inside, forbidden, hit⟩ := found
  exact ⟨inside, forbidden, nodeOrDependencyIntersects_mono within _ _ hit⟩

/-- With more added lines more nodes are reported. -/
theorem checkAstNodes_subset (tree : List AST) :
    scopes.checkAstNodes filePath tree narrow ⊆ scopes.checkAstNodes filePath tree wide := by
  intro violation found
  obtain ⟨node, inside, found⟩ := List.mem_flatMap.mp found
  refine List.mem_flatMap.mpr ⟨node, inside, ?_⟩
  cases node with
  | call info func args keywords => exact checkCall_subset within filePath _ func keywords found
  | classDef info name bases keywords body decoratorList =>
    exact checkDecorators_subset within filePath decoratorList found
  | functionDef info isAsync name args body decoratorList returns =>
    exact checkDecorators_subset within filePath decoratorList found
  | _ => exact absurd found List.not_mem_nil

/-- With more added lines a reported assignment is reported again. -/
theorem checkModulePytestmark_mono {node : AST} {violation : PolicyViolation}
    (found : scopes.checkModulePytestmark filePath narrow node = some violation) :
    scopes.checkModulePytestmark filePath wide node = some violation := by
  unfold checkModulePytestmark at found ⊢
  split at found
  · exact absurd found (by simp)
  · split at found
    · rename_i hit
      obtain ⟨forbidden, hit⟩ := Bool.and_eq_true_iff.mp hit
      have hitWide := nodeOrDependencyIntersects_mono within _ _ hit
      simpa [forbidden, hitWide] using found
    · exact absurd found (by simp)

/-- With more added lines more assignments of a module are reported. -/
theorem checkModuleAssignments_subset (tree : List AST) :
    scopes.checkModuleAssignments filePath tree narrow ⊆
      scopes.checkModuleAssignments filePath tree wide := by
  intro violation found
  obtain ⟨node, inside, found⟩ := List.mem_filterMap.mp found
  exact List.mem_filterMap.mpr ⟨node, inside, checkModulePytestmark_mono within filePath found⟩

end

end ScopeBuilder

end VirtTestTools.Policy
