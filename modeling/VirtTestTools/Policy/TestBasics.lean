import VirtTestTools.Policy.ResourceClients

/-!
# Basics of tests

`check_test_basics.py` forbids relative imports, calls of `time.sleep` and, in the
roots of the project's code, everything asynchronous; it asks for messages at
asserts, for comparisons that say what they mean, and for the marker `special_infra`
beside the markers of special hardware.

The visitor of the last part goes through the tree by itself. It reports an
asynchronous function on an added line and does not look into its body then, so with
more added lines it may see less.
-/

namespace VirtTestTools.Policy

open Text Traversal
open AST (decorators)

/-! ## Messages -/

/-- `RELATIVE_IMPORT_MESSAGE`. -/
def relativeImportMessage : String := "relative imports are forbidden; use absolute imports"

/-- `ASYNC_FUNCTION_MESSAGE`. -/
def asyncFunctionMessage : String :=
  "test-basics: async functions are forbidden; use synchronous code"

/-- `ASYNC_COMPREHENSION_MESSAGE`. -/
def asyncComprehensionMessage : String :=
  "test-basics: async comprehensions are forbidden; use a synchronous comprehension"

/-- `AWAIT_MESSAGE`. -/
def awaitMessage : String := "test-basics: await is forbidden; use synchronous code"

/-- `ASYNC_FOR_MESSAGE`. -/
def asyncForMessage : String := "test-basics: async for is forbidden; use a synchronous loop"

/-- `ASYNC_WITH_MESSAGE`. -/
def asyncWithMessage : String :=
  "test-basics: async with is forbidden; use a synchronous context manager"

/-- The message about asserts. -/
def assertMessage : String := "test-basics: add a descriptive failure message to this assert"

/-- The message about assertions of `unittest`. -/
def selfAssertMessage : String := "test-basics: replace unittest self.assert* with a pytest assert"

/-- The message about comparisons with `None`. -/
def compareNoneMessage : String :=
  "test-basics: compare None with 'is' or 'is not', not == or !="

/-- The message about comparisons with `True` and `False`. -/
def compareBoolMessage : String :=
  "test-basics: use the value's implicit truthiness instead of comparing with True or False"

/-- The message about `time.sleep`. -/
def sleepMessage : String := "test-basics: replace time.sleep() with TimeoutSampler"

/-- `_SPECIAL_INFRA_MESSAGE.format(marker=...)`. -/
def specialInfraMessage (marker : String) : String :=
  "test-basics: marker " ++ marker ++
    " requires @pytest.mark.special_infra at module, class, or test level"

/-- `_SPECIAL_INFRA_REQUIRED_MARKERS`. -/
def specialInfraRequiredMarkers : List String :=
  ["gpu", "sriov", "bgp", "ibm_bare_metal", "dpdk", "swap", "cpu_manager", "numa", "hugepages",
    "jumbo_frame", "rwx_default_storage", "descheduler", "high_resource_vm"]

/-! ## Constant expressions -/

/-- `_MAX_CONSTANT_STRING_LENGTH`. -/
def maxConstantStringLength : Nat := 4096

/-- `value.bit_length() <= _MAX_CONSTANT_INTEGER_BITS`. -/
def fitsBits (value : Int) : Bool := decide (value.natAbs < 2 ^ 256)

/-- Add two resolved constants. -/
def addConstants : Option Literal → Option Literal → Option Literal
  | some (.str left), some (.str right) =>
    if left.length + right.length > maxConstantStringLength then none else some (.str (left ++ right))
  | some (.int left), some (.int right) =>
    if fitsBits (left + right) then some (.int (left + right)) else none
  | _, _ => none

/-- Append a resolved part of a formatted string to the text so far. -/
def joinConstant (joined : Option String) (part : Option Literal) : Option String :=
  match joined, part with
  | some text, some (.str value) =>
    if text.length + value.length > maxConstantStringLength then none else some (text ++ value)
  | _, _ => none

/-- `_resolve_constant_expression`, with the depth that is left; `none` is the unknown constant. -/
def resolveConstantFrom : Nat → AST → Option Literal
  | 0, _ => none
  | depth + 1, node =>
    match node with
    | .constant _ value =>
      match value with
      | .str text => if text.length > maxConstantStringLength then none else some value
      | .bytes length => if length > maxConstantStringLength then none else some value
      | .int number => if fitsBits number then some value else none
      | _ => some value
    | .other _ (.binOp true) [left, right] =>
      addConstants (resolveConstantFrom depth left) (resolveConstantFrom depth right)
    | .other _ (.formattedValue true) (value :: _) =>
      match resolveConstantFrom depth value with
      | some (.str text) => some (.str text)
      | _ => none
    | .other _ .joinedStr values =>
      (values.foldl (fun joined value => joinConstant joined (resolveConstantFrom depth value))
        (some "")).map Literal.str
    | _ => none

/-- `_resolve_constant_expression`: depths up to `_MAX_CONSTANT_DEPTH` are resolved. -/
def resolveConstantExpression (node : AST) : Option Literal := resolveConstantFrom 13 node

/-! ## Rules about calls -/

section

variable (resolve : AST → List (List String))

/-- `_is_relative_dynamic_import`, for the parts of a call. -/
def isRelativeDynamicImport (func : AST) (args keywords : List AST) : Bool :=
  let resolvedNames := resolve func
  if resolvedNames.contains ["importlib", "import_module"] then
    match (args.head?.or (ScopeBuilder.keywordValue "name" keywords)).bind
      resolveConstantExpression with
    | some (.str name) => startsWith ['.'] name.toList
    | _ => false
  else if resolvedNames.contains ["__import__"] || resolvedNames.contains ["builtins", "__import__"]
    then
    match (args[4]?.or (ScopeBuilder.keywordValue "level" keywords)).bind
      resolveConstantExpression with
    | some (.int level) => decide (level > 0)
    | _ => false
  else false

/-- Whether the node is a scope that `containing_scope` stops at. -/
def isScopeNode : AST → Bool
  | .functionDef .. | .classDef .. => true
  | _ => false

/-- `containing_scope`, by its identity; `none` is the module. -/
def containingScope (tree : List AST) (node : AST) : Option Nat :=
  ((ancestors tree node).find? isScopeNode).map AST.id

/-- Whether the call is one of a class with this name that ends before it in the same scope. -/
def shadowedByClass (tree : List AST) (node func : AST) : Bool :=
  match func with
  | .attribute _ (.name _ id _) _ =>
    (walked tree).any fun other =>
      match other with
      | .classDef info name .. =>
        name = id && containingScope tree other = containingScope tree node &&
          info.endLineno < node.info.lineno
      | _ => false
  | _ => false

/-! ## Markers of special hardware -/

/-- The parts of an expression that apply markers: of a call the called function, of a collection
its elements. -/
def applicationNext : AST → List AST
  | .call _ func .. => [func]
  | .list _ elts | .tuple _ elts | .other _ .set elts => elts
  | _ => []

/-- A plain reference to a marker. -/
def markerReference : AST → List AST
  | node@(.attribute ..) | node@(.name _ _ .load) => [node]
  | _ => []

/-- `_direct_application_nodes`. -/
def directApplicationNodes (expression : AST) : List AST :=
  traverse AST.size markerReference applicationNext (fun _ => []) expression

/-- `_expression_marker_chains`. A reference that may be one of several markers gives none. -/
def expressionMarkerChains (expression : AST) : List (List String) :=
  (directApplicationNodes expression).flatMap fun node =>
    let chains := (resolve node).dedup
    if chains.length > 1 then [] else chains

/-- The parts of a target that destructures. -/
def targetParts : AST → List AST
  | .starred _ value => [value]
  | .list _ elts | .tuple _ elts => elts
  | _ => []

/-- `_assignment_target_names`. -/
def assignmentTargetNames (target : AST) : List String :=
  traverse AST.size
    (fun
      | .name _ id _ => [id]
      | _ => [])
    targetParts (fun _ => []) target

/-- The targets of an assignment. -/
def assignmentTargets : AST → List AST
  | .assign _ targets _ => targets
  | .annAssign _ target .. | .augAssign _ target _ => [target]
  | _ => []

/-- The value of an assignment. -/
def assignmentValue : AST → Option AST
  | .assign _ _ value | .augAssign _ _ value => some value
  | .annAssign _ _ _ value => value
  | _ => none

/-- Whether some target of an assignment binds `pytestmark`, also inside a tuple. -/
def bindsPytestmark (targets : List AST) : Bool :=
  targets.any fun target => (assignmentTargetNames target).contains "pytestmark"

/-- The statements inside the control flow of the module that the marker rules look at. -/
def controlFlow : AST → List AST
  | .ifStmt _ _ body orelse | .whileStmt _ _ body orelse => body ++ orelse
  | .forStmt _ _ _ _ body _ => body
  | .tryStmt _ _ body handlers orelse finalbody =>
    body ++ orelse ++ finalbody ++ handlers.flatMap fun
      | .exceptHandler _ _ _ body => body
      | _ => []
  | .matchStmt _ _ cases => cases.flatMap fun
      | .matchCase _ _ _ body => body
      | _ => []
  | .other _ .withStmt children => children.filter isStatement
  | _ => []

/-- The children of a node that are no scopes of their own. -/
def sameScopeChildren (node : AST) : List AST :=
  node.children.filter fun
    | .functionDef .. | .classDef .. | .lambda .. => false
    | _ => true

/-- `walrus_bound_names`. -/
def walrusBoundNames (node : AST) : List String :=
  traverse AST.size
    (fun
      | .namedExpr _ (.name _ id _) _ => [id]
      | _ => [])
    sameScopeChildren (fun _ => []) node

/-- `statement_mutates`. -/
def statementMutates (topLevel : List Nat) (statement : AST) : Bool :=
  if bindsPytestmark (assignmentTargets statement) then !topLevel.contains statement.id
  else
    match statement with
    | .functionDef .. | .classDef .. => false
    | .other _ .delete targets =>
      bindsPytestmark targets || (walrusBoundNames statement).contains "pytestmark"
    | _ => (walrusBoundNames statement).contains "pytestmark"

/-- `_has_dynamic_pytestmark_mutation`. -/
def hasDynamicPytestmarkMutation (tree : List AST) (topLevel : List Nat) : Bool :=
  tree.any (search AST.size controlFlow (statementMutates topLevel))

/-- What the loop of `_scope_marker_chains` gathers about the module's `pytestmark`. -/
structure ModuleMarks where
  effective : Option AST := none
  augmented : List AST := []
  topLevel : List Nat := []

/-- One statement of that loop. -/
def addModuleMark (marks : ModuleMarks) (statement : AST) : ModuleMarks :=
  if (assignmentTargets statement).any pytestmarkValue.isPytestmark then
    let marks := { marks with topLevel := statement.id :: marks.topLevel }
    match statement, assignmentValue statement with
    | _, none => marks
    | .augAssign .., some value => { marks with augmented := marks.augmented ++ [value] }
    | _, some value => { marks with effective := some value, augmented := [] }
  else marks

/-- The marker expressions that cover the whole module. -/
def moduleMarkExpressions (tree : List AST) : List AST :=
  let marks := tree.foldl addModuleMark {}
  if hasDynamicPytestmarkMutation tree marks.topLevel then []
  else marks.effective.toList ++ marks.augmented

/-- `_scope_marker_chains`. -/
def scopeMarkerChains (tree : List AST) (node : AST) : List (List String) :=
  (moduleMarkExpressions tree ++ (ancestors tree node).flatMap decorators).flatMap
    (expressionMarkerChains resolve)

/-- `_marker_application_expressions`. -/
def markerApplicationExpressions (tree : List AST) : List AST :=
  (walked tree).flatMap decorators ++ tree.flatMap (traverse AST.size
    (fun statement =>
      if bindsPytestmark (assignmentTargets statement) then (assignmentValue statement).toList
      else [])
    controlFlow (fun _ => []))

/-- `chain` is a marker that needs `special_infra`; the marker. -/
def requiredMarker : List String → Option String
  | ["pytest", "mark", marker] =>
    if specialInfraRequiredMarkers.contains marker then some marker else none
  | _ => none

/-- `_special_infra_violations`. -/
def specialInfraViolations (filePath : Path) (tree : List AST) (hits : AST → AST → Bool) :
    List PolicyViolation :=
  (markerApplicationExpressions tree).flatMap fun expression =>
    (directApplicationNodes expression).flatMap fun node =>
      ((resolve node).dedup.filterMap requiredMarker).flatMap fun marker =>
        if hits node node &&
            !(scopeMarkerChains resolve tree node).contains ["pytest", "mark", "special_infra"] then
          [violationAt filePath node (specialInfraMessage marker)]
        else []

end

/-! ## The visitor -/

/-- `_comparison_message`, for the operators and the operands of a comparison. -/
def comparisonMessage : List CompareOp → List AST → Option String
  | operator :: operators, left :: right :: operands =>
    if operator = .eq ∨ operator = .notEq then
      if isNone left || isNone right then some compareNoneMessage
      else if isBool left || isBool right then some compareBoolMessage
      else comparisonMessage operators (right :: operands)
    else comparisonMessage operators (right :: operands)
  | _, _ => none
where
  /-- The constant `None`. -/
  isNone : AST → Bool
    | .constant _ .none => true
    | _ => false
  /-- The constants `True` and `False`. -/
  isBool : AST → Bool
    | .constant _ (.bool _) => true
    | _ => false

/-- `_argument_annotations`. -/
def argumentAnnotations (arguments : List AST) : List AST :=
  arguments.filterMap fun
    | .arg _ _ annot => annot
    | _ => none

/-- The part of `_function_header` that belongs to the arguments. -/
def argumentHeader : AST → List AST
  | .arguments _ posonlyargs args vararg kwonlyargs kwDefaults kwarg defaults =>
    defaults ++ kwDefaults ++
      argumentAnnotations (posonlyargs ++ args ++ kwonlyargs ++ vararg.toList ++ kwarg.toList)
  | _ => []

/-- `_function_header`. -/
def functionHeader (args : AST) (decoratorList : List AST) (returns : Option AST) : List AST :=
  decoratorList ++ argumentHeader args ++ returns.toList

/-- Whether some generator is asynchronous. -/
def hasAsyncGenerator (generators : List AST) : Bool :=
  generators.any fun
    | .comprehension _ isAsync .. => isAsync
    | _ => false

/-- Whether the assert has no descriptive message: none, or a constant that is no text or a blank
one. -/
def lacksMessage (msg : Option AST) : Bool :=
  match msg with
  | none => true
  | some msg =>
    match resolveConstantExpression msg with
    | none => false
    | some (.str text) => (strip text.toList).isEmpty
    | some _ => true

/-- The message about a node other than a function definition. -/
def nodeMessage (added : AddedLines) (node : AST) : Option String :=
  match node with
  | .other _ .assert children =>
    if intersects added node && lacksMessage children[1]? then some assertMessage else none
  | .comp _ _ _ generators | .dictComp _ _ _ generators =>
    if hasAsyncGenerator generators && intersects added node then some asyncComprehensionMessage
    else none
  | .other _ .await _ => if intersects added node then some awaitMessage else none
  | .forStmt info true .. => if added.has info.lineno then some asyncForMessage else none
  | .other info .asyncWith _ => if added.has info.lineno then some asyncWithMessage else none
  | .call _ (.attribute _ (.name _ "self" _) attr) .. =>
    if intersects added node && startsWith "assert".toList attr.toList then some selfAssertMessage
    else none
  | .other _ (.compare ops) operands =>
    if intersects added node then comparisonMessage ops operands else none
  | _ => none

/-- Whether the node is an asynchronous function on an added line. -/
def isAddedAsync (added : AddedLines) : AST → Bool
  | .functionDef info isAsync .. => isAsync && added.has info.lineno
  | _ => false

/-- What `_visit` goes on with: of a function its header, and its body unless the function is
reported. -/
def visitNext (added : AddedLines) (node : AST) : List AST :=
  match node with
  | .functionDef _ _ _ args body decoratorList returns =>
    functionHeader args decoratorList returns ++ if isAddedAsync added node then [] else body
  | _ => node.children

section

variable (filePath : Path) (added : AddedLines)

/-- What `_visit` reports before it goes on. -/
def visitBefore (node : AST) : List PolicyViolation :=
  (nodeMessage added node).toList.map (violationAt filePath node)

/-- What `_visit_function` reports behind the header. -/
def visitAfter (node : AST) : List PolicyViolation :=
  if isAddedAsync added node then [violationAt filePath node asyncFunctionMessage] else []

/-- `_visit`. -/
def visit (node : AST) : List PolicyViolation :=
  traverse AST.size (visitBefore filePath added) (visitNext added) (visitAfter filePath added) node

end

/-! ## The check -/

/-- The order by line. -/
def byLine (left right : PolicyViolation) : Bool :=
  decide (left.lineNumber.getD 0 ≤ right.lineNumber.getD 0)

/-- `file_path.parts[0]`, if there is a part. -/
def Path.firstPart (path : Path) : Option FsText :=
  if path.root = 0 then path.parts.head? else some (List.replicate path.root Path.slash)

/-- `_CHECKED_ROOTS`. -/
def checkedRoots : List FsText :=
  ["libs", "scripts", "tests", "utilities"].map FsText.ofString

section

variable (filePath : Path) (tree : List AST) (resolve : AST → List (List String))
  (hits : AST → AST → Bool)

/-- The relative imports on added lines. -/
def relativeImports (added : AddedLines) : List PolicyViolation :=
  ((walked tree).filter fun
    | node@(.importFrom _ _ _ level) => decide (level > 0) && intersects added node
    | _ => false).map fun node => violationAt filePath node relativeImportMessage

/-- The relative imports by calls. -/
def relativeDynamicImports : List PolicyViolation :=
  ((walked tree).filter fun
    | node@(.call _ func args keywords) =>
      isRelativeDynamicImport resolve func args keywords && hits node func
    | _ => false).map fun node => violationAt filePath node relativeImportMessage

/-- The calls of `time.sleep`. -/
def sleepCalls : List PolicyViolation :=
  ((walked tree).filter fun
    | node@(.call _ func ..) =>
      (resolve func).contains ["time", "sleep"] && !shadowedByClass tree node func && hits node func
    | _ => false).map fun node => violationAt filePath node sleepMessage

/-- The markers of special hardware, in tests. -/
def specialInfra : List PolicyViolation :=
  if filePath.firstPart = some (FsText.ofString "tests") then
    specialInfraViolations resolve filePath tree hits
  else []

/-- What the visitor reports, in the roots it is for. -/
def visitorViolations (added : AddedLines) : List PolicyViolation :=
  if filePath.firstPart.any (checkedRoots.contains ·) then tree.flatMap (visit filePath added)
  else []

/-- `check_test_basics`. `hits` says of a node and of what it depends on whether they are on added
lines. -/
def checkTestBasics (added : AddedLines) : List PolicyViolation :=
  (relativeImports filePath tree added ++ specialInfra filePath tree resolve hits ++
    relativeDynamicImports filePath tree resolve hits ++ sleepCalls filePath tree resolve hits ++
    visitorViolations filePath tree added).mergeSort byLine

end

/-! ## The recursions end -/

/-- What belongs to a part of a node is smaller than the node. -/
theorem size_lt_of_mem_parts {node child : AST} {parts : List AST} {inner : AST → List AST}
    (within : ∀ part ∈ parts, part ∈ node.children)
    (below : ∀ part, ∀ child ∈ inner part, child ∈ part.children)
    (inside : child ∈ parts.flatMap inner) : child.size < node.size := by
  obtain ⟨part, partInside, here⟩ := List.mem_flatMap.mp inside
  have outer := AST.size_lt_of_mem_children (within part partInside)
  have smaller := AST.size_lt_of_mem_children (below part child here)
  omega

/-- Control flow leads to smaller nodes. -/
theorem descends_controlFlow : Descends AST.size controlFlow := by
  intro node child inside
  unfold controlFlow at inside
  split at inside
  · exact AST.size_lt_of_mem_children (by simp_all [AST.children])
  · exact AST.size_lt_of_mem_children (by simp_all [AST.children])
  · exact AST.size_lt_of_mem_children (by simp_all [AST.children])
  · obtain direct | inHandler := List.mem_append.mp inside
    · apply AST.size_lt_of_mem_children
      simp only [List.mem_append] at direct
      simp only [AST.children, List.mem_append]
      tauto
    · refine size_lt_of_mem_parts (fun part here => ?_) (fun part child here => ?_) inHandler
      · simp [AST.children, here]
      · split at here
        · simp [AST.children, here]
        · exact absurd here List.not_mem_nil
  · refine size_lt_of_mem_parts (fun part here => ?_) (fun part child here => ?_) inside
    · simp [AST.children, here]
    · split at here
      · simp [AST.children, here]
      · exact absurd here List.not_mem_nil
  · exact AST.size_lt_of_mem_children (List.mem_of_mem_filter inside)
  · exact absurd inside List.not_mem_nil

/-- The parts of a header of arguments are smaller. -/
theorem size_lt_of_mem_argumentHeader {args node : AST} (inside : node ∈ argumentHeader args) :
    node.size < args.size := by
  cases args with
  | arguments info posonlyargs args vararg kwonlyargs kwDefaults kwarg defaults =>
    obtain direct | annotation := List.mem_append.mp inside
    · apply AST.size_lt_of_mem_children
      simp only [List.mem_append] at direct
      simp only [AST.children, List.mem_append]
      tauto
    · obtain ⟨argument, argumentInside, isAnnotation⟩ := List.mem_filterMap.mp annotation
      have outer : argument.size < (AST.arguments info posonlyargs args vararg kwonlyargs kwDefaults
          kwarg defaults).size := by
        apply AST.size_lt_of_mem_children
        simp only [List.mem_append] at argumentInside
        simp only [AST.children, List.mem_append]
        tauto
      cases argument with
      | arg info name annot =>
        obtain rfl := isAnnotation
        have inner : node.size < (AST.arg info name (some node)).size :=
          AST.size_lt_of_mem_children (by simp [AST.children])
        exact inner.trans outer
      | _ => exact absurd isAnnotation (by simp)
  | _ => exact absurd inside List.not_mem_nil

/-- The header of a function is made of parts of the function. -/
theorem size_lt_of_mem_functionHeader {info : Info} {isAsync : Bool} {name : String} {args : AST}
    {body decoratorList : List AST} {returns : Option AST} {node : AST}
    (inside : node ∈ functionHeader args decoratorList returns) :
    node.size < (AST.functionDef info isAsync name args body decoratorList returns).size := by
  obtain before | isReturns := List.mem_append.mp inside
  · obtain isDecorator | inArguments := List.mem_append.mp before
    · exact AST.size_lt_of_mem_children (by simp [AST.children, isDecorator])
    · have outer : args.size <
          (AST.functionDef info isAsync name args body decoratorList returns).size :=
        AST.size_lt_of_mem_children (by simp [AST.children])
      exact (size_lt_of_mem_argumentHeader inArguments).trans outer
  · exact AST.size_lt_of_mem_children (by simp_all [AST.children])

/-- The visitor goes on with smaller nodes. -/
theorem descends_visitNext (added : AddedLines) : Descends AST.size (visitNext added) := by
  intro node child inside
  unfold visitNext at inside
  split at inside
  · obtain header | body := List.mem_append.mp inside
    · exact size_lt_of_mem_functionHeader header
    · split at body
      · exact absurd body List.not_mem_nil
      · exact AST.size_lt_of_mem_children (by simp [AST.children, body])
  · exact AST.size_lt_of_mem_children inside

/-! ## Fewer added lines -/

section

variable {narrow wide : AddedLines} (within : narrow.Within wide) (filePath : Path)

include within

/-- With more added lines a reported asynchronous node is reported again. -/
theorem isAddedAsync_mono {node : AST} (reported : isAddedAsync narrow node = true) :
    isAddedAsync wide node = true := by
  unfold isAddedAsync at reported ⊢
  split at reported
  · obtain ⟨isAsync, has⟩ := Bool.and_eq_true_iff.mp reported
    simp only [isAsync, within _ has, Bool.and_self]
  · exact absurd reported Bool.false_ne_true

omit within in
/-- A message stays when its condition is weaker. -/
theorem ite_eq_some_mono {hit wider : Bool} (implied : hit = true → wider = true)
    {message : String} {value : Option String} (found : (if hit then value else none) = some message) :
    (if wider then value else none) = some message := by
  split at found
  · rename_i isHit
    rw [if_pos (implied isHit)]
    exact found
  · exact absurd found (by simp)

/-- Every class of nodes asks for its span or for its first line. -/
theorem nodeMessage_mono {node : AST} {message : String}
    (found : nodeMessage narrow node = some message) : nodeMessage wide node = some message := by
  have spans := intersects_mono within node
  have spansAnd : ∀ other, (intersects narrow node && other) = true →
      (intersects wide node && other) = true := by
    intro other hit
    rw [Bool.and_eq_true] at hit ⊢
    exact ⟨spans hit.1, hit.2⟩
  unfold nodeMessage at found ⊢
  split at found
  · exact ite_eq_some_mono (spansAnd _) found
  · rw [Bool.and_comm] at found ⊢
    exact ite_eq_some_mono (spansAnd _) found
  · rw [Bool.and_comm] at found ⊢
    exact ite_eq_some_mono (spansAnd _) found
  · exact ite_eq_some_mono spans found
  · exact ite_eq_some_mono (within _) found
  · exact ite_eq_some_mono (within _) found
  · exact ite_eq_some_mono (spansAnd _) found
  · exact ite_eq_some_mono spans found
  · exact absurd found (by simp)

/-- With more added lines more is reported before the children. -/
theorem visitBefore_subset (node : AST) :
    visitBefore filePath narrow node ⊆ visitBefore filePath wide node := by
  intro violation found
  obtain ⟨message, inside, rfl⟩ := List.mem_map.mp found
  refine List.mem_map.mpr ⟨message, ?_, rfl⟩
  rw [Option.mem_toList] at inside ⊢
  exact nodeMessage_mono within inside

omit within in
/-- Without added lines no node is an added asynchronous one. -/
theorem isAddedAsync_nothing (node : AST) : isAddedAsync (some []) node = false := by
  unfold isAddedAsync
  split
  · simp [AddedLines.has]
  · rfl

omit within in
/-- Where the visitor goes on depends on whether the node is reported as asynchronous. -/
theorem visitNext_congr {first second : AddedLines} {node : AST}
    (same : isAddedAsync first node = isAddedAsync second node) :
    visitNext first node = visitNext second node := by
  unfold visitNext
  rw [same]

omit within in
/-- With no added lines the visitor enters every function. -/
theorem visitNext_subset (added : AddedLines) (node : AST) :
    visitNext added node ⊆ visitNext (some []) node := by
  intro child inside
  unfold visitNext at inside ⊢
  split at inside
  · rw [isAddedAsync_nothing]
    obtain header | inBody := List.mem_append.mp inside
    · exact List.mem_append_left _ header
    · split at inBody
      · exact absurd inBody List.not_mem_nil
      · exact List.mem_append_right _ inBody
  · exact inside

omit within in
/-- What is reported before the children, in them and behind them. -/
theorem visit_eq (added : AddedLines) (node : AST) :
    visit filePath added node = visitBefore filePath added node ++
      (visitNext added node).flatMap (visit filePath added) ++ visitAfter filePath added node :=
  traverse_eq _ _ (descends_visitNext added) node

/-- A tree in which the visitor finds nothing with more added lines is one in which it finds
nothing with fewer.

Proof: by induction on the nodes. Nothing is reported behind the node, so no asynchronous function
was skipped with more lines, and the visitor goes on with the same nodes. -/
theorem visit_eq_nil (node : AST) (clean : visit filePath wide node = []) :
    visit filePath narrow node = [] := by
  induction node using descends_induction (descends_visitNext (some [])) with
  | step node inductionHypothesis =>
    rw [visit_eq] at clean ⊢
    simp only [List.append_eq_nil_iff, List.flatMap_eq_nil_iff] at clean ⊢
    obtain ⟨⟨before, inner⟩, after⟩ := clean
    have notReported : isAddedAsync wide node = false := by
      rw [Bool.eq_false_iff]
      intro reported
      simp [visitAfter, reported] at after
    have notNarrow : isAddedAsync narrow node = false := by
      rw [Bool.eq_false_iff]
      intro reported
      simp [isAddedAsync_mono within reported] at notReported
    have sameNext : visitNext narrow node = visitNext wide node :=
      visitNext_congr (notNarrow.trans notReported.symm)
    refine ⟨⟨?_, ?_⟩, ?_⟩
    · exact List.eq_nil_of_subset_nil (before ▸ visitBefore_subset within filePath node)
    · intro child inside
      apply inductionHypothesis child (visitNext_subset narrow node inside)
      exact inner child (sameNext ▸ inside)
    · simp [visitAfter, notNarrow]

end

section

variable {filePath : Path} {tree : List AST} {resolve : AST → List (List String)}
  {hits wider : AST → AST → Bool}

/-- With more added lines more relative imports are reported. -/
theorem relativeImports_subset {narrow wide : AddedLines} (within : narrow.Within wide) :
    relativeImports filePath tree narrow ⊆ relativeImports filePath tree wide := by
  apply List.map_subset
  intro node found
  rw [List.mem_filter] at found ⊢
  refine ⟨found.1, ?_⟩
  obtain ⟨-, hit⟩ := found
  split at hit
  · obtain ⟨relative, onLine⟩ := Bool.and_eq_true_iff.mp hit
    rw [relative, intersects_mono within _ onLine]
    rfl
  · exact absurd hit Bool.false_ne_true

variable (implied : ∀ node dependency, hits node dependency = true → wider node dependency = true)

include implied

/-- With more added lines more special infrastructure is reported. -/
theorem specialInfra_subset :
    specialInfra filePath tree resolve hits ⊆ specialInfra filePath tree resolve wider := by
  unfold specialInfra
  split
  · intro violation found
    unfold specialInfraViolations at found ⊢
    simp only [List.mem_flatMap] at found ⊢
    obtain ⟨expression, isExpression, node, isNode, marker, isMarker, found⟩ := found
    refine ⟨expression, isExpression, node, isNode, marker, isMarker, ?_⟩
    split at found
    · rename_i hit
      obtain ⟨onLine, uncovered⟩ := Bool.and_eq_true_iff.mp hit
      rw [if_pos (by rw [implied _ _ onLine, uncovered]; rfl)]
      exact found
    · exact absurd found List.not_mem_nil
  · exact List.Subset.refl _

/-- With more added lines more dynamic relative imports are reported. -/
theorem relativeDynamicImports_subset :
    relativeDynamicImports filePath tree resolve hits ⊆
      relativeDynamicImports filePath tree resolve wider := by
  apply List.map_subset
  intro node found
  rw [List.mem_filter] at found ⊢
  refine ⟨found.1, ?_⟩
  obtain ⟨-, hit⟩ := found
  split at hit
  · obtain ⟨relative, onLine⟩ := Bool.and_eq_true_iff.mp hit
    rw [relative, implied _ _ onLine]
    rfl
  · exact absurd hit Bool.false_ne_true

/-- With more added lines more sleeps are reported. -/
theorem sleepCalls_subset :
    sleepCalls filePath tree resolve hits ⊆ sleepCalls filePath tree resolve wider := by
  apply List.map_subset
  intro node found
  rw [List.mem_filter] at found ⊢
  refine ⟨found.1, ?_⟩
  obtain ⟨-, hit⟩ := found
  split at hit
  · obtain ⟨sleeps, onLine⟩ := Bool.and_eq_true_iff.mp hit
    rw [sleeps, implied _ _ onLine]
    rfl
  · exact absurd hit Bool.false_ne_true

/-- A file that passes with more added lines passes with fewer. -/
theorem checkTestBasics_eq_nil {narrow wide : AddedLines} (within : narrow.Within wide)
    (clean : checkTestBasics filePath tree resolve wider wide = []) :
    checkTestBasics filePath tree resolve hits narrow = [] := by
  unfold checkTestBasics at clean ⊢
  rw [mergeSort_eq_nil_iff] at clean ⊢
  simp only [List.append_eq_nil_iff] at clean ⊢
  obtain ⟨⟨⟨⟨imports, infra⟩, dynamicImports⟩, sleeps⟩, visited⟩ := clean
  refine ⟨⟨⟨⟨?_, ?_⟩, ?_⟩, ?_⟩, ?_⟩
  · exact List.eq_nil_of_subset_nil (imports ▸ relativeImports_subset within)
  · exact List.eq_nil_of_subset_nil (infra ▸ specialInfra_subset implied)
  · exact List.eq_nil_of_subset_nil (dynamicImports ▸ relativeDynamicImports_subset implied)
  · exact List.eq_nil_of_subset_nil (sleeps ▸ sleepCalls_subset implied)
  · unfold visitorViolations at visited ⊢
    split
    · rename_i inRoot
      rw [if_pos inRoot, List.flatMap_eq_nil_iff] at visited
      rw [List.flatMap_eq_nil_iff]
      intro node inside
      exact visit_eq_nil within filePath node (visited node inside)
    · rfl

end

end VirtTestTools.Policy
