import VirtTestTools.Placeholders.MarkerRoots
import VirtTestTools.Placeholders.Stats
import VirtTestTools.Policy.ResourceClients
import VirtTestTools.Policy.ScopeStatements

/-!
# The test definitions of the documentation check

`_definitions` of `check_test_std.py` collects the tests of a module with their
documentation, whether their body is only a docstring, whether they are disabled, and
whether they carry the marker for manual tests. It looks through the control flow of a
scope, follows nested classes, and lets the last boolean assignment to a flag decide.
-/

namespace VirtTestTools.Placeholders

open Policy hiding scopeStatements
open Traversal
open AST (decorators scopeStatements nestedStatements size_lt_of_mem_scopeStatements)

/-- The targets of an assignment of a boolean constant, and the constant. -/
def assignedBoolean : AST → Option (List AST × Bool)
  | .assign _ targets (.constant _ (.bool value)) => some (targets, value)
  | .annAssign _ target _ (some (.constant _ (.bool value))) => some ([target], value)
  | _ => none

/-- One statement of the loop of `_boolean_assignment`: every target that is the flag sets the
value. -/
def assignFlag (targetName : Option String) (value : Option Bool) (statement : AST) :
    Option Bool :=
  match assignedBoolean statement with
  | none => value
  | some (targets, assigned) =>
    targets.foldl (fun value target => if isFlag targetName target then some assigned else value)
      value

/-- `_boolean_assignment`. -/
def booleanAssignment (statements : List AST) (targetName : Option String := none) : Option Bool :=
  statements.foldl (assignFlag targetName) none

/-- An expression statement with `...`. -/
def isEllipsis : AST → Bool
  | .exprStmt _ (.constant _ .ellipsis) => true
  | _ => false

/-- `_docstring_only`. -/
def docstringOnly (test : TestFunction) : Bool :=
  match test.body with
  | [] => false
  | first :: rest =>
    isDocstring first && rest.all fun statement => isPass statement || isEllipsis statement

/-- `get_docstring(node, clean=False) or ""`, for the body of the node. -/
def docstring : List AST → String
  | .exprStmt _ (.constant _ (.str value)) :: _ => value
  | _ => ""

/-- The names that a statement of a class body binds by itself. -/
def classBoundNames : AST → List String
  | .functionDef _ _ name .. | .classDef _ name .. => [name]
  | .assign _ targets _ => targets.flatMap MarkerRoots.namesBelow
  | .annAssign _ target .. | .augAssign _ target _ | .forStmt _ _ target .. =>
    MarkerRoots.namesBelow target
  | .tryStmt _ _ _ handlers _ _ => handlers.flatMap fun
      | .exceptHandler _ _ name _ => MarkerRoots.handlerName name
      | _ => []
  | .other _ .withStmt children => children.flatMap MarkerRoots.itemNames
  | _ => []

/-- `_class_body_bound_names`. -/
def classBodyBoundNames (statements : List AST) : List String :=
  statements.flatMap (traverse AST.size classBoundNames controlFlow (fun _ => []))

/-- The names of an attribute chain, the root first if it is a name. -/
def decoratorChain : AST → List String
  | .attribute _ value attr => decoratorChain value ++ [attr]
  | .name _ id _ => [id]
  | _ => []

/-- A decorator without its arguments. -/
def decoratorTarget : AST → AST
  | .call _ func _ _ => func
  | decorator => decorator

/-- `_has_manual_marker`. -/
def hasManualMarker (roots : MarkerRoots) (shadowedRoots : List String) (node : AST) : Bool :=
  (decorators node).any fun decorator =>
    match decoratorChain (decoratorTarget decorator) with
    | [] => false
    | root :: members =>
      !shadowedRoots.contains root && roots.resolve (root :: members) == some manualMarker

/-- `_TestDefinition`, with the parts of its qualified name. -/
structure TestDefinition where
  parents : List String
  test : TestFunction
  docs : List String
  placeholder : Bool
  disabled : Bool
  manual : Bool

/-- The parts of the qualified name. -/
def TestDefinition.path (definition : TestDefinition) : List String :=
  definition.parents ++ [definition.test.name]

/-- `qualified_name`. -/
def TestDefinition.qualifiedName (definition : TestDefinition) : String :=
  String.intercalate "." definition.path

/-- What the definitions of a scope have from around them: the roots of markers, those that the
classes shadow, the names of the classes, their documentation, and whether they are disabled. -/
structure Around where
  roots : MarkerRoots
  shadowedRoots : List String := []
  parents : List String := []
  docs : List String
  disabled : Bool

/-- The definitions of the statements of a scope: those `nested` collects from a class, and the
test functions. -/
def scopeDefinitions (nested : AST → List TestDefinition) (around : Around) (scope : List AST) :
    List TestDefinition :=
  scope.flatMap fun child =>
    match child with
    | .classDef .. => nested child
    | _ => (testFunction child).toList.map fun test =>
      { parents := around.parents
        test := test
        docs := docstring test.body :: around.docs
        placeholder := docstringOnly test
        disabled := around.disabled || booleanAssignment scope (some test.name) == some false
        manual := hasManualMarker around.roots around.shadowedRoots test.node }

/-- What the definitions of a class have from around them. The roots that a class body binds are
shadowed in it and in the classes below. -/
def Around.enter (around : Around) (name : String) (body : List AST) : Around :=
  let scope := scopeStatements body
  { roots := around.roots
    shadowedRoots := around.shadowedRoots ++ classBodyBoundNames scope
    parents := around.parents ++ [name]
    docs := docstring body :: around.docs
    disabled := around.disabled || booleanAssignment scope == some false }

/-- `collect_class`, with a bound on the depth of the nesting. -/
def collectClass : Nat → Around → AST → List TestDefinition
  | depth + 1, inherited, .classDef _ name _ _ body _ =>
    let around := inherited.enter name body
    scopeDefinitions (collectClass depth around) around (scopeStatements body)
  | _, _, _ => []

/-- Whether the whole module is disabled. -/
def moduleDisabled (tree : List AST) : Bool := booleanAssignment (scopeStatements tree) == some false

/-- What the definitions of a module have from around them. -/
def moduleAround (tree : List AST) : Around where
  roots := markerRoots tree
  docs := [docstring tree]
  disabled := moduleDisabled tree

/-- What `_definitions` collects from a class of the module. A class is nested at most as deep as
it has nodes. -/
def moduleClass (tree : List AST) (node : AST) : List TestDefinition :=
  collectClass node.size (moduleAround tree) node

/-- `_definitions`. -/
def definitions (tree : List AST) : List TestDefinition :=
  scopeDefinitions (moduleClass tree) (moduleAround tree) (scopeStatements tree)

/-! ## The bound on the nesting -/

/-- The definitions of a scope depend on those of its children. -/
theorem scopeDefinitions_congr {first second : AST → List TestDefinition} {scope : List AST}
    (same : ∀ child ∈ scope, first child = second child) (around : Around) :
    scopeDefinitions first around scope = scopeDefinitions second around scope := by
  unfold scopeDefinitions
  apply List.flatMap_congr
  intro child inside
  split
  · exact same _ inside
  · rfl

/-- The number of nodes of a class is enough: a larger bound collects the same. -/
theorem collectClass_eq (depth : Nat) (around : Around) (node : AST) (enough : node.size ≤ depth) :
    collectClass depth around node = collectClass node.size around node := by
  induction depth using Nat.strongRecOn generalizing around node with
  | ind depth inductionHypothesis =>
    obtain ⟨own, sizeEq⟩ := AST.exists_size node
    obtain ⟨fuel, rfl⟩ : ∃ fuel, depth = fuel + 1 := ⟨depth - 1, by omega⟩
    rw [sizeEq]
    cases node with
    | classDef info name bases keywords body decoratorList =>
      apply scopeDefinitions_congr
      intro child inside
      have smaller :=
        size_lt_of_mem_scopeStatements info name bases keywords body decoratorList inside
      rw [inductionHypothesis fuel (by omega) _ child (by omega),
        inductionHypothesis own (by omega) _ child (by omega)]
    | _ => rfl

/-! ## The definitions of one scope -/

/-- The paths of the disabled definitions with a given number of enclosing classes, apart by their
bodies. -/
def disabledAt (level : Nat) (isPlaceholder : Bool) (definitions : List TestDefinition) :
    List (List String) :=
  (definitions.filter fun definition =>
    definition.parents.length == level && definition.disabled &&
      definition.placeholder == isPlaceholder).map TestDefinition.path

/-- A test of a scope is disabled from outside or by the last assignment to its attribute. -/
def switchedOff (inherited : Bool) (scope : List AST) (name : String) : Bool :=
  inherited || booleanAssignment scope (some name) == some false

/-- The names of the tests that are switched off, apart by their bodies. -/
def switched (isOff : String → Bool) (isPlaceholder : Bool) (tests : List TestFunction) :
    List String :=
  listing isOff docstringOnly isPlaceholder tests

/-- The disabled tests of two lists. -/
theorem disabledAt_append (level : Nat) (isPlaceholder : Bool) (first second : List TestDefinition) :
    disabledAt level isPlaceholder (first ++ second) =
      disabledAt level isPlaceholder first ++ disabledAt level isPlaceholder second := by
  unfold disabledAt
  rw [List.filter_append, List.map_append]

/-- The disabled tests of a scope are those of its children. -/
theorem disabledAt_flatMap (level : Nat) (isPlaceholder : Bool) (collect : AST → List TestDefinition)
    (scope : List AST) :
    disabledAt level isPlaceholder (scope.flatMap collect) =
      scope.flatMap fun child => disabledAt level isPlaceholder (collect child) := by
  induction scope with
  | nil => rfl
  | cons child rest inductionHypothesis =>
    rw [List.flatMap_cons, disabledAt_append, inductionHypothesis, List.flatMap_cons]

/-- Definitions that lie deeper do not show. -/
theorem disabledAt_of_deeper {level : Nat} {definitions : List TestDefinition}
    (deeper : ∀ definition ∈ definitions, level < definition.parents.length) (isPlaceholder : Bool) :
    disabledAt level isPlaceholder definitions = [] := by
  unfold disabledAt
  rw [List.map_eq_nil_iff, List.filter_eq_nil_iff]
  intro definition inside
  have below := deeper definition inside
  simp [Nat.ne_of_gt below]

/-- What a class collects lies deeper than the class. -/
theorem length_parents_lt (depth : Nat) (around : Around) (node : AST) :
    ∀ definition ∈ collectClass depth around node,
      around.parents.length < definition.parents.length := by
  induction depth generalizing around node with
  | zero => simp [collectClass]
  | succ depth inductionHypothesis =>
    cases node with
    | classDef info name bases keywords body decoratorList =>
      intro definition inside
      obtain ⟨child, childInside, here⟩ := List.mem_flatMap.mp inside
      split at here
      · have deeper := inductionHypothesis _ _ definition here
        simp only [Around.enter, List.length_append, List.length_cons, List.length_nil] at deeper
        omega
      · obtain ⟨test, testInside, rfl⟩ := List.mem_map.mp here
        simp [Around.enter]
    | _ => simp [collectClass]

/-- Of the definitions of a scope those at its own level are its test functions. -/
theorem disabledAt_scopeDefinitions (nested : AST → List TestDefinition) (around : Around)
    (isPlaceholder : Bool) (scope : List AST)
    (deeper : ∀ node, ∀ definition ∈ nested node, around.parents.length < definition.parents.length) :
    disabledAt around.parents.length isPlaceholder (scopeDefinitions nested around scope) =
      (switched (switchedOff around.disabled scope) isPlaceholder (testFunctions scope)).map
        (around.parents ++ [·]) := by
  unfold scopeDefinitions switched listing
  -- the flags are read in the whole scope while the induction goes over its statements
  generalize off : switchedOff around.disabled scope = isOff
  have flags : ∀ name, (around.disabled || booleanAssignment scope (some name) == some false) =
      isOff name := by
    intro name
    rw [← off]
    rfl
  simp only [flags]
  clear flags off
  induction scope with
  | nil => rfl
  | cons child rest inductionHypothesis =>
    rw [List.flatMap_cons, disabledAt_append, inductionHypothesis, testFunctions_cons,
      List.filter_append, List.map_append, List.map_append]
    congr 1
    split
    · -- a class has no definition at this level
      exact disabledAt_of_deeper (deeper _) isPlaceholder
    · cases testFunction child with
      | none => rfl
      | some test =>
        cases off : isOff test.name && docstringOnly test == isPlaceholder <;>
          simp [disabledAt, TestDefinition.path, off]

/-- The name of a class. -/
def className : AST → String
  | .classDef _ name _ _ _ _ => name
  | _ => ""

/-- The disabled methods of a class of the module among its definitions. -/
theorem disabledAt_moduleClass (tree : List AST) (isPlaceholder : Bool) (statement : AST) :
    disabledAt 1 isPlaceholder (moduleClass tree statement) =
      (switched (switchedOff (moduleDisabled tree || booleanAssignment
          (scopeStatements (classBody statement)) == some false)
        (scopeStatements (classBody statement))) isPlaceholder
        (testFunctions (scopeStatements (classBody statement)))).map ([className statement, ·]) := by
  unfold moduleClass
  obtain ⟨depth, sizeEq⟩ := AST.exists_size statement
  rw [sizeEq]
  cases statement with
  | classDef info name bases keywords body decoratorList =>
    apply disabledAt_scopeDefinitions _ ((moduleAround tree).enter name body)
    exact length_parents_lt depth _
  | _ => rfl

/-- The disabled functions of the module among the definitions. -/
theorem disabledAt_definitions (tree : List AST) (isPlaceholder : Bool) :
    disabledAt 0 isPlaceholder (definitions tree) =
      (switched (switchedOff (moduleDisabled tree) (scopeStatements tree)) isPlaceholder
        (testFunctions (scopeStatements tree))).map ([·]) := by
  apply disabledAt_scopeDefinitions _ (moduleAround tree)
  exact fun node => length_parents_lt node.size (moduleAround tree) node

/-- The disabled methods among the definitions, class by class. -/
theorem disabledAt_classes (tree : List AST) (isPlaceholder : Bool) :
    disabledAt 1 isPlaceholder (definitions tree) =
      (scopeStatements tree).flatMap fun statement =>
        disabledAt 1 isPlaceholder (moduleClass tree statement) := by
  unfold definitions scopeDefinitions
  rw [disabledAt_flatMap]
  apply List.flatMap_congr
  intro statement _
  cases statement with
  | functionDef info isAsync name args body decoratorList returns =>
    -- a function has no enclosing class
    have nothing : disabledAt 1 isPlaceholder (moduleClass tree
        (.functionDef info isAsync name args body decoratorList returns)) = [] := rfl
    rw [nothing, disabledAt, List.map_eq_nil_iff, List.filter_eq_nil_iff]
    intro definition inside
    obtain ⟨test, -, rfl⟩ := List.mem_map.mp inside
    simp [moduleAround]
  | _ => rfl

end VirtTestTools.Placeholders
