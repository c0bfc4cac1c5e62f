import VirtTestTools.Traversal
import VirtTestTools.Policy.Scopes

/-!
# The statements of a scope

`_scope_statements` of `check_test_std.py` and of `check_resource_clients.py`: the
statements of a body with those inside its control flow, handlers and cases
included. Definitions are scopes of their own and are not entered.
-/

namespace VirtTestTools.AST

open Traversal Policy

/-- The nodes with which the collection goes on below a node. -/
def scopeChildren : AST → List AST
  | .classDef .. | .functionDef .. => []
  | node => node.children

/-- The statements below a statement that belong to the same scope. -/
def nestedStatements (statement : AST) : List AST :=
  ((scopeChildren statement).flatMap (reach size scopeChildren)).filter isStatement

/-- `_scope_statements`. -/
def scopeStatements (statements : List AST) : List AST :=
  statements.flatMap fun statement => statement :: nestedStatements statement

/-- The children in a scope are smaller. -/
theorem descends_scopeChildren : Descends size scopeChildren := by
  intro node child inside
  unfold scopeChildren at inside
  split at inside
  · exact absurd inside List.not_mem_nil
  · exact absurd inside List.not_mem_nil
  · exact size_lt_of_mem_children inside

/-- The statements of the scope of a class are smaller than the class. -/
theorem size_lt_of_mem_scopeStatements (info : Info) (name : String)
    (bases keywords body decoratorList : List AST) {statement : AST}
    (inside : statement ∈ scopeStatements body) :
    statement.size < (AST.classDef info name bases keywords body decoratorList).size := by
  obtain ⟨outer, outerInside, here⟩ := List.mem_flatMap.mp inside
  have outerSmaller : outer.size <
      (AST.classDef info name bases keywords body decoratorList).size := by
    apply size_lt_of_mem_children
    simp [children, outerInside]
  obtain rfl | below := List.mem_cons.mp here
  · exact outerSmaller
  · obtain ⟨child, childInside, met⟩ := List.mem_flatMap.mp (List.mem_of_mem_filter below)
    have childSmaller := descends_scopeChildren outer child childInside
    have metSmaller := size_le_of_mem_reach descends_scopeChildren met
    omega

end VirtTestTools.AST
