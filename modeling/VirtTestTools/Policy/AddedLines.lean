import Mathlib.Algebra.GroupWithZero.Nat
import Mathlib.Algebra.Order.BigOperators.Group.List
import Mathlib.Algebra.Order.Group.Nat
import VirtTestTools.Traversal
import VirtTestTools.Policy.ClassBodies

/-!
# Added lines

The hooks check a file whole or only where lines were added. A rule asks whether a
node, or something that a name in it depends on, lies on an added line:
`_node_intersects_added_lines` looks at the span of a node, and
`_value_intersects_added_lines` follows the names of an expression to what they are
bound to. Bindings on the way are not followed twice.

With more added lines more nodes are hit; everything below is monotone.
-/

namespace VirtTestTools.Policy

open Traversal

/-- The lines that count as added; `none` stands for all lines. -/
abbrev AddedLines := Option (List Nat)

/-- Whether a line is added. -/
def AddedLines.has (added : AddedLines) (line : Nat) : Bool :=
  match added with
  | none => true
  | some lines => lines.contains line

/-- The lines of one filter are among those of another. -/
def AddedLines.Within (narrow wide : AddedLines) : Prop :=
  ∀ line, narrow.has line = true → wide.has line = true

/-- The classes of nodes with line numbers. -/
def hasPosition : AST → Bool
  | .arguments .. | .comprehension .. | .matchCase .. | .other _ .withitem _ => false
  | _ => true

/-- `_node_intersects_added_lines`, and `_intersects` of the other hooks. -/
def intersects (added : AddedLines) (node : AST) : Bool :=
  match added with
  | none => true
  | some lines => hasPosition node &&
      lines.any fun line => decide (node.info.lineno ≤ line ∧ line ≤ node.info.endLineno)

/-- Not all lines are in a list. -/
theorem AddedLines.Within.exists_lines {narrow : AddedLines} {wide : List Nat}
    (within : narrow.Within (some wide)) : ∃ lines, narrow = some lines ∧ lines ⊆ wide := by
  cases narrow with
  | none =>
    have all : ∀ line, line ∈ wide := fun line => by simpa [has] using within line rfl
    have bounded := List.single_le_sum (fun _ _ => Nat.zero_le _) _ (all (wide.sum + 1))
    omega
  | some lines =>
    refine ⟨lines, rfl, ?_⟩
    intro line inside
    simpa [has] using within line (by simpa [has] using inside)

/-- What lies on an added line still does when more lines are added. -/
theorem intersects_mono {narrow wide : AddedLines} (within : narrow.Within wide) (node : AST)
    (hit : intersects narrow node = true) : intersects wide node = true := by
  cases wide with
  | none => rfl
  | some wide =>
    obtain ⟨lines, rfl, subset⟩ := within.exists_lines
    simp only [intersects, Bool.and_eq_true, List.any_eq_true] at hit ⊢
    obtain ⟨positioned, line, inside, between⟩ := hit
    exact ⟨positioned, line, subset inside, between⟩

namespace ScopeBuilder

variable (scopes : ScopeBuilder)

/-- The bindings of a name that are not being resolved. -/
def freshBindings (resolving : List Nat) : AST → List Binding
  | node@(.name _ id _) =>
    (scopes.bindingsForName id node).filter fun binding => binding.node.id ∉ resolving
  | _ => []

/-- The values that a name may have, each with its binding among those that are being resolved. -/
def boundValues (resolving : List Nat) (node : AST) : List (List Nat × AST) :=
  (scopes.freshBindings resolving node).filterMap fun binding =>
    binding.value.map fun value => (binding.node.id :: resolving, value)

/-- The expressions with which `_value_intersects_added_lines` goes on. -/
def valueNext (state : List Nat × AST) : List (List Nat × AST) :=
  scopes.boundValues state.1 state.2 ++ state.2.children.map fun child => (state.1, child)

/-- The nodes of an expression and those of the values that can still be followed. -/
def pendingSize (state : List Nat × AST) : Nat :=
  state.2.size + ((scopes.allBindings.filter fun binding => binding.node.id ∉ state.1).map
    fun binding => (binding.value.map AST.size).getD 0).sum

/-- Whether a name of an expression is bound on an added line. -/
def boundOn (lines : List Nat) (state : List Nat × AST) : Bool :=
  (scopes.freshBindings state.1 state.2).any fun binding => intersects (some lines) binding.node

/-- `_value_intersects_added_lines`. -/
def valueIntersects (added : AddedLines) (node : AST) : Bool :=
  match added with
  | none => true
  | some lines => search scopes.pendingSize scopes.valueNext (scopes.boundOn lines) ([], node)

/-- `_node_or_dependency_intersects_added_lines`. -/
def nodeOrDependencyIntersects (added : AddedLines) (node dependency : AST) : Bool :=
  intersects added node || scopes.valueIntersects added dependency

variable {scopes}

/-- A binding with a value is a known one. -/
theorem known_of_value {name : String} {reference value : AST} {binding : Binding}
    (member : binding ∈ scopes.bindingsForName name reference)
    (hasValue : binding.value = some value) : binding ∈ scopes.allBindings := by
  obtain known | unknown := scopes.mem_bindingsForName name reference binding member
  · exact known
  · rw [unknown] at hasValue
    exact absurd hasValue (by simp [unknownBinding])

/-- A fresh binding with a value is a binding of the builder that is not resolved yet. -/
theorem mem_allBindings_of_value {resolving : List Nat} {node value : AST} {binding : Binding}
    (fresh : binding ∈ scopes.freshBindings resolving node) (hasValue : binding.value = some value) :
    binding ∈ scopes.allBindings ∧ binding.node.id ∉ resolving := by
  cases node with
  | name info id ctx =>
    obtain ⟨member, new⟩ := List.mem_filter.mp fresh
    exact ⟨known_of_value member hasValue, of_decide_eq_true new⟩
  | _ => exact absurd fresh List.not_mem_nil

/-- What a filter drops is missing from the sum. -/
theorem sum_filter_add_le {α : Type} (weight : α → Nat) (keep : α → Bool) {members : List α}
    {member : α} (inside : member ∈ members) (dropped : keep member = false) :
    ((members.filter keep).map weight).sum + weight member ≤ (members.map weight).sum := by
  induction inside with
  | head rest =>
    have kept : (rest.filter keep).Sublist rest := List.filter_sublist
    have fewer := (kept.map weight).sum_le_sum fun _ _ => Nat.zero_le _
    rw [List.filter_cons_of_neg (by simp [dropped]), List.map_cons, List.sum_cons]
    omega
  | tail first _ inductionHypothesis =>
    rw [List.map_cons, List.sum_cons, List.filter_cons]
    split
    · rw [List.map_cons, List.sum_cons]
      omega
    · omega

/-- Following a value takes it away from those that can still be followed. -/
theorem pendingSize_lt_of_value {resolving : List Nat} {binding : Binding} {value : AST}
    (known : binding ∈ scopes.allBindings) (new : binding.node.id ∉ resolving)
    (hasValue : binding.value = some value) (outer : AST) :
    scopes.pendingSize (binding.node.id :: resolving, value) <
      scopes.pendingSize (resolving, outer) := by
  obtain ⟨below, sizeEq⟩ := AST.exists_size outer
  have removed := sum_filter_add_le (fun other => (other.value.map AST.size).getD 0)
    (fun other => decide (other.node.id ≠ binding.node.id))
    (List.mem_filter (p := fun other : Binding => decide (other.node.id ∉ resolving)) |>.mpr
      ⟨known, decide_eq_true new⟩) (by simp)
  rw [hasValue, Option.map_some, Option.getD_some] at removed
  unfold pendingSize
  dsimp only
  rw [filter_resolving_cons, sizeEq]
  omega

/-- A bound value has fewer bindings left. -/
theorem pendingSize_lt_of_mem_boundValues {resolving : List Nat} {node : AST}
    {inner : List Nat × AST} (inside : inner ∈ scopes.boundValues resolving node) (outer : AST) :
    scopes.pendingSize inner < scopes.pendingSize (resolving, outer) := by
  obtain ⟨binding, fresh, followed⟩ := List.mem_filterMap.mp inside
  obtain ⟨value, hasValue, rfl⟩ := Option.map_eq_some_iff.mp followed
  obtain ⟨known, new⟩ := mem_allBindings_of_value fresh hasValue
  exact pendingSize_lt_of_value known new hasValue outer

/-- The search through values goes on with something smaller. -/
theorem descends_valueNext : Descends scopes.pendingSize scopes.valueNext := by
  intro state inner inside
  obtain bound | child := List.mem_append.mp inside
  · exact pendingSize_lt_of_mem_boundValues bound state.2
  · obtain ⟨child, childInside, rfl⟩ := List.mem_map.mp child
    have smaller := AST.size_lt_of_mem_children childInside
    unfold pendingSize
    dsimp only
    omega

/-- The recursion of `_value_intersects_added_lines`, as the source writes it. -/
theorem search_boundOn_eq (lines : List Nat) (resolving : List Nat) (node : AST) :
    search scopes.pendingSize scopes.valueNext (scopes.boundOn lines) (resolving, node) =
      ((scopes.boundOn lines (resolving, node) ||
        (scopes.boundValues resolving node).any
          (search scopes.pendingSize scopes.valueNext (scopes.boundOn lines))) ||
        node.children.any fun child =>
          search scopes.pendingSize scopes.valueNext (scopes.boundOn lines) (resolving, child)) := by
  rw [search_eq descends_valueNext]
  simp [valueNext, List.any_append, List.any_map, Function.comp_def, Bool.or_assoc]

/-- With more added lines more values intersect them. -/
theorem valueIntersects_mono {narrow wide : AddedLines} (within : narrow.Within wide) (node : AST)
    (hit : scopes.valueIntersects narrow node = true) :
    scopes.valueIntersects wide node = true := by
  cases wide with
  | none => rfl
  | some wide =>
    obtain ⟨lines, rfl, subset⟩ := within.exists_lines
    apply search_mono _ _ hit
    intro state bound
    obtain ⟨binding, inside, onLine⟩ := List.any_eq_true.mp bound
    exact List.any_eq_true.mpr ⟨binding, inside, intersects_mono within binding.node onLine⟩

/-- With more added lines more nodes or their dependencies intersect them. -/
theorem nodeOrDependencyIntersects_mono {narrow wide : AddedLines} (within : narrow.Within wide)
    (node dependency : AST) (hit : scopes.nodeOrDependencyIntersects narrow node dependency = true) :
    scopes.nodeOrDependencyIntersects wide node dependency = true := by
  unfold nodeOrDependencyIntersects at hit ⊢
  rw [Bool.or_eq_true] at hit ⊢
  exact hit.imp (intersects_mono within node) (valueIntersects_mono within dependency)

end ScopeBuilder

end VirtTestTools.Policy
