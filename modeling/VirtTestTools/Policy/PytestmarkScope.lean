import VirtTestTools.Positions
import VirtTestTools.Policy.TestBasics

/-!
# Assignments to `pytestmark` in the module scope

`_marker_application_expressions` and `_has_dynamic_pytestmark_mutation` go through the
statements of the module by hand, each naming the compound statements and their blocks.
Both leave out the `else` block of a `for` loop. An assignment to `pytestmark` is seen by
both exactly when it does not stand behind such a block.
-/

namespace VirtTestTools.Policy

open Traversal
open AST (decorators)

/-- The body of a handler. -/
def handlerBody : AST → List AST
  | .exceptHandler _ _ _ body => body
  | _ => []

/-- The body of a case. -/
def caseBody : AST → List AST
  | .matchCase _ _ _ body => body
  | _ => []

/-- The blocks of a compound statement of the module scope, with their `else`, handler
and `finally` blocks. -/
def moduleBlocks : AST → List AST
  | .ifStmt _ _ body orelse | .whileStmt _ _ body orelse | .forStmt _ _ _ _ body orelse =>
    body ++ orelse
  | .tryStmt _ _ body handlers orelse finalbody =>
    body ++ orelse ++ finalbody ++ handlers.flatMap handlerBody
  | .matchStmt _ _ cases => cases.flatMap caseBody
  | .other _ .withStmt children => children.filter isStatement
  | _ => []

/-- The `else` block of a `for` loop. -/
def loopElse : AST → List AST
  | .forStmt _ _ _ _ _ orelse => orelse
  | _ => []

/-- The statements of the module scope, at any depth. -/
def moduleStatements (tree : List AST) : List AST := tree.flatMap (reach AST.size moduleBlocks)

/-- The statement assigns the value to `pytestmark`: plainly, with an annotation, augmented,
or to a target that destructures. -/
def AssignsPytestmark (statement value : AST) : Prop :=
  bindsPytestmark (assignmentTargets statement) = true ∧ assignmentValue statement = some value

/-- Both walkers see every assignment to `pytestmark` of the module scope, and one that is
no statement of the module itself leaves only decorators as coverage. -/
def AssignmentsSeen (tree : List AST) : Prop :=
  ∀ statement ∈ moduleStatements tree, ∀ value, AssignsPytestmark statement value →
    value ∈ markerApplicationExpressions tree ∧
      (statement ∉ tree →
        hasDynamicPytestmarkMutation tree (tree.foldl addModuleMark {}).topLevel = true ∧
          ∀ resolve node, scopeMarkerChains resolve tree node =
            ((ancestors tree node).flatMap decorators).flatMap (expressionMarkerChains resolve))

/-! ## The traversal of the module scope -/

/-- The walkers leave out the `else` blocks of `for` loops, and nothing else. -/
theorem moduleBlocks_eq (statement : AST) :
    moduleBlocks statement = controlFlow statement ++ loopElse statement := by
  cases statement with
  | other info cls children => cases cls <;> simp [moduleBlocks, controlFlow, loopElse]
  | tryStmt info isStar body handlers orelse finalbody =>
    simp only [moduleBlocks, controlFlow, loopElse, List.append_nil]
    congr 2
  | matchStmt info subject cases =>
    simp only [moduleBlocks, controlFlow, loopElse, List.append_nil]
    congr 1
  | _ => simp [moduleBlocks, controlFlow, loopElse]

/-- The blocks of a statement are smaller. -/
theorem descends_moduleBlocks : Descends AST.size moduleBlocks := by
  intro statement inner inside
  rw [moduleBlocks_eq, List.mem_append] at inside
  obtain met | behind := inside
  · exact descends_controlFlow statement inner met
  · apply AST.size_lt_of_mem_children
    cases statement with
    | forStmt => exact List.mem_append_right _ behind
    | _ => cases behind

/-- Blocks of parts stand in different positions below the node. -/
theorem flatMap_parts_subperm (parts : List AST) (block : AST → List AST)
    (within : ∀ part, (block part).Sublist part.children) :
    ((parts.flatMap block).flatMap AST.preorder).Subperm (parts.flatMap AST.preorder) := by
  rw [List.flatMap_assoc]
  apply AST.subperm_flatMap
  intro part _
  rw [AST.preorder_eq part]
  exact ((within part).flatMap _).subperm.cons_right _

/-- The blocks of a statement are among its children. -/
theorem moduleBlocks_subperm (statement : AST) :
    ((moduleBlocks statement).flatMap AST.preorder).Subperm
      (statement.children.flatMap AST.preorder) := by
  have direct : ∀ block : List AST, block.Sublist statement.children →
      (block.flatMap AST.preorder).Subperm (statement.children.flatMap AST.preorder) :=
    fun block within => (within.flatMap _).subperm
  cases statement with
  | ifStmt => exact direct _ (List.sublist_cons_self ..)
  | whileStmt => exact direct _ (List.sublist_cons_self ..)
  | forStmt => exact direct _ ((List.sublist_cons_self ..).trans (List.sublist_cons_self ..))
  | tryStmt info isStar body handlers orelse finalbody =>
    -- the handlers stand in front of the `else` block, their bodies come last
    simp only [moduleBlocks, AST.children, List.flatMap_append]
    have inHandlers := flatMap_parts_subperm handlers handlerBody
      (fun part => by cases part <;> simp [handlerBody, AST.children])
    refine ((List.Subperm.refl _).append inHandlers).trans (List.Perm.subperm ?_)
    simp only [List.append_assoc]
    apply List.Perm.append_left
    rw [← List.append_assoc, ← List.append_assoc]
    exact List.perm_append_comm.trans (by rw [List.append_assoc])
  | matchStmt info subject cases =>
    have inCases := flatMap_parts_subperm cases caseBody
      (fun part => by cases part <;> simp [caseBody, AST.children])
    exact inCases.trans ((List.sublist_append_right ..).subperm)
  | other info cls children =>
    by_cases isWith : cls = .withStmt
    · subst isWith
      exact direct _ List.filter_sublist
    · have empty : moduleBlocks (.other info cls children) = [] := by
        cases cls <;> first | rfl | exact absurd rfl isWith
      rw [empty]
      exact List.nil_subperm
  | _ => exact List.nil_subperm

/-- No statement of the module scope is met twice. -/
theorem nodup_moduleStatements {tree : List AST} (distinct : AST.Distinct tree) :
    (moduleStatements tree).Nodup :=
  AST.nodup_flatMap_reach descends_moduleBlocks moduleBlocks_subperm distinct

/-- The statements of a module are parts of it. -/
theorem moduleStatements_subset (tree : List AST) :
    moduleStatements tree ⊆ AST.preorderAll tree := by
  rw [AST.preorderAll_eq]
  exact (AST.subperm_flatMap tree fun node _ =>
    AST.reach_subperm_preorder descends_moduleBlocks moduleBlocks_subperm node).subset

/-- The statements both walkers come to. -/
def walkedStatements (tree : List AST) : List AST := tree.flatMap (reach AST.size controlFlow)

/-- The visited statements are statements of the module. -/
theorem walkedStatements_subset (tree : List AST) :
    walkedStatements tree ⊆ moduleStatements tree := by
  intro statement inside
  obtain ⟨root, rootInside, met⟩ := List.mem_flatMap.mp inside
  exact List.mem_flatMap.mpr
    ⟨root, rootInside, reach_subset_of_next descends_moduleBlocks moduleBlocks_eq root met⟩

/-- A statement of the module scope is walked, or it stands behind the `else` block of a
`for` loop. -/
theorem walked_or_behind_loopElse {tree : List AST} {statement : AST}
    (inside : statement ∈ moduleStatements tree) :
    statement ∈ walkedStatements tree ∨
      ∃ loop ∈ moduleStatements tree,
        statement ∈ (loopElse loop).flatMap (reach AST.size moduleBlocks) := by
  obtain ⟨root, rootInside, met⟩ := List.mem_flatMap.mp inside
  obtain walked | ⟨loop, loopInside, behind⟩ :=
    mem_reach_inner_or_extra descends_moduleBlocks moduleBlocks_eq met
  · exact .inl (List.mem_flatMap.mpr ⟨root, rootInside, walked⟩)
  · exact .inr ⟨loop, List.mem_flatMap.mpr ⟨root, rootInside, loopInside⟩, behind⟩

/-- What stands behind the `else` block of a `for` loop is not walked. -/
theorem not_walked_of_behind_loopElse {tree : List AST} (distinct : AST.Distinct tree)
    {loop statement : AST} (loopInside : loop ∈ moduleStatements tree)
    (behind : statement ∈ (loopElse loop).flatMap (reach AST.size moduleBlocks)) :
    statement ∉ walkedStatements tree := by
  intro walked
  obtain ⟨root, rootInside, loopMet⟩ := List.mem_flatMap.mp loopInside
  obtain ⟨other, otherInside, met⟩ := List.mem_flatMap.mp walked
  have once := nodup_moduleStatements distinct
  have sameRoot : root = other := by
    apply eq_of_mem_parts once rootInside otherInside
    · exact mem_reach_of_behind descends_moduleBlocks moduleBlocks_eq loopMet behind
    · exact reach_subset_of_next descends_moduleBlocks moduleBlocks_eq other met
  subst sameRoot
  exact not_mem_reach_of_extra descends_moduleBlocks moduleBlocks_eq
    ((List.nodup_flatMap.mp once).1 root rootInside) loopMet behind met

/-! ## What the walkers collect -/

/-- Markers are applied by decorators and by assignments that are visited. -/
theorem mem_markerApplicationExpressions (tree : List AST) (expression : AST) :
    expression ∈ markerApplicationExpressions tree ↔
      (∃ node ∈ walked tree, expression ∈ decorators node) ∨
        ∃ statement ∈ walkedStatements tree, AssignsPytestmark statement expression := by
  unfold markerApplicationExpressions walkedStatements AssignsPytestmark
  simp only [List.mem_append, List.mem_flatMap, mem_traverse_iff descends_controlFlow]
  apply or_congr_right
  constructor
  · rintro ⟨root, rootInside, statement, met, here⟩
    split at here
    next binds => exact ⟨statement, ⟨root, rootInside, met⟩, binds, Option.mem_toList.mp here⟩
    next => cases here
  · rintro ⟨statement, ⟨root, rootInside, met⟩, binds, value⟩
    refine ⟨root, rootInside, statement, met, ?_⟩
    rw [if_pos binds]
    exact Option.mem_toList.mpr value

/-- The value of an assignment is one of its children. -/
theorem mem_children_of_assignmentValue {statement value : AST}
    (assigned : assignmentValue statement = some value) : value ∈ statement.children := by
  cases statement <;> simp_all [assignmentValue, AST.children]

/-- A decorator is a child of its node. -/
theorem mem_children_of_decorators {node decorator : AST} (inside : decorator ∈ decorators node) :
    decorator ∈ node.children := by
  cases node <;> simp_all [decorators, AST.children]

/-- In a tree with distinct identities the value of an assignment of the module scope is
collected exactly when the assignment is walked. -/
theorem value_collected_iff {tree : List AST} (distinct : AST.Distinct tree)
    {statement value : AST} (inside : statement ∈ moduleStatements tree)
    (assigns : AssignsPytestmark statement value) :
    value ∈ markerApplicationExpressions tree ↔ statement ∈ walkedStatements tree := by
  rw [mem_markerApplicationExpressions]
  constructor
  · have below := mem_children_of_assignmentValue assigns.2
    rintro (⟨node, nodeInside, decorates⟩ | ⟨other, otherInside, otherAssigns⟩)
    · -- an assignment has no decorators
      have same := distinct.parent_unique (AST.mem_preorderAll_of_mem_walk nodeInside)
        (moduleStatements_subset tree inside) (mem_children_of_decorators decorates) below
      subst same
      obtain ⟨_, assigned⟩ := assigns
      cases node <;> simp_all [assignmentValue, decorators]
    · have same := distinct.parent_unique (moduleStatements_subset tree inside)
        (moduleStatements_subset tree (walkedStatements_subset tree otherInside)) below
        (mem_children_of_assignmentValue otherAssigns.2)
      exact same ▸ otherInside
  · exact fun walked => .inr ⟨statement, walked, assigns⟩

/-- The statements the coverage loop remembers are statements of the module itself. -/
theorem topLevel_subset (tree : List AST) (marks : ModuleMarks) :
    ∀ id ∈ (tree.foldl addModuleMark marks).topLevel, id ∈ marks.topLevel ∨ id ∈ tree.map AST.id := by
  induction tree generalizing marks with
  | nil => exact fun id inside => .inl inside
  | cons statement rest inductionHypothesis =>
    intro id inside
    rw [List.foldl_cons] at inside
    obtain before | later := inductionHypothesis _ id inside
    · have added : id ∈ marks.topLevel ∨ id = statement.id := by
        unfold addModuleMark at before
        split at before
        · split at before <;> simpa [or_comm] using before
        · exact .inl before
      exact added.imp_right fun same => by simp [same]
    · exact .inr (List.mem_cons_of_mem _ later)

/-- A walked assignment inside control flow counts as a dynamic mutation. -/
theorem hasDynamicPytestmarkMutation_of_walked {tree : List AST} (distinct : AST.Distinct tree)
    {statement : AST} (walked : statement ∈ walkedStatements tree)
    (binds : bindsPytestmark (assignmentTargets statement) = true) (nested : statement ∉ tree) :
    hasDynamicPytestmarkMutation tree (tree.foldl addModuleMark {}).topLevel = true := by
  have unremembered : statement.id ∉ (tree.foldl addModuleMark {}).topLevel := by
    intro remembered
    obtain impossible | sameId := topLevel_subset tree {} _ remembered
    · cases impossible
    · obtain ⟨top, topInside, same⟩ := List.mem_map.mp sameId
      have topMet : top ∈ moduleStatements tree :=
        List.mem_flatMap.mpr ⟨top, topInside, mem_reach_self descends_moduleBlocks top⟩
      have equal := distinct.eq_of_id (moduleStatements_subset tree topMet)
        (moduleStatements_subset tree (walkedStatements_subset tree walked)) same
      exact nested (equal ▸ topInside)
  obtain ⟨root, rootInside, met⟩ := List.mem_flatMap.mp walked
  refine List.any_eq_true.mpr ⟨root, rootInside, List.any_eq_true.mpr ⟨statement, met, ?_⟩⟩
  unfold statementMutates
  rw [if_pos binds, Bool.not_eq_true', List.contains_eq_mem, decide_eq_false_iff_not]
  exact unremembered

/-- After a dynamic mutation only decorators cover a node. -/
theorem scopeMarkerChains_of_dynamic (resolve : AST → List (List String)) {tree : List AST}
    (dynamic : hasDynamicPytestmarkMutation tree (tree.foldl addModuleMark {}).topLevel = true)
    (node : AST) :
    scopeMarkerChains resolve tree node =
      ((ancestors tree node).flatMap decorators).flatMap (expressionMarkerChains resolve) := by
  have dropped : moduleMarkExpressions tree = [] := by
    rw [moduleMarkExpressions]
    exact if_pos dynamic
  rw [scopeMarkerChains, dropped, List.nil_append]

/-- Every assignment to `pytestmark` of the module scope is seen exactly when none stands
behind the `else` block of a `for` loop. -/
theorem pytestmark_assignments_seen_iff (tree : List AST) (distinct : AST.Distinct tree) :
    AssignmentsSeen tree ↔
      ∀ loop ∈ moduleStatements tree,
        ∀ statement ∈ (loopElse loop).flatMap (reach AST.size moduleBlocks),
          ∀ value, ¬ AssignsPytestmark statement value := by
  constructor
  · intro seen loop loopInside statement behind value assigns
    have inside : statement ∈ moduleStatements tree := by
      obtain ⟨root, rootInside, loopMet⟩ := List.mem_flatMap.mp loopInside
      exact List.mem_flatMap.mpr ⟨root, rootInside,
        mem_reach_of_behind descends_moduleBlocks moduleBlocks_eq loopMet behind⟩
    have collected := (seen statement inside value assigns).1
    exact not_walked_of_behind_loopElse distinct loopInside behind
      ((value_collected_iff distinct inside assigns).mp collected)
  · intro clear statement inside value assigns
    have walked : statement ∈ walkedStatements tree := by
      obtain walked | ⟨loop, loopInside, behind⟩ := walked_or_behind_loopElse inside
      · exact walked
      · exact absurd assigns (clear loop loopInside statement behind value)
    refine ⟨(value_collected_iff distinct inside assigns).mpr walked, ?_⟩
    intro nested
    have dynamic := hasDynamicPytestmarkMutation_of_walked distinct walked assigns.1 nested
    exact ⟨dynamic, fun resolve node => scopeMarkerChains_of_dynamic resolve dynamic node⟩

/-- `pytestmark = sriov`. -/
def sriovAssignment : AST :=
  .assign ⟨1, 2, 2⟩ [.name ⟨2, 2, 2⟩ "pytestmark" .store] (.name ⟨3, 2, 2⟩ "sriov" .load)

/-- A loop over `hosts` with the given blocks. -/
def hostLoop (body orelse : List AST) : AST :=
  .forStmt ⟨4, 1, 4⟩ false (.name ⟨5, 1, 1⟩ "host" .store) (.name ⟨6, 1, 1⟩ "hosts" .load) body
    orelse

/-- An assignment in the body of a loop is seen. -/
theorem loop_body_assignment_seen :
    AST.Distinct [hostLoop [sriovAssignment] []] ∧ AssignmentsSeen [hostLoop [sriovAssignment] []] := by
  have distinct : AST.Distinct [hostLoop [sriovAssignment] []] := by decide
  refine ⟨distinct, (pytestmark_assignments_seen_iff _ distinct).mpr ?_⟩
  intro loop loopInside statement behind
  have statements : moduleStatements [hostLoop [sriovAssignment] []] =
      [hostLoop [sriovAssignment] [], sriovAssignment] := rfl
  rw [statements, List.mem_cons, List.mem_singleton] at loopInside
  obtain rfl | rfl := loopInside
  · cases behind
  · cases behind

/-- An assignment in the `else` block of a loop is not. -/
theorem loop_else_assignment_not_seen :
    AST.Distinct [hostLoop [.other ⟨7, 2, 2⟩ .pass []] [sriovAssignment]] ∧
      ¬ AssignmentsSeen [hostLoop [.other ⟨7, 2, 2⟩ .pass []] [sriovAssignment]] := by
  refine ⟨by decide, fun seen => ?_⟩
  have statements : moduleStatements [hostLoop [.other ⟨7, 2, 2⟩ .pass []] [sriovAssignment]] =
      [hostLoop [.other ⟨7, 2, 2⟩ .pass []] [sriovAssignment], .other ⟨7, 2, 2⟩ .pass [],
        sriovAssignment] := rfl
  have collected := (seen sriovAssignment (by simp [statements]) (.name ⟨3, 2, 2⟩ "sriov" .load)
    ⟨by decide, rfl⟩).1
  cases collected

end VirtTestTools.Policy
