import Mathlib.Data.List.Flatten
import Mathlib.Data.List.Nodup
import Mathlib.Data.List.Pairwise
import Mathlib.Data.List.Perm.Subperm
import Mathlib.Data.Set.Basic
import VirtTestTools.Traversal

/-!
# Positions in a syntax tree

Python tells nodes apart by identity. In a tree whose nodes have distinct identities
every node stands in one position: it has one parent, and a traversal that goes on with
some of the nodes below a node meets no node twice. A traversal that leaves out some of
the branches of another one meets nothing of what is behind these branches.
-/

namespace VirtTestTools.Traversal

/-- When the parts of the members of a list share nothing, a part belongs to one member. -/
theorem eq_of_mem_parts {α β : Type} {items : List α} {parts : α → List β}
    (distinct : (items.flatMap parts).Nodup) {first second : α} {part : β}
    (firstInside : first ∈ items) (secondInside : second ∈ items)
    (ofFirst : part ∈ parts first) (ofSecond : part ∈ parts second) : first = second := by
  by_contra different
  have symmetric : Std.Symm (Function.onFun List.Disjoint parts) :=
    ⟨fun _ _ apart _ inFirst inSecond => apart inSecond inFirst⟩
  have disjoint := (List.nodup_flatMap.mp distinct).2.forall firstInside secondInside different
  exact disjoint ofFirst ofSecond

section

variable {σ : Type} {size : σ → Nat} {next inner extra : σ → List σ}

/-- A state is reached from itself. -/
theorem mem_reach_self (descends : Descends size next) (state : σ) :
    state ∈ reach size next state := by
  rw [reach_eq descends]
  exact List.mem_cons_self ..

/-- What is met below a state is met from above. -/
theorem reach_subset_of_mem (descends : Descends size next) {state met : σ}
    (inside : met ∈ reach size next state) : reach size next met ⊆ reach size next state := by
  induction state using descends_induction descends with
  | step state inductionHypothesis =>
    intro deeper below
    rw [reach_eq descends, List.mem_cons, List.mem_flatMap] at inside
    obtain rfl | ⟨first, firstInside, here⟩ := inside
    · exact below
    · rw [reach_eq descends state, List.mem_cons, List.mem_flatMap]
      exact .inr ⟨first, firstInside, inductionHypothesis first firstInside here below⟩

/-- What is reached from a next state is reached. -/
theorem mem_reach_of_mem_next (descends : Descends size next) {state met first : σ}
    (inside : met ∈ reach size next state) (firstInside : first ∈ next met) :
    first ∈ reach size next state := by
  apply reach_subset_of_mem descends inside
  rw [reach_eq descends, List.mem_cons, List.mem_flatMap]
  exact .inr ⟨first, firstInside, mem_reach_self descends first⟩

/-- A traversal that says nothing after a state yields what it says at the states it meets. -/
theorem mem_traverse_iff {α : Type} (descends : Descends size next) {before : σ → List α}
    (item : α) (state : σ) :
    item ∈ traverse size before next (fun _ => []) state ↔
      ∃ met ∈ reach size next state, item ∈ before met := by
  induction state using descends_induction descends with
  | step state inductionHypothesis =>
    rw [traverse_eq _ _ descends, reach_eq descends, List.append_nil, List.mem_append,
      List.mem_flatMap]
    simp only [List.mem_cons, List.mem_flatMap, exists_eq_or_imp]
    apply or_congr_right
    constructor
    · rintro ⟨first, firstInside, deep⟩
      obtain ⟨met, below, said⟩ := (inductionHypothesis first firstInside).mp deep
      exact ⟨met, ⟨first, firstInside, below⟩, said⟩
    · rintro ⟨met, ⟨first, firstInside, below⟩, said⟩
      exact ⟨first, firstInside, (inductionHypothesis first firstInside).mpr ⟨met, below, said⟩⟩

/-- A traversal that leaves out branches meets less. -/
theorem reach_subset_of_next (descends : Descends size next)
    (split : ∀ state, next state = inner state ++ extra state) (state : σ) :
    reach size inner state ⊆ reach size next state := by
  have innerDescends : Descends size inner := by
    intro state first inside
    exact descends state first (split state ▸ List.mem_append_left _ inside)
  induction state using descends_induction descends with
  | step state inductionHypothesis =>
    intro met inside
    rw [reach_eq innerDescends, List.mem_cons, List.mem_flatMap] at inside
    rw [reach_eq descends, List.mem_cons, List.mem_flatMap]
    obtain rfl | ⟨first, firstInside, below⟩ := inside
    · exact .inl rfl
    · have within : first ∈ next state := split state ▸ List.mem_append_left _ firstInside
      exact .inr ⟨first, within, inductionHypothesis first within below⟩

/-- What is behind a branch of a state that is met is met. -/
theorem mem_reach_of_behind (descends : Descends size next)
    (split : ∀ state, next state = inner state ++ extra state) {state left met : σ}
    (leftInside : left ∈ reach size next state)
    (behind : met ∈ (extra left).flatMap (reach size next)) : met ∈ reach size next state := by
  obtain ⟨branch, branchInside, deep⟩ := List.mem_flatMap.mp behind
  have branchNext : branch ∈ next left := split left ▸ List.mem_append_right _ branchInside
  exact reach_subset_of_mem descends (mem_reach_of_mem_next descends leftInside branchNext) deep

/-- What is met is met by the traversal that leaves branches out, or it is behind one of
these. -/
theorem mem_reach_inner_or_extra (descends : Descends size next)
    (split : ∀ state, next state = inner state ++ extra state) {state met : σ}
    (inside : met ∈ reach size next state) :
    met ∈ reach size inner state ∨
      ∃ left ∈ reach size next state, met ∈ (extra left).flatMap (reach size next) := by
  have innerDescends : Descends size inner := by
    intro state first inside
    exact descends state first (split state ▸ List.mem_append_left _ inside)
  induction state using descends_induction descends with
  | step state inductionHypothesis =>
    rw [reach_eq descends, List.mem_cons, List.mem_flatMap] at inside
    obtain rfl | ⟨first, firstInside, below⟩ := inside
    · exact .inl (mem_reach_self innerDescends met)
    · obtain here | ⟨left, leftInside, behind⟩ := inductionHypothesis first firstInside below
      · rw [split, List.mem_append] at firstInside
        obtain walked | out := firstInside
        · exact .inl (reach_subset_of_mem innerDescends (mem_reach_of_mem_next innerDescends
            (mem_reach_self innerDescends state) walked) here)
        · exact .inr ⟨state, mem_reach_self descends state,
            List.mem_flatMap.mpr ⟨first, out, below⟩⟩
      · have within := mem_reach_of_mem_next descends (mem_reach_self descends state) firstInside
        exact .inr ⟨left, reach_subset_of_mem descends within leftInside, behind⟩

/-- When no state is met twice, what is behind a branch that is left out is not met by
the traversal that leaves such branches out. -/
theorem not_mem_reach_of_extra (descends : Descends size next)
    (split : ∀ state, next state = inner state ++ extra state) {state left met : σ}
    (distinct : (reach size next state).Nodup) (leftInside : left ∈ reach size next state)
    (behind : met ∈ (extra left).flatMap (reach size next)) : met ∉ reach size inner state := by
  have innerDescends : Descends size inner := by
    intro state first inside
    exact descends state first (split state ▸ List.mem_append_left _ inside)
  induction state using descends_induction descends with
  | step state inductionHypothesis =>
    intro inside
    rw [reach_eq descends, List.nodup_cons] at distinct
    obtain ⟨rootOnce, belowDistinct⟩ := distinct
    rw [reach_eq innerDescends, List.mem_cons, List.mem_flatMap] at inside
    rw [reach_eq descends, List.mem_cons, List.mem_flatMap] at leftInside
    obtain ⟨branch, branchInside, deep⟩ := List.mem_flatMap.mp behind
    obtain rfl | ⟨first, firstInside, belowFirst⟩ := leftInside
    · -- the branch is left out right here
      obtain rfl | ⟨second, secondInside, belowSecond⟩ := inside
      · have branchNext : branch ∈ next met := split met ▸ List.mem_append_right _ branchInside
        exact rootOnce (List.mem_flatMap.mpr ⟨branch, branchNext, deep⟩)
      · have nextSecond : second ∈ next left := split left ▸ List.mem_append_left _ secondInside
        rw [split, List.flatMap_append] at belowDistinct
        exact (List.nodup_append'.mp belowDistinct).2.2
          (List.mem_flatMap.mpr
            ⟨second, secondInside, reach_subset_of_next descends split second belowSecond⟩)
          behind
    · have metBelow := mem_reach_of_behind descends split belowFirst behind
      obtain rfl | ⟨second, secondInside, belowSecond⟩ := inside
      · exact rootOnce (List.mem_flatMap.mpr ⟨first, firstInside, metBelow⟩)
      · have nextSecond : second ∈ next state := split state ▸ List.mem_append_left _ secondInside
        have same := eq_of_mem_parts belowDistinct firstInside nextSecond metBelow
          (reach_subset_of_next descends split second belowSecond)
        subst same
        exact inductionHypothesis first firstInside
          ((List.nodup_flatMap.mp belowDistinct).1 first firstInside) belowFirst belowSecond

end

end VirtTestTools.Traversal

namespace VirtTestTools.AST

open Traversal

/-- Children are smaller than their node. -/
theorem descends_children : Descends size children := fun _ _ => size_lt_of_mem_children

/-- No two nodes of the tree have the same identity. -/
def Distinct (tree : List AST) : Prop := ((preorderAll tree).map AST.id).Nodup

instance (tree : List AST) : Decidable (Distinct tree) := inferInstanceAs (Decidable (List.Nodup _))

/-- Where identities are distinct, nodes are. -/
theorem Distinct.nodup {tree : List AST} (distinct : Distinct tree) : (preorderAll tree).Nodup :=
  List.Nodup.of_map _ distinct

/-- Identities tell the nodes of the tree apart. -/
theorem Distinct.eq_of_id {tree : List AST} (distinct : Distinct tree) {first second : AST}
    (firstInside : first ∈ preorderAll tree) (secondInside : second ∈ preorderAll tree)
    (same : first.id = second.id) : first = second :=
  List.inj_on_of_nodup_map distinct firstInside secondInside same

/-- Everything in a tree is a root or a child of something in the tree, and that once. -/
theorem preorder_perm (node : AST) :
    (preorder node).Perm (node :: (preorder node).flatMap children) := by
  induction node using descends_induction descends_children with
  | step node inductionHypothesis =>
    rw [preorder_eq, List.flatMap_cons]
    apply List.Perm.cons
    have below := List.Perm.flatMap_left node.children inductionHypothesis
    have apart := (List.map_append_flatMap_perm node.children (fun child => child)
      (fun child => (preorder child).flatMap children)).symm
    rw [List.map_id'] at apart
    rw [List.flatMap_assoc]
    exact below.trans apart

/-- The walk and the preorder visit the same nodes. -/
theorem preorderAll_perm (tree : List AST) :
    (preorderAll tree).Perm (tree ++ (preorderAll tree).flatMap children) := by
  have each := List.Perm.flatMap_left tree (fun node _ => preorder_perm node)
  have apart := (List.map_append_flatMap_perm tree (fun node => node)
    (fun node => (preorder node).flatMap children)).symm
  rw [List.map_id'] at apart
  rw [preorderAll_eq, List.flatMap_assoc]
  exact each.trans apart

/-- `ast.walk` yields nodes of the tree. -/
theorem mem_walkFrom (depth : Nat) (level : List (Option AST × AST)) :
    ∀ entry ∈ walkFrom depth level, ∃ start ∈ level, entry.2 ∈ preorder start.2 := by
  induction depth generalizing level with
  | zero => exact fun entry inside => absurd inside List.not_mem_nil
  | succ depth inductionHypothesis =>
    intro entry inside
    rw [walkFrom, List.mem_append] at inside
    obtain here | deeper := inside
    · refine ⟨entry, here, ?_⟩
      rw [preorder_eq]
      exact List.mem_cons_self ..
    · obtain ⟨start, startInside, below⟩ := inductionHypothesis _ entry deeper
      obtain ⟨parent, parentInside, listed⟩ := List.mem_flatMap.mp startInside
      obtain ⟨child, childInside, rfl⟩ := List.mem_map.mp listed
      refine ⟨parent, parentInside, ?_⟩
      rw [preorder_eq]
      exact List.mem_cons_of_mem _ (List.mem_flatMap.mpr ⟨child, childInside, below⟩)

/-- What the walk meets is a node of the tree. -/
theorem mem_preorderAll_of_mem_walk {tree : List AST} {node : AST}
    (inside : node ∈ (walk tree).map Prod.snd) : node ∈ preorderAll tree := by
  obtain ⟨entry, entryInside, rfl⟩ := List.mem_map.mp inside
  obtain ⟨start, startInside, below⟩ := mem_walkFrom _ _ entry entryInside
  obtain ⟨root, rootInside, rfl⟩ := List.mem_map.mp startInside
  rw [preorderAll_eq]
  exact List.mem_flatMap.mpr ⟨root, rootInside, below⟩

/-- A node has one parent. -/
theorem Distinct.parent_unique {tree : List AST} (distinct : Distinct tree)
    {first second child : AST} (firstInside : first ∈ preorderAll tree)
    (secondInside : second ∈ preorderAll tree) (belowFirst : child ∈ first.children)
    (belowSecond : child ∈ second.children) : first = second := by
  have once := (preorderAll_perm tree).nodup_iff.mp distinct.nodup
  exact eq_of_mem_parts (List.nodup_append'.mp once).2.1 firstInside secondInside belowFirst
    belowSecond

/-- What belongs to the members of a list, part by part. -/
theorem subperm_flatMap {α β : Type} (items : List α) {small large : α → List β}
    (each : ∀ item ∈ items, (small item).Subperm (large item)) :
    (items.flatMap small).Subperm (items.flatMap large) := by
  induction items with
  | nil => exact List.Subperm.refl _
  | cons item rest inductionHypothesis =>
    rw [List.flatMap_cons, List.flatMap_cons]
    exact (each item (List.mem_cons_self ..)).append
      (inductionHypothesis fun other inside => each other (List.mem_cons_of_mem _ inside))

/-- `ast.walk` yields no node twice. -/
theorem walkFrom_subperm (depth : Nat) (level : List (Option AST × AST)) :
    ((walkFrom depth level).map Prod.snd).Subperm (preorderAll (level.map Prod.snd)) := by
  induction depth generalizing level with
  | zero => exact List.nil_subperm
  | succ depth inductionHypothesis =>
    have deeper := inductionHypothesis
      (level.flatMap fun entry => entry.2.children.map fun child => (some entry.2, child))
    have children : (level.flatMap fun entry =>
          entry.2.children.map fun child => (some entry.2, child)).map Prod.snd =
        (level.map Prod.snd).flatMap children := by
      simp only [List.map_flatMap, List.map_map, List.flatMap_map, Function.comp_def, List.map_id']
    rw [children, preorderAll_eq, List.flatMap_assoc] at deeper
    rw [walkFrom, List.map_append, preorderAll_eq]
    have apart := List.map_append_flatMap_perm (level.map Prod.snd) (fun node => node)
      (fun node => node.children.flatMap preorder)
    rw [List.map_id'] at apart
    have whole : (level.map Prod.snd).flatMap preorder =
        (level.map Prod.snd).flatMap fun node => node :: node.children.flatMap preorder :=
      List.flatMap_congr fun node _ => preorder_eq node
    rw [whole]
    exact ((List.Subperm.refl _).append deeper).trans apart.subperm

/-- A traversal that goes on with nodes in different positions below a node meets nodes
in different positions. -/
theorem reach_subperm_preorder {next : AST → List AST} (descends : Descends size next)
    (within : ∀ node, ((next node).flatMap preorder).Subperm (node.children.flatMap preorder))
    (node : AST) : (reach size next node).Subperm (preorder node) := by
  induction node using descends_induction descends with
  | step node inductionHypothesis =>
    rw [reach_eq descends, preorder_eq]
    rw [List.subperm_cons]
    exact (subperm_flatMap _ inductionHypothesis).trans (within node)

/-- Reaching from apart states never meets a state twice. -/
theorem nodup_flatMap_reach {next : AST → List AST} (descends : Descends size next)
    (within : ∀ node, ((next node).flatMap preorder).Subperm (node.children.flatMap preorder))
    {tree : List AST} (distinct : Distinct tree) : (tree.flatMap (reach size next)).Nodup := by
  have below := subperm_flatMap tree (fun node _ => reach_subperm_preorder descends within node)
  obtain ⟨arranged, same, sublist⟩ := below
  rw [← preorderAll_eq] at sublist
  exact same.nodup_iff.mp (distinct.nodup.sublist sublist)

/-- Everything below a node. -/
def descendants (node : AST) : List AST := node.children.flatMap preorder

/-- A node is in its own preorder. -/
theorem mem_preorder_self (node : AST) : node ∈ node.preorder := by
  rw [preorder_eq]
  exact List.mem_cons_self ..

/-- Descendants come in the preorder, behind the node. -/
theorem descendants_subset (node : AST) : node.descendants ⊆ node.preorder := by
  rw [preorder_eq node]
  exact List.subset_cons_self _ _

/-- Children are descendants. -/
theorem mem_descendants_of_mem_children {node child : AST} (inside : child ∈ node.children) :
    child ∈ node.descendants := List.mem_flatMap.mpr ⟨child, inside, mem_preorder_self child⟩

/-- What stands at or below a child is a descendant. -/
theorem mem_descendants_of_mem_preorder {node child inner : AST} (inside : child ∈ node.children)
    (deeper : inner ∈ child.preorder) : inner ∈ node.descendants :=
  List.mem_flatMap.mpr ⟨child, inside, deeper⟩

/-- The tree below a node of a tree is a part of the tree. -/
theorem preorder_sublist {node inner : AST} (inside : inner ∈ node.preorder) :
    inner.preorder.Sublist node.preorder := by
  induction node using descends_induction descends_children with
  | step node inductionHypothesis =>
    rw [preorder_eq, List.mem_cons, List.mem_flatMap] at inside
    obtain rfl | ⟨child, childInside, deeper⟩ := inside
    · exact List.Sublist.refl _
    · rw [preorder_eq node]
      have within := List.sublist_flatten_of_mem (List.mem_map_of_mem (f := preorder) childInside)
      exact ((inductionHypothesis child childInside deeper).trans within).cons _

/-- Descendants are smaller, so that inductions on the size come to them. -/
theorem size_lt_of_mem_descendants {node inner : AST} (inside : inner ∈ node.descendants) :
    inner.size < node.size := by
  obtain ⟨child, childInside, deeper⟩ := List.mem_flatMap.mp inside
  exact Nat.lt_of_le_of_lt (preorder_sublist deeper).length_le (size_lt_of_mem_children childInside)

section

variable {node : AST} {nodes more : List AST}

/-- The identities of the nodes of some trees. -/
def points (nodes : List AST) : Set Nat := {point | point ∈ (preorderAll nodes).map AST.id}

/-- The preorder of two lists of trees. -/
theorem preorderAll_append : preorderAll (nodes ++ more) =
    preorderAll nodes ++ preorderAll more := by
  rw [preorderAll_eq, preorderAll_eq, preorderAll_eq, List.flatMap_append]

/-- The preorder of one tree begins with its root. -/
theorem preorderAll_singleton (node : AST) :
    preorderAll [node] = node :: preorderAll node.children := by
  rw [preorderAll_eq, preorderAll_eq, List.flatMap_singleton, preorder_eq]

/-- A node of some trees is a node of one of them. -/
theorem mem_preorderAll {inner : AST} :
    inner ∈ preorderAll nodes ↔ ∃ node ∈ nodes, inner ∈ node.preorder := by
  rw [preorderAll_eq, List.mem_flatMap]

/-- Fewer trees, with their order kept. -/
theorem preorderAll_sublist (within : nodes.Sublist more) :
    (preorderAll nodes).Sublist (preorderAll more) := by
  rw [preorderAll_eq, preorderAll_eq]
  exact within.flatMap _

/-- Fewer trees, in any order. -/
theorem preorderAll_mono (within : nodes ⊆ more) : preorderAll nodes ⊆ preorderAll more := by
  intro inner listed
  obtain ⟨node, inside, below⟩ := mem_preorderAll.mp listed
  exact mem_preorderAll.mpr ⟨node, within inside, below⟩

/-- What stands below a node, in order. -/
theorem preorderAll_children_sublist (node : AST) :
    (preorderAll node.children).Sublist (preorderAll [node]) := by
  rw [preorderAll_singleton]
  exact List.sublist_cons_self _ _

/-- One of the trees. -/
theorem preorderAll_singleton_subset (inside : node ∈ nodes) :
    preorderAll [node] ⊆ preorderAll nodes :=
  preorderAll_mono (List.cons_subset.mpr ⟨inside, List.nil_subset _⟩)

/-- What is below a node of some trees is in these trees. -/
theorem preorder_subset_preorderAll (listed : node ∈ preorderAll nodes) :
    node.preorder ⊆ preorderAll nodes := by
  obtain ⟨root, rootInside, below⟩ := mem_preorderAll.mp listed
  exact fun _ deeper =>
    mem_preorderAll.mpr ⟨root, rootInside, (preorder_sublist below).subset deeper⟩

/-- Trees that stand below a node. -/
theorem preorderAll_descendants_subset (within : nodes ⊆ node.descendants) :
    preorderAll nodes ⊆ preorderAll [node] := by
  intro inner listed
  obtain ⟨part, inside, below⟩ := mem_preorderAll.mp listed
  exact mem_preorderAll.mpr ⟨node, List.mem_singleton_self _,
    (preorder_sublist (descendants_subset node (within inside))).subset below⟩

/-- The identities of two lists of trees. -/
theorem points_append : points (nodes ++ more) = points nodes ∪ points more := by
  ext point
  simp only [points, preorderAll_append, List.map_append, List.mem_append, Set.mem_ofPred_eq,
    Set.mem_union]

/-- The identities of a tree and the rest. -/
theorem points_cons (node : AST) (rest : List AST) :
    points (node :: rest) = points [node] ∪ points rest :=
  @points_append [node] rest

/-- The identities below a node are identities of the node. -/
theorem points_children_subset (node : AST) : points node.children ⊆ points [node] := by
  intro point inside
  rw [points, preorderAll_singleton, List.map_cons]
  exact List.mem_cons_of_mem _ inside

/-- Fewer nodes have fewer identities. -/
theorem points_mono (within : preorderAll nodes ⊆ preorderAll more) :
    points nodes ⊆ points more :=
  fun _ inside => List.map_subset AST.id within inside

/-- The identity of the root. -/
theorem id_mem_points (node : AST) : node.id ∈ points [node] := by
  rw [points, preorderAll_singleton]
  exact List.mem_cons_self ..

/-- Fewer trees have fewer identities. -/
theorem points_subset (within : nodes ⊆ more) : points nodes ⊆ points more :=
  points_mono (preorderAll_mono within)

/-- The identities below one of the trees. -/
theorem points_children_of_mem (inside : node ∈ nodes) : points node.children ⊆ points nodes :=
  (points_children_subset node).trans (points_mono (preorderAll_singleton_subset inside))

/-- Identities are distinct in two lists of trees when they are in each and none is shared. -/
theorem distinct_append :
    Distinct (nodes ++ more) ↔ Distinct nodes ∧ Distinct more ∧
      ∀ point ∈ points nodes, point ∉ points more := by
  rw [Distinct, preorderAll_append, List.map_append, List.nodup_append']
  exact and_congr_right fun _ => and_congr_right fun _ => Iff.rfl

/-- Identities are distinct below a node with distinct identities. -/
theorem distinct_children (distinct : Distinct [node]) : Distinct node.children := by
  rw [Distinct, preorderAll_singleton, List.map_cons] at distinct
  exact distinct.of_cons

end

end VirtTestTools.AST
