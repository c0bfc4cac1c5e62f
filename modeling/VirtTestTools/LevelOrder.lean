import Mathlib.Data.List.Basic

/-!
# Level order

The labels of a forest level by level. The levels of two forests side by side are those
of the first followed by those of the second, so that the walk takes turns between them;
a selection that takes labels of one of the forests only does not see the other.
-/

namespace VirtTestTools.LevelOrder

/-- A tree with a label at each node. -/
inductive Tree (α : Type) where
  | node (label : α) (children : List (Tree α))

namespace Tree

variable {α β : Type}

/-- The label of a tree. -/
def label : Tree α → α
  | .node label _ => label

/-- The children of a tree. -/
def children : Tree α → List (Tree α)
  | .node _ children => children

mutual

/-- The number of levels. -/
def height : Tree α → Nat
  | .node _ children => heights children + 1

/-- The height of a forest. -/
def heights : List (Tree α) → Nat
  | [] => 0
  | tree :: rest => max (height tree) (heights rest)

end

mutual

/-- The tree with other labels. -/
def relabel (change : α → β) : Tree α → Tree β
  | .node label children => .node (change label) (relabelAll change children)

/-- A forest with changed labels. -/
def relabelAll (change : α → β) : List (Tree α) → List (Tree β)
  | [] => []
  | tree :: rest => relabel change tree :: relabelAll change rest

end

/-- A forest is changed tree by tree. -/
theorem relabelAll_eq (change : α → β) (forest : List (Tree α)) :
    relabelAll change forest = forest.map (relabel change) := by
  induction forest with
  | nil => rfl
  | cons tree rest inductionHypothesis => rw [relabelAll, List.map_cons, inductionHypothesis]

/-- The label of a changed tree. -/
theorem label_relabel (change : α → β) (tree : Tree α) :
    (tree.relabel change).label = change tree.label := by
  cases tree
  rfl

/-- The children of a changed tree. -/
theorem children_relabel (change : α → β) (tree : Tree α) :
    (tree.relabel change).children = tree.children.map (relabel change) := by
  cases tree
  exact relabelAll_eq change _

/-- The height of two forests together. -/
theorem heights_append (left right : List (Tree α)) :
    heights (left ++ right) = max (heights left) (heights right) := by
  induction left with
  | nil => simp [heights]
  | cons tree rest inductionHypothesis =>
    rw [List.cons_append, heights, heights, inductionHypothesis, Nat.max_assoc]

/-- The next level has one level less. -/
theorem heights_children_le (forest : List (Tree α)) :
    heights (forest.flatMap children) ≤ heights forest - 1 := by
  induction forest with
  | nil => exact Nat.le_refl 0
  | cons tree rest inductionHypothesis =>
    obtain ⟨label, below⟩ := tree
    rw [List.flatMap_cons, heights_append, heights]
    simp only [children, height]
    omega

end Tree

open LevelOrder.Tree

variable {α β : Type}

/-- The labels of as many levels as given. -/
def walkFrom : Nat → List (Tree α) → List α
  | 0, _ => []
  | depth + 1, level => level.map label ++ walkFrom depth (level.flatMap children)

/-- The labels of all levels. -/
def walk (forest : List (Tree α)) : List α := walkFrom (heights forest) forest

/-- Nothing is walked in an empty forest. -/
theorem walkFrom_nil (depth : Nat) : walkFrom depth ([] : List (Tree α)) = [] := by
  induction depth with
  | zero => rfl
  | succ depth inductionHypothesis => exact inductionHypothesis

/-- A forest with a tree has a height. -/
theorem heights_cons_pos (tree : Tree α) (rest : List (Tree α)) : 0 < heights (tree :: rest) := by
  obtain ⟨label, below⟩ := tree
  rw [heights, height]
  omega

/-- Beyond the last level there is nothing. -/
theorem walkFrom_eq (depth : Nat) (forest : List (Tree α)) (enough : heights forest ≤ depth) :
    walkFrom depth forest = walk forest := by
  induction depth using Nat.strongRecOn generalizing forest with
  | ind depth inductionHypothesis =>
    cases forest with
    | nil => rw [walk, walkFrom_nil, walkFrom_nil]
    | cons tree rest =>
      have positive := heights_cons_pos tree rest
      have lower := heights_children_le (tree :: rest)
      obtain ⟨own, ownEq⟩ : ∃ own, heights (tree :: rest) = own + 1 :=
        ⟨heights (tree :: rest) - 1, by omega⟩
      obtain ⟨more, rfl⟩ : ∃ more, depth = more + 1 := ⟨depth - 1, by omega⟩
      rw [walk, ownEq, walkFrom, walkFrom, inductionHypothesis more (by omega) _ (by omega),
        inductionHypothesis own (by omega) _ (by omega)]

/-- A walk of changed trees has the changed labels. -/
theorem walkFrom_relabel (change : α → β) (depth : Nat) (forest : List (Tree α)) :
    walkFrom depth (forest.map (relabel change)) = (walkFrom depth forest).map change := by
  induction depth generalizing forest with
  | zero => rfl
  | succ depth inductionHypothesis =>
    have below : (forest.map (relabel change)).flatMap children =
        (forest.flatMap children).map (relabel change) := by
      rw [List.flatMap_map, List.map_flatMap]
      exact List.flatMap_congr fun tree _ => children_relabel change tree
    rw [walkFrom, walkFrom, below, inductionHypothesis, List.map_append, List.map_map, List.map_map]
    congr 1
    exact List.map_congr_left fun tree _ => label_relabel change tree

/-- The labels of a relabelled forest. -/
theorem walk_relabel (change : α → β) (forest : List (Tree α)) :
    walk (forest.map (relabel change)) = (walk forest).map change := by
  rw [← walkFrom_eq (max (heights (forest.map (relabel change))) (heights forest)) _
      (Nat.le_max_left ..), walkFrom_relabel, walkFrom_eq _ _ (Nat.le_max_right ..)]

section

variable (select : α → Option β)

/-- Forests of which nothing is selected make no difference beside another one. -/
theorem filterMap_walkFrom_append (depth : Nat) (left right : List (Tree α))
    (unselected : ∀ label ∈ walkFrom depth right, select label = none) :
    (walkFrom depth (left ++ right)).filterMap select = (walkFrom depth left).filterMap select ∧
      (walkFrom depth (right ++ left)).filterMap select =
        (walkFrom depth left).filterMap select := by
  induction depth generalizing left right with
  | zero => exact ⟨rfl, rfl⟩
  | succ depth inductionHypothesis =>
    have here : (right.map label).filterMap select = [] := by
      apply List.filterMap_eq_nil_iff.mpr
      intro member inside
      exact unselected member (List.mem_append_left _ inside)
    obtain ⟨before, behind⟩ := inductionHypothesis (left.flatMap children) (right.flatMap children)
      fun member inside => unselected member (List.mem_append_right _ inside)
    simp only [walkFrom, List.map_append, List.flatMap_append, List.filterMap_append, here,
      List.nil_append, List.append_nil, before, behind, and_self]

variable {select} {left right : List (Tree α)}

/-- Where nothing is selected on the right, the walk selects from the left. -/
theorem filterMap_walk_left (unselected : ∀ label ∈ walk right, select label = none) :
    (walk (left ++ right)).filterMap select = (walk left).filterMap select := by
  have enough := Nat.le_of_eq (heights_append left right)
  rw [← walkFrom_eq (max (heights left) (heights right)) (left ++ right) enough,
    ← walkFrom_eq _ left (Nat.le_max_left _ (heights right))]
  apply (filterMap_walkFrom_append select _ left right _).1
  rwa [walkFrom_eq _ right (Nat.le_max_right ..)]

/-- Where nothing is selected on the left, the walk selects from the right. -/
theorem filterMap_walk_right (unselected : ∀ label ∈ walk left, select label = none) :
    (walk (left ++ right)).filterMap select = (walk right).filterMap select := by
  have enough := Nat.le_of_eq (heights_append left right)
  rw [← walkFrom_eq (max (heights left) (heights right)) (left ++ right) enough,
    ← walkFrom_eq _ right (Nat.le_max_right (heights left) _)]
  apply (filterMap_walkFrom_append select _ right left _).2
  rwa [walkFrom_eq _ left (Nat.le_max_left ..)]

end

end VirtTestTools.LevelOrder
