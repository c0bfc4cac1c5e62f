import VirtTestTools.Syntax

/-!
# Traversals

The tools walk syntax trees by recursion: what is done at a node stands before or
after what is done at the nodes the recursion goes on with, and these are not always
all of its children. Some recursions also carry a set of what is being resolved, so
a traversal is over states with a size. It is given by three functions; as long as it
goes on with smaller states it satisfies the equation of the recursion, and what it
yields is what it meets on the way.
-/

namespace VirtTestTools.Traversal

section

variable {σ α : Type} (size : σ → Nat) (before : σ → List α) (next : σ → List σ)
  (after : σ → List α)

/-- The recursion goes on with smaller states. -/
def Descends : Prop := ∀ state, ∀ inner ∈ next state, size inner < size state

/-- The recursion, with a bound on its depth. -/
def traverseFrom : Nat → σ → List α
  | 0, _ => []
  | depth + 1, state => before state ++ (next state).flatMap (traverseFrom depth) ++ after state

/-- The traversal: what stands before the state, the traversals of the states it goes on with,
what stands after the state. -/
def traverse (state : σ) : List α := traverseFrom before next after (size state + 1) state

variable {size next}

/-- A property that a state inherits from those the recursion goes on with holds of all states. -/
theorem descends_induction (descends : Descends size next) {motive : σ → Prop}
    (step : ∀ state, (∀ inner ∈ next state, motive inner) → motive state) (state : σ) :
    motive state := by
  induction bound : size state using Nat.strongRecOn generalizing state with
  | ind _ inductionHypothesis =>
    apply step
    intro inner inside
    exact inductionHypothesis (size inner) (bound ▸ descends state inner inside) inner rfl

/-- Beyond the size of the state the depth makes no difference. -/
theorem traverseFrom_eq (descends : Descends size next) (state : σ) (depth : Nat)
    (enough : size state < depth) :
    traverseFrom before next after depth state = traverse size before next after state := by
  revert depth
  induction state using descends_induction descends with
  | step state inductionHypothesis =>
    intro depth enough
    obtain ⟨fuel, rfl⟩ : ∃ fuel, depth = fuel + 1 := ⟨depth - 1, by omega⟩
    -- both sides unfold once, and below the state both depths are still enough
    rw [traverse, traverseFrom, traverseFrom]
    congr 2
    apply List.flatMap_congr
    intro inner inside
    have smaller := descends state inner inside
    rw [inductionHypothesis inner inside fuel (by omega),
      inductionHypothesis inner inside (size state) (by omega)]

/-- The equation of the recursion. -/
theorem traverse_eq (descends : Descends size next) (state : σ) :
    traverse size before next after state =
      before state ++ (next state).flatMap (traverse size before next after) ++ after state := by
  rw [traverse, traverseFrom]
  congr 2
  apply List.flatMap_congr
  intro inner inside
  exact traverseFrom_eq before after descends inner _ (descends state inner inside)

end

section

variable {σ : Type} (size : σ → Nat) (next : σ → List σ)

/-- The states the recursion meets, outer ones first. -/
def reach (state : σ) : List σ := traverse size (fun state => [state]) next (fun _ => []) state

/-- Whether the recursion comes upon a hit. -/
def search (hit : σ → Bool) (state : σ) : Bool := (reach size next state).any hit

variable {size next}

/-- What is reached is the state and what the next ones reach. -/
theorem reach_eq (descends : Descends size next) (state : σ) :
    reach size next state = state :: (next state).flatMap (reach size next) := by
  unfold reach
  rw [traverse_eq _ _ descends]
  simp

/-- A search hits the state or goes on with the next ones. -/
theorem search_eq (descends : Descends size next) (hit : σ → Bool) (state : σ) :
    search size next hit state = (hit state || (next state).any (search size next hit)) := by
  unfold search
  rw [reach_eq descends, List.any_cons, List.any_flatMap]

/-- What counts as a hit in one search and also in another is found by both. -/
theorem search_mono {hit other : σ → Bool} (implied : ∀ state, hit state = true → other state = true)
    (state : σ) (found : search size next hit state = true) : search size next other state = true := by
  obtain ⟨met, inside, isHit⟩ := List.any_eq_true.mp found
  exact List.any_eq_true.mpr ⟨met, inside, implied met isHit⟩

/-- Every state the recursion meets is at most as large as the one it starts from. -/
theorem size_le_of_mem_reach (descends : Descends size next) {state met : σ}
    (inside : met ∈ reach size next state) : size met ≤ size state := by
  induction state using descends_induction descends with
  | step state inductionHypothesis =>
    rw [reach_eq descends, List.mem_cons, List.mem_flatMap] at inside
    obtain rfl | ⟨inner, innerInside, below⟩ := inside
    · exact Nat.le_refl _
    · have smaller := descends state inner innerInside
      have bounded := inductionHypothesis inner innerInside below
      omega

end

end VirtTestTools.Traversal

/-! ## Syntax trees -/

namespace VirtTestTools.AST

open Traversal

/-- The number of nodes of a tree. -/
def size (node : AST) : Nat := node.preorder.length

/-- A node that may be missing in preorder. -/
theorem preorderOpt_eq (node : Option AST) : preorderOpt node = node.toList.flatMap preorder := by
  cases node with
  | none => rfl
  | some node => simp [preorderOpt]

/-- A node comes first, then its children with everything below them. -/
theorem preorder_eq (node : AST) : preorder node = node :: node.children.flatMap preorder := by
  cases node <;> simp [preorder, children, preorderAll_eq, preorderOpt_eq]

/-- A node has no more parts than the list it is in. -/
theorem length_preorder_le {nodes : List AST} {node : AST} (inside : node ∈ nodes) :
    (preorder node).length ≤ (nodes.flatMap preorder).length := by
  induction inside with
  | head rest => simp
  | tail first _ inductionHypothesis =>
    rw [List.flatMap_cons, List.length_append]
    omega

/-- A node has a positive size. -/
theorem exists_size (node : AST) : ∃ below, node.size = below + 1 :=
  ⟨(node.children.flatMap preorder).length, by rw [size, preorder_eq, List.length_cons]⟩

/-- A child has fewer nodes than its parent. -/
theorem size_lt_of_mem_children {node child : AST} (inside : child ∈ node.children) :
    child.size < node.size := by
  unfold size
  rw [preorder_eq node, List.length_cons]
  have bounded := length_preorder_le inside
  omega

end VirtTestTools.AST
