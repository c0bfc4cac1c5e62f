import Mathlib.Data.Finset.Card
import Mathlib.Logic.Relation
import Mathlib.Order.Bounds.Basic

/-!
# Worklist search

A depth-first worklist over a finite graph given by its successor lists. One
step takes the last pushed node, and pushes those of its successors that have
not been seen. In the guarded form a node that has already been processed is
only removed; in the unguarded form the processed set is a proof device that
the search never consults.

With enough steps the stack empties and the seen nodes are exactly those
reachable from the initial ones. The bound counts the initial stack and the
nodes of a finite closed universe; cycles are allowed.
-/

namespace VirtTestTools

universe u

/-- State of a search: nodes still to process with the last pushed first, the
processed nodes, and every node met so far. -/
structure Search (α : Type u) where
  stack : List α
  processed : List α
  seen : List α

namespace Search

variable {α : Type u} [DecidableEq α]

/-- The candidates that are not seen yet, each once and in order. -/
def fresh (seen : List α) : List α → List α
  | [] => []
  | candidate :: rest =>
    if candidate ∈ seen then fresh seen rest
    else candidate :: fresh (candidate :: seen) rest

/-- Process the top of the stack. -/
def step (guarded : Bool) (next : α → List α) (state : Search α) : Search α :=
  match state.stack with
  | [] => state
  | node :: rest =>
    if guarded && decide (node ∈ state.processed) then { state with stack := rest }
    else
      let pushed := fresh state.seen (next node)
      { stack := pushed.reverse ++ rest
        processed := node :: state.processed
        seen := state.seen ++ pushed }

/-- The loop: step until the stack is empty or the steps are used up. -/
def run (guarded : Bool) (next : α → List α) : Nat → Search α → Search α
  | 0, state => state
  | steps + 1, state =>
    if state.stack.isEmpty then state else run guarded next steps (step guarded next state)

/-- A path along successor lists. -/
def Reaches (next : α → List α) : α → α → Prop :=
  Relation.ReflTransGen (fun source target => target ∈ next source)

/-- A fresh node is a candidate that was not seen. -/
theorem mem_fresh (seen candidates : List α) (node : α) :
    node ∈ fresh seen candidates ↔ node ∈ candidates ∧ node ∉ seen := by
  induction candidates generalizing seen with
  | nil => simp [fresh]
  | cons candidate rest inductionHypothesis =>
    by_cases known : candidate ∈ seen
    · simp only [fresh, known, ↓reduceIte, inductionHypothesis, List.mem_cons]
      constructor
      · rintro ⟨member, unseen⟩
        exact ⟨Or.inr member, unseen⟩
      · rintro ⟨rfl | member, unseen⟩
        · exact absurd known unseen
        · exact ⟨member, unseen⟩
    · simp only [fresh, known, ↓reduceIte, List.mem_cons, inductionHypothesis, not_or]
      constructor
      · rintro (rfl | ⟨member, _, unseen⟩)
        · exact ⟨Or.inl rfl, known⟩
        · exact ⟨Or.inr member, unseen⟩
      · rintro ⟨rfl | member, unseen⟩
        · exact Or.inl rfl
        · by_cases same : node = candidate
          · exact Or.inl same
          · exact Or.inr ⟨member, same, unseen⟩

/-- No fresh node comes twice. -/
theorem nodup_fresh (seen candidates : List α) : (fresh seen candidates).Nodup := by
  induction candidates generalizing seen with
  | nil => exact List.nodup_nil
  | cons candidate rest inductionHypothesis =>
    by_cases known : candidate ∈ seen
    · simpa [fresh, known] using inductionHypothesis seen
    · simp only [fresh, known, ↓reduceIte, List.nodup_cons, mem_fresh, List.mem_cons]
      exact ⟨fun member => member.2 (Or.inl trivial), inductionHypothesis (candidate :: seen)⟩

/-- What every step preserves: the stack holds seen nodes, every seen node is
waiting or processed, and the successors of a processed node are seen. -/
structure Invariant (next : α → List α) (state : Search α) : Prop where
  stacked : ∀ node ∈ state.stack, node ∈ state.seen
  pending : ∀ node ∈ state.seen, node ∈ state.stack ∨ node ∈ state.processed
  closed : ∀ node ∈ state.processed, ∀ target ∈ next node, target ∈ state.seen

/-- A step keeps the invariant. -/
theorem step_invariant (guarded : Bool) (next : α → List α) (state : Search α)
    (holds : Invariant next state) : Invariant next (step guarded next state) := by
  unfold step
  split
  · exact holds
  · rename_i node rest shape
    split
    · rename_i skipped
      have processed : node ∈ state.processed := by
        simp only [Bool.and_eq_true, decide_eq_true_eq] at skipped
        exact skipped.2
      refine ⟨?_, ?_, holds.closed⟩
      · intro other member
        exact holds.stacked other (by rw [shape]; exact List.mem_cons_of_mem _ member)
      · intro other member
        rcases holds.pending other member with waiting | done
        · rw [shape] at waiting
          rcases List.mem_cons.mp waiting with rfl | waiting
          · exact Or.inr processed
          · exact Or.inl waiting
        · exact Or.inr done
    · refine ⟨?_, ?_, ?_⟩
      · intro other member
        simp only [List.mem_append, List.mem_reverse] at member ⊢
        rcases member with pushed | waiting
        · exact Or.inr pushed
        · exact Or.inl (holds.stacked other (by rw [shape]; exact List.mem_cons_of_mem _ waiting))
      · intro other member
        simp only [List.mem_append, List.mem_reverse, List.mem_cons] at member ⊢
        rcases member with old | pushed
        · rcases holds.pending other old with waiting | done
          · rw [shape] at waiting
            rcases List.mem_cons.mp waiting with rfl | waiting
            · exact Or.inr (Or.inl rfl)
            · exact Or.inl (Or.inr waiting)
          · exact Or.inr (Or.inr done)
        · exact Or.inl (Or.inl pushed)
      · intro other member target edge
        simp only [List.mem_append]
        rcases List.mem_cons.mp member with rfl | done
        · by_cases known : target ∈ state.seen
          · exact Or.inl known
          · exact Or.inr ((mem_fresh _ _ _).mpr ⟨edge, known⟩)
        · exact Or.inl (holds.closed other done target edge)

/-- Seen nodes are never forgotten, and a new one is one edge from an old one. -/
theorem step_seen (guarded : Bool) (next : α → List α) (state : Search α)
    (holds : Invariant next state) (target : α) (member : target ∈ (step guarded next state).seen) :
    target ∈ state.seen ∨ ∃ source ∈ state.seen, target ∈ next source := by
  unfold step at member
  split at member
  · exact Or.inl member
  · rename_i node rest shape
    split at member
    · exact Or.inl member
    · rcases List.mem_append.mp member with old | pushed
      · exact Or.inl old
      · exact Or.inr ⟨node, holds.stacked node (by simp [shape]), ((mem_fresh _ _ _).mp pushed).1⟩

/-- A step forgets nothing that was seen. -/
theorem seen_subset_step (guarded : Bool) (next : α → List α) (state : Search α) :
    state.seen ⊆ (step guarded next state).seen := by
  unfold step
  split
  · exact List.Subset.refl _
  · split
    · exact List.Subset.refl _
    · exact List.subset_append_left _ _

/-- Steps still needed: the stack, and the nodes of the universe not yet seen. -/
def debt (nodes : Finset α) (state : Search α) : Nat :=
  state.stack.length + (nodes \ state.seen.toFinset).card

/-- A step pays at least one unit of the debt. Pushing moves distinct nodes of
the universe from the unseen part to the stack. -/
theorem step_debt (guarded : Bool) (next : α → List α) (nodes : Finset α) (state : Search α)
    (contained : ∀ node, ∀ target ∈ next node, target ∈ nodes) (busy : state.stack ≠ []) :
    debt nodes (step guarded next state) + 1 ≤ debt nodes state := by
  unfold step
  split
  · rename_i empty
    exact absurd empty busy
  · rename_i node rest shape
    split
    · simp only [debt, shape, List.length_cons]
      omega
    · have moved : (fresh state.seen (next node)).toFinset ⊆ nodes \ state.seen.toFinset := by
        intro target pushed
        simp only [List.mem_toFinset, mem_fresh, Finset.mem_sdiff] at pushed ⊢
        exact ⟨contained node target pushed.1, pushed.2⟩
      have size : (fresh state.seen (next node)).toFinset.card =
          (fresh state.seen (next node)).length :=
        List.toFinset_card_of_nodup (nodup_fresh _ _)
      have split := Finset.card_sdiff_add_card_eq_card moved
      rw [sdiff_sdiff_left, size] at split
      simp only [debt, shape, List.length_cons, List.length_append, List.length_reverse,
        List.toFinset_append, Finset.sup_eq_union] at split ⊢
      omega

/-- The initial state of a search from a list of nodes. -/
def start (roots : List α) : Search α := ⟨roots.reverse, [], roots⟩

omit [DecidableEq α] in
/-- The invariant holds at the start. -/
theorem start_invariant (next : α → List α) (roots : List α) :
    Invariant next (start roots) where
  stacked := by simp [start]
  pending := by simp [start]
  closed := by simp [start]

/-- Along a run the invariant is kept, and every seen node is reachable from an
initially seen one. -/
theorem run_sound (guarded : Bool) (next : α → List α) (steps : Nat) (state : Search α)
    (holds : Invariant next state) :
    Invariant next (run guarded next steps state) ∧
      ∀ target ∈ (run guarded next steps state).seen,
        ∃ source ∈ state.seen, Reaches next source target := by
  induction steps generalizing state with
  | zero => exact ⟨holds, fun target member => ⟨target, member, Relation.ReflTransGen.refl⟩⟩
  | succ steps inductionHypothesis =>
    simp only [run]
    split
    · exact ⟨holds, fun target member => ⟨target, member, Relation.ReflTransGen.refl⟩⟩
    · obtain ⟨kept, reached⟩ := inductionHypothesis _ (step_invariant guarded next state holds)
      refine ⟨kept, ?_⟩
      intro target member
      obtain ⟨middle, seen, path⟩ := reached target member
      rcases step_seen guarded next state holds middle seen with old | ⟨source, old, edge⟩
      · exact ⟨middle, old, path⟩
      · exact ⟨source, old, Relation.ReflTransGen.head edge path⟩

/-- A run forgets nothing that was seen. -/
theorem seen_subset_run (guarded : Bool) (next : α → List α) (steps : Nat) (state : Search α) :
    state.seen ⊆ (run guarded next steps state).seen := by
  induction steps generalizing state with
  | zero => exact List.Subset.refl _
  | succ steps inductionHypothesis =>
    simp only [run]
    split
    · exact List.Subset.refl _
    · exact List.Subset.trans (seen_subset_step guarded next state) (inductionHypothesis _)

/-- As many steps as the debt empty the stack. -/
theorem run_finishes (guarded : Bool) (next : α → List α) (nodes : Finset α) (steps : Nat)
    (state : Search α) (contained : ∀ node, ∀ target ∈ next node, target ∈ nodes)
    (enough : debt nodes state ≤ steps) : (run guarded next steps state).stack = [] := by
  induction steps generalizing state with
  | zero =>
    have empty : state.stack.length = 0 := by
      simp only [debt] at enough
      omega
    exact List.length_eq_zero_iff.mp empty
  | succ steps inductionHypothesis =>
    simp only [run]
    split
    · rename_i empty
      exact List.isEmpty_iff.mp empty
    · rename_i busy
      have paid := step_debt guarded next nodes state contained
        (fun empty => busy (List.isEmpty_iff.mpr empty))
      exact inductionHypothesis _ (by omega)

/-- The loop ends from its roots: the initial stack and the universe bound its steps. -/
theorem run_start_finishes (guarded : Bool) (next : α → List α) (nodes : Finset α) (steps : Nat)
    (roots : List α) (contained : ∀ node, ∀ target ∈ next node, target ∈ nodes)
    (enough : roots.length + nodes.card ≤ steps) :
    (run guarded next steps (start roots)).stack = [] := by
  apply run_finishes guarded next nodes steps (start roots) contained
  have bound := Finset.card_le_card (Finset.sdiff_subset (s := nodes) (t := roots.toFinset))
  simp only [debt, start, List.length_reverse]
  omega

/-- A run with enough steps sees exactly the nodes reachable from its roots.

Proof: soundness is `run_sound`. Conversely the finished stack is empty, so every
seen node is processed and its successors are seen; the seen nodes contain the
roots and are closed under edges, hence contain every reachable node. -/
theorem run_exact (guarded : Bool) (next : α → List α) (nodes : Finset α) (steps : Nat)
    (roots : List α) (contained : ∀ node, ∀ target ∈ next node, target ∈ nodes)
    (enough : roots.length + nodes.card ≤ steps) (target : α) :
    target ∈ (run guarded next steps (start roots)).seen ↔
      ∃ root ∈ roots, Reaches next root target := by
  obtain ⟨kept, sound⟩ := run_sound guarded next steps (start roots) (start_invariant next roots)
  constructor
  · exact sound target
  · rintro ⟨root, member, path⟩
    have finished := run_start_finishes guarded next nodes steps roots contained enough
    induction path with
    | refl => exact seen_subset_run guarded next steps (start roots) member
    | tail _ edge reached =>
      rcases kept.pending _ reached with waiting | done
      · simp [finished] at waiting
      · exact kept.closed _ done _ edge

end Search

/-- The listed nodes are the least collection that contains the roots and is closed under the
edges. -/
def IsClosure {α : Type u} (root : α → Prop) (edge : α → α → Prop) (nodes : List α) : Prop :=
  IsLeast {closed : Set α | (∀ node, root node → node ∈ closed) ∧
    ∀ node ∈ closed, ∀ target, edge node target → target ∈ closed} {node | node ∈ nodes}

/-- What is reachable from the roots is their closure. -/
theorem isClosure_of_reachable {α : Type u} {root : α → Prop} {edge : α → α → Prop} {nodes : List α}
    (reachable : ∀ target, target ∈ nodes ↔
      ∃ node, root node ∧ Relation.ReflTransGen edge node target) :
    IsClosure root edge nodes := by
  refine ⟨⟨?_, ?_⟩, ?_⟩
  · intro node isRoot
    exact (reachable node).mpr ⟨node, isRoot, Relation.ReflTransGen.refl⟩
  · intro node listed target step
    obtain ⟨origin, isRoot, path⟩ := (reachable node).mp listed
    exact (reachable target).mpr ⟨origin, isRoot, path.tail step⟩
  · rintro closed ⟨contains, follows⟩ target listed
    obtain ⟨origin, isRoot, path⟩ := (reachable target).mp listed
    induction path with
    | refl => exact contains origin isRoot
    | tail earlier step inductionHypothesis =>
      have before := inductionHypothesis ((reachable _).mpr ⟨origin, isRoot, earlier⟩)
      exact follows _ before _ step

end VirtTestTools
