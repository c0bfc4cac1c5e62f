import Mathlib.Algebra.BigOperators.Group.Finset.Basic
import Mathlib.Data.Finset.Card
import Mathlib.Logic.Relation

/-!
# Visits

A worklist that marks a node when it is taken from the stack, not when it is pushed: a
node may wait on the stack several times, and is passed over when it comes up again.
Taking a node may fail, which ends the search.

Only finitely many nodes have successors. With a step for each initial node and each
successor of one of these the stack empties, and the nodes visited are those reachable
from the initial ones, each once, unless a reachable node fails.
-/

namespace VirtTestTools

universe u

/-- State of the search: the waiting nodes with the last pushed first, and the visited
ones in the order of their visits. -/
structure Visits (α : Type u) where
  pending : List α
  visited : List α := []

namespace Visits

variable {α : Type u} [DecidableEq α] (fails : α → Bool) (next : α → List α)

/-- Visit a node: its successors that are not visited are pushed in order. -/
def visit (node : α) (rest visited : List α) : Visits α where
  pending := ((next node).filter (· ∉ visited ++ [node])).reverse ++ rest
  visited := visited ++ [node]

/-- The loop, with a bound on its turns; `none` when a node fails. -/
def run : Nat → Visits α → Option (Visits α)
  | 0, state => some state
  | turns + 1, state =>
    match state.pending with
    | [] => some state
    | node :: rest =>
      if node ∈ state.visited then run turns { state with pending := rest }
      else if fails node then none
      else run turns (visit next node rest state.visited)

/-- A node to which successors lead from one of the given nodes. -/
def Reachable (roots : List α) (node : α) : Prop :=
  ∃ root ∈ roots, Relation.ReflTransGen (fun source target => target ∈ next source) root node

/-- What holds between the turns: nodes are visited once and do not fail, everything met is
reachable, and the roots and the successors of visited nodes are visited or waiting. -/
structure Invariant (roots : List α) (state : Visits α) : Prop where
  once : state.visited.Nodup
  passes : ∀ node ∈ state.visited, fails node = false
  sound : ∀ node, node ∈ state.visited ∨ node ∈ state.pending → Reachable next roots node
  started : ∀ root ∈ roots, root ∈ state.visited ∨ root ∈ state.pending
  closed : ∀ node ∈ state.visited, ∀ target ∈ next node,
    target ∈ state.visited ∨ target ∈ state.pending

variable {fails next}

omit [DecidableEq α] in
/-- What a reachable node leads to is reachable. -/
theorem Reachable.step {roots : List α} {node target : α} (reached : Reachable next roots node)
    (edge : target ∈ next node) : Reachable next roots target := by
  obtain ⟨root, rootInside, path⟩ := reached
  exact ⟨root, rootInside, path.tail edge⟩

omit [DecidableEq α] in
/-- The invariant holds at the start. -/
theorem invariant_start (roots : List α) :
    Invariant fails next roots { pending := roots.reverse } where
  once := List.nodup_nil
  passes _ inside := by cases inside
  sound node inside := by
    obtain impossible | waiting := inside
    · cases impossible
    · exact ⟨node, List.mem_reverse.mp waiting, .refl⟩
  started root inside := .inr (List.mem_reverse.mpr inside)
  closed _ inside := by cases inside

omit [DecidableEq α] in
/-- Passing over a visited node keeps the invariant, -/
theorem invariant_pass {roots : List α} {node : α} {rest visited : List α}
    (invariant : Invariant fails next roots ⟨node :: rest, visited⟩) (old : node ∈ visited) :
    Invariant fails next roots ⟨rest, visited⟩ where
  once := invariant.once
  passes := invariant.passes
  sound other inside := invariant.sound other (inside.imp_right (List.mem_cons_of_mem _))
  started root inside := by
    obtain done | waiting := invariant.started root inside
    · exact .inl done
    · obtain rfl | later := List.mem_cons.mp waiting
      · exact .inl old
      · exact .inr later
  closed source inside target edge := by
    obtain done | waiting := invariant.closed source inside target edge
    · exact .inl done
    · obtain rfl | later := List.mem_cons.mp waiting
      · exact .inl old
      · exact .inr later

/-- and so does a visit. -/
theorem invariant_visit {roots : List α} {node : α} {rest visited : List α}
    (invariant : Invariant fails next roots ⟨node :: rest, visited⟩) (new : node ∉ visited)
    (passes : fails node = false) :
    Invariant fails next roots (visit next node rest visited) := by
  have reached : Reachable next roots node := invariant.sound node (.inr (List.mem_cons_self ..))
  have moved : ∀ other, other ∈ visited ∨ other ∈ node :: rest →
      other ∈ visited ++ [node] ∨ other ∈ (visit next node rest visited).pending := by
    rintro other (done | waiting)
    · exact .inl (List.mem_append_left _ done)
    · obtain rfl | later := List.mem_cons.mp waiting
      · exact .inl (List.mem_append_right _ (List.mem_singleton_self _))
      · exact .inr (List.mem_append_right _ later)
  constructor
  · change (visited ++ [node]).Nodup
    rw [← List.concat_eq_append]
    exact invariant.once.concat new
  · intro other inside
    obtain done | here := List.mem_append.mp inside
    · exact invariant.passes other done
    · exact List.mem_singleton.mp here ▸ passes
  · rintro other (inside | inside)
    · obtain done | here := List.mem_append.mp inside
      · exact invariant.sound other (.inl done)
      · exact List.mem_singleton.mp here ▸ reached
    · obtain pushed | later := List.mem_append.mp inside
      · exact reached.step (List.mem_filter.mp (List.mem_reverse.mp pushed)).1
      · exact invariant.sound other (.inr (List.mem_cons_of_mem _ later))
  · exact fun root inside => moved root (invariant.started root inside)
  · intro source inside target edge
    obtain done | here := List.mem_append.mp inside
    · exact moved target (invariant.closed source done target edge)
    · rw [List.mem_singleton.mp here] at edge
      by_cases known : target ∈ visited ++ [node]
      · exact .inl known
      · refine .inr (List.mem_append_left _ (List.mem_reverse.mpr ?_))
        exact List.mem_filter.mpr ⟨edge, decide_eq_true known⟩

/-! ## The number of turns -/

variable (next)

/-- The turns that are left: one for each waiting node and each successor of a node that is
not visited yet. -/
def debt (sources : Finset α) (state : Visits α) : Nat :=
  state.pending.length + ∑ source ∈ sources.filter (· ∉ state.visited), (next source).length

variable {next}

/-- A visit uses up a turn, since its node no longer counts. -/
theorem debt_visit (sources : Finset α) (node : α) (rest visited : List α)
    (covered : node ∉ sources → next node = []) (new : node ∉ visited) :
    debt next sources (visit next node rest visited) + 1 ≤
      debt next sources ⟨node :: rest, visited⟩ := by
  have pushed : ((next node).filter (· ∉ visited ++ [node])).length ≤ (next node).length :=
    List.length_filter_le _ _
  have remaining : sources.filter (· ∉ visited ++ [node]) =
      (sources.filter (· ∉ visited)).erase node := by
    ext source
    simp only [Finset.mem_filter, Finset.mem_erase, List.mem_append, List.mem_singleton, not_or]
    tauto
  unfold debt visit
  simp only [List.length_append, List.length_reverse, List.length_cons, remaining]
  by_cases inside : node ∈ sources
  · have split := Finset.sum_erase_add (sources.filter (· ∉ visited))
      (fun source => (next source).length) (Finset.mem_filter.mpr ⟨inside, new⟩)
    omega
  · have nothing := covered inside
    have outside : node ∉ sources.filter (· ∉ visited) := fun here =>
      inside (Finset.mem_filter.mp here).1
    rw [Finset.erase_eq_of_notMem outside, nothing, List.filter_nil, List.length_nil]
    omega

/-! ## The whole search -/

/-- From any state that satisfies the invariant, with enough turns: the search fails at a
reachable node, or it ends with an empty stack and the invariant. -/
theorem run_spec (sources : Finset α) (covered : ∀ node, node ∉ sources → next node = [])
    (roots : List α) (turns : Nat) (state : Visits α)
    (invariant : Invariant fails next roots state) (enough : debt next sources state ≤ turns) :
    (run fails next turns state = none ∧ ∃ node, Reachable next roots node ∧ fails node = true) ∨
      ∃ final, run fails next turns state = some final ∧ final.pending = [] ∧
        Invariant fails next roots final := by
  induction turns generalizing state with
  | zero =>
    have empty : state.pending = [] := by
      apply List.eq_nil_of_length_eq_zero
      unfold debt at enough
      omega
    exact .inr ⟨state, rfl, empty, invariant⟩
  | succ turns inductionHypothesis =>
    obtain ⟨pending, visited⟩ := state
    cases pending with
    | nil => exact .inr ⟨_, rfl, rfl, invariant⟩
    | cons node rest =>
      rw [run]
      dsimp only
      by_cases old : node ∈ visited
      · rw [if_pos old]
        apply inductionHypothesis _ (invariant_pass invariant old)
        simp only [debt, List.length_cons] at enough ⊢
        omega
      · rw [if_neg old]
        by_cases failing : fails node = true
        · rw [if_pos failing]
          exact .inl ⟨rfl, node, invariant.sound node (.inr (List.mem_cons_self ..)), failing⟩
        · rw [if_neg failing]
          apply inductionHypothesis _ (invariant_visit invariant old (by simpa using failing))
          have used := debt_visit sources node rest visited (covered node) old
          omega

omit [DecidableEq α] in
/-- Once the stack is empty the visited nodes are the reachable ones. -/
theorem Invariant.mem_visited_iff {roots : List α} {state : Visits α}
    (invariant : Invariant fails next roots state) (empty : state.pending = []) (node : α) :
    node ∈ state.visited ↔ Reachable next roots node := by
  have nothingWaits : ∀ other, other ∈ state.visited ∨ other ∈ state.pending →
      other ∈ state.visited := by
    rintro other (done | waiting)
    · exact done
    · rw [empty] at waiting
      cases waiting
  constructor
  · exact fun inside => invariant.sound node (.inl inside)
  · rintro ⟨root, rootInside, path⟩
    induction path with
    | refl => exact nothingWaits root (invariant.started root rootInside)
    | tail _ edge inductionHypothesis =>
      exact nothingWaits _ (invariant.closed _ inductionHypothesis _ edge)

end Visits

end VirtTestTools
