import Mathlib.Data.List.Perm.Basic

/-!
# Search by levels

A breadth-first search that runs for a bounded number of levels. One level goes through
the nodes found in the level before: a node that was visited or has no successors of
interest is passed over, the others are visited, and their successors that are not known
yet become known and make up the next level. Successors are read from lists in whatever
order these have.

After any number of levels the known nodes are exactly those that can be reached from the
initial ones by at most as many steps.
-/

namespace VirtTestTools

universe u

/-- State of a search by levels: every node met so far, the nodes whose successors were
read, and the nodes found in the current level. -/
structure Levels (α : Type u) where
  known : List α
  visited : List α := []
  found : List α := []

namespace Levels

variable {α : Type u}

/-- A path of a given number of steps. -/
def ReachesIn (edge : α → α → Prop) : Nat → α → α → Prop
  | 0, source, target => source = target
  | steps + 1, source, target => ∃ middle, edge source middle ∧ ReachesIn edge steps middle target

variable [DecidableEq α]

/-- A successor becomes known unless it is already. -/
def note (state : Levels α) (target : α) : Levels α :=
  if target ∈ state.known then state
  else { state with known := state.known ++ [target], found := state.found ++ [target] }

variable (expands : α → Bool) (next : α → List α)

/-- One node of a level. -/
def visit (state : Levels α) (source : α) : Levels α :=
  if source ∈ state.visited ∨ expands source = false then state
  else (next source).foldl note { state with visited := source :: state.visited }

/-- One level: the nodes found in the last one in turn. -/
def advance (state : Levels α) : Levels α :=
  state.found.foldl (visit expands next) { state with found := [] }

/-- The loop over the levels, which stops early when a level finds nothing. -/
def run : Nat → Levels α → Levels α
  | 0, state => state
  | depth + 1, state =>
    if state.found.isEmpty then state else run depth (advance expands next state)

/-- An edge of the search: the source is one whose successors are read. -/
def Edge (source target : α) : Prop := expands source = true ∧ target ∈ next source

/-- All successors of the node are known. -/
def Settled (state : Levels α) (source : α) : Prop :=
  ∀ target, Edge expands next source target → target ∈ state.known

/-- Every known node is settled or waits in the current level; visited ones are settled. -/
structure Invariant (state : Levels α) : Prop where
  met : state.found ⊆ state.known
  pending : ∀ node ∈ state.known, node ∈ state.found ∨ Settled expands next state node
  settled : ∀ node ∈ state.visited, Settled expands next state node

/-! ## One node -/

/-- Noting targets visits nothing. -/
theorem foldl_note_visited (state : Levels α) (targets : List α) :
    (targets.foldl note state).visited = state.visited := by
  induction targets generalizing state with
  | nil => rfl
  | cons target rest inductionHypothesis =>
    rw [List.foldl_cons, inductionHypothesis, note]
    split <;> rfl

/-- Noted targets are known. -/
theorem mem_foldl_note_known (state : Levels α) (targets : List α) (node : α) :
    node ∈ (targets.foldl note state).known ↔ node ∈ state.known ∨ node ∈ targets := by
  induction targets generalizing state with
  | nil => simp
  | cons target rest inductionHypothesis =>
    rw [List.foldl_cons, inductionHypothesis, List.mem_cons, note]
    split
    next old =>
      constructor
      · rintro (inside | inside)
        · exact .inl inside
        · exact .inr (.inr inside)
      · rintro (inside | rfl | inside)
        · exact .inl inside
        · exact .inl old
        · exact .inr inside
    next => simp only [List.mem_append, List.mem_singleton, or_assoc]

/-- Of distinct successors those that are not known are appended. -/
theorem foldl_note_eq (state : Levels α) (targets : List α) (distinct : targets.Nodup) :
    targets.foldl note state =
      { state with
        known := state.known ++ targets.filter (· ∉ state.known)
        found := state.found ++ targets.filter (· ∉ state.known) } := by
  induction targets generalizing state with
  | nil => simp
  | cons target rest inductionHypothesis =>
    obtain ⟨new, restDistinct⟩ := List.nodup_cons.mp distinct
    rw [List.foldl_cons, inductionHypothesis _ restDistinct, note]
    split
    next old => rw [List.filter_cons_of_neg (by simpa using old)]
    next unknown =>
      have same : rest.filter (· ∉ state.known ++ [target]) = rest.filter (· ∉ state.known) := by
        apply List.filter_congr
        intro node inside
        have other : node ≠ target := fun equal => new (equal ▸ inside)
        simp [other]
      rw [List.filter_cons_of_pos (by simpa using unknown)]
      simp only [same, List.append_assoc, List.singleton_append]

/-- Noted targets are found unless they were known. -/
theorem mem_foldl_note_found (state : Levels α) (targets : List α) (node : α) :
    node ∈ (targets.foldl note state).found ↔
      node ∈ state.found ∨ (node ∈ targets ∧ node ∉ state.known) := by
  induction targets generalizing state with
  | nil => simp
  | cons target rest inductionHypothesis =>
    rw [List.foldl_cons, inductionHypothesis, List.mem_cons, note]
    split
    next old =>
      have other : node ∉ state.known → node ≠ target := fun unknown same => unknown (same ▸ old)
      tauto
    next new =>
      simp only [List.mem_append, List.mem_singleton, not_or]
      have unknown : node = target → node ∉ state.known := fun same => same ▸ new
      tauto

variable {expands next}

omit [DecidableEq α] in
/-- A node that is settled stays so when more nodes become known. -/
theorem Settled.mono {state grown : Levels α} (grows : state.known ⊆ grown.known) {source : α}
    (settled : Settled expands next state source) : Settled expands next grown source :=
  fun target edge => grows (settled target edge)

/-- A visit makes exactly the successors of the node known, provided visited nodes are
settled, and settles the node. -/
theorem visit_spec (state : Levels α) (source : α)
    (settled : ∀ node ∈ state.visited, Settled expands next state node) :
    (∀ node, node ∈ (visit expands next state source).known ↔
        node ∈ state.known ∨ Edge expands next source node) ∧
      (∀ node, node ∈ (visit expands next state source).found ↔
        node ∈ state.found ∨ (Edge expands next source node ∧ node ∉ state.known)) ∧
      ∀ node ∈ (visit expands next state source).visited, node = source ∨ node ∈ state.visited := by
  unfold visit
  split
  next passed =>
    have none : ∀ node, Edge expands next source node → node ∈ state.known := by
      intro node edge
      obtain old | closed := passed
      · exact settled source old node edge
      · exact absurd (closed.symm.trans edge.1) Bool.false_ne_true
    refine ⟨fun node => ?_, fun node => ?_, fun node inside => .inr inside⟩
    · exact ⟨.inl, fun known => known.elim id (none node)⟩
    · exact ⟨.inl, fun found => found.elim id (fun new => absurd (none node new.1) new.2)⟩
  next read =>
    have opens : expands source = true := by
      rw [not_or, Bool.not_eq_false] at read
      exact read.2
    refine ⟨fun node => ?_, fun node => ?_, fun node inside => ?_⟩
    · rw [mem_foldl_note_known]
      simp only [Edge, opens, true_and]
    · rw [mem_foldl_note_found]
      simp only [Edge, opens, true_and]
    · rw [foldl_note_visited] at inside
      exact List.mem_cons.mp inside

/-! ## One level -/

/-- What a level makes known, from any state in which the visited nodes are settled. -/
theorem foldl_visit_spec (sources : List α) (state : Levels α)
    (settled : ∀ node ∈ state.visited, Settled expands next state node) :
    (∀ node, node ∈ (sources.foldl (visit expands next) state).known ↔
        node ∈ state.known ∨ ∃ source ∈ sources, Edge expands next source node) ∧
      (∀ node, node ∈ (sources.foldl (visit expands next) state).found ↔
        node ∈ state.found ∨
          (∃ source ∈ sources, Edge expands next source node) ∧ node ∉ state.known) ∧
      ∀ node ∈ (sources.foldl (visit expands next) state).visited,
        node ∈ sources ∨ node ∈ state.visited := by
  induction sources generalizing state with
  | nil => simp
  | cons source rest inductionHypothesis =>
    obtain ⟨known, found, visited⟩ := visit_spec state source settled
    have grows : state.known ⊆ (visit expands next state source).known :=
      fun node inside => (known node).mpr (.inl inside)
    have stillSettled : ∀ node ∈ (visit expands next state source).visited,
        Settled expands next (visit expands next state source) node := by
      intro node inside
      obtain rfl | old := visited node inside
      · exact fun target edge => (known target).mpr (.inr edge)
      · exact (settled node old).mono grows
    obtain ⟨laterKnown, laterFound, laterVisited⟩ :=
      inductionHypothesis (visit expands next state source) stillSettled
    rw [List.foldl_cons]
    refine ⟨fun node => ?_, fun node => ?_, fun node inside => ?_⟩
    · rw [laterKnown, known]
      simp only [List.mem_cons, exists_eq_or_imp, or_assoc]
    · rw [laterFound, found, known]
      simp only [List.mem_cons, exists_eq_or_imp]
      tauto
    · obtain later | now := laterVisited node inside
      · exact .inl (List.mem_cons_of_mem _ later)
      · obtain rfl | old := visited node now
        · exact .inl (List.mem_cons_self ..)
        · exact .inr old

/-- A level makes the successors of all known nodes known and keeps the invariant. -/
theorem advance_spec (state : Levels α) (invariant : Invariant expands next state) :
    Invariant expands next (advance expands next state) ∧
      ∀ node, node ∈ (advance expands next state).known ↔
        node ∈ state.known ∨ ∃ source ∈ state.known, Edge expands next source node := by
  obtain ⟨known, found, visited⟩ := @foldl_visit_spec _ _ expands next state.found
    { state with found := [] } invariant.settled
  change ∀ node, node ∈ (advance expands next state).known ↔ _ at known
  change ∀ node, node ∈ (advance expands next state).found ↔ _ at found
  change ∀ node ∈ (advance expands next state).visited, _ at visited
  have grows : state.known ⊆ (advance expands next state).known :=
    fun node inside => (known node).mpr (.inl inside)
  -- the nodes of the level have been visited, the other known ones were settled before
  have settled : ∀ node ∈ state.known, Settled expands next (advance expands next state) node := by
    intro node inside
    obtain waiting | before := invariant.pending node inside
    · exact fun target edge => (known target).mpr (.inr ⟨node, waiting, edge⟩)
    · exact before.mono grows
  refine ⟨⟨?_, ?_, ?_⟩, fun node => ?_⟩
  · intro node inside
    obtain impossible | ⟨edge, _⟩ := (found node).mp inside
    · cases impossible
    · exact (known node).mpr (.inr edge)
  · intro node inside
    by_cases old : node ∈ state.known
    · exact .inr (settled node old)
    · have edge := ((known node).mp inside).resolve_left old
      exact .inl ((found node).mpr (.inr ⟨edge, old⟩))
  · intro node inside
    obtain waiting | before := visited node inside
    · exact settled node (invariant.met waiting)
    · exact (invariant.settled node before).mono grows
  · constructor
    · intro inside
      obtain old | ⟨source, waiting, edge⟩ := (known node).mp inside
      · exact .inl old
      · exact .inr ⟨source, invariant.met waiting, edge⟩
    · rintro (old | ⟨source, inside, edge⟩)
      · exact grows old
      · exact settled source inside node edge

/-! ## All levels -/

omit [DecidableEq α] in
/-- When no node waits, paths do not leave the known nodes. -/
theorem mem_known_of_reachesIn {state : Levels α}
    (settled : ∀ node ∈ state.known, Settled expands next state node) {steps : Nat}
    {source target : α} (inside : source ∈ state.known)
    (path : ReachesIn (Edge expands next) steps source target) : target ∈ state.known := by
  induction steps generalizing source with
  | zero => exact path ▸ inside
  | succ steps inductionHypothesis =>
    obtain ⟨middle, edge, rest⟩ := path
    exact inductionHypothesis (settled source inside middle edge) rest

/-- After a number of levels the known nodes are those reached by at most as many steps. -/
theorem mem_run_known (depth : Nat) (state : Levels α)
    (invariant : Invariant expands next state) (node : α) :
    node ∈ (run expands next depth state).known ↔
      ∃ source ∈ state.known, ∃ steps ≤ depth, ReachesIn (Edge expands next) steps source node := by
  induction depth generalizing state with
  | zero =>
    constructor
    · exact fun inside => ⟨node, inside, 0, Nat.le_refl 0, rfl⟩
    · rintro ⟨source, inside, steps, bounded, path⟩
      obtain rfl := Nat.le_zero.mp bounded
      exact path ▸ inside
  | succ depth inductionHypothesis =>
    rw [run]
    split
    next exhausted =>
      have settled : ∀ known ∈ state.known, Settled expands next state known := by
        intro known inside
        obtain waiting | before := invariant.pending known inside
        · rw [List.isEmpty_iff.mp exhausted] at waiting
          cases waiting
        · exact before
      constructor
      · exact fun inside => ⟨node, inside, 0, Nat.zero_le _, rfl⟩
      · rintro ⟨source, inside, steps, _, path⟩
        exact mem_known_of_reachesIn settled inside path
    next =>
      obtain ⟨kept, known⟩ := advance_spec state invariant
      rw [inductionHypothesis _ kept]
      constructor
      · rintro ⟨source, inside, steps, bounded, path⟩
        obtain old | ⟨first, old, edge⟩ := (known source).mp inside
        · exact ⟨source, old, steps, by omega, path⟩
        · exact ⟨first, old, steps + 1, by omega, source, edge, path⟩
      · rintro ⟨source, inside, steps, bounded, path⟩
        cases steps with
        | zero => exact ⟨source, (known source).mpr (.inl inside), 0, Nat.zero_le _, path⟩
        | succ steps =>
          obtain ⟨middle, edge, rest⟩ := path
          exact ⟨middle, (known middle).mpr (.inr ⟨source, inside, edge⟩), steps, by omega, rest⟩

omit [DecidableEq α] in
/-- The state a search starts from: all initial nodes are known and none is visited. -/
theorem invariant_start (known found : List α) (same : ∀ node, node ∈ found ↔ node ∈ known) :
    Invariant expands next { known := known, found := found } where
  met node inside := (same node).mp inside
  pending node inside := .inl ((same node).mpr inside)
  settled _ inside := by cases inside

end Levels

end VirtTestTools
