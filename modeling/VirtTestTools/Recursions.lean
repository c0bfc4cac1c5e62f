import Mathlib.Data.List.Basic

/-!
# Recursions and loops that return

A recursion of a program need not be one that Lean accepts: it may carry a set of what
is under way, or run until a server answers with less. Such a recursion is given by its
body, and it runs with a bound on its depth. It returns if all large enough bounds give
the same result. The body gets the bound that is left for the loops and recursions
inside it.

Several functions that call each other are one recursion over their calls. A loop is a
recursion whose body calls at most once.
-/

namespace VirtTestTools.Recursions

section

variable {α β : Type}

/-- With every large enough bound the computation gives the same result, and the result
has a property. -/
def Returns (computation : Nat → Option α) (property : α → Prop) : Prop :=
  ∃ result, property result ∧ ∃ enough, ∀ bound, enough ≤ bound → computation bound = some result

/-- All large enough bounds give the same result. -/
def Terminates (computation : Nat → Option α) : Prop :=
  ∃ result enough, ∀ bound, enough ≤ bound → computation bound = some result

variable {computation : Nat → Option α} {property : α → Prop} {further : β → Prop}

/-- A result is returned. -/
theorem Returns.pure {result : α} (holds : property result) :
    Returns (fun _ => some result) property :=
  ⟨result, holds, 0, fun _ _ => rfl⟩

/-- What returns a result terminates. -/
theorem Returns.terminates (returns : Returns computation property) : Terminates computation := by
  obtain ⟨result, -, settled⟩ := returns
  exact ⟨result, settled⟩

/-- What returns a result has one with the property. -/
theorem Returns.exists (returns : Returns computation property) : ∃ result, property result := by
  obtain ⟨result, holds, -⟩ := returns
  exact ⟨result, holds⟩

/-- A computation has one result. -/
theorem Returns.and {other : α → Prop} (returns : Returns computation property)
    (returnsOther : Returns computation other) :
    Returns computation fun result => property result ∧ other result := by
  obtain ⟨result, holds, enough, settled⟩ := returns
  obtain ⟨same, holdsOther, enoughOther, settledOther⟩ := returnsOther
  have first := settled (max enough enoughOther) (Nat.le_max_left _ _)
  have second := settledOther (max enough enoughOther) (Nat.le_max_right _ _)
  obtain rfl : result = same := Option.some.inj (first.symm.trans second)
  exact ⟨result, ⟨holds, holdsOther⟩, enough, settled⟩

/-- What comes next may depend on the result and on the bound. -/
theorem Returns.bind {next : Nat → α → Option β} (returns : Returns computation property)
    (goesOn : ∀ result, property result → Returns (fun bound => next bound result) further) :
    Returns (fun bound => (computation bound).bind (next bound)) further := by
  obtain ⟨result, holds, enough, settled⟩ := returns
  obtain ⟨last, holdsLast, enoughLast, settledLast⟩ := goesOn result holds
  refine ⟨last, holdsLast, max enough enoughLast, fun bound large => ?_⟩
  have first := settled bound (Nat.le_trans (Nat.le_max_left _ _) large)
  have second := settledLast bound (Nat.le_trans (Nat.le_max_right _ _) large)
  dsimp only at second ⊢
  rw [first, Option.bind_some, second]

/-- A changed result is returned. -/
theorem Returns.map {change : α → β} (returns : Returns computation property)
    (holds : ∀ result, property result → further (change result)) :
    Returns (fun bound => (computation bound).map change) further := by
  obtain ⟨result, had, enough, settled⟩ := returns
  refine ⟨change result, holds result had, enough, fun bound large => ?_⟩
  dsimp only
  rw [settled bound large, Option.map_some]

/-- The bound may be spent before the computation starts. -/
theorem Returns.shift {whole : Nat → Option α} (returns : Returns computation property)
    (spent : ∀ bound, whole (bound + 1) = computation bound) : Returns whole property := by
  obtain ⟨result, holds, enough, settled⟩ := returns
  refine ⟨result, holds, enough + 1, fun bound large => ?_⟩
  obtain ⟨rest, rfl⟩ : ∃ rest, bound = rest + 1 := ⟨bound - 1, by omega⟩
  rw [spent, settled rest (by omega)]

/-- Every member of a list is looked at. -/
theorem returns_mapM {items : List α} {look : Nat → α → Option β} {value : α → β}
    (each : ∀ item ∈ items, Returns (fun bound => look bound item) (· = value item)) :
    Returns (fun bound => items.mapM (look bound)) (· = items.map value) := by
  induction items with
  | nil => exact .pure rfl
  | cons item rest inductionHypothesis =>
    have first := each item (List.mem_cons_self ..)
    have others := inductionHypothesis fun other inside =>
      each other (List.mem_cons_of_mem _ inside)
    simp only [List.mapM_cons]
    refine first.bind fun result isValue => others.bind fun results areValues => .pure ?_
    rw [isValue, areValues, List.map_cons]

/-- The members of a list are looked at until one is a hit. -/
theorem returns_anyM {items : List α} {look : Nat → α → Option Bool} {hit : α → Bool}
    (each : ∀ item ∈ items, Returns (fun bound => look bound item) (· = hit item)) :
    Returns (fun bound => items.anyM (look bound)) (· = items.any hit) := by
  induction items with
  | nil => exact .pure rfl
  | cons item rest inductionHypothesis =>
    have first := each item (List.mem_cons_self ..)
    have others := inductionHypothesis fun other inside =>
      each other (List.mem_cons_of_mem _ inside)
    simp only [List.anyM]
    refine first.bind fun result isHit => ?_
    rw [List.any_cons, ← isHit]
    cases result with
    | true => exact .pure rfl
    | false => exact others

/-- A first test, and where it fails a second one. -/
theorem Returns.orElse {first second : Nat → Option Bool} {hit other : Bool}
    (returns : Returns first (· = hit)) (further : Returns second (· = other)) :
    Returns (fun bound => (first bound).bind fun found => if found then some true else second bound)
      (· = (hit || other)) := by
  refine returns.bind fun found isHit => ?_
  rw [← isHit]
  cases found with
  | true => exact .pure rfl
  | false => exact further

end

/-! ## Recursions -/

section

variable {ι β : Type}

/-- What a call of the recursion gives. -/
def run (body : Nat → (ι → Option β) → ι → Option β) : Nat → ι → Option β
  | 0, _ => none
  | bound + 1, call => body bound (run body bound) call

variable {body : Nat → (ι → Option β) → ι → Option β}

/-- A recursion returns if its body does, as long as the smaller calls return.

Proof: by induction on the size of the call. -/
theorem returns_run (size : ι → Nat) (property : ι → β → Prop)
    (step : ∀ call,
      (∀ inner, size inner < size call →
        Returns (fun bound => run body bound inner) (property inner)) →
      Returns (fun bound => body bound (run body bound) call) (property call)) (call : ι) :
    Returns (fun bound => run body bound call) (property call) := by
  induction reached : size call using Nat.strongRecOn generalizing call with
  | ind _ inductionHypothesis =>
    have bodyReturns := step call fun inner smaller =>
      inductionHypothesis (size inner) (reached ▸ smaller) inner rfl
    exact bodyReturns.shift fun _ => rfl

end

/-! ## Loops -/

/-- How a turn of a loop ends: with the state for the next turn, or with the result of
the loop. -/
inductive Turn (σ β : Type)
  | again (state : σ)
  | leave (result : β)

section

variable {σ β : Type} {turn : σ → Turn σ β}

/-- The loop whose turns are given. -/
def loop (turn : σ → Turn σ β) : Nat → σ → Option β :=
  run fun _ recur state =>
    match turn state with
    | .again next => recur next
    | .leave result => some result

/-- A loop keeps an invariant while something decreases, and what it is left with has the
property. -/
theorem returns_loop (size : σ → Nat) (invariant : σ → Prop) {property : β → Prop}
    (goesOn : ∀ state next, invariant state → turn state = .again next →
      invariant next ∧ size next < size state)
    (left : ∀ state result, invariant state → turn state = .leave result → property result)
    (state : σ) (holds : invariant state) :
    Returns (fun bound => loop turn bound state) property := by
  induction reached : size state using Nat.strongRecOn generalizing state with
  | ind _ inductionHypothesis =>
    have turned : Returns (fun bound =>
        match turn state with
        | .again next => loop turn bound next
        | .leave result => some result) property := by
      cases ending : turn state with
      | again next =>
        obtain ⟨kept, fewer⟩ := goesOn state next holds ending
        exact inductionHypothesis (size next) (reached ▸ fewer) next kept rfl
      | leave result => exact .pure (left state result holds ending)
    exact turned.shift fun _ => rfl

end

end VirtTestTools.Recursions
