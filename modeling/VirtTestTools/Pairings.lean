import Mathlib.Data.List.Basic

/-!
# Pairing two lists

Each member of the first list takes the first member of the second list that matches
it and is not taken yet. Those that find no match are paired by position as long as
there are members left on both sides.

Whatever matches, every member of the first list is paired with a member of the second
list or left over. A list is paired with itself member by member.
-/

namespace VirtTestTools

/-- Pairs, and what is left on either side. -/
structure Pairing (α β : Type) where
  pairs : List (α × β)
  leftOver : List α
  rightOver : List β

namespace Pairing

variable {α β : Type}

/-- The first member that matches, and the members without it. -/
def takeFirst (matching : β → Bool) : List β → Option (β × List β)
  | [] => none
  | member :: rest =>
    if matching member then some (member, rest)
    else (takeFirst matching rest).map fun taken => (taken.1, member :: taken.2)

/-- The members in turn take the first match that is left. -/
def byMatch (matching : α → β → Bool) : List α → List β → Pairing α β
  | [], right => ⟨[], [], right⟩
  | member :: rest, right =>
    match takeFirst (matching member) right with
    | some (found, others) =>
      let later := byMatch matching rest others
      { later with pairs := (member, found) :: later.pairs }
    | none =>
      let later := byMatch matching rest right
      { later with leftOver := member :: later.leftOver }

/-- What is left is paired by position. -/
def byPosition (pairing : Pairing α β) : Pairing α β :=
  let count := min pairing.leftOver.length pairing.rightOver.length
  { pairs := pairing.pairs ++ (pairing.leftOver.take count).zip (pairing.rightOver.take count)
    leftOver := pairing.leftOver.drop count
    rightOver := pairing.rightOver.drop count }

/-- The members of the first list are paired with members of the second list or left over. -/
structure Covers (pairing : Pairing α β) (left : List α) (right : List β) : Prop where
  each : ∀ member ∈ left, (∃ other, (member, other) ∈ pairing.pairs) ∨ member ∈ pairing.leftOver
  within : ∀ pair ∈ pairing.pairs, pair.1 ∈ left ∧ pair.2 ∈ right
  leftWithin : ∀ member ∈ pairing.leftOver, member ∈ left
  rightWithin : ∀ other ∈ pairing.rightOver, other ∈ right

/-- What is taken first and what is left are members. -/
theorem mem_of_takeFirst (matching : β → Bool) (members : List β) {found : β} {others : List β}
    (taken : takeFirst matching members = some (found, others)) :
    found ∈ members ∧ ∀ other ∈ others, other ∈ members := by
  induction members generalizing found others with
  | nil => cases taken
  | cons member rest inductionHypothesis =>
    simp only [takeFirst] at taken
    split at taken
    · cases taken
      exact ⟨List.mem_cons_self, fun other inside => List.mem_cons_of_mem _ inside⟩
    · obtain ⟨⟨foundLater, kept⟩, takenLater, same⟩ := Option.map_eq_some_iff.mp taken
      cases same
      obtain ⟨foundInside, keptInside⟩ := inductionHypothesis takenLater
      refine ⟨List.mem_cons_of_mem _ foundInside, fun other inside => ?_⟩
      obtain rfl | later := List.mem_cons.mp inside
      · exact List.mem_cons_self
      · exact List.mem_cons_of_mem _ (keptInside other later)

/-- Pairing by matches leaves no member out. -/
theorem covers_byMatch (matching : α → β → Bool) (left : List α) (right : List β) :
    (byMatch matching left right).Covers left right := by
  induction left generalizing right with
  | nil => exact ⟨nofun, nofun, nofun, fun _ inside => inside⟩
  | cons member rest inductionHypothesis =>
    simp only [byMatch]
    split
    · rename_i found others taken
      obtain ⟨foundInside, othersInside⟩ := mem_of_takeFirst _ right taken
      have later := inductionHypothesis others
      constructor
      · intro other inside
        obtain rfl | deeper := List.mem_cons.mp inside
        · exact .inl ⟨found, List.mem_cons_self⟩
        · obtain ⟨partner, paired⟩ | unpaired := later.each other deeper
          · exact .inl ⟨partner, List.mem_cons_of_mem _ paired⟩
          · exact .inr unpaired
      · intro pair inside
        obtain rfl | deeper := List.mem_cons.mp inside
        · exact ⟨List.mem_cons_self, foundInside⟩
        · obtain ⟨first, second⟩ := later.within pair deeper
          exact ⟨List.mem_cons_of_mem _ first, othersInside _ second⟩
      · intro other unpaired
        exact List.mem_cons_of_mem _ (later.leftWithin other unpaired)
      · intro other unpaired
        exact othersInside _ (later.rightWithin other unpaired)
    · have later := inductionHypothesis right
      constructor
      · intro other inside
        obtain rfl | deeper := List.mem_cons.mp inside
        · exact .inr List.mem_cons_self
        · obtain paired | unpaired := later.each other deeper
          · exact .inl paired
          · exact .inr (List.mem_cons_of_mem _ unpaired)
      · intro pair inside
        obtain ⟨first, second⟩ := later.within pair inside
        exact ⟨List.mem_cons_of_mem _ first, second⟩
      · intro other unpaired
        obtain rfl | deeper := List.mem_cons.mp unpaired
        · exact List.mem_cons_self
        · exact List.mem_cons_of_mem _ (later.leftWithin other deeper)
      · exact later.rightWithin

/-- Pairing by position leaves no member out either. -/
theorem Covers.byPosition {pairing : Pairing α β} {left : List α} {right : List β}
    (covers : pairing.Covers left right) : pairing.byPosition.Covers left right := by
  generalize counted : min pairing.leftOver.length pairing.rightOver.length = count
  have widths : (pairing.leftOver.take count).length = (pairing.rightOver.take count).length := by
    rw [List.length_take, List.length_take]
    omega
  constructor
  · intro member inside
    obtain ⟨other, paired⟩ | unpaired := covers.each member inside
    · exact .inl ⟨other, List.mem_append_left _ paired⟩
    · rw [← List.take_append_drop count pairing.leftOver] at unpaired
      obtain early | late := List.mem_append.mp unpaired
      · left
        obtain ⟨place, bound, rfl⟩ := List.mem_iff_getElem.mp early
        refine ⟨(pairing.rightOver.take count).get ⟨place, widths ▸ bound⟩,
          List.mem_append_right _ ?_⟩
        rw [counted, List.mem_iff_getElem]
        exact ⟨place, by rw [List.length_zip]; omega, List.getElem_zip⟩
      · right
        rw [Pairing.byPosition, counted]
        exact late
  · intro pair inside
    obtain matched | positional := List.mem_append.mp inside
    · exact covers.within pair matched
    · obtain ⟨first, second⟩ := List.of_mem_zip positional
      exact ⟨covers.leftWithin _ (List.mem_of_mem_take first),
        covers.rightWithin _ (List.mem_of_mem_take second)⟩
  · intro member unpaired
    exact covers.leftWithin _ (List.mem_of_mem_drop unpaired)
  · intro other unpaired
    exact covers.rightWithin _ (List.mem_of_mem_drop unpaired)

/-- If each member matches itself, a list is paired with itself member by member. -/
theorem byMatch_self (matching : α → α → Bool) (reflexive : ∀ member, matching member member = true)
    (members : List α) :
    byMatch matching members members = ⟨members.map fun member => (member, member), [], []⟩ := by
  induction members with
  | nil => rfl
  | cons member rest inductionHypothesis =>
    simp only [byMatch, takeFirst, reflexive, if_true, inductionHypothesis, List.map_cons]

/-- Without members left over nothing is paired by position. -/
theorem byPosition_of_leftOver_nil (pairs : List (α × β)) (right : List β) :
    byPosition ⟨pairs, [], right⟩ = ⟨pairs, [], right⟩ := by
  simp [byPosition]

end Pairing

end VirtTestTools
