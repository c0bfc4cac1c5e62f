import Mathlib.Data.List.TakeDrop
import VirtTestTools.Recursions

/-!
# Lists that are served in pages

A server hands out a list in consecutive pages of one size, counted from one; behind the
end the pages are empty. A client asks for page after page until one is short. What it has
read is a beginning of the list, and at a short page the whole list, also where the pages
come out even and the last one is empty.
-/

namespace VirtTestTools.Pages

open Recursions

variable {α : Type} {size : Nat} {items : List α} {number : Nat}

/-- A page of a list. -/
def page (size : Nat) (items : List α) (number : Nat) : List α :=
  (items.drop ((number - 1) * size)).take size

/-- What stands on the pages before a page. -/
def before (size : Nat) (items : List α) (number : Nat) : List α :=
  items.take ((number - 1) * size)

/-- Nothing comes before the first page. -/
theorem before_one : before size items 1 = [] := by
  simp [before]

/-- The items before a page and those of the page come before the next one. -/
theorem before_append_page (counted : 1 ≤ number) :
    before size items number ++ page size items number = before size items (number + 1) := by
  obtain ⟨rest, rfl⟩ : ∃ rest, number = rest + 1 := ⟨number - 1, by omega⟩
  simp only [before, page, Nat.add_sub_cancel]
  rw [Nat.succ_mul, List.take_add]

/-- Behind a full page the list goes on at most where the next page starts. -/
theorem le_length_of_full (counted : 1 ≤ number) (full : ¬(page size items number).length < size)
    (inside : (number - 1) * size ≤ items.length) : number * size ≤ items.length := by
  obtain ⟨rest, rfl⟩ : ∃ rest, number = rest + 1 := ⟨number - 1, by omega⟩
  simp only [page, Nat.add_sub_cancel, List.length_take, List.length_drop] at full inside
  rw [Nat.succ_mul]
  omega

/-- At a short page the list has been read. -/
theorem length_lt_of_short (counted : 1 ≤ number) (short : (page size items number).length < size) :
    items.length < number * size := by
  obtain ⟨rest, rfl⟩ : ∃ rest, number = rest + 1 := ⟨number - 1, by omega⟩
  simp only [page, Nat.add_sub_cancel, List.length_take, List.length_drop] at short
  rw [Nat.succ_mul]
  omega

/-- Behind a short page there are no more items. -/
theorem before_append_short (counted : 1 ≤ number)
    (short : (page size items number).length < size) :
    before size items number ++ page size items number = items := by
  rw [before_append_page counted, before, Nat.add_sub_cancel]
  exact List.take_of_length_le (Nat.le_of_lt (length_lt_of_short counted short))

/-- What has been read is a beginning of the list. -/
theorem exists_rest (counted : 1 ≤ number) :
    ∃ rest, items = before size items number ++ page size items number ++ rest := by
  rw [before_append_page counted]
  exact ⟨_, (List.take_append_drop _ _).symm⟩

section

variable {σ β : Type} {turn : σ → Turn σ β} {property : β → Prop}

/-- A loop that asks for the next page after a full one ends, and it keeps what it does
with the pages that it has read. -/
theorem returns_pages (items : List α) (positive : 0 < size) (asked : σ → Nat)
    (holds : List α → σ → Prop)
    (goesOn : ∀ state next, 1 ≤ asked state → (asked state - 1) * size ≤ items.length →
      holds (before size items (asked state)) state → turn state = .again next →
      asked next = asked state + 1 ∧ ¬(page size items (asked state)).length < size ∧
        holds (before size items (asked state + 1)) next)
    (left : ∀ state result, 1 ≤ asked state → (asked state - 1) * size ≤ items.length →
      holds (before size items (asked state)) state → turn state = .leave result → property result)
    (state : σ) (starts : asked state = 1) (empty : holds [] state) :
    Returns (fun bound => loop turn bound state) property := by
  refine returns_loop (fun state => items.length + 2 - asked state)
    (fun state => 1 ≤ asked state ∧ (asked state - 1) * size ≤ items.length ∧
      holds (before size items (asked state)) state) ?_ ?_ state ?_
  · rintro state next ⟨counted, inside, held⟩ ending
    obtain ⟨following, full, kept⟩ := goesOn state next counted inside held ending
    have reached := le_length_of_full counted full inside
    have bounded : asked state ≤ asked state * size := Nat.le_mul_of_pos_right _ positive
    rw [following, Nat.add_sub_cancel]
    exact ⟨⟨Nat.le_add_left _ _, reached, kept⟩, by omega⟩
  · rintro state result ⟨counted, inside, held⟩ ending
    exact left state result counted inside held ending
  · rw [starts, before_one]
    exact ⟨Nat.le_refl 1, by simp, empty⟩

end

end VirtTestTools.Pages
