import VirtTestTools.Dict
import Mathlib.Data.List.Perm.Basic

/-!
# Results in completion order

A pool runs submitted tasks and hands their results over in the order in which
they complete, which may be any order of the submission. Results that are
tables can be merged one after the other; a later table then overwrites the keys
it shares with an earlier one. The merged table is independent of the order when
no two tasks share a key. Results that are stored under the key of their own
task never interfere.
-/

namespace VirtTestTools

universe u v w

/-- An order in which the submitted tasks complete. -/
structure Completion {α : Type u} (submitted : List α) where
  order : List α
  complete : order.Perm submitted

namespace Completion

variable {α : Type u} {submitted : List α}

/-- Completion in the order of submission. -/
def inOrder (submitted : List α) : Completion submitted := ⟨submitted, .refl _⟩

/-- Completion in the opposite order. -/
def reversed (submitted : List α) : Completion submitted :=
  ⟨submitted.reverse, List.reverse_perm submitted⟩

/-- The tasks that complete are those that were submitted. -/
theorem mem_order (completion : Completion submitted) (task : α) :
    task ∈ completion.order ↔ task ∈ submitted :=
  completion.complete.mem_iff

end Completion

namespace Dict

variable {κ : Type u} {ν : Type v} {α : Type w} [DecidableEq κ]

/-- Dictionaries built in different ways are compared by their lookups. -/
theorem mem_items_congr (left right : Dict κ ν) (same : ∀ key, left.get key = right.get key)
    (item : κ × ν) : item ∈ left.items ↔ item ∈ right.items := by
  obtain ⟨key, value⟩ := item
  rw [← get_eq_some_iff, ← get_eq_some_iff, same]

/-- Lookup after an update with a list of distinct keys. -/
theorem get_update (dict other : Dict κ ν) (key : κ) :
    (dict.update other.items).get key = (other.get key).or (dict.get key) := by
  obtain ⟨items, distinct⟩ := other
  simp only [update]
  induction items generalizing dict with
  | nil => rfl
  | cons item rest inductionHypothesis =>
    have tail := (List.nodup_cons.mp distinct).2
    have head := (List.nodup_cons.mp distinct).1
    rw [List.foldl_cons, inductionHypothesis _ tail, get_set]
    by_cases same : item.1 = key
    · subst same
      have absent : (⟨rest, tail⟩ : Dict κ ν).get item.1 = none := by
        rw [get_eq_none_iff, ← Bool.not_eq_true, has, decide_eq_true_eq]
        exact head
      rw [absent]
      simp [get]
    · simp [get, same, Ne.symm same]

/-- Merge the tables of the tasks, in the order in which they complete. -/
def mergeAll (table : α → Dict κ ν) (completed : List α) : Dict κ ν :=
  completed.foldl (fun merged task => merged.update (table task).items) ∅

/-- The table of the last task to complete decides each key it has. -/
theorem get_foldl_update (table : α → Dict κ ν) (completed : List α) (merged : Dict κ ν)
    (key : κ) :
    (completed.foldl (fun merged task => merged.update (table task).items) merged).get key =
      (completed.reverse.findSome? (fun task => (table task).get key)).or (merged.get key) := by
  induction completed generalizing merged with
  | nil => rfl
  | cons task rest inductionHypothesis =>
    rw [List.foldl_cons, inductionHypothesis, get_update, List.reverse_cons,
      List.findSome?_append]
    rw [List.findSome?_singleton]
    cases rest.reverse.findSome? (fun task => (table task).get key) <;>
      cases (table task).get key <;> rfl

/-- Without shared keys a merged value is the value of the one task that has it. -/
theorem get_mergeAll (table : α → Dict κ ν) (completed : List α)
    (disjoint : ∀ left ∈ completed, ∀ right ∈ completed, ∀ key,
      (table left).has key = true → (table right).has key = true → left = right)
    (key : κ) (value : ν) :
    (mergeAll table completed).get key = some value ↔
      ∃ task ∈ completed, (table task).get key = some value := by
  have merged : (mergeAll table completed).get key =
      completed.reverse.findSome? (fun task => (table task).get key) := by
    rw [mergeAll, get_foldl_update]
    exact Option.or_none
  rw [merged]
  constructor
  · intro found
    obtain ⟨task, member, stored⟩ := List.exists_of_findSome?_eq_some found
    exact ⟨task, List.mem_reverse.mp member, stored⟩
  · rintro ⟨task, member, stored⟩
    cases found : completed.reverse.findSome? (fun task => (table task).get key) with
    | none =>
      have missing := List.findSome?_eq_none_iff.mp found task (List.mem_reverse.mpr member)
      rw [missing] at stored
      cases stored
    | some other =>
      obtain ⟨owner, ownerMember, ownerStored⟩ := List.exists_of_findSome?_eq_some found
      have same := disjoint owner (List.mem_reverse.mp ownerMember) task member key
        ((has_iff _ _).mpr ⟨other, ownerStored⟩) ((has_iff _ _).mpr ⟨value, stored⟩)
      rw [same, stored] at ownerStored
      exact ownerStored.symm

/-- Merging tables without shared keys gives the same lookups in every order. -/
theorem get_mergeAll_perm (table : α → Dict κ ν) (left right : List α) (perm : left.Perm right)
    (disjoint : ∀ first ∈ left, ∀ second ∈ left, ∀ key,
      (table first).has key = true → (table second).has key = true → first = second)
    (key : κ) : (mergeAll table left).get key = (mergeAll table right).get key := by
  ext value
  rw [get_mergeAll table left disjoint, get_mergeAll table right]
  · simp only [perm.mem_iff]
  · intro first firstMember second secondMember
    exact disjoint first (perm.mem_iff.mpr firstMember) second (perm.mem_iff.mpr secondMember)

/-- Change the values under the keys of a list of results. -/
def applyAll {ρ : Type w} (change : ν → ρ → ν) (dict : Dict κ ν) (results : List (κ × ρ)) :
    Dict κ ν :=
  results.foldl (fun current result =>
    match current.get result.1 with
    | none => current
    | some value => current.set result.1 (change value result.2)) dict

/-- Each key is changed by its own result only. -/
theorem get_applyAll {ρ : Type w} (change : ν → ρ → ν) (dict : Dict κ ν) (results : Dict κ ρ)
    (key : κ) :
    (dict.applyAll change results.items).get key =
      match results.get key with
      | none => dict.get key
      | some result => (dict.get key).map (fun value => change value result) := by
  obtain ⟨items, distinct⟩ := results
  simp only [applyAll]
  induction items generalizing dict with
  | nil => rfl
  | cons item rest inductionHypothesis =>
    have tail := (List.nodup_cons.mp distinct).2
    have head := (List.nodup_cons.mp distinct).1
    rw [List.foldl_cons, inductionHypothesis _ tail]
    by_cases same : item.1 = key
    · subst same
      have absent : (⟨rest, tail⟩ : Dict κ ρ).get item.1 = none := by
        rw [get_eq_none_iff, ← Bool.not_eq_true, has, decide_eq_true_eq]
        exact head
      have own : (⟨item :: rest, distinct⟩ : Dict κ ρ).get item.1 = some item.2 := by
        simp [get]
      rw [absent, own]
      cases stored : dict.get item.1 with
      | none => exact stored
      | some value => simp [get_set]
    · have other : (⟨item :: rest, distinct⟩ : Dict κ ρ).get key =
          (⟨rest, tail⟩ : Dict κ ρ).get key := by
        simp [get, same]
      have kept : (match dict.get item.1 with
          | none => dict
          | some value => dict.set item.1 (change value item.2)).get key = dict.get key := by
        cases dict.get item.1 with
        | none => rfl
        | some value => simp [get_set, Ne.symm same]
      rw [other, kept]

/-- Results change values in place, so the keys and their order stay. -/
theorem keys_set_of_get (dict : Dict κ ν) (key : κ) (value : ν) (present : dict.has key = true) :
    (dict.set key value).keys = dict.keys := by
  obtain ⟨items, distinct⟩ := dict
  have stored : key ∈ items.map Prod.fst := of_decide_eq_true present
  change (setItems key value items).map Prod.fst = items.map Prod.fst
  clear present distinct
  induction items with
  | nil => cases stored
  | cons item rest inductionHypothesis =>
    by_cases same : item.1 = key
    · simp [setItems, same]
    · simp only [List.map_cons, List.mem_cons, Ne.symm same, false_or] at stored
      simp [setItems, same, inductionHypothesis stored]

/-- Results change no keys. -/
theorem keys_applyAll {ρ : Type w} (change : ν → ρ → ν) (dict : Dict κ ν)
    (results : List (κ × ρ)) : (dict.applyAll change results).keys = dict.keys := by
  simp only [applyAll]
  induction results generalizing dict with
  | nil => rfl
  | cons result rest inductionHypothesis =>
    rw [List.foldl_cons, inductionHypothesis]
    cases stored : dict.get result.1 with
    | none => rfl
    | some value =>
      exact keys_set_of_get dict result.1 _ ((has_iff _ _).mpr ⟨value, stored⟩)

end Dict

end VirtTestTools
