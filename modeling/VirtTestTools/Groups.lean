import Mathlib.Algebra.GroupWithZero.Nat
import VirtTestTools.Dict

/-!
# Groups and totals

A `defaultdict` that a loop fills: each entry changes the value of its key, which starts
with a default. The value of a key is made by the entries of the key, in the order of the
loop. What each entry adds to the weight of its value is added to the total of the weights.

Entries that are assigned one after the other may replace each other. Then the total of the
dictionary falls short of that of the entries, if every entry has a weight.
-/

namespace VirtTestTools

universe u v w

namespace Dict

variable {κ : Type u} {ν : Type v} {α : Type w} [DecidableEq κ]

/-! ## Groups -/

section Groups

variable (start : ν) (change : ν → α → ν)

/-- `dict[key] = change(dict[key], value)`. -/
def accumulate (dict : Dict κ ν) (key : κ) (value : α) : Dict κ ν :=
  dict.set key (change ((dict.get key).getD start) value)

/-- The loop over the entries. -/
def accumulateAll (dict : Dict κ ν) (entries : List (κ × α)) : Dict κ ν :=
  entries.foldl (fun groups entry => groups.accumulate start change entry.1 entry.2) dict

/-- The entries of a key, in order. -/
def valuesOf (entries : List (κ × α)) (key : κ) : List α :=
  (entries.filter fun entry => decide (entry.1 = key)).map Prod.snd

/-- The first entry is accumulated before the rest. -/
theorem accumulateAll_cons (dict : Dict κ ν) (entry : κ × α) (rest : List (κ × α)) :
    dict.accumulateAll start change (entry :: rest) =
      (dict.accumulate start change entry.1 entry.2).accumulateAll start change rest := rfl

/-- Setting a key adds it to the keys. -/
theorem mem_keys_set (dict : Dict κ ν) (key other : κ) (value : ν) :
    other ∈ (dict.set key value).keys ↔ other = key ∨ other ∈ dict.keys := by
  rw [keys_set]
  split
  · rename_i present
    constructor
    · exact Or.inr
    · rintro (rfl | known)
      · exact present
      · exact known
  · rw [List.mem_append, List.mem_singleton]
    exact or_comm

/-- The keys are those from before and those of the entries. -/
theorem mem_keys_accumulateAll (dict : Dict κ ν) (entries : List (κ × α)) (key : κ) :
    key ∈ (dict.accumulateAll start change entries).keys ↔
      key ∈ dict.keys ∨ key ∈ entries.map Prod.fst := by
  induction entries generalizing dict with
  | nil => simp [accumulateAll]
  | cons entry rest inductionHypothesis =>
    rw [accumulateAll_cons, inductionHypothesis, accumulate, mem_keys_set, List.map_cons,
      List.mem_cons, or_assoc, or_left_comm]

/-- A value accumulates the entries of its key in turn. -/
theorem get_accumulateAll (dict : Dict κ ν) (entries : List (κ × α)) (key : κ) :
    ((dict.accumulateAll start change entries).get key).getD start =
      (valuesOf entries key).foldl change ((dict.get key).getD start) := by
  induction entries generalizing dict with
  | nil => rfl
  | cons entry rest inductionHypothesis =>
    rw [accumulateAll_cons, inductionHypothesis, accumulate, get_set, valuesOf, valuesOf,
      List.filter_cons]
    by_cases same : key = entry.1
    · subst same
      simp
    · simp [same, Ne.symm same]

/-- A group is made by the entries of its key, and there is one for each key. -/
theorem mem_items_accumulateAll (entries : List (κ × α)) (key : κ) (value : ν) :
    (key, value) ∈ ((empty : Dict κ ν).accumulateAll start change entries).items ↔
      key ∈ entries.map Prod.fst ∧ value = (valuesOf entries key).foldl change start := by
  have own := get_accumulateAll start change (empty : Dict κ ν) entries key
  have known := (mem_keys_accumulateAll start change (empty : Dict κ ν) entries key).trans
    (or_iff_right List.not_mem_nil)
  have nothing : ((empty : Dict κ ν).get key).getD start = start := rfl
  rw [nothing] at own
  rw [← get_eq_some_iff, ← known, ← own]
  generalize (empty : Dict κ ν).accumulateAll start change entries = groups
  cases found : groups.get key with
  | none =>
    have absent := (get_eq_none_iff groups key).mp found
    rw [has, decide_eq_false_iff_not] at absent
    simp [absent]
  | some group =>
    have present : key ∈ groups.keys := by
      apply List.mem_map.mpr
      exact ⟨(key, group), (get_eq_some_iff _ _ _).mp found, rfl⟩
    simp [present, eq_comm]

/-- A `defaultdict(list)` to which the entries are appended. -/
def group (entries : List (κ × α)) : Dict κ (List α) :=
  empty.accumulateAll [] (fun values value => values ++ [value]) entries

/-- A group has the values of its key. -/
theorem mem_items_group (entries : List (κ × α)) (key : κ) (values : List α) :
    (key, values) ∈ (group entries).items ↔
      key ∈ entries.map Prod.fst ∧ values = valuesOf entries key := by
  have appended (before added : List α) :
      added.foldl (fun values value => values ++ [value]) before = before ++ added := by
    induction added generalizing before with
    | nil => exact (List.append_nil before).symm
    | cons value rest inductionHypothesis =>
      rw [List.foldl_cons, inductionHypothesis, List.append_assoc, List.singleton_append]
  rw [group, mem_items_accumulateAll, appended, List.nil_append]

end Groups

/-! ## Totals -/

section Totals

variable (weight : ν → Nat)

/-- The weights of the values together. -/
def total (dict : Dict κ ν) : Nat := (dict.items.map fun item => weight item.2).sum

/-- An assignment replaces the weight of the old value by that of the new one. -/
theorem total_set (dict : Dict κ ν) (key : κ) (value : ν) :
    (dict.set key value).total weight + (dict.get key).elim 0 weight =
      dict.total weight + weight value := by
  obtain ⟨items, distinct⟩ := dict
  simp only [total, set, get]
  induction items with
  | nil => simp [setItems]
  | cons item rest inductionHypothesis =>
    have tail := inductionHypothesis (List.nodup_cons.mp distinct).2
    by_cases same : item.1 = key
    · simp only [setItems, same, ↓reduceIte, List.map_cons, List.sum_cons, List.find?_cons,
        decide_true, Option.map_some, Option.elim_some]
      omega
    · simp only [setItems, same, ↓reduceIte, List.map_cons, List.sum_cons, List.find?_cons,
        decide_false]
      omega

/-- The total of a dictionary that a loop fills, if every entry adds to the weight of its value. -/
theorem total_accumulateAll (start : ν) (change : ν → α → ν) (gain : α → Nat)
    (nothing : weight start = 0)
    (gains : ∀ value entry, weight (change value entry) = weight value + gain entry)
    (dict : Dict κ ν) (entries : List (κ × α)) :
    (dict.accumulateAll start change entries).total weight =
      dict.total weight + (entries.map fun entry => gain entry.2).sum := by
  induction entries generalizing dict with
  | nil => rfl
  | cons entry rest inductionHypothesis =>
    have step := total_set weight dict entry.1 (change ((dict.get entry.1).getD start) entry.2)
    have old : weight ((dict.get entry.1).getD start) = (dict.get entry.1).elim 0 weight := by
      cases dict.get entry.1 with
      | none => exact nothing
      | some value => rfl
    rw [gains, old] at step
    rw [accumulateAll_cons, inductionHypothesis, accumulate, List.map_cons, List.sum_cons]
    omega

/-- An update adds at most the weights of its entries. -/
theorem total_update_le (dict : Dict κ ν) (entries : List (κ × ν)) :
    (dict.update entries).total weight ≤
      dict.total weight + (entries.map fun entry => weight entry.2).sum := by
  induction entries generalizing dict with
  | nil => exact Nat.le_refl _
  | cons entry rest inductionHypothesis =>
    have step := total_set weight dict entry.1 entry.2
    have tail := inductionHypothesis (dict.set entry.1 entry.2)
    rw [update_cons, List.map_cons, List.sum_cons]
    omega

/-- Nothing is lost exactly if no entry replaces another value.

Proof: by induction on the entries. An entry that replaces a value loses its weight, which no later
entry brings back. -/
theorem total_update_eq_iff (dict : Dict κ ν) (entries : List (κ × ν))
    (held : ∀ item ∈ dict.items, 0 < weight item.2)
    (added : ∀ entry ∈ entries, 0 < weight entry.2) :
    (dict.update entries).total weight =
        dict.total weight + (entries.map fun entry => weight entry.2).sum ↔
      (dict.keys ++ entries.map Prod.fst).Nodup := by
  induction entries generalizing dict with
  | nil =>
    simp only [update, List.foldl_nil, List.map_nil, List.sum_nil, Nat.add_zero, List.append_nil,
      true_iff]
    exact dict.distinct
  | cons entry rest inductionHypothesis =>
    have step := total_set weight dict entry.1 entry.2
    have tail := total_update_le weight (dict.set entry.1 entry.2) rest
    have kept := inductionHypothesis (dict.set entry.1 entry.2)
      (forall_items_set dict entry.1 entry.2 held (added entry List.mem_cons_self))
      fun other inside => added other (List.mem_cons_of_mem _ inside)
    rw [update_cons, List.map_cons, List.map_cons, List.sum_cons]
    by_cases present : entry.1 ∈ dict.keys
    · obtain ⟨item, inside, same⟩ := List.mem_map.mp present
      have found : dict.get entry.1 = some item.2 := by
        rw [get_eq_some_iff, ← same]
        exact inside
      have lost := held item inside
      rw [found, Option.elim_some] at step
      constructor
      · omega
      · intro distinct
        rw [List.nodup_append] at distinct
        exact absurd rfl (distinct.2.2 entry.1 present entry.1 List.mem_cons_self)
    · have absent : dict.get entry.1 = none := by
        rw [get_eq_none_iff, has, decide_eq_false_iff_not]
        exact present
      rw [absent, Option.elim_none] at step
      rw [keys_set, if_neg present, List.append_assoc, List.singleton_append] at kept
      rw [← kept]
      omega

end Totals

end Dict

end VirtTestTools
