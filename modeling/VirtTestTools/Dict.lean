import Mathlib.Data.List.Basic
import Mathlib.Data.List.Find
import Mathlib.Data.List.Nodup

/-!
# Insertion-ordered dictionaries

A Python dictionary is a finite map that also fixes an iteration order. It is
represented by its list of items; the structure carries the proof that no key
occurs twice, so that looking a key up and scanning the items agree by
construction.
-/

namespace VirtTestTools

universe u v

/-- A finite map with an iteration order and distinct keys. -/
structure Dict (κ : Type u) (ν : Type v) where
  items : List (κ × ν)
  distinct : (items.map Prod.fst).Nodup
deriving DecidableEq

namespace Dict

variable {κ : Type u} {ν : Type v}

/-- The dictionary without items. -/
def empty : Dict κ ν := ⟨[], List.nodup_nil⟩

instance : EmptyCollection (Dict κ ν) := ⟨empty⟩

instance : Inhabited (Dict κ ν) := ⟨empty⟩

/-- The keys in the order of their first insertion. -/
def keys (dict : Dict κ ν) : List κ := dict.items.map Prod.fst

/-- The keys that remain when values are recomputed and some items dropped. -/
theorem keys_filterMap_sublist (change : κ → ν → Option ν) (items : List (κ × ν)) :
    ((items.filterMap (fun item => (change item.1 item.2).map (fun value => (item.1, value)))).map
      Prod.fst).Sublist (items.map Prod.fst) := by
  induction items with
  | nil => exact List.Sublist.refl _
  | cons item rest inductionHypothesis =>
    cases kept : change item.1 item.2 with
    | none => simpa [List.filterMap_cons, kept] using inductionHypothesis.cons item.1
    | some value => simpa [List.filterMap_cons, kept] using inductionHypothesis.cons_cons item.1

/-- Recompute every value in place; an item whose new value is `none` is
deleted. -/
def filterMap (change : κ → ν → Option ν) (dict : Dict κ ν) : Dict κ ν :=
  ⟨dict.items.filterMap (fun item => (change item.1 item.2).map (fun value => (item.1, value))),
    dict.distinct.sublist (keys_filterMap_sublist change dict.items)⟩

variable [DecidableEq κ]

/-- `dict.get(key)`; an absent key gives `none`. -/
def get (dict : Dict κ ν) (key : κ) : Option ν :=
  (dict.items.find? (fun item => decide (item.1 = key))).map Prod.snd

/-- `key in dict`. -/
def has (dict : Dict κ ν) (key : κ) : Bool := decide (key ∈ dict.keys)

/-- The items after `dict[key] = value`: an existing key keeps its place. -/
def setItems (key : κ) (value : ν) : List (κ × ν) → List (κ × ν)
  | [] => [(key, value)]
  | item :: rest =>
    if item.1 = key then (key, value) :: rest else item :: setItems key value rest

/-- Setting a key adds it to the keys. -/
theorem mem_keys_setItems (key other : κ) (value : ν) (items : List (κ × ν)) :
    other ∈ (setItems key value items).map Prod.fst ↔
      other = key ∨ other ∈ items.map Prod.fst := by
  induction items with
  | nil => simp [setItems]
  | cons item rest inductionHypothesis =>
    by_cases same : item.1 = key
    · simp [setItems, same]
    · simp only [setItems, same, ↓reduceIte, List.map_cons, List.mem_cons, inductionHypothesis]
      tauto

/-- Setting a key leaves the keys distinct. -/
theorem distinct_setItems (key : κ) (value : ν) (items : List (κ × ν))
    (distinct : (items.map Prod.fst).Nodup) :
    ((setItems key value items).map Prod.fst).Nodup := by
  induction items with
  | nil => simp [setItems]
  | cons item rest inductionHypothesis =>
    simp only [List.map_cons, List.nodup_cons] at distinct
    by_cases same : item.1 = key
    · subst same
      simpa [setItems] using distinct
    · simp only [setItems, same, ↓reduceIte, List.map_cons, List.nodup_cons]
      refine ⟨?_, inductionHypothesis distinct.2⟩
      rw [mem_keys_setItems]
      rintro (equal | member)
      · exact same equal
      · exact distinct.1 member

/-- `dict[key] = value`. -/
def set (dict : Dict κ ν) (key : κ) (value : ν) : Dict κ ν :=
  ⟨setItems key value dict.items, distinct_setItems key value dict.items dict.distinct⟩

/-- `dict.update(other)` with the items of `other` in order. -/
def update (dict : Dict κ ν) (other : List (κ × ν)) : Dict κ ν :=
  other.foldl (fun current item => current.set item.1 item.2) dict

/-- Lookup and iteration agree. -/
theorem get_eq_some_iff (dict : Dict κ ν) (key : κ) (value : ν) :
    dict.get key = some value ↔ (key, value) ∈ dict.items := by
  obtain ⟨items, distinct⟩ := dict
  simp only [get]
  induction items with
  | nil => simp
  | cons item rest inductionHypothesis =>
    simp only [List.map_cons, List.nodup_cons] at distinct
    by_cases same : item.1 = key
    · subst same
      simp only [List.find?_cons, decide_true, Option.map_some, Option.some.injEq, List.mem_cons,
        Prod.ext_iff, true_and]
      constructor
      · intro equal
        exact Or.inl equal.symm
      · rintro (equal | member)
        · exact equal.symm
        · exact absurd (List.mem_map_of_mem member) distinct.1
    · have different : (key, value) ≠ item := by
        intro equal
        exact same (congrArg Prod.fst equal).symm
      simp [same, inductionHypothesis distinct.2, different]

/-- Items after an assignment: the assigned one, and the old ones of other keys. -/
theorem mem_setItems (key : κ) (value : ν) (items : List (κ × ν))
    (distinct : (items.map Prod.fst).Nodup) (item : κ × ν) :
    item ∈ setItems key value items ↔ item = (key, value) ∨ item ∈ items ∧ item.1 ≠ key := by
  induction items with
  | nil => simp [setItems]
  | cons first rest inductionHypothesis =>
    simp only [List.map_cons, List.nodup_cons] at distinct
    by_cases same : first.1 = key
    · subst same
      simp only [setItems, ↓reduceIte, List.mem_cons]
      constructor
      · rintro (equal | member)
        · exact Or.inl equal
        · refine Or.inr ⟨Or.inr member, ?_⟩
          intro equal
          exact distinct.1 (equal ▸ List.mem_map_of_mem member)
      · rintro (equal | ⟨rfl | member, other⟩)
        · exact Or.inl equal
        · exact absurd rfl other
        · exact Or.inr member
    · simp only [setItems, same, ↓reduceIte, List.mem_cons, inductionHypothesis distinct.2]
      constructor
      · rintro (rfl | equal | ⟨member, other⟩)
        · exact Or.inr ⟨Or.inl rfl, same⟩
        · exact Or.inl equal
        · exact Or.inr ⟨Or.inr member, other⟩
      · rintro (equal | ⟨rfl | member, other⟩)
        · exact Or.inr (Or.inl equal)
        · exact Or.inl rfl
        · exact Or.inr (Or.inr ⟨member, other⟩)

/-- Lookup after an assignment. -/
theorem get_set (dict : Dict κ ν) (key other : κ) (value : ν) :
    (dict.set key value).get other = if other = key then some value else dict.get other := by
  ext found
  rw [get_eq_some_iff, set, mem_setItems key value dict.items dict.distinct]
  by_cases same : other = key
  · subst same
    simp [eq_comm]
  · simp [same, get_eq_some_iff]

/-- A property of all items survives an assignment that has it. -/
theorem forall_items_set {holds : κ × ν → Prop} (dict : Dict κ ν) (key : κ) (value : ν)
    (all : ∀ item ∈ dict.items, holds item) (assigned : holds (key, value)) :
    ∀ item ∈ (dict.set key value).items, holds item := by
  intro item member
  rw [set, mem_setItems key value dict.items dict.distinct] at member
  rcases member with rfl | ⟨old, -⟩
  · exact assigned
  · exact all item old

/-- An update sets its first item before the rest. -/
theorem update_cons (dict : Dict κ ν) (item : κ × ν) (rest : List (κ × ν)) :
    dict.update (item :: rest) = (dict.set item.1 item.2).update rest := rfl

/-- A lookup fails after an update if it failed before and no item has the key. -/
theorem get_update_eq_none (dict : Dict κ ν) (other : List (κ × ν)) (key : κ) :
    (dict.update other).get key = none ↔ dict.get key = none ∧ ∀ item ∈ other, item.1 ≠ key := by
  induction other generalizing dict with
  | nil => simp [update]
  | cons item rest inductionHypothesis =>
    rw [update_cons, inductionHypothesis, get_set, List.forall_mem_cons]
    by_cases same : key = item.1
    · simp [same]
    · simp [same, Ne.symm same]

/-- What an update adds comes from its items. -/
theorem mem_of_get_update (dict : Dict κ ν) (other : List (κ × ν)) (key : κ) (value : ν)
    (found : (dict.update other).get key = some value) :
    (key, value) ∈ other ∨ dict.get key = some value := by
  induction other generalizing dict with
  | nil => exact Or.inr found
  | cons item rest inductionHypothesis =>
    rw [update_cons] at found
    rcases inductionHypothesis _ found with later | assigned
    · exact Or.inl (List.mem_cons_of_mem _ later)
    · rw [get_set] at assigned
      by_cases same : key = item.1
      · rw [if_pos same] at assigned
        cases assigned
        subst same
        exact Or.inl List.mem_cons_self
      · rw [if_neg same] at assigned
        exact Or.inr assigned

/-- A dictionary built by computing a value for each key of a list. -/
theorem get_update_map (dict : Dict κ ν) (keys : List κ) (value : κ → ν) (key : κ) :
    (dict.update (keys.map fun other => (other, value other))).get key =
      if key ∈ keys then some (value key) else dict.get key := by
  induction keys generalizing dict with
  | nil => rfl
  | cons first rest inductionHypothesis =>
    simp only [List.map_cons, update, List.foldl_cons] at inductionHypothesis ⊢
    rw [inductionHypothesis, get_set]
    by_cases later : key ∈ rest
    · simp [later]
    · by_cases same : key = first <;> simp [later, same]

/-- A dictionary updated with a value for some keys of a list. -/
theorem get_update_filterMap (dict : Dict κ ν) (keys : List κ) (value : κ → Option ν) (key : κ) :
    (dict.update (keys.filterMap fun other => (value other).map fun found => (other, found))).get
        key =
      if key ∈ keys then (value key).or (dict.get key) else dict.get key := by
  induction keys generalizing dict with
  | nil => rfl
  | cons first rest inductionHypothesis =>
    cases found : value first with
    | none =>
      simp only [List.filterMap_cons, found, Option.map_none]
      rw [inductionHypothesis]
      by_cases same : key = first
      · subst same
        by_cases later : key ∈ rest <;> simp [later, found]
      · simp [same]
    | some assigned =>
      simp only [List.filterMap_cons, found, Option.map_some, update, List.foldl_cons]
      change ((dict.set first assigned).update _).get key = _
      rw [inductionHypothesis, get_set]
      by_cases same : key = first
      · subst same
        by_cases later : key ∈ rest <;> simp [later, found]
      · simp [same]

/-- Lookup in a dictionary with recomputed values. -/
theorem get_filterMap (dict : Dict κ ν) (change : κ → ν → Option ν) (key : κ) :
    (dict.filterMap change).get key = (dict.get key).bind (change key) := by
  ext value
  simp only [Option.bind_eq_some_iff, get_eq_some_iff, filterMap, List.mem_filterMap,
    Option.map_eq_some_iff, Prod.mk.injEq]
  constructor
  · rintro ⟨⟨found, old⟩, member, new, changed, rfl, rfl⟩
    exact ⟨old, member, changed⟩
  · rintro ⟨old, member, changed⟩
    exact ⟨(key, old), member, value, changed, rfl, rfl⟩

/-- A key is there when it has a value. -/
theorem has_iff (dict : Dict κ ν) (key : κ) :
    dict.has key = true ↔ ∃ value, dict.get key = some value := by
  simp only [has, keys, decide_eq_true_eq, get_eq_some_iff, List.mem_map]
  constructor
  · rintro ⟨⟨found, value⟩, member, rfl⟩
    exact ⟨value, member⟩
  · rintro ⟨value, member⟩
    exact ⟨(key, value), member, rfl⟩

/-- A key without a value is not there. -/
theorem get_eq_none_iff (dict : Dict κ ν) (key : κ) :
    dict.get key = none ↔ dict.has key = false := by
  rw [← Bool.not_eq_true, has_iff]
  cases dict.get key <;> simp

/-- An update gives a key the value of its last item. -/
theorem get_update_eq_getLast (dict : Dict κ ν) (other : List (κ × ν)) (key : κ) :
    (dict.update other).get key =
      (((other.filter (fun item => decide (item.1 = key))).getLast?).map Prod.snd).or
        (dict.get key) := by
  induction other generalizing dict with
  | nil => rfl
  | cons item rest inductionHypothesis =>
    rw [update_cons, inductionHypothesis, get_set]
    by_cases same : item.1 = key
    · rw [List.filter_cons_of_pos (by simpa using same), List.getLast?_cons, if_pos same.symm]
      cases (rest.filter (fun item => decide (item.1 = key))).getLast? <;> rfl
    · rw [List.filter_cons_of_neg (by simpa using same), if_neg (Ne.symm same)]

/-- The keys after an assignment. -/
theorem keys_set (dict : Dict κ ν) (key : κ) (value : ν) :
    (dict.set key value).keys = if key ∈ dict.keys then dict.keys else dict.keys ++ [key] := by
  obtain ⟨items, distinct⟩ := dict
  simp only [keys, set]
  induction items with
  | nil => rfl
  | cons item rest inductionHypothesis =>
    by_cases same : item.1 = key
    · simp [setItems, same]
    · have rest_keys := inductionHypothesis (List.nodup_cons.mp distinct).2
      by_cases later : key ∈ rest.map Prod.fst
      · simp only [setItems, same, ↓reduceIte, List.map_cons, rest_keys, later, List.mem_cons,
          or_true]
      · simp only [setItems, same, ↓reduceIte, List.map_cons, rest_keys, later, List.mem_cons,
          Ne.symm same, or_self, List.cons_append]

/-- A new key comes last. -/
theorem items_set_of_new (dict : Dict κ ν) (key : κ) (value : ν) (new : key ∉ dict.keys) :
    (dict.set key value).items = dict.items ++ [(key, value)] := by
  obtain ⟨items, distinct⟩ := dict
  simp only [keys] at new
  simp only [set]
  induction items with
  | nil => rfl
  | cons item rest inductionHypothesis =>
    rw [List.map_cons, List.mem_cons, not_or] at new
    rw [setItems, if_neg (Ne.symm new.1), inductionHypothesis (List.nodup_cons.mp distinct).2 new.2,
      List.cons_append]

/-- Items with new keys are added in order. -/
theorem items_update_of_distinct (dict : Dict κ ν) (other : List (κ × ν))
    (apart : (dict.keys ++ other.map Prod.fst).Nodup) :
    (dict.update other).items = dict.items ++ other := by
  induction other generalizing dict with
  | nil => simp [update]
  | cons item rest inductionHypothesis =>
    have new : item.1 ∉ dict.keys := fun known =>
      (List.nodup_append'.mp apart).2.2 known (List.mem_cons_self ..)
    have grown : (dict.set item.1 item.2).keys = dict.keys ++ [item.1] := by
      rw [keys_set, if_neg new]
    rw [update_cons, inductionHypothesis, items_set_of_new dict item.1 item.2 new,
      List.append_assoc, List.singleton_append]
    rw [grown, List.append_assoc]
    exact apart

/-- The first key with a property is the first one assigned that has it. -/
theorem find_keys_update (dict : Dict κ ν) (other : List (κ × ν)) (holds : κ → Bool) :
    (dict.update other).keys.find? holds = (dict.keys ++ other.map Prod.fst).find? holds := by
  induction other generalizing dict with
  | nil => simp [update]
  | cons item rest inductionHypothesis =>
    rw [update_cons, inductionHypothesis, keys_set, List.map_cons]
    split
    · rename_i known
      simp only [List.find?_append, List.find?_cons]
      cases found : dict.keys.find? holds with
      | some key => rfl
      | none =>
        have fails : holds item.1 = false := by
          simpa using List.find?_eq_none.mp found item.1 known
        simp [fails]
    · simp [List.append_assoc]

/-- A search of the items is a search of the keys that looks their values up. -/
theorem find_items (dict : Dict κ ν) (holds : κ → ν → Bool) :
    (dict.items.find? (fun item => holds item.1 item.2)).map Prod.fst =
      dict.keys.find? (fun key => (dict.get key).any (holds key)) := by
  rw [keys, List.find?_map]
  congr 1
  apply List.find?_congr
  intro item member
  rw [Function.comp_apply, (dict.get_eq_some_iff item.1 item.2).mpr member]
  rfl

end Dict

end VirtTestTools
