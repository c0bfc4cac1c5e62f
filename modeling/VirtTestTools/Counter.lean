import VirtTestTools.Dict
import Mathlib.Data.Multiset.AddSub

/-!
# Counters

A counter is a dictionary of multiplicities; a key it does not have counts zero.
Allowances are consumed one for one: a loop over a list takes one unit of the
counter for each element while there is one, and lets through the elements that
find none. What is let through and what is left over are truncated differences
of multiplicities, whatever the order of the list.
-/

namespace VirtTestTools

universe u v

/-- `collections.Counter`. -/
abbrev Counter (κ : Type u) := Dict κ Nat

namespace Counter

variable {κ : Type u} {α : Type v} [DecidableEq κ]

/-- `counter[key]`. -/
def count (counter : Counter κ) (key : κ) : Nat := (counter.get key).getD 0

/-- `counter[key] += 1`. -/
def add (counter : Counter κ) (key : κ) : Counter κ := counter.set key (counter.count key + 1)

/-- `counter[key] -= 1` for a positive count. -/
def take (counter : Counter κ) (key : κ) : Counter κ := counter.set key (counter.count key - 1)

/-- `counter.update(keys)`. -/
def addAll (counter : Counter κ) (keys : List κ) : Counter κ := keys.foldl add counter

/-- `Counter(keys)`. -/
def ofList (keys : List κ) : Counter κ := addAll ∅ keys

/-- One more of a key. -/
theorem count_add (counter : Counter κ) (key other : κ) :
    (counter.add key).count other = counter.count other + if other = key then 1 else 0 := by
  simp only [count, add, Dict.get_set]
  split
  · rename_i same
    subst same
    rfl
  · rfl

/-- One less of a key, if there is one. -/
theorem count_take (counter : Counter κ) (key other : κ) :
    (counter.take key).count other = counter.count other - if other = key then 1 else 0 := by
  simp only [count, take, Dict.get_set]
  split
  · rename_i same
    subst same
    rfl
  · rfl

/-- One more for each of the keys. -/
theorem count_addAll (counter : Counter κ) (keys : List κ) (key : κ) :
    (counter.addAll keys).count key = counter.count key + (keys : Multiset κ).count key := by
  induction keys generalizing counter with
  | nil => rfl
  | cons first rest inductionHypothesis =>
    rw [addAll, List.foldl_cons, ← addAll, inductionHypothesis, count_add, ← Multiset.cons_coe,
      Multiset.count_cons]
    omega

/-- A key is counted as often as it is in the list. -/
theorem count_ofList (keys : List κ) (key : κ) :
    (ofList keys).count key = (keys : Multiset κ).count key := by
  rw [ofList, count_addAll]
  exact Nat.zero_add _

/-- The elements that find no unit of the counter, in order. -/
def unmatched (key : α → κ) (counter : Counter κ) : List α → List α
  | [] => []
  | element :: rest =>
    if counter.count (key element) ≠ 0 then unmatched key (counter.take (key element)) rest
    else element :: unmatched key counter rest

/-- What is left of the counter after the loop. -/
def leftOver (key : α → κ) (counter : Counter κ) : List α → Counter κ
  | [] => counter
  | element :: rest =>
    if counter.count (key element) ≠ 0 then leftOver key (counter.take (key element)) rest
    else leftOver key counter rest

/-- The loop lets through what exceeds the counter.

Proof: induction on the list; a unit that is taken lowers both sides by one. -/
theorem count_unmatched (key : α → κ) (counter : Counter κ) (elements : List α) (wanted : κ) :
    ((unmatched key counter elements).map key : Multiset κ).count wanted =
      (elements.map key : Multiset κ).count wanted - counter.count wanted := by
  induction elements generalizing counter with
  | nil => simp [unmatched]
  | cons element rest inductionHypothesis =>
    simp only [unmatched, List.map_cons, ← Multiset.cons_coe, Multiset.count_cons]
    split
    · rw [inductionHypothesis, count_take]
      by_cases same : wanted = key element
      · subst same
        simp only [↓reduceIte]
        omega
      · simp only [same, ↓reduceIte]
        omega
    · rename_i exhausted
      simp only [List.map_cons, ← Multiset.cons_coe, Multiset.count_cons, inductionHypothesis]
      by_cases same : wanted = key element
      · subst same
        simp only [↓reduceIte]
        omega
      · simp only [same, ↓reduceIte]
        omega

/-- The loop leaves what exceeds the list. -/
theorem count_leftOver (key : α → κ) (counter : Counter κ) (elements : List α) (wanted : κ) :
    (leftOver key counter elements).count wanted =
      counter.count wanted - (elements.map key : Multiset κ).count wanted := by
  induction elements generalizing counter with
  | nil => simp [leftOver]
  | cons element rest inductionHypothesis =>
    simp only [leftOver, List.map_cons, ← Multiset.cons_coe, Multiset.count_cons]
    split
    · rw [inductionHypothesis, count_take]
      omega
    · rename_i exhausted
      rw [inductionHypothesis]
      by_cases same : wanted = key element
      · subst same
        simp only [↓reduceIte]
        omega
      · simp only [same, ↓reduceIte]
        omega

/-- Renaming the keys injectively changes nothing. -/
theorem unmatched_embed {μ : Type*} [DecidableEq μ] (key : α → κ) (embed : κ → μ)
    (injective : Function.Injective embed) (counter : Counter κ) (renamed : Counter μ)
    (same : ∀ wanted, renamed.count (embed wanted) = counter.count wanted) (elements : List α) :
    unmatched (fun element => embed (key element)) renamed elements =
      unmatched key counter elements := by
  induction elements generalizing counter renamed with
  | nil => rfl
  | cons element rest inductionHypothesis =>
    simp only [unmatched, same]
    split
    · apply inductionHypothesis
      intro wanted
      simp only [count_take, same, injective.eq_iff]
    · rw [inductionHypothesis counter renamed same]

/-- As multisets the elements let through are a difference. -/
theorem map_unmatched (key : α → κ) (keys : List κ) (elements : List α) :
    ((unmatched key (ofList keys) elements).map key : Multiset κ) =
      (elements.map key : Multiset κ) - (keys : Multiset κ) := by
  ext wanted
  rw [count_unmatched, count_ofList, Multiset.count_sub]

/-- Nothing is let through exactly when the counter covers the list. -/
theorem unmatched_eq_nil_iff (key : α → κ) (counter : Counter κ) (elements : List α) :
    unmatched key counter elements = [] ↔
      ∀ wanted, (elements.map key : Multiset κ).count wanted ≤ counter.count wanted := by
  rw [← List.map_eq_nil_iff (f := key), ← Multiset.coe_eq_zero, Multiset.ext]
  refine forall_congr' fun wanted => ?_
  rw [count_unmatched, Multiset.count_zero]
  omega

end Counter

end VirtTestTools
