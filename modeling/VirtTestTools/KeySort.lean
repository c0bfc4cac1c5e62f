import Mathlib.Data.List.Sort

/-!
# Sorting by a key

A list is sorted by a key of its members, as `sorted(members, key=key)` sorts it.
Members with equal keys keep their order, so the sorted list depends on the order
in which the members came; what is a function of the key does not. Members that
are left out before sorting are left out of the sorted list.
-/

namespace VirtTestTools

universe u v w

variable {α : Type u} {κ : Type v} [LinearOrder κ]

/-- `sorted(members, key=key)`. -/
def sortedBy (key : α → κ) (members : List α) : List α :=
  members.mergeSort fun left right => decide (key left ≤ key right)

variable (key : α → κ)

/-- A sorted list has the same members. -/
theorem sortedBy_perm (members : List α) : (sortedBy key members).Perm members :=
  List.mergeSort_perm members _

/-- A sorted list has the same members. -/
@[simp]
theorem mem_sortedBy (members : List α) (member : α) :
    member ∈ sortedBy key members ↔ member ∈ members :=
  (sortedBy_perm key members).mem_iff

/-- A sorted list is as long. -/
@[simp]
theorem length_sortedBy (members : List α) : (sortedBy key members).length = members.length :=
  (sortedBy_perm key members).length_eq

/-- The comparison of keys is transitive. -/
theorem decide_key_trans (first second third : α)
    (firstLe : decide (key first ≤ key second) = true)
    (secondLe : decide (key second ≤ key third) = true) :
    decide (key first ≤ key third) = true := by
  rw [decide_eq_true_eq] at firstLe secondLe ⊢
  exact firstLe.trans secondLe

/-- The comparison of keys is total. -/
theorem decide_key_total (first second : α) :
    (decide (key first ≤ key second) || decide (key second ≤ key first)) = true := by
  rw [Bool.or_eq_true, decide_eq_true_eq, decide_eq_true_eq]
  exact le_total _ _

/-- The keys ascend. -/
theorem pairwise_sortedBy (members : List α) :
    (sortedBy key members).Pairwise fun left right => key left ≤ key right := by
  have ordered := List.pairwise_mergeSort (decide_key_trans key) (decide_key_total key) members
  exact ordered.imp fun le => of_decide_eq_true le

/-- The sorted keys are the same for every order in which the members come. -/
theorem map_key_sortedBy_of_perm {left right : List α} (perm : left.Perm right) :
    (sortedBy key left).map key = (sortedBy key right).map key := by
  have ascending (members : List α) : ((sortedBy key members).map key).Pairwise (· ≤ ·) :=
    List.pairwise_map.mpr (pairwise_sortedBy key members)
  have sameKeys : ((sortedBy key left).map key).Perm ((sortedBy key right).map key) :=
    (((sortedBy_perm key left).trans perm).trans (sortedBy_perm key right).symm).map key
  exact sameKeys.eq_of_pairwise (fun _ _ _ _ firstLe secondLe => le_antisymm firstLe secondLe)
    (ascending left) (ascending right)

/-- What the key decides is sorted alike. -/
theorem map_sortedBy_of_perm {β : Type w} (value : α → β)
    (decides : ∀ left right, key left = key right → value left = value right)
    {left right : List α} (perm : left.Perm right) :
    (sortedBy key left).map value = (sortedBy key right).map value := by
  have sameKeys := map_key_sortedBy_of_perm key perm
  rw [← List.forall₂_eq_eq_eq, List.forall₂_map_left_iff, List.forall₂_map_right_iff] at sameKeys ⊢
  exact sameKeys.imp fun first second same => decides first second same

/-- Sorting by a key of a value is sorting the values. -/
theorem map_sortedBy {β : Type w} (value : α → β) (valueKey : β → κ) (members : List α) :
    (sortedBy (fun member => valueKey (value member)) members).map value =
      sortedBy valueKey (members.map value) :=
  List.map_mergeSort fun _ _ _ _ => rfl

/-- The first member is put behind the sorted ones that are smaller. -/
theorem sortedBy_cons (member : α) (rest : List α) :
    ∃ before behind, sortedBy key (member :: rest) = before ++ member :: behind ∧
      sortedBy key rest = before ++ behind ∧ (∀ other ∈ before, ¬key member ≤ key other) ∧
        ∀ other ∈ behind, key member ≤ key other := by
  obtain ⟨before, behind, whole, parts, smaller⟩ :=
    List.mergeSort_cons (decide_key_trans key) (decide_key_total key) member rest
  have sorted : sortedBy key (member :: rest) = before ++ member :: behind := whole
  have ascending := pairwise_sortedBy key (member :: rest)
  rw [sorted] at ascending
  refine ⟨before, behind, sorted, parts, ?_, ?_⟩
  · intro other inside
    simpa using smaller other inside
  · exact (List.pairwise_cons.mp (List.pairwise_append.mp ascending).2.1).1

/-- Members that are left out before sorting are left out of the sorted list.

Proof: by induction on the list. Both sorted lists are divided at the first member that is not
smaller than the new one. -/
theorem sortedBy_filter (keep : α → Bool) (members : List α) :
    sortedBy key (members.filter keep) = (sortedBy key members).filter keep := by
  induction members with
  | nil => simp [sortedBy]
  | cons member rest inductionHypothesis =>
    obtain ⟨before, behind, sorted, parts, smaller, larger⟩ := sortedBy_cons key member rest
    rw [sorted]
    rw [parts] at inductionHypothesis
    cases kept : keep member with
    | false =>
      have left : ¬keep member = true := by simp [kept]
      rw [List.filter_cons_of_neg left, inductionHypothesis, List.filter_append,
        List.filter_append, List.filter_cons_of_neg left]
    | true =>
      obtain ⟨less, more, inserted, others, lessSmaller, moreLarger⟩ :=
        sortedBy_cons key member (rest.filter keep)
      rw [List.filter_cons_of_pos kept, inserted, List.filter_append, List.filter_cons_of_pos kept]
      have same : less ++ more = before.filter keep ++ behind.filter keep := by
        rw [← others, inductionHypothesis, List.filter_append]
      have divided (small large : List α) (allSmall : ∀ other ∈ small, ¬key member ≤ key other)
          (allLarge : ∀ other ∈ large, key member ≤ key other) :
          (small ++ large).takeWhile (fun other => !decide (key member ≤ key other)) = small := by
        rw [List.takeWhile_append_of_pos (fun other inside => by simp [allSmall other inside])]
        cases large with
        | nil => simp
        | cons other others => simp [allLarge other List.mem_cons_self]
      have first := divided less more lessSmaller moreLarger
      have second := divided (before.filter keep) (behind.filter keep)
        (fun other inside => smaller other (List.mem_of_mem_filter inside))
        (fun other inside => larger other (List.mem_of_mem_filter inside))
      rw [same, second] at first
      subst first
      rw [List.append_cancel_left same]

end VirtTestTools
