import VirtTestTools.Outcome

/-!
# Loops that collect results

A loop extends a list by what each item yields, and an item may raise. The loop
returns exactly when every item does. Then what is collected is the concatenation
of what the items yield, so it does not depend on the other items and, up to the
order of the results, not on the order of the items either.
-/

namespace VirtTestTools.Outcome

variable {ε α β : Type}

/-- A loop of `results.extend(body(item))`. -/
def collect (body : α → Except ε (List β)) (items : List α) : Except ε (List β) :=
  items.mapM body >>= fun parts => .ok parts.flatten

/-- What an item yields, and nothing when it raises. -/
def yielded (outcome : Except ε (List β)) : List β :=
  match outcome with
  | .ok results => results
  | .error _ => []

/-- A body that returns yields its results. -/
theorem yielded_ok (results : List β) : yielded (.ok results : Except ε (List β)) = results := rfl

/-- The results of one item. -/
theorem collect_singleton (body : α → Except ε (List β)) (item : α) :
    collect body [item] = body item := by
  cases outcome : body item <;> simp [collect, outcome, bind, Except.bind, pure, Except.pure]

/-- A loop all of whose items return collects what they yield. -/
theorem collect_eq (body : α → Except ε (List β)) (items : List α)
    (returns : ∀ item ∈ items, ∃ results, body item = .ok results) :
    collect body items = .ok (items.flatMap fun item => yielded (body item)) := by
  unfold collect
  rw [bind_eq_ok]
  refine ⟨items.map fun item => yielded (body item), ?_, rfl⟩
  rw [mapM_eq_ok, List.forall₂_map_right_iff, List.forall₂_same]
  intro item inside
  obtain ⟨results, yields⟩ := returns item inside
  rw [yields, yielded_ok]

/-- A loop returns exactly when every item does. -/
theorem collect_returns_iff (body : α → Except ε (List β)) (items : List α) :
    (∃ results, collect body items = .ok results) ↔
      ∀ item ∈ items, ∃ results, body item = .ok results := by
  constructor
  · rintro ⟨results, collected⟩
    rw [collect, bind_eq_ok] at collected
    obtain ⟨parts, ran, -⟩ := collected
    exact (mapM_returns body items).mp ⟨parts, ran⟩
  · intro returns
    exact ⟨_, collect_eq body items returns⟩

/-- A loop that returns collects what its items yield. -/
theorem collect_eq_ok (body : α → Except ε (List β)) (items : List α) (results : List β)
    (collected : collect body items = .ok results) :
    (∀ item ∈ items, ∃ part, body item = .ok part) ∧
      results = items.flatMap fun item => yielded (body item) := by
  have returns := (collect_returns_iff body items).mp ⟨results, collected⟩
  rw [collect_eq body items returns] at collected
  exact ⟨returns, (Except.ok.inj collected).symm⟩

/-- What is read off the results item by item can be read off the whole. -/
theorem map_collect {γ : Type} (value : β → γ) (expected : α → List γ)
    (body : α → Except ε (List β)) (items : List α)
    (each : ∀ item ∈ items, ∀ part, body item = .ok part → part.map value = expected item)
    (results : List β) (collected : collect body items = .ok results) :
    results.map value = items.flatMap expected := by
  obtain ⟨returns, rfl⟩ := collect_eq_ok body items results collected
  rw [List.map_flatMap]
  apply List.flatMap_congr
  intro item inside
  obtain ⟨part, yields⟩ := returns item inside
  rw [yields, yielded_ok]
  exact each item inside part yields

/-- A result comes from some item. -/
theorem mem_collect (body : α → Except ε (List β)) (items : List α) (results : List β)
    (collected : collect body items = .ok results) (result : β) (inside : result ∈ results) :
    ∃ item ∈ items, ∃ part, body item = .ok part ∧ result ∈ part := by
  obtain ⟨returns, rfl⟩ := collect_eq_ok body items results collected
  obtain ⟨item, listed, found⟩ := List.mem_flatMap.mp inside
  obtain ⟨part, yields⟩ := returns item listed
  rw [yields, yielded_ok] at found
  exact ⟨item, listed, part, yields, found⟩

/-- Nothing is collected exactly when every item yields nothing. -/
theorem collect_eq_nil_iff (body : α → Except ε (List β)) (items : List α) :
    collect body items = .ok [] ↔ ∀ item ∈ items, body item = .ok [] := by
  constructor
  · intro collected item inside
    obtain ⟨returns, empty⟩ := collect_eq_ok body items [] collected
    obtain ⟨part, yields⟩ := returns item inside
    have nothing := List.flatMap_eq_nil_iff.mp empty.symm item inside
    rw [yields, yielded_ok] at nothing
    rw [yields, nothing]
  · intro clean
    rw [collect_eq body items fun item inside => ⟨[], clean item inside⟩]
    congr 1
    apply List.flatMap_eq_nil_iff.mpr
    intro item inside
    rw [clean item inside, yielded_ok]

/-- The items may come in any order. -/
theorem collect_perm {body other : α → Except ε (List β)} {left right : List α}
    (perm : left.Perm right) (same : ∀ item ∈ left, other item = body item) (results : List β)
    (collected : collect body left = .ok results) :
    ∃ reordered, collect other right = .ok reordered ∧ results.Perm reordered := by
  obtain ⟨returns, rfl⟩ := collect_eq_ok body left results collected
  have otherReturns : ∀ item ∈ right, ∃ part, other item = .ok part := by
    intro item inside
    rw [same item (perm.mem_iff.mpr inside)]
    exact returns item (perm.mem_iff.mpr inside)
  refine ⟨_, collect_eq other right otherReturns, ?_⟩
  have bodies : (right.flatMap fun item => yielded (other item)) =
      right.flatMap fun item => yielded (body item) := by
    apply List.flatMap_congr
    intro item inside
    rw [same item (perm.mem_iff.mpr inside)]
  rw [bodies]
  exact perm.flatMap_right _

end VirtTestTools.Outcome
