import VirtTestTools.Text

/-!
# Waiting for the conditions of a virtual machine instance

Two functions look at the status conditions of a virtual machine instance, first
as they are and then in each event of a watch, until one of the lists satisfies
them. They share the loop and differ in what they ask of a list. A list that is
missing or empty satisfies neither of them.
-/

namespace VirtTestTools.Suite

/-- An entry of `status.conditions`; a field that is not there is read as `None`. -/
structure Condition where
  type : Option Text
  status : Option Text
  deriving DecidableEq

/-- An event of a watch, with the `status.conditions` of its object. -/
structure WatchEvent where
  type : Text
  conditions : Option (List Condition)
  deriving DecidableEq

/-- `event["type"] == "MODIFIED"`. -/
def WatchEvent.modified (event : WatchEvent) : Bool := decide (event.type = "MODIFIED".toList)

/-- `ResourceConstants.Condition.Status.FALSE`. -/
def statusFalse : Text := "False".toList

/-- What the waiting functions use of a virtual machine and its instance. The
watch is over when its timeout has passed, so it gives finitely many events. -/
structure WatchedVm where
  name : Text
  conditions : Option (List Condition)
  resourceVersion : Text
  watcher : Nat → Text → List WatchEvent

/-- The errors of the two waits. -/
inductive ConditionError where
  | notReached (message : Text)
  | stillPresent (message : Text)
  deriving DecidableEq

/-- `_vmi_condition_set`. -/
def vmiConditionSet (requiredCondition status : Text) (existing : List Condition) : Bool :=
  existing.any (fun entry =>
    decide (entry.type = some requiredCondition) && decide (entry.status = some status))

/-- `_vmi_condition_not_set`. -/
def vmiConditionNotSet (requiredCondition : Text) (existing : List Condition) : Bool :=
  (existing.filter (fun entry => decide (entry.type = some requiredCondition))).all
    (fun entry => decide (entry.status = some statusFalse))

/-- `existing_conditions and holds(existing_conditions)`: a missing or empty list
is no truth value. -/
def presentAnd (holds : List Condition → Bool) : Option (List Condition) → Bool
  | none => false
  | some existing => !existing.isEmpty && holds existing

/-- The loop over the events of the watch: whether it returns. -/
def watchUntil (holds : List Condition → Bool) : List WatchEvent → Bool
  | [] => false
  | event :: rest =>
    if !event.modified then watchUntil holds rest
    else if presentAnd holds event.conditions then true
    else watchUntil holds rest

/-- `resource_version or vmi_instance.metadata.resourceVersion`. -/
def watchFrom (vm : WatchedVm) (resourceVersion : Option Text) : Text :=
  (resourceVersion.filter (· ≠ [])).getD vm.resourceVersion

/-- The body that both functions have: the list as it is, then the watch. -/
def waitUntil (holds : List Condition → Bool) (failure : ConditionError) (vm : WatchedVm)
    (timeout : Nat) (resourceVersion : Option Text) : Except ConditionError Unit :=
  if presentAnd holds vm.conditions then .ok ()
  else if watchUntil holds (vm.watcher timeout (watchFrom vm resourceVersion)) then .ok ()
  else .error failure

/-- `wait_for_vmi_condition_status`. -/
def waitForVmiConditionStatus (vm : WatchedVm) (condition status : Text) (timeout : Nat)
    (resourceVersion : Option Text) : Except ConditionError Unit :=
  waitUntil (vmiConditionSet condition status)
    (.notReached ("VMI ".toList ++ vm.name ++ ": condition ".toList ++ condition ++ "=".toList ++
      status ++ " was not reached within ".toList ++ Text.decimal timeout ++ "s.".toList))
    vm timeout resourceVersion

/-- `VMIConditionStillPresentError` with its message. -/
def stillPresent (vm : WatchedVm) (condition : Text) (timeout : Nat) : ConditionError :=
  .stillPresent ("VMI ".toList ++ vm.name ++ ": condition ".toList ++ condition ++
    " is still present after ".toList ++ Text.decimal timeout ++ "s.".toList)

/-- `wait_for_no_vmi_condition`. -/
def waitForNoVmiCondition (vm : WatchedVm) (condition : Text) (timeout : Nat)
    (resourceVersion : Option Text) : Except ConditionError Unit :=
  waitUntil (vmiConditionNotSet condition) (stillPresent vm condition timeout)
    vm timeout resourceVersion

/-- The lists of conditions a wait gets to see: the initial one, and those of the
modifications that the watch reports. -/
def observedConditions (vm : WatchedVm) (timeout : Nat) (resourceVersion : Option Text) :
    List (Option (List Condition)) :=
  vm.conditions ::
    ((vm.watcher timeout (watchFrom vm resourceVersion)).filter
      WatchEvent.modified).map WatchEvent.conditions

/-- The entries of a list of conditions that may be missing. -/
def entriesOf (conditions : Option (List Condition)) : List Condition := conditions.getD []

/-- A list shows no condition of the type: every entry of the type is `False`. -/
def ShowsNo (condition : Text) (conditions : Option (List Condition)) : Prop :=
  ∀ entry ∈ entriesOf conditions, entry.type = some condition →
    entry.status = some statusFalse

instance (condition : Text) (conditions : Option (List Condition)) :
    Decidable (ShowsNo condition conditions) :=
  inferInstanceAs (Decidable (∀ entry ∈ entriesOf conditions,
    entry.type = some condition → entry.status = some statusFalse))

/-- A list is tested only when it is there and not empty. -/
theorem presentAnd_iff (holds : List Condition → Bool) (conditions : Option (List Condition)) :
    presentAnd holds conditions = true ↔
      entriesOf conditions ≠ [] ∧ holds (entriesOf conditions) = true := by
  cases conditions with
  | none => simp [presentAnd, entriesOf]
  | some existing => simp [presentAnd, entriesOf]

/-- A watch ends at a modification whose list passes the test. -/
theorem watchUntil_iff (holds : List Condition → Bool) (events : List WatchEvent) :
    watchUntil holds events = true ↔
      ∃ event ∈ events, event.modified = true ∧ presentAnd holds event.conditions = true := by
  induction events with
  | nil => simp [watchUntil]
  | cons event rest inductionHypothesis =>
    rw [watchUntil, List.exists_mem_cons_iff]
    cases modified : event.modified with
    | false => simpa using inductionHypothesis
    | true =>
      cases present : presentAnd holds event.conditions with
      | false => simpa using inductionHypothesis
      | true => simp

/-- A wait returns exactly when some list it gets to see has entries and
satisfies it, and raises its own error otherwise. -/
theorem waitUntil_eq (holds : List Condition → Bool) (failure : ConditionError) (vm : WatchedVm)
    (timeout : Nat) (resourceVersion : Option Text) :
    waitUntil holds failure vm timeout resourceVersion =
      if (observedConditions vm timeout resourceVersion).any (presentAnd holds) then .ok ()
      else .error failure := by
  have watched (events : List WatchEvent) : watchUntil holds events =
      ((events.filter WatchEvent.modified).map WatchEvent.conditions).any (presentAnd holds) := by
    rw [Bool.eq_iff_iff, watchUntil_iff, List.any_map, List.any_filter, List.any_eq_true]
    simp
  rw [waitUntil, observedConditions, List.any_cons, watched]
  cases presentAnd holds vm.conditions with
  | true => rfl
  | false => rfl

/-- The test passes exactly when the list shows no such condition. -/
theorem vmiConditionNotSet_iff (condition : Text) (conditions : Option (List Condition)) :
    vmiConditionNotSet condition (entriesOf conditions) = true ↔ ShowsNo condition conditions := by
  simp [vmiConditionNotSet, ShowsNo, or_iff_not_imp_left]

/-- The documented outcome of `wait_for_no_vmi_condition`: it returns if some list
shows no condition of the type, with no exception for lists that are missing or
empty, and raises `VMIConditionStillPresentError` otherwise. -/
def WaitsForAbsence (vm : WatchedVm) (condition : Text) (timeout : Nat)
    (resourceVersion : Option Text) : Prop :=
  waitForNoVmiCondition vm condition timeout resourceVersion =
    if ∃ conditions ∈ observedConditions vm timeout resourceVersion, ShowsNo condition conditions
    then .ok ()
    else .error (stillPresent vm condition timeout)

/-- The wait does what it documents unless all the lists that show no condition
of the type are missing or empty and there is such a list. -/
theorem waits_for_absence_iff (vm : WatchedVm) (condition : Text) (timeout : Nat)
    (resourceVersion : Option Text) :
    WaitsForAbsence vm condition timeout resourceVersion ↔
      ((∃ conditions ∈ observedConditions vm timeout resourceVersion,
          ShowsNo condition conditions) →
        ∃ conditions ∈ observedConditions vm timeout resourceVersion,
          ShowsNo condition conditions ∧ entriesOf conditions ≠ []) := by
  have returns : (observedConditions vm timeout resourceVersion).any
        (presentAnd (vmiConditionNotSet condition)) = true ↔
      ∃ conditions ∈ observedConditions vm timeout resourceVersion,
        ShowsNo condition conditions ∧ entriesOf conditions ≠ [] := by
    rw [List.any_eq_true]
    simp only [presentAnd_iff, vmiConditionNotSet_iff, and_comm]
  rw [WaitsForAbsence, waitForNoVmiCondition, waitUntil_eq]
  by_cases shown : ∃ conditions ∈ observedConditions vm timeout resourceVersion,
      ShowsNo condition conditions
  · rw [if_pos shown, ← returns]
    cases (observedConditions vm timeout resourceVersion).any
        (presentAnd (vmiConditionNotSet condition)) <;> simp [shown]
  · have silent : ¬ ∃ conditions ∈ observedConditions vm timeout resourceVersion,
        ShowsNo condition conditions ∧ entriesOf conditions ≠ [] := by
      rintro ⟨conditions, member, showsNo, -⟩
      exact shown ⟨conditions, member, showsNo⟩
    rw [if_neg shown, if_neg (returns.not.mpr silent)]
    simp [shown]

/-- An instance whose only condition is removed: the modification has an empty
list. -/
def migratedVm : WatchedVm where
  name := "vm".toList
  conditions := some [⟨some "MigrationRequired".toList, some "True".toList⟩]
  resourceVersion := "1".toList
  watcher _ _ := [⟨"MODIFIED".toList, some []⟩]

/-- The removal of the last condition is not accepted. -/
theorem removed_condition_still_present :
    waitForNoVmiCondition migratedVm "MigrationRequired".toList 300 none =
        .error (stillPresent migratedVm "MigrationRequired".toList 300) ∧
      ¬ WaitsForAbsence migratedVm "MigrationRequired".toList 300 none := by
  have raised : waitForNoVmiCondition migratedVm "MigrationRequired".toList 300 none =
      .error (stillPresent migratedVm "MigrationRequired".toList 300) := rfl
  refine ⟨raised, ?_⟩
  rw [WaitsForAbsence, raised, if_pos]
  · simp
  · exact ⟨some [], by decide, by decide⟩

end VirtTestTools.Suite
