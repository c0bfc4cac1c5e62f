import Mathlib.Data.List.Induction
import VirtTestTools.Groups
import VirtTestTools.KeyedRuns
import VirtTestTools.Suite.Collection

/-!
# Incremental classes

The tests of an incremental class are steps of one scenario. When one of them raises, in
its setup, its call or its teardown, two hooks see to it that the later ones with the same
parameters are expected failures: `pytest_runtest_makereport` leaves the item at its parent,
and `pytest_runtest_setup` looks there before the fixtures are set up. An item is expected to
fail even if the exception was a skip, or an expected failure itself.

Running a part of such a class says nothing, so a session whose collection leaves out some test of
it is refused before anything runs.
-/

namespace VirtTestTools.Suite

variable {ι π : Type}

/-! ## The hooks -/

/-- What the hooks read of an item besides its name and its keywords. -/
structure ItemTree (ι π : Type) where
  parent : ι → π
  /-- `item.callspec.id`, if the item has a `callspec`. -/
  callspecId : ι → Option Text
  /-- Whether the item is a `pytest.Function`. -/
  isFunction : ι → Bool
  functionName : ι → Text

/-- The phases of the run of an item. -/
inductive Phase
  | setup
  | call
  | teardown

/-- The exceptions of a session: `marks` are those of the hooks that run before the one of the
suite, which skip an item or expect it to fail without a run, and `phase` those of the fixtures and
of the test itself. -/
structure Exceptions (ι : Type) where
  marks : ι → Bool
  phase : ι → Phase → Bool

/-- Whether an item that is not stopped raises. -/
def Exceptions.raised (exceptions : Exceptions ι) (item : ι) : Bool :=
  exceptions.marks item || exceptions.phase item .setup || exceptions.phase item .call ||
    exceptions.phase item .teardown

/-- What the setup of an item comes to. -/
inductive Setup
  | marked
  /-- `pytest.xfail`, with its reason. -/
  | xfailed (reason : Text)
  /-- The fixtures are set up. -/
  | reached (raised : Bool)
deriving DecidableEq

/-- Whether the setup ends with an exception. -/
def Setup.raised : Setup → Bool
  | reached raised => raised
  | _ => true

/-- The run of an item: its setup, and whether its call takes place. -/
structure ItemRun where
  setup : Setup
  called : Bool
deriving DecidableEq

/-- `parent._previousfailed` of the parents that have it. -/
abbrev Failures (ι π : Type) := Dict π (Dict Text ι)

section Hooks

variable [DecidableEq π] (data : ItemData ι) (tree : ItemTree ι π) (exceptions : Exceptions ι)

/-- Whether an item is marked incremental. -/
def isIncremental (item : ι) : Bool := hasKeyword data "incremental".toList item

/-- `param_key` of both hooks. -/
def paramKey (item : ι) : Text := (tree.callspecId item).getD []

/-- What `pytest_runtest_makereport` leaves at the parent. -/
def recordFailure (failures : Failures ι π) (item : ι) (raised : Bool) : Failures ι π :=
  if raised && isIncremental data item then
    failures.set (tree.parent item)
      (((failures.get (tree.parent item)).getD ∅).set (paramKey tree item) item)
  else failures

/-- `previousfailed` of `pytest_runtest_setup`. -/
def previousFailed (failures : Failures ι π) (item : ι) : Option ι :=
  if isIncremental data item then
    ((failures.get (tree.parent item)).getD ∅).get (paramKey tree item)
  else none

/-- The reason of the added marker. -/
def xfailReason (previous : ι) : Text :=
  "previous test failed (".toList ++ data.name previous ++ ")".toList

/-- The setup of an item, with the item that is found at its parent. -/
def setupWith (item : ι) (previous : Option ι) : Setup :=
  if exceptions.marks item then .marked
  else
    match previous with
    | some previous => .xfailed (xfailReason data previous)
    | none => .reached (exceptions.phase item .setup)

/-- The three phases of an item. The call takes place if the setup does not raise, the teardown
always. -/
def runtestprotocol (failures : Failures ι π) (item : ι) : Failures ι π × ItemRun :=
  let setup := setupWith data exceptions item (previousFailed data tree failures item)
  let afterSetup := recordFailure data tree failures item setup.raised
  let afterCall :=
    if setup.raised then afterSetup
    else recordFailure data tree afterSetup item (exceptions.phase item .call)
  (recordFailure data tree afterCall item (exceptions.phase item .teardown), ⟨setup, !setup.raised⟩)

/-- A session: the items with their runs, in order. -/
def runTests (items : List ι) : List (ι × ItemRun) :=
  (KeyedRuns.run (runtestprotocol data tree exceptions) ∅ items).2

end Hooks

/-! ## One scenario -/

section Scenario

variable [DecidableEq π] (data : ItemData ι) (tree : ItemTree ι π) (exceptions : Exceptions ι)

/-- The class of an item with its parameters. -/
def scenario (item : ι) : π × Text := (tree.parent item, paramKey tree item)

/-- What is kept for a scenario. -/
def failureOf (failures : Failures ι π) (chosen : π × Text) : Option ι :=
  ((failures.get chosen.1).getD ∅).get chosen.2

/-- The protocol, as far as one scenario is concerned. -/
def scenarioStep (previous : Option ι) (item : ι) : Option ι × ItemRun :=
  let setup := setupWith data exceptions item (if isIncremental data item then previous else none)
  let raised := setup.raised || exceptions.phase item .call || exceptions.phase item .teardown
  (if raised && isIncremental data item then some item else previous, ⟨setup, !setup.raised⟩)

/-- A report records its item for its own class and parameters only. -/
theorem failureOf_recordFailure (failures : Failures ι π) (item : ι) (raised : Bool)
    (chosen : π × Text) :
    failureOf (recordFailure data tree failures item raised) chosen =
      if raised && isIncremental data item && decide (chosen = scenario tree item) then some item
      else failureOf failures chosen := by
  obtain ⟨parent, key⟩ := chosen
  unfold failureOf recordFailure scenario
  split
  · rename_i recorded
    rw [recorded, Bool.true_and, Dict.get_set]
    by_cases own : parent = tree.parent item
    · subst own
      rw [if_pos rfl, Option.getD_some, Dict.get_set]
      by_cases same : key = paramKey tree item <;> simp [same]
    · simp [own]
  · rename_i passes
    simp [passes]

/-- The hooks keep one item for each scenario. -/
theorem runtestprotocol_keyed :
    KeyedRuns.Keyed (runtestprotocol data tree exceptions) (scenario tree) failureOf
      (scenarioStep data exceptions) := by
  constructor
  · intro failures item
    have found : previousFailed data tree failures item =
        if isIncremental data item then failureOf failures (scenario tree item) else none := rfl
    rw [runtestprotocol, found, scenarioStep]
    simp only [Prod.mk.injEq, and_true]
    -- The last phase that raises leaves the item, and it is the same item in each.
    cases raised : (setupWith data exceptions item
        (if isIncremental data item then failureOf failures (scenario tree item) else none)).raised
    all_goals
      simp only [failureOf_recordFailure, Bool.false_eq_true, ↓reduceIte]
      cases exceptions.phase item .call <;> cases exceptions.phase item .teardown <;>
        cases isIncremental data item <;> simp
  · intro failures item other elsewhere
    have kept (before : Failures ι π) (raised : Bool) :
        failureOf (recordFailure data tree before item raised) other = failureOf before other := by
      rw [failureOf_recordFailure, if_neg]
      simp [elsewhere]
    rw [runtestprotocol]
    split <;> simp only [kept]

/-- What is left for the next item of the scenario. -/
theorem scenarioStep_left (previous : Option ι) (item : ι) (incremental : isIncremental data item) :
    (scenarioStep data exceptions previous item).1 =
      if previous.isSome || exceptions.raised item then some item else previous := by
  unfold scenarioStep setupWith Exceptions.raised
  cases previous <;> cases exceptions.marks item <;> simp [incremental, Setup.raised]

/-- An item without the marker leaves its scenario as it is. -/
theorem scenarioStep_free (previous : Option ι) (item : ι)
    (free : isIncremental data item = false) :
    (scenarioStep data exceptions previous item).1 = previous := by
  simp [scenarioStep, free]

/-- Once an item of a scenario has raised, the last one is found by the next. -/
theorem scenario_left (items : List ι) :
    (KeyedRuns.run (scenarioStep data exceptions) none items).1 =
      if (items.filter (isIncremental data)).any exceptions.raised then
        (items.filter (isIncremental data)).getLast?
      else none := by
  induction items using List.reverseRecOn with
  | nil => rfl
  | append_singleton before item inductionHypothesis =>
    rw [KeyedRuns.run_append, KeyedRuns.run_cons, KeyedRuns.run_nil, inductionHypothesis,
      List.filter_append]
    by_cases incremental : isIncremental data item = true
    · rw [scenarioStep_left data exceptions _ item incremental, List.filter_cons_of_pos incremental,
        List.filter_nil, List.any_append, List.getLast?_append]
      generalize before.filter (isIncremental data) = earlier
      cases raised : earlier.any exceptions.raised with
      | false => simp
      | true =>
        have nonempty : earlier ≠ [] := by
          rintro rfl
          cases raised
        simp [List.getLast?_eq_some_getLast nonempty]
    · rw [scenarioStep_free data exceptions _ item (Bool.eq_false_iff.mpr incremental),
        List.filter_cons_of_neg incremental, List.filter_nil, List.append_nil]

/-- The incremental items of the scenario of an item. -/
def earlierOf (before : List ι) (item : ι) : List ι :=
  before.filter fun earlier =>
    isIncremental data earlier && decide (scenario tree earlier = scenario tree item)

/-- What an item finds at its parent. -/
theorem previousFailed_run (before : List ι) (item : ι) :
    previousFailed data tree
        (KeyedRuns.run (runtestprotocol data tree exceptions) ∅ before).1 item =
      if isIncremental data item && (earlierOf data tree before item).any exceptions.raised then
        (earlierOf data tree before item).getLast?
      else none := by
  have alone := congrArg Prod.fst ((runtestprotocol_keyed data tree exceptions).run_alone
    (scenario tree item) ∅ before)
  have nothing : failureOf (∅ : Failures ι π) (scenario tree item) = none := rfl
  simp only [nothing, scenario_left, List.filter_filter] at alone
  have found : previousFailed data tree
      (KeyedRuns.run (runtestprotocol data tree exceptions) ∅ before).1 item =
        if isIncremental data item then failureOf
          (KeyedRuns.run (runtestprotocol data tree exceptions) ∅ before).1 (scenario tree item)
        else none := rfl
  rw [found, ← alone, earlierOf]
  cases isIncremental data item <;> simp

/-- The run of an item behind others. -/
def runBehind (before : List ι) (item : ι) : ItemRun :=
  (runtestprotocol data tree exceptions
    (KeyedRuns.run (runtestprotocol data tree exceptions) ∅ before).1 item).2

/-- An item runs behind those before it. -/
theorem runTests_getElem (before : List ι) (item : ι) (after : List ι) :
    (runTests data tree exceptions (before ++ item :: after))[before.length]? =
      some (item, runBehind data tree exceptions before item) := by
  have answered : (KeyedRuns.run (runtestprotocol data tree exceptions) ∅ before).2.length =
      before.length := by
    rw [← List.length_map Prod.fst, KeyedRuns.map_fst_run]
  rw [runTests, KeyedRuns.run_append, KeyedRuns.run_cons]
  exact (congrArg _ answered.symm).trans (by simp [runBehind])

/-- The setup of an item by the last failure of its scenario. -/
theorem runBehind_setup (before : List ι) (item : ι) :
    (runBehind data tree exceptions before item).setup =
      setupWith data exceptions item
        (if isIncremental data item && (earlierOf data tree before item).any exceptions.raised then
          (earlierOf data tree before item).getLast?
        else none) := by
  rw [runBehind, runtestprotocol, previousFailed_run]

/-- A test is called unless its setup ends with an exception. -/
theorem runBehind_called (before : List ι) (item : ι) :
    (runBehind data tree exceptions before item).called =
      !(runBehind data tree exceptions before item).setup.raised := rfl

/-- If some item has raised, then there is a last one. -/
theorem exists_last_of_any {earlier : List ι} (raised : earlier.any exceptions.raised = true) :
    ∃ last, earlier.getLast? = some last := by
  obtain ⟨_, inside, -⟩ := List.any_eq_true.mp raised
  exact ⟨_, List.getLast?_eq_some_getLast (List.ne_nil_of_mem inside)⟩

/-- A setup ends at the item's own markers exactly when the item has them. -/
theorem setupWith_marked_iff (item : ι) (previous : Option ι) :
    setupWith data exceptions item previous = .marked ↔ exceptions.marks item = true := by
  unfold setupWith
  cases exceptions.marks item with
  | true => simp
  | false => cases previous <;> simp

/-- The call of an item takes place if nothing stops it and its fixtures are set up. -/
theorem runBehind_called_iff (before : List ι) (item : ι) :
    (runBehind data tree exceptions before item).called = true ↔
      exceptions.marks item = false ∧ exceptions.phase item .setup = false ∧
        (isIncremental data item = true →
          (earlierOf data tree before item).any exceptions.raised = false) := by
  rw [runBehind_called, runBehind_setup]
  cases marked : exceptions.marks item with
  | true => simp [setupWith, marked, Setup.raised]
  | false =>
    cases stopped : (earlierOf data tree before item).any exceptions.raised with
    | false => simp [setupWith, marked, Setup.raised]
    | true =>
      obtain ⟨last, isLast⟩ := exists_last_of_any exceptions stopped
      cases isIncremental data item <;> simp [setupWith, marked, isLast, Setup.raised]

/-- If an incremental item is called, then an earlier one of its scenario has been called too, and
it has not raised. -/
theorem called_of_later_called (start rest : List ι) (earlier item : ι)
    (incremental : isIncremental data item = true) (isStep : isIncremental data earlier = true)
    (same : scenario tree earlier = scenario tree item)
    (called : (runBehind data tree exceptions (start ++ earlier :: rest) item).called = true) :
    exceptions.raised earlier = false ∧
      (runBehind data tree exceptions start earlier).called = true := by
  have quiet := ((runBehind_called_iff data tree exceptions _ item).mp called).2.2 incremental
  rw [List.any_eq_false] at quiet
  have passes (other : ι) (placed : other ∈ start ++ earlier :: rest)
      (otherStep : isIncremental data other = true)
      (sameScenario : scenario tree other = scenario tree item) :
      exceptions.raised other = false := by
    have found := quiet other (List.mem_filter.mpr ⟨placed, by simp [otherStep, sameScenario]⟩)
    exact Bool.eq_false_iff.mpr found
  have own := passes earlier (List.mem_append_right _ List.mem_cons_self) isStep same
  refine ⟨own, (runBehind_called_iff data tree exceptions start earlier).mpr ?_⟩
  simp only [Exceptions.raised, Bool.or_eq_false_iff] at own
  refine ⟨own.1.1.1, own.1.1.2, fun _ => ?_⟩
  rw [List.any_eq_false]
  intro first placed
  obtain ⟨inStart, firstStep⟩ := List.mem_filter.mp placed
  rw [Bool.and_eq_true, decide_eq_true_eq] at firstStep
  rw [passes first (List.mem_append_left _ inStart) firstStep.1 (firstStep.2.trans same)]
  exact Bool.false_ne_true

/-- An incremental item is stopped exactly if some item of its class with the same parameters has
raised before, by itself; the reason names the last one before it, whether that has run or not. What
the items of other classes do, or those with other parameters, does not matter.

Proof: the hooks keep one item for each scenario, and a scenario that has raised goes on raising. -/
theorem incremental_run (before : List ι) (item : ι) (after : List ι) :
    ∃ run, (runTests data tree exceptions (before ++ item :: after))[before.length]? =
        some (item, run) ∧
      (run.setup = .marked ↔ exceptions.marks item = true) ∧
      (∀ reason, run.setup = .xfailed reason ↔
        exceptions.marks item = false ∧ isIncremental data item = true ∧
          (earlierOf data tree before item).any exceptions.raised = true ∧
          ∃ last, (earlierOf data tree before item).getLast? = some last ∧
            xfailReason data last = reason) ∧
      (run.called = true ↔
        exceptions.marks item = false ∧ exceptions.phase item .setup = false ∧
          (isIncremental data item = true →
            (earlierOf data tree before item).any exceptions.raised = false)) := by
  refine ⟨_, runTests_getElem data tree exceptions before item after, ?_, ?_,
    runBehind_called_iff data tree exceptions before item⟩
  · rw [runBehind_setup]
    exact setupWith_marked_iff data exceptions item _
  · intro reason
    rw [runBehind_setup]
    cases marked : exceptions.marks item with
    | true => simp [setupWith, marked]
    | false =>
      cases stopped : (earlierOf data tree before item).any exceptions.raised with
      | false => simp [setupWith, marked]
      | true =>
        obtain ⟨last, isLast⟩ := exists_last_of_any exceptions stopped
        cases isIncremental data item <;> simp [setupWith, marked, isLast]

end Scenario

/-! ## The check of the collection -/

/-- An attribute of a class: whether it can be called, the truth value of its `__test__`, and its
marks with `mark.kwargs.get("run") is False`. -/
structure Method where
  callable : Bool
  test : Bool := true
  marks : List (Text × Bool) := []

/-- A class with its `__dict__`, in the order of the definitions. -/
structure TestClass where
  qualname : Text
  members : Dict Text Method

/-- The place of a definition in its class. -/
def TestClass.definedAt (cls : TestClass) (name : Text) : Nat := cls.members.keys.idxOf name

/-- `_is_xfail_no_run`. -/
def isXfailNoRun (method : Method) : Bool :=
  method.marks.any fun mark => decide (mark.1 = "xfail".toList) && mark.2

/-- `all_tests`. -/
def allTests (cls : TestClass) : List Text :=
  (cls.members.items.filter fun member =>
    "test".toList.isPrefixOf member.1 && member.2.callable && member.2.test &&
      !isXfailNoRun member.2).map Prod.fst

/-- `str` of a list of identifiers. -/
def namesText (names : List Text) : Text :=
  "[".toList ++ List.intercalate ", ".toList (names.map fun name => '\'' :: name ++ ['\'']) ++
    "]".toList

section Check

variable [DecidableEq π] (data : ItemData ι) (tree : ItemTree ι π)
  (classOf : π → Option TestClass)

/-- Whether the check looks at an item; the classes of `pytest` are the parents with a class. -/
def isChecked (item : ι) : Bool :=
  tree.isFunction item && (classOf (tree.parent item)).isSome && isIncremental data item

/-- `incremental_parents`. -/
def incrementalParents (items : List ι) : Dict π (List Text) :=
  Dict.group ((items.filter (isChecked data tree classOf)).map fun item =>
    (tree.parent item, tree.functionName item))

/-- The error for a class with the names of its collected tests. -/
def partialError (cls : TestClass) (collected : List Text) : Option Text :=
  let missing := (allTests cls).filter (· ∉ collected)
  if missing.isEmpty then none
  else some (cls.qualname ++ ": not collected: ".toList ++ namesText missing)

/-- `assert_incremental_classes_fully_collected`, or the text of its `UsageError`. -/
def assertIncrementalClassesFullyCollected (items : List ι) : Except Text Unit :=
  let errors := (incrementalParents data tree classOf items).items.filterMap fun parent =>
    (classOf parent.1).bind fun cls => partialError cls parent.2
  if errors.isEmpty then .ok ()
  else
    .error ("Incremental classes partially collected:\n".toList ++
      List.intercalate "\n".toList errors)

/-- The check passes if of every class with an item all tests are collected. -/
theorem fullyCollected_iff (items : List ι) :
    assertIncrementalClassesFullyCollected data tree classOf items = .ok () ↔
      ∀ item ∈ items, isChecked data tree classOf item = true →
        ∀ cls, classOf (tree.parent item) = some cls → ∀ name ∈ allTests cls,
          ∃ other ∈ items, isChecked data tree classOf other = true ∧
            tree.parent other = tree.parent item ∧ tree.functionName other = name := by
  have accepted : assertIncrementalClassesFullyCollected data tree classOf items = .ok () ↔
      ∀ parent ∈ (incrementalParents data tree classOf items).items, ∀ cls,
        classOf parent.1 = some cls → partialError cls parent.2 = none := by
    rw [assertIncrementalClassesFullyCollected]
    split
    · rename_i nothing
      rw [List.isEmpty_iff, List.filterMap_eq_nil_iff] at nothing
      simpa [Option.bind_eq_none_iff] using nothing
    · rename_i some
      rw [List.isEmpty_iff, List.filterMap_eq_nil_iff] at some
      simpa [Option.bind_eq_none_iff] using some
  have complete (cls : TestClass) (collected : List Text) :
      partialError cls collected = none ↔ ∀ name ∈ allTests cls, name ∈ collected := by
    unfold partialError
    simp only [ite_eq_left_iff, reduceCtorEq, imp_false, not_not, List.isEmpty_iff]
    simp [List.filter_eq_nil_iff]
  have groups (parent : π) (names : List Text) :
      (parent, names) ∈ (incrementalParents data tree classOf items).items ↔
        (∃ item ∈ items, isChecked data tree classOf item = true ∧ tree.parent item = parent) ∧
          names = Dict.valuesOf ((items.filter (isChecked data tree classOf)).map fun item =>
            (tree.parent item, tree.functionName item)) parent := by
    rw [incrementalParents, Dict.mem_items_group]
    simp [and_assoc]
  rw [accepted]
  simp only [Prod.forall, groups, complete]
  constructor
  · intro passes item inside checked cls isClass name listed
    have collected := passes _ _ ⟨⟨item, inside, checked, rfl⟩, rfl⟩ cls isClass name listed
    simp only [Dict.valuesOf, List.mem_map, List.mem_filter] at collected
    obtain ⟨_, ⟨⟨other, ⟨here, otherChecked⟩, rfl⟩, same⟩, named⟩ := collected
    exact ⟨other, here, otherChecked, of_decide_eq_true same, named⟩
  · rintro passes _ _ ⟨⟨item, inside, checked, rfl⟩, rfl⟩ cls isClass name listed
    obtain ⟨other, here, otherChecked, same, named⟩ :=
      passes item inside checked cls isClass name listed
    simp only [Dict.valuesOf, List.mem_map, List.mem_filter]
    exact ⟨_, ⟨⟨other, ⟨here, otherChecked⟩, rfl⟩, decide_eq_true same⟩, named⟩

end Check

/-! ## Scenarios that are run -/

/-- The filters keep a relation between the items in their order if it holds between the items that
check no alerts and those that do. -/
theorem Conserved.pairwise {data : ItemData ι} {items : List ι} {collected : Collected ι}
    {related : ι → ι → Prop} (conserved : Conserved data items collected)
    (ordered : items.Pairwise related)
    (alerts : ∀ first ∈ items, ∀ second ∈ items, isPostTestAlert data first = false →
      isPostTestAlert data second = true → related first second) :
    collected.items.Pairwise related := by
  obtain ⟨kept, same⟩ := conserved.ordered
  rw [same, alertsLast, List.pairwise_append]
  refine ⟨ordered.sublist List.filter_sublist, ordered.sublist List.filter_sublist, ?_⟩
  intro first firstInside second secondInside
  rw [List.mem_filter, Bool.and_eq_true] at firstInside secondInside
  apply alerts first firstInside.1 second secondInside.1
  · simpa using firstInside.2.2
  · exact secondInside.2.2

section Session

variable [DecidableEq ι] [DecidableEq π] (data : ItemData ι) (tree : ItemTree ι π)
  (classOf : π → Option TestClass) (exceptions : Exceptions ι) (options : CollectionOptions)
  (config : ClusterConfig)

/-- The last marker of the collection does not make items incremental. -/
theorem isIncremental_markNmstate (items : List ι) :
    isIncremental (markNmstateDependentTests data items) = isIncremental data := by
  have added (keywords : List Text) (name : Text) (other : "incremental".toList ≠ name) :
      decide ("incremental".toList ∈ keywords ++ [name]) =
        decide ("incremental".toList ∈ keywords) := by
    apply decide_eq_decide.mpr
    rw [List.mem_append, List.mem_singleton]
    exact or_iff_left other
  funext item
  unfold isIncremental hasKeyword markNmstateDependentTests
  dsimp only
  split
  · exact added _ _ (by decide)
  · rfl

/-- If a test of an incremental class is called, then all tests that the check counts and that are
defined before it have been called, and none of them has raised. A test that is quarantined is not
counted.

This needs a class without parameters whose tests are gathered in the order of their definitions and
check alerts all or not at all. The hooks behind the filters of the suite may take out more items,
but then the check has to pass.

Proof: the check gives an item for each test of the class. The filters leave it before the called
test, which then would be stopped if it had raised. -/
theorem called_after_all_earlier (items before after : List ι) (item : ι)
    (cls : TestClass) (isClass : classOf (tree.parent item) = some cls)
    (incremental : isIncremental data item = true) (function : tree.isFunction item = true)
    (plain : ∀ other ∈ items, tree.parent other = tree.parent item →
      paramKey tree other = paramKey tree item)
    (defined : items.Pairwise fun first second => tree.parent first = tree.parent item →
      tree.parent second = tree.parent item →
        cls.definedAt (tree.functionName first) ≤ cls.definedAt (tree.functionName second))
    (alerts : ∀ other ∈ items, tree.parent other = tree.parent item →
      isPostTestAlert data other = isPostTestAlert data item)
    (left : (before ++ item :: after).Sublist
      (pytestCollectionModifyitems data options config items).1.items)
    (accepted : assertIncrementalClassesFullyCollected
      (pytestCollectionModifyitems data options config items).2 tree classOf
      (before ++ item :: after) = .ok ())
    (run : ItemRun) (called : run.called = true)
    (reported : (runTests (pytestCollectionModifyitems data options config items).2 tree exceptions
      (before ++ item :: after))[before.length]? = some (item, run)) :
    ∀ name ∈ allTests cls, cls.definedAt name < cls.definedAt (tree.functionName item) →
      ∃ start earlier rest earlierRun, before = start ++ earlier :: rest ∧
        tree.parent earlier = tree.parent item ∧ tree.functionName earlier = name ∧
        exceptions.raised earlier = false ∧ earlierRun.called = true ∧
        (runTests (pytestCollectionModifyitems data options config items).2 tree exceptions
          (before ++ item :: after))[start.length]? = some (earlier, earlierRun) := by
  intro name listed sooner
  have conserved := filterItems_conserved data options config items
  have same : isIncremental (pytestCollectionModifyitems data options config items).2 =
      isIncremental data := isIncremental_markNmstate data _
  have gathered : ∀ other ∈ before ++ item :: after, other ∈ items := by
    intro other inside
    exact conserved.rearranged.mem_iff.mp (List.mem_append_left _ (left.subset inside))
  have inOrder := (conserved.pairwise defined (by
    intro first firstInside second secondInside firstAlerts secondAlerts firstSame secondSame
    rw [alerts first firstInside firstSame, ← alerts second secondInside secondSame,
      secondAlerts] at firstAlerts
    cases firstAlerts)).sublist left
  generalize (pytestCollectionModifyitems data options config items).2 = marked at *
  have inside : item ∈ before ++ item :: after :=
    List.mem_append_right _ List.mem_cons_self
  have checked : isChecked marked tree classOf item = true := by
    simp [isChecked, function, isClass, same, incremental]
  obtain ⟨other, here, otherChecked, sameParent, named⟩ :=
    (fullyCollected_iff marked tree classOf _).mp accepted item inside checked cls isClass name
      listed
  have otherIncremental : isIncremental marked other = true := by
    rw [isChecked, Bool.and_eq_true] at otherChecked
    exact otherChecked.2
  have otherScenario : scenario tree other = scenario tree item :=
    Prod.ext sameParent (plain other (gathered other here) sameParent)
  -- The items that come later are defined later.
  have earlier : other ∈ before := by
    rw [List.mem_append, List.mem_cons] at here
    obtain before | rfl | later := here
    · exact before
    · rw [named] at sooner
      exact absurd sooner (lt_irrefl _)
    · have after := (List.pairwise_cons.mp (List.pairwise_append.mp inOrder).2.1).1 other later rfl
        sameParent
      rw [named] at after
      exact absurd sooner (not_lt.mpr after)
  obtain ⟨start, rest, rfl⟩ := List.append_of_mem earlier
  rw [runTests_getElem, Option.some_inj, Prod.mk.injEq] at reported
  obtain ⟨-, rfl⟩ := reported
  obtain ⟨passes, wasCalled⟩ := called_of_later_called marked tree exceptions start rest other item
    (by rw [same, incremental]) otherIncremental otherScenario called
  refine ⟨start, other, rest, runBehind marked tree exceptions start other, rfl, sameParent, named,
    passes, wasCalled, ?_⟩
  rw [List.append_assoc, List.cons_append]
  exact runTests_getElem marked tree exceptions start other (rest ++ item :: after)

end Session

/-! ## Two steps -/

/-- Two tests of a class that is marked as incremental. -/
def stepItems : ItemData (Fin 2) where
  name
    | 0 => "test_create".toList
    | 1 => "test_delete".toList
  keywords _ := ["incremental".toList]
  fixtureNames _ := []

/-- Two methods of one class. -/
def stepTree : ItemTree (Fin 2) Unit where
  parent _ := ()
  callspecId _ := none
  isFunction _ := true
  functionName := stepItems.name

/-- Their names differ. -/
theorem step_names_distinct : ["test_create".toList, "test_delete".toList].Nodup := by
  decide

/-- The class as it is imported. -/
def stepClass : TestClass where
  qualname := "TestDisk".toList
  members :=
    ⟨[("test_create".toList, { callable := true }), ("test_delete".toList, { callable := true })],
      step_names_distinct⟩

/-- Nothing raises. -/
def noExceptions : Exceptions (Fin 2) := ⟨fun _ => false, fun _ _ => false⟩

/-- The second test is called, and so has been the first one. -/
theorem delete_called_after_create :
    ∃ start earlier rest earlierRun, [(0 : Fin 2)] = start ++ earlier :: rest ∧
      stepTree.parent earlier = stepTree.parent 1 ∧
      stepTree.functionName earlier = "test_create".toList ∧
      noExceptions.raised earlier = false ∧ ItemRun.called earlierRun = true ∧
      (runTests (pytestCollectionModifyitems stepItems plainOptions ⟨none, []⟩ [0, 1]).2 stepTree
        noExceptions [0, 1])[start.length]? = some (earlier, earlierRun) := by
  apply called_after_all_earlier stepItems stepTree (fun _ => some stepClass) noExceptions
    plainOptions ⟨none, []⟩ [0, 1] [0] [] 1 stepClass rfl rfl rfl
  · exact fun _ _ _ => rfl
  · decide
  · exact fun _ _ _ => rfl
  · exact List.Sublist.refl _
  · rfl
  · exact (rfl : ItemRun.called ⟨.reached false, true⟩ = true)
  · rfl
  · decide
  · decide

end VirtTestTools.Suite
