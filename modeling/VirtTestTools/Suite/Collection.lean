import Mathlib.Data.List.Nodup
import Mathlib.Order.Fin.Basic
import VirtTestTools.Text

/-!
# Filters on the collected tests

At the end of the collection a chain of filters takes tests out of the list of
items and reports them as deselected. The first filter also moves the tests that
check alerts behind the others. An item is an identity, with the keywords it has
when the filters run.
-/

namespace VirtTestTools.Suite

variable {ι : Type}

/-- What the filters read of the items: their names, their keywords once the
markers have been added, and the names of their fixtures. -/
structure ItemData (ι : Type) where
  name : ι → Text
  keywords : ι → List Text
  fixtureNames : ι → List Text

/-- The command-line options that the filters read. -/
structure CollectionOptions where
  upgrade : Option Text
  upgradeCustom : Option Text
  cnvSource : Text
  skipDeprecatedApiTest : Bool
  install : Bool
  skipPostTestAlerts : Bool
  markExpression : Text

/-- What they read of `py_config`: the kind of the cluster, and the keys of the
entries of the storage class matrix. -/
structure ClusterConfig where
  clusterType : Option Text
  storageClassMatrix : List (List Text)

/-- The list of items, and the lists passed to `pytest_deselected` so far. -/
structure Collected (ι : Type) where
  items : List ι
  deselected : List (List ι)

/-- The truth value of an option. -/
def isSet (option : Option Text) : Bool := option.any (· ≠ [])

namespace CollectionOptions

/-- `chosen_upgrade_markers`. -/
def chosenUpgradeMarkers (options : CollectionOptions) : List Text :=
  (if isSet options.upgrade then ["upgrade".toList] else []) ++
    (if isSet options.upgradeCustom then ["upgrade_custom".toList] else [])

/-- `upgrade_markers_to_collect`. -/
def upgradeMarkersToCollect (options : CollectionOptions) : List Text :=
  if options.chosenUpgradeMarkers = [] then ["upgrade".toList, "upgrade_custom".toList]
  else options.chosenUpgradeMarkers

/-- `py_config["upgraded_product"]`, as set when the session starts. -/
def upgradedProduct (options : CollectionOptions) : Text :=
  ((options.upgrade.filter (· ≠ [])).or (options.upgradeCustom.filter (· ≠ []))).getD "cnv".toList

end CollectionOptions

section Filters

variable (data : ItemData ι) (options : CollectionOptions) (config : ClusterConfig)

/-- `keyword in item.keywords`. -/
def hasKeyword (keyword : Text) (item : ι) : Bool := decide (keyword ∈ data.keywords item)

/-- Whether an upgrade test is kept: of the tests that upgrade CNV those for the
source, of the others those marked for the product. -/
def keepsUpgradeTest (test : ι) : Bool :=
  let marker := options.upgradedProduct ++ "_upgrade".toList
  if marker = "cnv_upgrade".toList &&
      Text.contains "cnv_upgrade_process".toList (data.name test) then
    decide (options.cnvSource = "production".toList) ==
      Text.contains "production_source".toList (data.name test)
  else hasKeyword data marker test

/-- `remove_upgrade_tests_based_on_config`. -/
def removeUpgradeTestsBasedOnConfig [DecidableEq ι] (upgradeTests : List ι) : List ι × List ι :=
  let keep := upgradeTests.filter (keepsUpgradeTest data options)
  (keep, upgradeTests.filter (fun test => decide (test ∉ keep)))

/-- `"post_test_alerts" in item.keywords`. -/
def isPostTestAlert (item : ι) : Bool := hasKeyword data "post_test_alerts".toList item

/-- An upgrade test by its keywords. -/
def isUpgradeTest (item : ι) : Bool :=
  options.upgradeMarkersToCollect.any (fun marker => hasKeyword data marker item)

/-- `filter_upgrade_tests`: the items to keep and those to discard. -/
def filterUpgradeTests [DecidableEq ι] (items : List ι) : List ι × List ι :=
  let alwaysKeep := items.filter (isPostTestAlert data)
  let others := items.filter (fun item => !isPostTestAlert data item)
  let upgradeTests := others.filter (isUpgradeTest data options)
  let nonUpgradeTests := others.filter (fun item => !isUpgradeTest data options item)
  if options.chosenUpgradeMarkers ≠ [] then
    let (keep, discard) := removeUpgradeTestsBasedOnConfig data options upgradeTests
    (keep ++ alwaysKeep, nonUpgradeTests ++ discard)
  else
    (nonUpgradeTests ++ alwaysKeep, upgradeTests)

/-- The first filter of the chain. Nothing is reported if nothing is discarded. -/
def selectUpgradeTests [DecidableEq ι] (items : List ι) : Collected ι :=
  let (keep, discard) := filterUpgradeTests data options items
  ⟨keep, if discard.isEmpty then [] else [discard]⟩

/-- `remove_tests_from_list`: the tests with a keyword, and the others. -/
def removeTestsFromList (items : List ι) (filterStr : Text) : List ι × List ι :=
  items.partition (hasKeyword data filterStr)

/-- Remove the tests with a keyword and report them, which is what the filters
behind the first one have in common. -/
def removeReported (filterStr : Text) (collected : Collected ι) : Collected ι :=
  let (discardTests, itemsToReturn) := removeTestsFromList data collected.items filterStr
  ⟨itemsToReturn, collected.deselected ++ [discardTests]⟩

/-- `filter_deprecated_api_tests`. -/
def filterDeprecatedApiTests (collected : Collected ι) : Collected ι :=
  if options.skipDeprecatedApiTest || options.install || isSet options.upgrade ||
      isSet options.upgradeCustom then
    removeReported data "deprecated_api".toList collected
  else collected

/-- `filter_post_test_alerts_tests`. -/
def filterPostTestAlertsTests (collected : Collected ι) : Collected ι :=
  if options.skipPostTestAlerts || options.install then
    removeReported data "post_test_alerts".toList collected
  else collected

/-- `filter_sno_only_tests`. -/
def filterSnoOnlyTests (collected : Collected ι) : Collected ι :=
  if options.markExpression ≠ [] && !Text.contains "sno".toList options.markExpression then
    removeReported data "single_node_tests".toList collected
  else collected

/-- `filter_multiarch_tests`: the one filter that reports only a list with items. -/
def filterMultiarchTests (collected : Collected ι) : Collected ι :=
  if config.clusterType = some "multiarch".toList then collected
  else
    let (discardTests, itemsToReturn) :=
      removeTestsFromList data collected.items "multiarch".toList
    ⟨itemsToReturn,
      if discardTests.isEmpty then collected.deselected else collected.deselected ++ [discardTests]⟩

/-- `filter_hpp_tests`. -/
def filterHppTests (collected : Collected ι) : Collected ι :=
  if options.markExpression = [] || !Text.contains "hpp".toList options.markExpression then
    removeReported data "hpp".toList collected
  else collected

/-- `ocs_storage_class_in_matrix`. -/
def ocsStorageClassInMatrix : Bool :=
  config.storageClassMatrix.any (fun storageClass =>
    decide ("ocs-storagecluster-ceph-rbd-virtualization".toList ∈ storageClass))

/-- `filter_ocs_tests`. -/
def filterOcsTests (collected : Collected ι) : Collected ι :=
  if options.markExpression ≠ [] && Text.contains "ocs".toList options.markExpression ||
      ocsStorageClassInMatrix config then
    collected
  else removeReported data "ocs".toList collected

/-- `mark_nmstate_dependent_tests` returns its items; the tests that depend on the
placeholder have one more keyword. -/
def markNmstateDependentTests [DecidableEq ι] (items : List ι) : ItemData ι :=
  { data with
    keywords := fun item =>
      if item ∈ items ∧ "nmstate_dependent_placeholder".toList ∈ data.fixtureNames item then
        data.keywords item ++ ["nmstate".toList]
      else data.keywords item }

/-- The filters of `pytest_collection_modifyitems`, in their order. -/
def filterItems [DecidableEq ι] (items : List ι) : Collected ι :=
  filterOcsTests data options config <|
    filterHppTests data options <|
      filterMultiarchTests data config <|
        filterSnoOnlyTests data options <|
          filterPostTestAlertsTests data options <|
            filterDeprecatedApiTests data options <|
              selectUpgradeTests data options items

/-- The part of `pytest_collection_modifyitems` behind the loop that adds markers:
the items with what has been deselected, and their data with the last marker. -/
def pytestCollectionModifyitems [DecidableEq ι] (items : List ι) : Collected ι × ItemData ι :=
  let collected := filterItems data options config items
  (collected, markNmstateDependentTests data collected.items)

/-- The kept items in their original order, the tests of alerts behind the others. -/
def alertsLast (kept : ι → Bool) (items : List ι) : List ι :=
  items.filter (fun item => kept item && !isPostTestAlert data item) ++
    items.filter (fun item => kept item && isPostTestAlert data item)

/-- What every filter preserves: no item is lost or doubled, and the order is the
original one with the tests of alerts last. -/
structure Conserved (items : List ι) (collected : Collected ι) : Prop where
  rearranged : (collected.items ++ collected.deselected.flatten).Perm items
  ordered : ∃ kept : ι → Bool, collected.items = alertsLast data kept items

end Filters

section Conservation

variable {data : ItemData ι} {options : CollectionOptions} {config : ClusterConfig}
variable {items : List ι} {collected : Collected ι}

/-- A filter keeps the alerts last. -/
theorem filter_alertsLast (kept wanted : ι → Bool) :
    (alertsLast data kept items).filter wanted =
      alertsLast data (fun item => wanted item && kept item) items := by
  simp only [alertsLast, List.filter_append, List.filter_filter, Bool.and_assoc]

/-- Taking out items and adding one report with just these conserves the items. -/
theorem Conserved.split (conserved : Conserved data items collected) (discarded : ι → Bool)
    (deselected : List (List ι))
    (reported : deselected.flatten =
      collected.deselected.flatten ++ collected.items.filter discarded) :
    Conserved data items
      ⟨collected.items.filter (fun item => !discarded item), deselected⟩ := by
  obtain ⟨kept, ordered⟩ := conserved.ordered
  constructor
  · have parts : (collected.items.filter (fun item => !discarded item) ++
        collected.items.filter discarded).Perm collected.items :=
      List.perm_append_comm.trans (List.filter_append_perm discarded collected.items)
    refine List.Perm.trans ?_ conserved.rearranged
    calc collected.items.filter (fun item => !discarded item) ++ deselected.flatten
        = collected.items.filter (fun item => !discarded item) ++
            (collected.deselected.flatten ++ collected.items.filter discarded) := by
          rw [reported]
      _ |>.Perm (collected.items.filter (fun item => !discarded item) ++
            (collected.items.filter discarded ++ collected.deselected.flatten)) :=
          List.perm_append_comm.append_left _
      _ |>.Perm (collected.items ++ collected.deselected.flatten) := by
          rw [← List.append_assoc]
          exact parts.append_right _
  · exact ⟨_, by rw [ordered, filter_alertsLast]⟩

/-- Tests with a keyword are taken out and reported. -/
theorem Conserved.removeReported (conserved : Conserved data items collected)
    (filterStr : Text) : Conserved data items (removeReported data filterStr collected) := by
  rw [Suite.removeReported, removeTestsFromList, List.partition_eq_filter_filter]
  exact conserved.split (hasKeyword data filterStr) _ (by simp)

/-- The filter for clusters of several architectures conserves the tests. -/
theorem Conserved.filterMultiarchTests (conserved : Conserved data items collected) :
    Conserved data items (filterMultiarchTests data config collected) := by
  rw [Suite.filterMultiarchTests]
  split
  · exact conserved
  · rw [removeTestsFromList, List.partition_eq_filter_filter]
    refine conserved.split (hasKeyword data "multiarch".toList) _ ?_
    split
    · rename_i nothing
      rw [List.isEmpty_iff] at nothing
      rw [nothing, List.append_nil]
    · simp

/-- A filter with an option either removes a keyword or leaves everything. -/
theorem Conserved.ite (conserved : Conserved data items collected) (condition : Bool)
    (filterStr : Text) :
    Conserved data items
      (if condition then Suite.removeReported data filterStr collected else collected) := by
  cases condition with
  | true => exact conserved.removeReported filterStr
  | false => exact conserved

/-- A choice among the tests that check no alerts, with the others of these
reported, conserves the items. -/
theorem Conserved.ofChoice (chosen : ι → Bool) (deselected : List (List ι))
    (reported : deselected.flatten.Perm
      ((items.filter (fun item => !isPostTestAlert data item)).filter
        (fun item => !chosen item))) :
    Conserved data items
      ⟨(items.filter (fun item => !isPostTestAlert data item)).filter chosen ++
        items.filter (isPostTestAlert data), deselected⟩ := by
  let others := items.filter (fun item => !isPostTestAlert data item)
  let alerts := items.filter (isPostTestAlert data)
  constructor
  · calc others.filter chosen ++ alerts ++ deselected.flatten
        |>.Perm (others.filter chosen ++ alerts ++ others.filter (fun item => !chosen item)) :=
          reported.append_left _
      _ |>.Perm (alerts ++ (others.filter chosen ++ others.filter (fun item => !chosen item))) := by
          rw [← List.append_assoc]
          exact List.perm_append_comm.append_right _
      _ |>.Perm (alerts ++ others) :=
          (List.filter_append_perm chosen others).append_left _
      _ |>.Perm items := List.filter_append_perm (isPostTestAlert data) items
  · refine ⟨fun item => isPostTestAlert data item || chosen item, ?_⟩
    rw [alertsLast, List.filter_filter]
    refine congrArg₂ (· ++ ·) ?_ ?_
    · apply List.filter_congr
      intro item _
      cases isPostTestAlert data item <;> simp
    · apply List.filter_congr
      intro item _
      cases isPostTestAlert data item <;> simp

/-- A report that is left out when it is empty has the discarded tests. -/
theorem flatten_report (discard : List ι) :
    (if discard.isEmpty then [] else [discard]).flatten = discard := by
  split
  · rename_i nothing
    exact (List.isEmpty_iff.mp nothing).symm
  · exact List.flatten_singleton

/-- The first filter establishes the invariant. -/
theorem selectUpgradeTests_conserved [DecidableEq ι] (data : ItemData ι) (options : CollectionOptions)
    (items : List ι) : Conserved data items (selectUpgradeTests data options items) := by
  let others := items.filter (fun item => !isPostTestAlert data item)
  let upgradeTests := others.filter (isUpgradeTest data options)
  by_cases chosen : options.chosenUpgradeMarkers = []
  · have selected : selectUpgradeTests data options items =
        ⟨others.filter (fun item => !isUpgradeTest data options item) ++
          items.filter (isPostTestAlert data),
          if upgradeTests.isEmpty then [] else [upgradeTests]⟩ := by
      rw [selectUpgradeTests, filterUpgradeTests, if_neg (not_not_intro chosen)]
    rw [selected]
    refine Conserved.ofChoice (fun item => !isUpgradeTest data options item) _ ?_
    rw [flatten_report]
    simp only [Bool.not_not]
    exact List.Perm.refl _
  · let keeps := keepsUpgradeTest data options
    let discard := others.filter (fun item => !isUpgradeTest data options item) ++
      upgradeTests.filter (fun test => decide (test ∉ upgradeTests.filter keeps))
    have selected : selectUpgradeTests data options items =
        ⟨upgradeTests.filter keeps ++ items.filter (isPostTestAlert data),
          if discard.isEmpty then [] else [discard]⟩ := by
      rw [selectUpgradeTests, filterUpgradeTests, if_pos chosen]
      rfl
    -- An upgrade test is outside the kept ones exactly if it is not kept itself.
    have dropped : upgradeTests.filter (fun test => decide (test ∉ upgradeTests.filter keeps)) =
        upgradeTests.filter (fun test => !keeps test) := by
      apply List.filter_congr
      intro test member
      simp only [List.mem_filter, member, true_and, Bool.not_eq_true, Bool.decide_eq_false]
    rw [selected]
    have kept : upgradeTests.filter keeps =
        others.filter (fun item => keeps item && isUpgradeTest data options item) :=
      List.filter_filter
    rw [kept]
    refine Conserved.ofChoice _ _ ?_
    rw [flatten_report]
    have rest := List.filter_append_perm (isUpgradeTest data options)
      (others.filter (fun item => !(keeps item && isUpgradeTest data options item)))
    refine List.Perm.trans ?_ rest
    have notUpgrade : (others.filter (fun item =>
        !(keeps item && isUpgradeTest data options item))).filter
          (fun item => !isUpgradeTest data options item) =
        others.filter (fun item => !isUpgradeTest data options item) := by
      rw [List.filter_filter]
      apply List.filter_congr
      intro item _
      cases isUpgradeTest data options item <;> simp
    have notKept : (others.filter (fun item =>
        !(keeps item && isUpgradeTest data options item))).filter (isUpgradeTest data options) =
        upgradeTests.filter (fun test => !keeps test) := by
      rw [List.filter_filter (l := others), List.filter_filter (l := others)]
      apply List.filter_congr
      intro item _
      cases isUpgradeTest data options item <;> simp
    rw [notUpgrade, notKept, ← dropped]
    exact List.perm_append_comm

/-- The filters conserve the tests. -/
theorem filterItems_conserved [DecidableEq ι] (data : ItemData ι) (options : CollectionOptions)
    (config : ClusterConfig) (items : List ι) :
    Conserved data items (filterItems data options config items) := by
  have afterUpgrade := selectUpgradeTests_conserved data options items
  have afterApi := afterUpgrade.ite (options.skipDeprecatedApiTest || options.install ||
    isSet options.upgrade || isSet options.upgradeCustom) "deprecated_api".toList
  have afterAlerts := afterApi.ite (options.skipPostTestAlerts || options.install)
    "post_test_alerts".toList
  have afterSno := afterAlerts.ite (options.markExpression ≠ [] &&
    !Text.contains "sno".toList options.markExpression) "single_node_tests".toList
  have afterMultiarch : Conserved data items (filterMultiarchTests data config _) :=
    afterSno.filterMultiarchTests
  have afterHpp := afterMultiarch.ite (options.markExpression = [] ||
    !Text.contains "hpp".toList options.markExpression) "hpp".toList
  rw [filterItems, filterOcsTests]
  split
  · exact afterHpp
  · exact afterHpp.removeReported _

/-- The order is that of the items that are left. -/
theorem Conserved.items_eq [DecidableEq ι] (conserved : Conserved data items collected) :
    collected.items = alertsLast data (fun item => decide (item ∈ collected.items)) items := by
  obtain ⟨kept, ordered⟩ := conserved.ordered
  have left : ∀ item ∈ items, decide (item ∈ collected.items) = kept item := by
    intro item member
    rw [Bool.eq_iff_iff, decide_eq_true_eq, ordered, alertsLast, List.mem_append, List.mem_filter,
      List.mem_filter]
    cases isPostTestAlert data item <;> simp [member]
  refine ordered.trans ?_
  rw [alertsLast, alertsLast]
  refine congrArg₂ (· ++ ·) ?_ ?_
  · apply List.filter_congr
    intro item member
    rw [left item member]
  · apply List.filter_congr
    intro item member
    rw [left item member]

/-- Of distinct items each is left or reported, exactly once and never both. -/
theorem Conserved.count_eq [DecidableEq ι] (conserved : Conserved data items collected)
    (distinct : items.Nodup) (item : ι) (member : item ∈ items) :
    (collected.items.count item = 1 ∧ collected.deselected.flatten.count item = 0) ∨
      (collected.items.count item = 0 ∧ collected.deselected.flatten.count item = 1) := by
  have once : collected.items.count item + collected.deselected.flatten.count item = 1 := by
    rw [← List.count_append, conserved.rearranged.count_eq,
      List.count_eq_one_of_mem distinct member]
  omega

/-- The filters conserve the tests: each collected item is left or deselected
exactly once, no other item appears, and the order is the original one with the
tests of alerts moved behind the others. -/
theorem collection_conserves_tests [DecidableEq ι] (data : ItemData ι)
    (options : CollectionOptions) (config : ClusterConfig) (items : List ι)
    (distinct : items.Nodup) :
    let collected := (pytestCollectionModifyitems data options config items).1
    (∀ item ∈ items,
      (collected.items.count item = 1 ∧ collected.deselected.flatten.count item = 0) ∨
        (collected.items.count item = 0 ∧ collected.deselected.flatten.count item = 1)) ∧
      (∀ item ∈ collected.items ++ collected.deselected.flatten, item ∈ items) ∧
      collected.items = alertsLast data (fun item => decide (item ∈ collected.items)) items := by
  have conserved := filterItems_conserved data options config items
  exact ⟨conserved.count_eq distinct, fun item member => conserved.rearranged.mem_iff.mp member,
    conserved.items_eq⟩

/-- Three tests: one of alerts, one of an upgrade, one of a storage class. -/
def sampleTests : ItemData (Fin 3) where
  name _ := "test_sample".toList
  keywords
    | 0 => ["post_test_alerts".toList]
    | 1 => ["upgrade".toList, "cnv_upgrade".toList]
    | 2 => ["hpp".toList]
  fixtureNames _ := []

/-- A run without options. -/
def plainOptions : CollectionOptions where
  upgrade := none
  upgradeCustom := none
  cnvSource := "osbs".toList
  skipDeprecatedApiTest := false
  install := false
  skipPostTestAlerts := false
  markExpression := []

/-- A collection of three tests, by the general theorem. -/
theorem sample_conserved :
    let collected := (pytestCollectionModifyitems sampleTests plainOptions ⟨none, []⟩ [0, 1, 2]).1
    (∀ item ∈ ([0, 1, 2] : List (Fin 3)),
      (collected.items.count item = 1 ∧ collected.deselected.flatten.count item = 0) ∨
        (collected.items.count item = 0 ∧ collected.deselected.flatten.count item = 1)) ∧
      (∀ item ∈ collected.items ++ collected.deselected.flatten,
        item ∈ ([0, 1, 2] : List (Fin 3))) ∧
      collected.items =
        alertsLast sampleTests (fun item => decide (item ∈ collected.items)) [0, 1, 2] :=
  collection_conserves_tests sampleTests plainOptions ⟨none, []⟩ [0, 1, 2] (by decide)

end Conservation

end VirtTestTools.Suite
