import Mathlib.Data.List.Lex
import VirtTestTools.Groups
import VirtTestTools.KeySort
import VirtTestTools.Suite.QuarantineScan

/-!
# The numbers of the dashboard

The tests of a branch are counted together and by their categories. The JSON output shows
the categories under the names of teams, which are made from the names of folders. Two
categories with one name of a team share an entry, and the numbers of the first are lost.
-/

namespace VirtTestTools.Suite

open Text

/-! ## Statistics -/

/-- The counters of a category. -/
structure Counts where
  total : Nat := 0
  active : Nat := 0
  quarantined : Nat := 0
deriving DecidableEq

/-- What a test adds to the counters of its category. -/
def Counts.add (counts : Counts) (test : TestInfo) : Counts :=
  if test.isQuarantined then
    { counts with total := counts.total + 1, quarantined := counts.quarantined + 1 }
  else { counts with total := counts.total + 1, active := counts.active + 1 }

/-- `DashboardStats`. -/
structure DashboardStats where
  totalTests : Nat
  activeTests : Nat
  quarantinedTests : Nat
  categoryBreakdown : Dict Text Counts
  quarantinedList : List TestInfo

/-- `_calculate_stats`. -/
def calculateStats (allTests : List TestInfo) : DashboardStats :=
  let quarantined := allTests.filter (·.isQuarantined)
  { totalTests := allTests.length
    activeTests := allTests.length - quarantined.length
    quarantinedTests := quarantined.length
    categoryBreakdown := Dict.empty.accumulateAll {} Counts.add
      (allTests.map fun test => (test.category, test))
    quarantinedList := sortedBy (fun test => test.category.map Char.toNat) quarantined }

/-- `scan_all_tests`, for the files that are found; `none` is one that cannot be read or parsed. -/
def scanAllTests (scanner : TestScanner) (files : List (Option TestFile)) : DashboardStats :=
  calculateStats (files.flatMap fun file => file.elim [] (scanFile scanner))

/-! ## JSON output -/

/-- The tables of `str.title`. The lower case of a character may depend on what stands around it. -/
structure Casing where
  cased : Char → Bool
  titled : Char → Text
  lower : Text → Char → Text → Text

/-- The loop of `str.title`, with the characters it has passed. -/
def titleFrom (casing : Casing) : Text → Text → Text
  | _, [] => []
  | before, character :: rest =>
    (if before.getLast?.any casing.cased then casing.lower before character rest
      else casing.titled character) ++
      titleFrom casing (before ++ [character]) rest

/-- `team.replace("_", " ").title()`. -/
def teamName (casing : Casing) (category : Text) : Text :=
  titleFrom casing [] (category.map fun character => if character = '_' then ' ' else character)

/-- An entry of `quarantined_tests`. -/
structure QuarantinedTest where
  name : String
  line : Nat
  team : Text
  jira : Text
  reason : Text

/-- What the output says of a version. -/
structure VersionData where
  total : Nat
  active : Nat
  quarantined : Nat
  teams : Dict Text Counts
  quarantinedTests : List QuarantinedTest

/-- `teams_data`. -/
def teamsData (casing : Casing) (stats : DashboardStats) : Dict Text Counts :=
  Dict.empty.update (stats.categoryBreakdown.items.map fun item =>
    (teamName casing item.1, item.2))

/-- The body of the loop over the versions in `generate_json_output`. -/
def versionData (casing : Casing) (stats : DashboardStats) : VersionData where
  total := stats.totalTests
  active := stats.activeTests
  quarantined := stats.quarantinedTests
  teams := teamsData casing stats
  quarantinedTests := stats.quarantinedList.map fun test =>
    ⟨test.name, test.lineNumber, teamName casing test.category, test.jiraTicket,
      test.quarantineReason⟩

/-- `VersionStats`. -/
structure VersionStats where
  branch : Text
  stats : DashboardStats

/-- `generate_json_output`. -/
def generateJsonOutput (casing : Casing) (repoStats : Dict Text (List VersionStats)) :
    Dict Text (Dict Text VersionData) :=
  Dict.empty.update (repoStats.items.map fun item =>
    (item.1, Dict.empty.update (item.2.map fun version =>
      (version.branch, versionData casing version.stats))))

/-! ## What adds up -/

/-- A field of the counters with what a test adds to it. -/
structure Field where
  value : Counts → Nat
  gain : TestInfo → Nat
  starts : value {} = 0
  gains : ∀ counts test, value (counts.add test) = value counts + gain test

namespace Field

/-- All tests. -/
def total : Field where
  value := Counts.total
  gain _ := 1
  starts := rfl
  gains counts test := by
    rw [Counts.add]
    split <;> rfl

/-- The tests that are not quarantined. -/
def active : Field where
  value := Counts.active
  gain test := if test.isQuarantined then 0 else 1
  starts := rfl
  gains counts test := by
    rw [Counts.add]
    split <;> rfl

/-- The quarantined tests. -/
def quarantined : Field where
  value := Counts.quarantined
  gain test := if test.isQuarantined then 1 else 0
  starts := rfl
  gains counts test := by
    rw [Counts.add]
    split <;> rfl

/-- The sum over some tests. -/
def sum (field : Field) (tests : List TestInfo) : Nat := (tests.map field.gain).sum

/-- A field of a category is the sum over the tests of the category. -/
theorem value_foldl (field : Field) (counts : Counts) (tests : List TestInfo) :
    field.value (tests.foldl Counts.add counts) = field.value counts + field.sum tests := by
  induction tests generalizing counts with
  | nil => rfl
  | cons test rest inductionHypothesis =>
    rw [List.foldl_cons, inductionHypothesis, field.gains, sum, sum, List.map_cons, List.sum_cons,
      Nat.add_assoc]

/-- The categories together hold what the tests add. -/
theorem total_categoryBreakdown (field : Field) (tests : List TestInfo) :
    (calculateStats tests).categoryBreakdown.total field.value = field.sum tests := by
  have summed := Dict.total_accumulateAll field.value {} Counts.add field.gain field.starts
    field.gains Dict.empty (tests.map fun test => (test.category, test))
  rw [List.map_map] at summed
  exact summed.trans (Nat.zero_add _)

end Field

/-- The fields are the numbers of all tests, of those that run and of those that are quarantined. -/
theorem field_sums (tests : List TestInfo) :
    Field.total.sum tests = (calculateStats tests).totalTests ∧
      Field.active.sum tests = (calculateStats tests).activeTests ∧
      Field.quarantined.sum tests = (calculateStats tests).quarantinedTests ∧
      (calculateStats tests).totalTests =
        (calculateStats tests).activeTests + (calculateStats tests).quarantinedTests := by
  have sums : Field.total.sum tests = tests.length ∧
      Field.quarantined.sum tests = (tests.filter (·.isQuarantined)).length ∧
      Field.active.sum tests + Field.quarantined.sum tests = tests.length := by
    induction tests with
    | nil => exact ⟨rfl, rfl, rfl⟩
    | cons test rest inductionHypothesis =>
      have more (field : Field) : field.sum (test :: rest) = field.gain test + field.sum rest :=
        List.sum_cons
      rw [more, more, more, List.filter_cons]
      simp only [Field.total, Field.active, Field.quarantined] at inductionHypothesis ⊢
      cases test.isQuarantined with
      | true =>
        simp only [↓reduceIte, List.length_cons]
        omega
      | false =>
        simp only [Bool.false_eq_true, ↓reduceIte, List.length_cons]
        omega
  simp only [calculateStats]
  omega

/-- A category is counted if some test has it, and its counters are those of its tests. -/
theorem mem_categoryBreakdown (tests : List TestInfo) (category : Text) (counts : Counts) :
    (category, counts) ∈ (calculateStats tests).categoryBreakdown.items ↔
      (∃ test ∈ tests, test.category = category) ∧
        counts =
          (tests.filter fun test => decide (test.category = category)).foldl Counts.add {} := by
  have own : Dict.valuesOf (tests.map fun test => (test.category, test)) category =
      tests.filter fun test => decide (test.category = category) := by
    rw [Dict.valuesOf, List.filter_map, List.map_map]
    exact List.map_id _
  rw [calculateStats, Dict.mem_items_accumulateAll, own, List.map_map]
  simp

section Teams

variable (casing : Casing) (tests : List TestInfo)

/-- The breakdown has the categories of the tests. -/
theorem mem_keys_categoryBreakdown (category : Text) :
    category ∈ (calculateStats tests).categoryBreakdown.keys ↔
      ∃ test ∈ tests, test.category = category := by
  have counted := mem_categoryBreakdown tests category
  constructor
  · intro known
    obtain ⟨item, inside, rfl⟩ := List.mem_map.mp known
    exact ((counted item.2).mp inside).1
  · intro present
    exact List.mem_map.mpr ⟨(category, _), (counted _).mpr ⟨present, rfl⟩, rfl⟩

/-- The names of teams keep the categories of some tests apart. -/
def TeamsApart : Prop :=
  ∀ first ∈ tests, ∀ second ∈ tests,
    teamName casing first.category = teamName casing second.category →
      first.category = second.category

/-- No team name comes twice exactly when the teams are apart. -/
theorem teamNames_nodup_iff :
    ((calculateStats tests).categoryBreakdown.items.map fun item => teamName casing item.1).Nodup ↔
      TeamsApart casing tests := by
  have names : ((calculateStats tests).categoryBreakdown.items.map fun item =>
      teamName casing item.1) =
        (calculateStats tests).categoryBreakdown.keys.map (teamName casing) := by
    rw [Dict.keys, List.map_map]
    rfl
  have distinct : (calculateStats tests).categoryBreakdown.keys.Nodup :=
    (calculateStats tests).categoryBreakdown.distinct
  rw [names, List.nodup_map_iff_inj_on distinct]
  simp only [mem_keys_categoryBreakdown, TeamsApart]
  constructor
  · intro apart first firstInside second secondInside same
    exact apart _ ⟨first, firstInside, rfl⟩ _ ⟨second, secondInside, rfl⟩ same
  · rintro apart _ ⟨first, firstInside, rfl⟩ _ ⟨second, secondInside, rfl⟩ same
    exact apart first firstInside second secondInside same

/-- What the entries of the teams fall short of the categories by. -/
theorem total_teamsData_le (field : Field) :
    (teamsData casing (calculateStats tests)).total field.value ≤ field.sum tests := by
  have most := Dict.total_update_le field.value Dict.empty
    ((calculateStats tests).categoryBreakdown.items.map fun item =>
      (teamName casing item.1, item.2))
  rw [List.map_map] at most
  rw [← field.total_categoryBreakdown]
  exact most.trans_eq (Nat.zero_add _)

/-- With teams apart their numbers add up to those of the tests. -/
theorem total_teamsData_of_apart (field : Field) (apart : TeamsApart casing tests) :
    (teamsData casing (calculateStats tests)).total field.value = field.sum tests := by
  rw [← field.total_categoryBreakdown, teamsData, Dict.total, Dict.items_update_of_distinct]
  · simp only [Dict.empty, List.nil_append, List.map_map]
    rfl
  · simp only [Dict.keys, Dict.empty, List.map_nil, List.nil_append, List.map_map]
    exact (teamNames_nodup_iff casing tests).mpr apart

/-- The totals of the teams add up to that of the version if and only if their names keep the
categories apart.

Proof: a category that is counted has a test. -/
theorem total_teamsData_eq_iff :
    (teamsData casing (calculateStats tests)).total Counts.total =
        (calculateStats tests).totalTests ↔ TeamsApart casing tests := by
  have counted : ∀ entry ∈ (calculateStats tests).categoryBreakdown.items.map (fun item =>
      (teamName casing item.1, item.2)), 0 < Counts.total entry.2 := by
    intro entry inside
    obtain ⟨⟨category, counts⟩, listed, rfl⟩ := List.mem_map.mp inside
    obtain ⟨⟨test, present, same⟩, rfl⟩ := (mem_categoryBreakdown tests category counts).mp listed
    have value := Field.total.value_foldl {}
      (tests.filter fun test => decide (test.category = category))
    have some : test ∈ tests.filter fun test => decide (test.category = category) :=
      List.mem_filter.mpr ⟨present, decide_eq_true same⟩
    rw [(field_sums _).1] at value
    exact (List.length_pos_of_mem some).trans_eq ((Nat.zero_add _).symm.trans value.symm)
  have replaced := Dict.total_update_eq_iff Counts.total Dict.empty _ (by
    intro item inside
    cases inside) counted
  rw [List.map_map, List.map_map] at replaced
  have whole : (Dict.empty : Dict Text Counts).total Counts.total +
      ((calculateStats tests).categoryBreakdown.items.map
        ((fun entry => Counts.total entry.2) ∘ fun item => (teamName casing item.1, item.2))).sum =
      (calculateStats tests).totalTests := by
    rw [← (field_sums tests).1, ← Field.total.total_categoryBreakdown]
    exact Nat.zero_add _
  rw [whole] at replaced
  exact replaced.trans (teamNames_nodup_iff casing tests)

end Teams

/-- What the output says of a version adds up: each test that is scanned is active or quarantined,
and the quarantined ones are listed. The teams fall short of the version if and only if two
categories of its tests have one name of a team; otherwise they have all active and all quarantined
tests. -/
theorem versionData_adds_up (casing : Casing) (scanner : TestScanner)
    (files : List (Option TestFile)) :
    let tests := files.flatMap fun file => file.elim [] (scanFile scanner)
    let data := versionData casing (scanAllTests scanner files)
    data.total = tests.length ∧ data.total = data.active + data.quarantined ∧
      data.quarantinedTests.length = data.quarantined ∧
      data.teams.total Counts.total ≤ data.total ∧
      (data.teams.total Counts.total = data.total ↔ TeamsApart casing tests) ∧
      (TeamsApart casing tests → data.teams.total Counts.active = data.active ∧
        data.teams.total Counts.quarantined = data.quarantined) := by
  intro tests data
  obtain ⟨total, active, quarantined, parts⟩ := field_sums tests
  refine ⟨rfl, parts, ?_, ?_, total_teamsData_eq_iff casing tests, ?_⟩
  · have listed : data.quarantinedTests.length =
        (calculateStats tests).quarantinedList.length := List.length_map _
    rw [listed, calculateStats, length_sortedBy]
    rfl
  · exact (total_teamsData_le casing tests Field.total).trans_eq total
  · intro apart
    exact ⟨(total_teamsData_of_apart casing tests Field.active apart).trans active,
      (total_teamsData_of_apart casing tests Field.quarantined apart).trans quarantined⟩

end VirtTestTools.Suite
