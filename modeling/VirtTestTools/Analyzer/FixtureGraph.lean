import VirtTestTools.Worklist
import VirtTestTools.Analyzer.Model

/-!
# The fixture graph

Fixtures request other fixtures. `_expand_used_fixtures` follows requests from
the fixtures a test names; `_get_affected_fixtures_helper` follows them the
other way, from modified fixtures to everything that requests them. Both are
instances of the worklist search and compute exact closures, whatever cycles or
unknown names the dictionary contains.
-/

namespace VirtTestTools.Analyzer

/-- The fixtures a named fixture requests; an unknown name requests none. -/
def requestsOf (fixtures : Dict String Fixture) (name : String) : List String :=
  ((fixtures.get name).map Fixture.fixtureDeps).getD []

/-- The names of the fixtures that request the given one. -/
def requestersOf (fixtures : Dict String Fixture) (name : String) : List String :=
  (fixtures.items.filter (fun item => decide (name ∈ item.2.fixtureDeps))).map Prod.fst

/-- Every name requested by some fixture of the dictionary. -/
def requestedNames (fixtures : Dict String Fixture) : List String :=
  fixtures.items.flatMap (fun item => item.2.fixtureDeps)

/-- `_expand_used_fixtures`. The loop of the source keeps no processed set; each
name enters the pending list once, which bounds its iterations. -/
def expandUsedFixtures (directFixtures : List String) (fixtures : Dict String Fixture) :
    List String :=
  (Search.run false (requestsOf fixtures)
    (directFixtures.length + (requestedNames fixtures).length)
    (Search.start directFixtures)).seen

/-- The fixtures that call a modified function. -/
def callersOf (modifiedFunctions : List String) (fixtures : Dict String Fixture) : List String :=
  (fixtures.items.filter
    (fun item => !(intersect item.2.functionCalls modifiedFunctions).isEmpty)).map Prod.fst

/-- `_get_affected_fixtures_helper`. The source's `visited` set skips names that
were pushed twice at the start. -/
def getAffectedFixturesHelper (modifiedFixtures modifiedFunctions : List String)
    (fixtures : Dict String Fixture) : List String :=
  let roots := modifiedFixtures ++ callersOf modifiedFunctions fixtures
  (Search.run true (requestersOf fixtures) (roots.length + fixtures.items.length)
    (Search.start roots)).seen

/-- A request edge of the fixture graph. -/
def Requests (fixtures : Dict String Fixture) (name requested : String) : Prop :=
  ∃ fixture, fixtures.get name = some fixture ∧ requested ∈ fixture.fixtureDeps

/-- The fixtures that run when a fixture is requested: its request closure. -/
def Uses (fixtures : Dict String Fixture) : String → String → Prop :=
  Relation.ReflTransGen (Requests fixtures)

/-- The fixtures that a fixture requests. -/
theorem mem_requestsOf (fixtures : Dict String Fixture) (name requested : String) :
    requested ∈ requestsOf fixtures name ↔ Requests fixtures name requested := by
  unfold requestsOf Requests
  cases fixtures.get name <;> simp

/-- The fixtures that request a fixture. -/
theorem mem_requestersOf (fixtures : Dict String Fixture) (name requester : String) :
    requester ∈ requestersOf fixtures name ↔ Requests fixtures requester name := by
  simp only [requestersOf, Requests, Dict.get_eq_some_iff, List.mem_map, List.mem_filter,
    decide_eq_true_eq]
  constructor
  · rintro ⟨⟨found, fixture⟩, ⟨member, requested⟩, rfl⟩
    exact ⟨fixture, member, requested⟩
  · rintro ⟨fixture, member, requested⟩
    exact ⟨(requester, fixture), ⟨member, requested⟩, rfl⟩

/-- The fixtures that call a modified function. -/
theorem mem_callersOf (modifiedFunctions : List String) (fixtures : Dict String Fixture)
    (name : String) :
    name ∈ callersOf modifiedFunctions fixtures ↔
      ∃ fixture, fixtures.get name = some fixture ∧
        ∃ function ∈ fixture.functionCalls, function ∈ modifiedFunctions := by
  simp only [callersOf, Dict.get_eq_some_iff, List.mem_map, List.mem_filter, Bool.not_eq_true',
    List.isEmpty_eq_false_iff, intersect_ne_nil]
  constructor
  · rintro ⟨⟨found, fixture⟩, ⟨member, calls⟩, rfl⟩
    exact ⟨fixture, member, calls⟩
  · rintro ⟨fixture, member, calls⟩
    exact ⟨(name, fixture), ⟨member, calls⟩, rfl⟩

/-- No step requests more than the names that occur in the dictionary. -/
theorem requestsOf_contained (fixtures : Dict String Fixture) (source target : String)
    (requested : target ∈ requestsOf fixtures source) :
    target ∈ (requestedNames fixtures).toFinset := by
  obtain ⟨fixture, found, dependency⟩ := (mem_requestsOf fixtures source target).mp requested
  rw [List.mem_toFinset, requestedNames, List.mem_flatMap]
  exact ⟨(source, fixture), (Dict.get_eq_some_iff _ _ _).mp found, dependency⟩

/-- Every requester is a fixture of the dictionary. -/
theorem requestersOf_contained (fixtures : Dict String Fixture) (source target : String)
    (requester : target ∈ requestersOf fixtures source) : target ∈ fixtures.keys.toFinset := by
  rw [List.mem_toFinset, Dict.keys]
  obtain ⟨item, member, same⟩ := List.mem_map.mp requester
  exact List.mem_map.mpr ⟨item, (List.mem_filter.mp member).1, same⟩

/-- There are no more names than items. -/
theorem card_keys_le (fixtures : Dict String Fixture) :
    fixtures.keys.toFinset.card ≤ fixtures.items.length := by
  simpa only [Dict.keys, List.length_map] using List.toFinset_card_le fixtures.keys

/-- The used fixtures are exactly the request closure of the direct ones. -/
theorem mem_expandUsedFixtures (directFixtures : List String) (fixtures : Dict String Fixture)
    (name : String) :
    name ∈ expandUsedFixtures directFixtures fixtures ↔
      ∃ direct ∈ directFixtures, Uses fixtures direct name := by
  have bound := List.toFinset_card_le (requestedNames fixtures)
  have exact := Search.run_exact false (requestsOf fixtures) (requestedNames fixtures).toFinset
    (directFixtures.length + (requestedNames fixtures).length) directFixtures
    (requestsOf_contained fixtures) (by omega) name
  simpa only [expandUsedFixtures, Uses, Search.Reaches, mem_requestsOf] using exact

/-- The affected fixtures are exactly those whose request closure contains a
modified fixture or a caller of a modified function. -/
theorem mem_getAffectedFixturesHelper (modifiedFixtures modifiedFunctions : List String)
    (fixtures : Dict String Fixture) (name : String) :
    name ∈ getAffectedFixturesHelper modifiedFixtures modifiedFunctions fixtures ↔
      ∃ source, (source ∈ modifiedFixtures ∨ source ∈ callersOf modifiedFunctions fixtures) ∧
        Uses fixtures name source := by
  have bound := card_keys_le fixtures
  have exact := Search.run_exact true (requestersOf fixtures) fixtures.keys.toFinset
    ((modifiedFixtures ++ callersOf modifiedFunctions fixtures).length + fixtures.items.length)
    (modifiedFixtures ++ callersOf modifiedFunctions fixtures) (requestersOf_contained fixtures)
    (by omega) name
  have backwards : ∀ source, Search.Reaches (requestersOf fixtures) source name ↔
      Uses fixtures name source := by
    intro source
    rw [Uses, ← Relation.reflTransGen_swap]
    simp only [Search.Reaches, mem_requestersOf]
  simp only [getAffectedFixturesHelper, exact, List.mem_append, backwards]

/-! ## The two directions -/

/-- A fixture that is modified or that calls a modified function. -/
def Touched (modifiedFixtures modifiedFunctions : List String) (fixtures : Dict String Fixture)
    (name : String) : Prop :=
  name ∈ modifiedFixtures ∨ ∃ fixture, fixtures.get name = some fixture ∧
    ∃ function ∈ fixture.functionCalls, function ∈ modifiedFunctions

/-- The loop empties its list of pending names and returns the result. -/
def Finishes (guarded : Bool) (next : String → List String) (roots result : List String) : Prop :=
  ∃ steps, (Search.run guarded next steps (Search.start roots)).stack = [] ∧
    (Search.run guarded next steps (Search.start roots)).seen = result

/-- The expansion of used fixtures finishes its search. -/
theorem expandUsedFixtures_finishes (directFixtures : List String)
    (fixtures : Dict String Fixture) :
    Finishes false (requestsOf fixtures) directFixtures
      (expandUsedFixtures directFixtures fixtures) := by
  have bound := List.toFinset_card_le (requestedNames fixtures)
  refine ⟨directFixtures.length + (requestedNames fixtures).length, ?_, rfl⟩
  apply Search.run_start_finishes false (requestsOf fixtures) (requestedNames fixtures).toFinset
  · exact requestsOf_contained fixtures
  · omega

/-- The expansion of affected fixtures finishes its search. -/
theorem getAffectedFixturesHelper_finishes (modifiedFixtures modifiedFunctions : List String)
    (fixtures : Dict String Fixture) :
    Finishes true (requestersOf fixtures)
      (modifiedFixtures ++ callersOf modifiedFunctions fixtures)
      (getAffectedFixturesHelper modifiedFixtures modifiedFunctions fixtures) := by
  have bound := card_keys_le fixtures
  refine ⟨(modifiedFixtures ++ callersOf modifiedFunctions fixtures).length +
    fixtures.items.length, ?_, rfl⟩
  apply Search.run_start_finishes true (requestersOf fixtures) fixtures.keys.toFinset
  · exact requestersOf_contained fixtures
  · omega

/-- A fixture is affected exactly when it uses a touched one. -/
theorem mem_affected_iff_touched (modifiedFixtures modifiedFunctions : List String)
    (fixtures : Dict String Fixture) (name : String) :
    name ∈ getAffectedFixturesHelper modifiedFixtures modifiedFunctions fixtures ↔
      ∃ source, Touched modifiedFixtures modifiedFunctions fixtures source ∧
        Uses fixtures name source := by
  simp only [mem_getAffectedFixturesHelper, mem_callersOf, Touched]

/-- The search from modified fixtures to their requesters meets the direct fixtures of a test
exactly when the search from the direct fixtures meets a touched fixture. Both loops end, and
both results are the least closures.

Proof: both sides say that some direct fixture uses some touched one. -/
theorem closures_adjoint (fixtures : Dict String Fixture)
    (directFixtures modifiedFixtures modifiedFunctions : List String) :
    ((∃ name ∈ getAffectedFixturesHelper modifiedFixtures modifiedFunctions fixtures,
        name ∈ directFixtures) ↔
      ∃ name ∈ expandUsedFixtures directFixtures fixtures,
        Touched modifiedFixtures modifiedFunctions fixtures name) ∧
    Finishes false (requestsOf fixtures) directFixtures
      (expandUsedFixtures directFixtures fixtures) ∧
    Finishes true (requestersOf fixtures)
      (modifiedFixtures ++ callersOf modifiedFunctions fixtures)
      (getAffectedFixturesHelper modifiedFixtures modifiedFunctions fixtures) ∧
    IsClosure (· ∈ directFixtures) (Requests fixtures)
      (expandUsedFixtures directFixtures fixtures) ∧
    IsClosure (Touched modifiedFixtures modifiedFunctions fixtures)
      (fun name requester => Requests fixtures requester name)
      (getAffectedFixturesHelper modifiedFixtures modifiedFunctions fixtures) := by
  refine ⟨?_, expandUsedFixtures_finishes directFixtures fixtures,
    getAffectedFixturesHelper_finishes modifiedFixtures modifiedFunctions fixtures,
    isClosure_of_reachable (mem_expandUsedFixtures directFixtures fixtures), ?_⟩
  · simp only [mem_affected_iff_touched, mem_expandUsedFixtures]
    constructor
    · rintro ⟨direct, ⟨source, touched, uses⟩, member⟩
      exact ⟨source, ⟨direct, member, uses⟩, touched⟩
    · rintro ⟨source, ⟨direct, member, uses⟩, touched⟩
      exact ⟨direct, ⟨source, touched, uses⟩, member⟩
  · apply isClosure_of_reachable
    intro name
    rw [mem_affected_iff_touched]
    apply exists_congr
    intro source
    rw [Uses, ← Relation.reflTransGen_swap]

end VirtTestTools.Analyzer
