import VirtTestTools.Analyzer.Markers
import VirtTestTools.Analyzer.Visitors

/-!
# What the fixture visitors miss

Pytest registers a fixture under the `name` its decorator gives, else under the name of
the function, and passes fixtures to positional-only, ordinary and keyword-only
parameters of synchronous and asynchronous functions alike. The two fixture visitors
read synchronous functions, their own names and their ordinary parameters, and a later
definition replaces an earlier one of the same name.

This module says what a complete fixture graph of a file is and for which files the
visitors build one. The value of a `name` argument that is no literal is known at run
time only and a parameter here.
-/

namespace VirtTestTools.Analyzer

/-! ## What pytest reads -/

/-- The names of a list of parameters. -/
def parameterNames (parameters : List AST) : List String :=
  parameters.filterMap fun
    | .arg _ name _ => some name
    | _ => none

/-- The parameters pytest passes fixtures to: positional-only, ordinary and keyword-only
ones, except `self` and `request`. -/
def requestedParameters : AST → List String
  | .arguments _ posonlyargs args _ kwonlyargs _ _ _ =>
    (parameterNames posonlyargs ++ parameterNames args ++ parameterNames kwonlyargs).filter
      (fun parameter => decide (parameter ∉ ["self", "request"]))
  | _ => []

/-- The `name` argument of a fixture decorator. -/
def nameArgument : AST → Option AST
  | .call _ func _ keywords => (keywordValues "name" keywords).head?.or (nameArgument func)
  | _ => none

section

variable (evaluate : AST → Option String)

/-- The value of a `name` argument; `None` gives no name. -/
def nameValue : AST → Option String
  | .constant _ (.str value) => some value
  | .constant _ _ => none
  | expression => evaluate expression

/-- The name under which pytest registers a fixture function: the one its decorator
gives unless that is empty, else its own. -/
def registeredName (name : String) (decoratorList : List AST) : String :=
  match ((decoratorList.find? isFixtureDecorator).bind nameArgument).bind (nameValue evaluate) with
  | some given => if given = "" then name else given
  | none => name

/-- The fixture pytest registers for a function, synchronous or not: its name and what
it requests. -/
def registeredFixture : AST → Option (String × List String)
  | .functionDef _ _ name args _ decoratorList _ =>
    if decoratorList.any isFixtureDecorator then
      some (registeredName evaluate name decoratorList, requestedParameters args)
    else none
  | _ => none

/-- Every fixture function of the file has an entry under its registered name whose
dependencies hold all it requests. -/
def FixturesComplete (path : Path) (conftest : List AST) : Prop :=
  ∀ function ∈ AST.preorderAll conftest, ∀ name parameters,
    registeredFixture evaluate function = some (name, parameters) →
      ∃ fixture, (fixtureDefinitions path conftest).get name = some fixture ∧
        parameters ⊆ fixture.fixtureDeps

end

/-- What a test function requests; other functions are no tests. -/
def testParameters : AST → List String
  | .functionDef _ _ name args _ _ _ => if isTestName name then requestedParameters args else []
  | _ => []

/-- `FixtureVisitor` yields everything the test functions of the file request. -/
def UsesComplete (markerNames : List String) (testFile : List AST) : Prop :=
  ∀ function ∈ AST.preorderAll testFile,
    testParameters function ⊆ (AST.preorderAll testFile).flatMap (fixtureUses (isMarker markerNames))

/-! ## What the visitors read -/

/-- The name and the ordinary parameters of a synchronous fixture function. -/
def readFixture : AST → Option (String × List String)
  | .functionDef _ false name args _ decoratorList _ =>
    if decoratorList.any isFixtureDecorator then some (name, ordinaryParameters args) else none
  | _ => none

/-- Among the functions of a file the last synchronous fixture function with the given
name of its own has the given parameters among its ordinary ones. -/
def LastReadCovers (functions : List AST) (name : String) (parameters : List String) : Prop :=
  ∃ before function after, functions = before ++ function :: after ∧
    (∃ ordinary, readFixture function = some (name, ordinary) ∧ parameters ⊆ ordinary) ∧
    ∀ later ∈ after, ∀ ordinary, readFixture later ≠ some (name, ordinary)

/-- The ordinary parameters of a synchronous function that is a test or carries one of
the markers. -/
def readParameters (markerNames : List String) : AST → List String
  | .functionDef _ false name args _ decoratorList _ =>
    if isTestName name || decoratorList.any (isMarker markerNames) then ordinaryParameters args
    else []
  | _ => []

/-- The names in the `usefixtures` decorators of a class or a synchronous function. -/
def usefixturesNames : AST → List String
  | .functionDef _ false _ _ _ decoratorList _ | .classDef _ _ _ _ _ decoratorList =>
    decoratorList.flatMap extractUsefixturesFromDecorator
  | _ => []

/-! ## Where they agree -/

/-- No requested parameter is called `self` or `request`. -/
theorem mem_requestedParameters {args : AST} {parameter : String}
    (requested : parameter ∈ requestedParameters args) : parameter ∉ ["self", "request"] := by
  cases args with
  | arguments => exact of_decide_eq_true (List.mem_filter.mp requested).2
  | _ => cases requested

/-- Neither `self` nor `request` is a parameter of a registered fixture. -/
theorem registeredFixture_plain (evaluate : AST → Option String) {function : AST} {name : String}
    {parameters : List String}
    (registered : registeredFixture evaluate function = some (name, parameters)) :
    ∀ parameter ∈ parameters, parameter ∉ ["self", "request"] := by
  cases function with
  | functionDef =>
    simp only [registeredFixture] at registered
    split at registered
    · obtain ⟨_, rfl⟩ := Prod.mk.inj (Option.some.inj registered)
      exact fun _ => mem_requestedParameters
    · cases registered
  | _ => cases registered

/-- Neither `self` nor `request` is a parameter of a test. -/
theorem testParameters_plain {function : AST} {parameter : String}
    (requested : parameter ∈ testParameters function) : parameter ∉ ["self", "request"] := by
  cases function with
  | functionDef =>
    simp only [testParameters] at requested
    split at requested
    · exact mem_requestedParameters requested
    · cases requested
  | _ => cases requested

/-- The visitor records of a function what it reads, without `self` and `request`. -/
theorem fixtureOf_eq (path : Path) (function : AST) :
    (fixtureOf path function).map (fun fixture => (fixture.name, fixture.fixtureDeps)) =
      (readFixture function).map (fun read =>
        (read.1, read.2.filter (fun parameter => decide (parameter ∉ ["self", "request"])))) := by
  cases function with
  | functionDef info isAsync name args body decoratorList returns =>
    cases isAsync with
    | true => rfl
    | false =>
      simp only [fixtureOf, readFixture]
      split <;> rfl
  | _ => rfl

/-- The last value a partial function has on a list. -/
theorem getLast_filterMap_eq_some_iff {α β : Type} (read : α → Option β) (items : List α) (value : β) :
    (items.filterMap read).getLast? = some value ↔
      ∃ before item after, items = before ++ item :: after ∧ read item = some value ∧
        ∀ later ∈ after, read later = none := by
  rw [List.getLast?_filterMap, List.findSome?_eq_some_iff]
  constructor
  · rintro ⟨after, item, before, split, found, absent⟩
    refine ⟨before.reverse, item, after.reverse, ?_, found, ?_⟩
    · rw [← List.reverse_reverse items, split]
      simp
    · intro later inside
      exact absent later (List.mem_reverse.mp inside)
  · rintro ⟨before, item, after, rfl, found, absent⟩
    refine ⟨after.reverse, item, before.reverse, by simp, found, ?_⟩
    intro later inside
    exact absent later (List.mem_reverse.mp inside)

/-- An entry stems from the last function that is read under its name. -/
theorem get_fixtureDefinitions (path : Path) (tree : List AST) (name : String) :
    (fixtureDefinitions path tree).get name =
      ((AST.preorderAll tree).filterMap (fun function =>
        (fixtureOf path function).filter (fun fixture => decide (fixture.name = name)))).getLast? := by
  rw [fixtureDefinitions, Dict.get_update_eq_getLast, List.filter_map, List.getLast?_map,
    Option.map_map, List.filter_filterMap]
  simp [Dict.empty, Dict.get, Function.comp_def]

/-- A function is read under a name exactly when the visitor records a fixture of that
name for it. -/
theorem filter_fixtureOf_eq_none_iff (path : Path) (function : AST) (name : String) :
    (fixtureOf path function).filter (fun fixture => decide (fixture.name = name)) = none ↔
      ∀ ordinary, readFixture function ≠ some (name, ordinary) := by
  have same := fixtureOf_eq path function
  cases recorded : fixtureOf path function with
  | none =>
    rw [recorded] at same
    have unread := (Option.map_eq_none_iff.mp same.symm)
    simp [unread]
  | some fixture =>
    rw [recorded] at same
    obtain ⟨⟨own, ordinary⟩, read, pair⟩ := Option.map_eq_some_iff.mp same.symm
    obtain ⟨rfl, _⟩ := Prod.mk.inj pair
    simp [read, Option.filter]

/-- The parameters of a function that are not `self` or `request` are among the recorded
dependencies of the last function read under a name exactly when they are among its
ordinary parameters. -/
theorem covered_iff (path : Path) (tree : List AST) (name : String) (parameters : List String)
    (plain : ∀ parameter ∈ parameters, parameter ∉ ["self", "request"]) :
    (∃ fixture, (fixtureDefinitions path tree).get name = some fixture ∧
        parameters ⊆ fixture.fixtureDeps) ↔
      LastReadCovers (AST.preorderAll tree) name parameters := by
  simp only [get_fixtureDefinitions, getLast_filterMap_eq_some_iff, filter_fixtureOf_eq_none_iff]
  constructor
  · rintro ⟨fixture, ⟨before, function, after, split, found, last⟩, covers⟩
    refine ⟨before, function, after, split, ?_, last⟩
    obtain ⟨recorded, named⟩ := Option.filter_eq_some_iff.mp found
    have same := fixtureOf_eq path function
    rw [recorded] at same
    obtain ⟨⟨own, ordinary⟩, read, pair⟩ := Option.map_eq_some_iff.mp same.symm
    obtain ⟨rfl, filtered⟩ := Prod.mk.inj pair
    obtain rfl := of_decide_eq_true named
    refine ⟨ordinary, read, ?_⟩
    intro parameter inside
    exact (List.mem_filter.mp (filtered ▸ covers inside)).1
  · rintro ⟨before, function, after, split, ⟨ordinary, read, covers⟩, last⟩
    have same := fixtureOf_eq path function
    rw [read] at same
    obtain ⟨fixture, recorded, pair⟩ := Option.map_eq_some_iff.mp same
    obtain ⟨named, filtered⟩ := Prod.mk.inj pair
    refine ⟨fixture, ⟨before, function, after, split, ?_, last⟩, ?_⟩
    · exact Option.filter_eq_some_iff.mpr ⟨recorded, decide_eq_true named⟩
    · intro parameter inside
      rw [filtered]
      exact List.mem_filter.mpr ⟨covers inside, decide_eq_true (plain parameter inside)⟩

/-- What the visitor yields at a node are the parameters it reads there, except `self`,
and the names in `usefixtures` decorators. -/
theorem mem_fixtureUses (markerNames : List String) (node : AST) (name : String) :
    name ∈ fixtureUses (isMarker markerNames) node ↔
      (name ∈ readParameters markerNames node ∧ name ≠ "self") ∨ name ∈ usefixturesNames node := by
  cases node with
  | functionDef info isAsync function args body decoratorList returns =>
    cases isAsync with
    | true => simp [fixtureUses, readParameters, usefixturesNames]
    | false =>
      change name ∈ decoratorList.flatMap extractUsefixturesFromDecorator ++
        (if decoratorList.any (isMarker markerNames) || isTestName function then
          (ordinaryParameters args).filter (· != "self") else []) ↔ _
      rw [List.mem_append, readParameters, usefixturesNames, Bool.or_comm, or_comm]
      apply or_congr_left
      split
      · rw [List.mem_filter, bne_iff_ne]
      · simp only [List.not_mem_nil, false_and]
  | classDef => simp [fixtureUses, readParameters, usefixturesNames]
  | _ => simp [fixtureUses, readParameters, usefixturesNames]

/-- The fixture graph of a conftest file is complete, and so are the fixtures of a test
file, exactly when the last synchronous fixture function called like a registered
fixture has what that requests among its ordinary parameters, and every parameter of a
test is an ordinary one of a synchronous function that is a test or marked, or stands in
a `usefixtures` decorator. -/
theorem fixture_graph_complete_iff (evaluate : AST → Option String) (path : Path)
    (markerNames : List String) (conftest testFile : List AST) :
    (FixturesComplete evaluate path conftest ∧ UsesComplete markerNames testFile) ↔
      (∀ function ∈ AST.preorderAll conftest, ∀ name parameters,
        registeredFixture evaluate function = some (name, parameters) →
          LastReadCovers (AST.preorderAll conftest) name parameters) ∧
      ∀ function ∈ AST.preorderAll testFile, ∀ parameter ∈ testParameters function,
        ∃ other ∈ AST.preorderAll testFile,
          parameter ∈ readParameters markerNames other ∨ parameter ∈ usefixturesNames other := by
  apply and_congr
  · refine forall_congr' fun function => forall_congr' fun _ => forall_congr' fun name =>
      forall_congr' fun parameters => forall_congr' fun registered => ?_
    exact covered_iff path conftest name parameters (registeredFixture_plain evaluate registered)
  · refine forall_congr' fun function => forall_congr' fun _ => forall_congr' fun parameter =>
      forall_congr' fun requested => ?_
    rw [List.mem_flatMap]
    refine exists_congr fun other => and_congr_right fun _ => ?_
    rw [mem_fixtureUses]
    have plain : parameter ≠ "self" := by
      rintro rfl
      exact testParameters_plain requested (List.mem_cons_self ..)
    tauto

/-- The decorator `@pytest.fixture`. -/
def pytestFixture : AST :=
  .attribute ⟨1, 1, 1⟩ (.name ⟨2, 1, 1⟩ "pytest" .load) "fixture"

/-- An asynchronous fixture has no entry, whatever the test file is. -/
theorem async_fixture_missed :
    ¬ (FixturesComplete (fun _ => none) ["tests", "conftest.py"]
        [.functionDef ⟨3, 2, 3⟩ true "vm"
          (.arguments ⟨4, 2, 2⟩ [] [.arg ⟨5, 2, 2⟩ "cluster" none] none [] [] none [])
          [.other ⟨6, 3, 3⟩ .pass []] [pytestFixture] none] ∧
      UsesComplete ["smoke"] []) := by
  rintro ⟨complete, _⟩
  obtain ⟨fixture, found, _⟩ := complete _ (List.mem_cons_self ..) "vm" ["cluster"] rfl
  cases found

end VirtTestTools.Analyzer
