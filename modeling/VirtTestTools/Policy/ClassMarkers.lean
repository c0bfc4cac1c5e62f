import VirtTestTools.Policy.SkipMarkers

/-!
# Skip markers in class bodies

A decorator is reported if it names a skip marker, and a bare name also if a skip
marker is hidden behind it: if it is imported as one, or if one stands anywhere in
the value it is bound to. `HoldsMarker` is the relation that the search of
`_is_forbidden_pytestmark_value` decides.

A decorator in a class body sees what the body falls back on. This module says when
it is reported like the same decorator before the class.
-/

namespace VirtTestTools.Policy

open Traversal

namespace ScopeBuilder

variable (scopes : ScopeBuilder)

/-- An expression holds a skip marker, while some bindings are being resolved: it stands
for one, a name is imported as one or bound to a value that holds one, or a part holds one. -/
inductive HoldsMarker : List Nat → AST → Prop
  | named {resolving : List Nat} {node : AST} {name : List String}
      (resolves : scopes.Resolves [] (markerOf node) name)
      (forbidden : name ∈ forbiddenSkipMarkers) : HoldsMarker resolving node
  | imported {resolving : List Nat} {node : AST} {binding : Binding} {name : List String}
      (fresh : binding ∈ scopes.freshBindings resolving (markerOf node))
      (source : binding.importedName = some name) (forbidden : name ∈ forbiddenSkipMarkers) :
      HoldsMarker resolving node
  | assigned {resolving : List Nat} {node value : AST} {binding : Binding}
      (fresh : binding ∈ scopes.freshBindings resolving (markerOf node))
      (source : binding.value = some value)
      (held : HoldsMarker (binding.node.id :: resolving) value) : HoldsMarker resolving node
  | part {resolving : List Nat} {node child : AST}
      (inside : child ∈ pytestmarkValueChildren node) (held : HoldsMarker resolving child) :
      HoldsMarker resolving node

/-- One of the bindings hides a skip marker: it is imported as one, or its value holds one. -/
def HideMarker (bindings : List Binding) : Prop :=
  ∃ binding ∈ bindings,
    (∃ name ∈ forbiddenSkipMarkers, binding.importedName = some name) ∨
      ∃ value, binding.value = some value ∧ scopes.HoldsMarker [binding.node.id] value

/-- The bindings that a class body below a scope falls back on. -/
def fallbackBindings (root : String) (place : Nat) : List Binding :=
  match (scopes.scopesFrom place).find? (isLocalTo root) with
  | none => []
  | some function => function.activeBindings.find root

/-- If a binding that `before` sees hides a skip marker, then what a class there falls back
on names one or hides one. -/
def MarkersSeenAlike (root : String) (before : AST) : Prop :=
  let place := scopes.scopeOf before
  scopes.HideMarker (scopes.reaching before) ∨
      scopes.reaching before = [] ∧ scopes.searchesAround root place ∧
        scopes.HideMarker
          (searchScopes root before none true none (scopes.scopesFrom place).tail) →
    (∃ name ∈ forbiddenSkipMarkers, scopes.FallsBackOn root place name) ∨
      scopes.HideMarker (scopes.fallbackBindings root place)

/-- What is reported of `before` is reported of the reference: as the function of a call, and
as the marker of a decorator. -/
def ReportedAs (reference before : AST) : Prop :=
  (scopes.isDynamicClientCall before = true → scopes.isDynamicClientCall reference = true) ∧
  (scopes.isPytestSkipCall before = true → scopes.isPytestSkipCall reference = true) ∧
  ∀ decorator other, markerOf decorator = reference → markerOf other = before →
    scopes.isForbiddenSkipDecorator other = true → scopes.isForbiddenSkipDecorator decorator = true

variable {scopes}

/-- The first test finds what an expression names and what its name is imported as. -/
theorem forbiddenHere_iff (resolving : List Nat) (node : AST) :
    scopes.forbiddenHere (resolving, node) = true ↔
      (∃ name ∈ forbiddenSkipMarkers, scopes.Resolves [] (markerOf node) name) ∨
        ∃ binding ∈ scopes.freshBindings resolving (markerOf node),
          ∃ name ∈ forbiddenSkipMarkers, binding.importedName = some name := by
  simp only [forbiddenHere, namesForbiddenSkip, Bool.or_eq_true, List.any_eq_true,
    List.contains_iff_mem, mem_resolvedNames_iff]
  refine or_congr (exists_congr fun name => and_comm) (exists_congr fun binding =>
    and_congr_right fun _ => ?_)
  cases binding.importedName with
  | none => simp
  | some name => simp

/-- The values that the fresh bindings of a node bind. -/
theorem mem_boundValues_iff (resolving : List Nat) (node : AST) (state : List Nat × AST) :
    state ∈ scopes.boundValues resolving node ↔
      ∃ binding ∈ scopes.freshBindings resolving node, ∃ value, binding.value = some value ∧
        state = (binding.node.id :: resolving, value) := by
  simp only [boundValues, List.mem_filterMap, Option.map_eq_some_iff]
  exact exists_congr fun binding => and_congr_right fun _ => exists_congr fun value =>
    and_congr_right fun _ => eq_comm

/-- The search finds every marker that an expression holds.

Proof: by induction on the derivation. -/
theorem forbiddenValueFrom_of_holdsMarker {resolving : List Nat} {node : AST}
    (holds : scopes.HoldsMarker resolving node) :
    scopes.forbiddenValueFrom (resolving, node) = true := by
  induction holds with
  | named resolves forbidden =>
    rw [forbiddenValueFrom_eq, (forbiddenHere_iff _ _).mpr (Or.inl ⟨_, forbidden, resolves⟩)]
    rfl
  | imported fresh source forbidden =>
    rw [forbiddenValueFrom_eq,
      (forbiddenHere_iff _ _).mpr (Or.inr ⟨_, fresh, _, forbidden, source⟩)]
    rfl
  | assigned fresh source _ inductionHypothesis =>
    rw [forbiddenValueFrom_eq]
    have found : (scopes.boundValues _ (markerOf _)).any scopes.forbiddenValueFrom = true :=
      List.any_eq_true.mpr
        ⟨_, (mem_boundValues_iff _ _ _).mpr ⟨_, fresh, _, source, rfl⟩, inductionHypothesis⟩
    rw [found, Bool.or_true, Bool.true_or]
  | part inside _ inductionHypothesis =>
    rw [forbiddenValueFrom_eq, Bool.or_eq_true]
    exact Or.inr (List.any_eq_true.mpr ⟨_, inside, inductionHypothesis⟩)

/-- The search finds nothing but markers that an expression holds.

Proof: by induction on what the search goes on with. -/
theorem holdsMarker_of_forbiddenValueFrom (state : List Nat × AST)
    (found : scopes.forbiddenValueFrom state = true) : scopes.HoldsMarker state.1 state.2 := by
  induction state using descends_induction (@descends_forbiddenNext scopes) with
  | step state inductionHypothesis =>
    obtain ⟨resolving, node⟩ := state
    rw [forbiddenValueFrom_eq, Bool.or_eq_true, Bool.or_eq_true, forbiddenHere_iff] at found
    obtain ((⟨name, forbidden, resolves⟩ | ⟨binding, fresh, name, forbidden, source⟩) | bound) |
      inPart := found
    · exact .named resolves forbidden
    · exact .imported fresh source forbidden
    · obtain ⟨inner, inside, below⟩ := List.any_eq_true.mp bound
      have held := inductionHypothesis inner (List.mem_append_left _ inside) below
      obtain ⟨binding, fresh, value, source, rfl⟩ := (mem_boundValues_iff _ _ _).mp inside
      exact .assigned fresh source held
    · obtain ⟨child, inside, below⟩ := List.any_eq_true.mp inPart
      exact .part inside (inductionHypothesis (resolving, child)
        (List.mem_append_right _ (List.mem_map_of_mem inside)) below)

/-- A decorator is reported if its marker names a skip marker or hides one. -/
theorem isForbiddenSkipDecorator_iff (decorator : AST) :
    scopes.isForbiddenSkipDecorator decorator = true ↔
      (∃ name ∈ forbiddenSkipMarkers, scopes.Resolves [] (markerOf decorator) name) ∨
        scopes.HideMarker (scopes.freshBindings [] (markerOf decorator)) := by
  have values : (scopes.boundValues [] (markerOf decorator)).any scopes.forbiddenValueFrom = true ↔
      ∃ binding ∈ scopes.freshBindings [] (markerOf decorator), ∃ value,
        binding.value = some value ∧ scopes.HoldsMarker [binding.node.id] value := by
    simp only [List.any_eq_true, mem_boundValues_iff]
    constructor
    · rintro ⟨_, ⟨binding, fresh, value, source, rfl⟩, found⟩
      exact ⟨binding, fresh, value, source, holdsMarker_of_forbiddenValueFrom _ found⟩
    · rintro ⟨binding, fresh, value, source, held⟩
      exact ⟨_, ⟨binding, fresh, value, source, rfl⟩, forbiddenValueFrom_of_holdsMarker held⟩
  rw [isForbiddenSkipDecorator, Bool.or_eq_true, forbiddenHere_iff, values, or_assoc, HideMarker,
    ← exists_or]
  exact or_congr_right (exists_congr fun binding => and_or_left.symm)

/-- A dotted name is not empty. -/
theorem dottedName_ne_nil (node : AST) (name : List String) (named : dottedName node = some name) :
    name ≠ [] := by
  revert named
  fun_cases dottedName node
  · rintro ⟨⟩
    exact List.cons_ne_nil _ _
  · intro named
    obtain ⟨inner, -, rfl⟩ := Option.map_eq_some_iff.mp named
    exact List.append_ne_nil_of_right_ne_nil _ (List.cons_ne_nil _ _)
  · rintro ⟨⟩

/-- A dotted name is no call. -/
theorem markerOf_of_dottedName (node : AST) (name : List String)
    (named : dottedName node = some name) : markerOf node = node := by
  cases node with
  | call => simp [dottedName] at named
  | _ => rfl

/-- The names of a bare name are those of its bindings; behind an attribute nothing hides. -/
theorem isForbiddenSkipDecorator_dotted (decorator marker : AST) (root : String)
    (suffix : List String) (marks : markerOf decorator = marker)
    (named : dottedName marker = some (root :: suffix)) :
    scopes.isForbiddenSkipDecorator decorator = true ↔
      (∃ name ∈ forbiddenSkipMarkers, name ∈ scopes.resolvedNames marker) ∨
        suffix = [] ∧ scopes.HideMarker (scopes.bindingsForName root marker) := by
  rw [isForbiddenSkipDecorator_iff, marks]
  simp only [mem_resolvedNames_iff]
  refine or_congr_right ?_
  match marker, named with
  | .name info id ctx, named =>
    obtain ⟨rfl, rfl⟩ : id = root ∧ suffix = [] := by simpa [dottedName, eq_comm] using named
    simp [freshBindings]
  | .attribute info value attr, named =>
    obtain ⟨inner, innerNamed, shape⟩ := Option.map_eq_some_iff.mp named
    have longer : suffix ≠ [] := by
      rintro rfl
      have length := congrArg List.length shape
      have nonempty := dottedName_ne_nil value inner innerNamed
      simp at length
      exact nonempty length
    simp [freshBindings, HideMarker, longer]

/-- The binding that nothing is known about hides nothing. -/
theorem hideMarker_ownBindings (root : String) (reference : AST) (scope : Scope) :
    scopes.HideMarker (ownBindings root reference scope) ↔
      scopes.HideMarker (scope.activeBindings.find root) := by
  unfold ownBindings orElse
  split
  · rename_i empty
    rw [List.isEmpty_iff.mp empty]
    simp [HideMarker, unknownBinding, forbiddenSkipMarkers]
  · rfl

/-- A class body sees the bindings that it falls back on. -/
theorem hideMarker_immediate (root : String) (reference : AST) (phase : Option Nat) (place : Nat) :
    scopes.HideMarker (searchScopes root reference phase false none (scopes.scopesFrom place)) ↔
      scopes.HideMarker (scopes.fallbackBindings root place) := by
  rw [searchScopes_immediate]
  unfold fallbackBindings
  cases (scopes.scopesFrom place).find? (isLocalTo root) with
  | none => rfl
  | some function => exact hideMarker_ownBindings root reference function

/-- Where no binding reaches a reference and its scope does not search those around it, the
reference sees the bindings that a class body there falls back on. -/
theorem hideMarker_of_not_searchesAround (ordered : Ordered scopes.shapes) (reference node : AST)
    (root : String) (rooted : rootName reference = some node) (scope : Scope)
    (found : scopes.scopes[scopes.scopeOf reference]? = some scope)
    (unbound : scopes.reaching reference = [])
    (alone : scopes.searchesAround root (scopes.scopeOf reference) = false) :
    scopes.HideMarker (scopes.bindingsForName root reference) ↔
      scopes.HideMarker (scopes.fallbackBindings root (scopes.scopeOf reference)) := by
  rw [← hideMarker_immediate root reference (scopes.nodePhases.get reference.id),
    scopes.bindingsForName_eq ordered reference node root rooted scope found,
    scopes.scopesFrom_eq ordered _ scope found, List.tail_cons]
  simp only [unbound, visibleIn_nil, ne_eq, not_true_eq_false, if_false, searchScopes, bindingsAt,
    Bool.false_eq_true]
  by_cases here : isLocalTo root scope = true
  · simp only [here, if_true]
  · have immediate : isDeferred (some scope.kind) = false := by
      simpa [searchesAround, found, here] using alone
    simp only [here, immediate]

/-- A reference in a class body sees the bindings that a body falls back on below the nearest
scope around that is no class. -/
theorem hideMarker_in_class (ordered : Ordered scopes.shapes) (reference node : AST) (root : String)
    (rooted : rootName reference = some node)
    (inClass : scopes.kindAt (scopes.scopeOf reference) = some .classBody)
    (unbound : scopes.reaching reference = []) :
    scopes.HideMarker (scopes.bindingsForName root reference) ↔
      scopes.HideMarker
        (scopes.fallbackBindings root (scopes.functionParent (scopes.scopeOf reference))) := by
  obtain ⟨scope, found, isClass⟩ := Option.map_eq_some_iff.mp inClass
  have alone : scopes.searchesAround root (scopes.scopeOf reference) = false := by
    simp [searchesAround, found, isClass, isDeferred]
  rw [hideMarker_of_not_searchesAround ordered reference node root rooted scope found unbound alone]
  unfold fallbackBindings
  rw [scopes.find_scopesFrom_functionParent ordered]

/-- When a reference that hides a marker leaves something to report in a class.

Proof: by cases on what the reference sees, as for the names. -/
theorem markersSeenAlike_iff (ordered : Ordered scopes.shapes) (before node : AST) (root : String)
    (rooted : rootName before = some node) (scope : Scope)
    (found : scopes.scopes[scopes.scopeOf before]? = some scope)
    (plain : scopes.nodePhases.get before.id = none) :
    (scopes.HideMarker (scopes.bindingsForName root before) →
        (∃ name ∈ forbiddenSkipMarkers, scopes.FallsBackOn root (scopes.scopeOf before) name) ∨
          scopes.HideMarker (scopes.fallbackBindings root (scopes.scopeOf before))) ↔
      scopes.MarkersSeenAlike root before := by
  have search := scopes.bindingsForName_eq ordered before node root rooted scope found
  simp only [plain, visibleIn] at search
  have nothing : ¬scopes.HideMarker [] := by simp [HideMarker]
  unfold MarkersSeenAlike
  by_cases unbound : scopes.reaching before = []
  · by_cases around : scopes.searchesAround root (scopes.scopeOf before) = true
    · have inner : isDeferred (some scope.kind) = true ∧ isLocalTo root scope = false := by
        simpa [searchesAround, found] using around
      simp only [unbound, ne_eq, not_true_eq_false, if_false, inner, Bool.false_eq_true] at search
      simp only [unbound, nothing, around, search, true_and, false_or]
    · have alone := hideMarker_of_not_searchesAround ordered before node root rooted scope found
        unbound (by simpa using around)
      simp only [unbound, nothing, around, alone, false_and, and_false, or_self, false_imp_iff,
        iff_true, Bool.false_eq_true]
      exact Or.inr
  · simp only [ne_eq, unbound, not_false_eq_true, if_true] at search
    simp only [unbound, search, false_and, or_false]

end ScopeBuilder

/-- A dotted name in a class body that the class does not bind stands for the same names as
before the class, and is reported whenever it is reported there, exactly if both see alike: the
names in any case, and for a bare name also the markers that hide behind it.

Proof: both expressions stand for the names of the bindings of their first name, with the
same parts behind. In the class these are the names that the scope around falls back on. A
decorator that is no bare name is reported for its names only. -/
theorem class_body_resolves_alike_iff (tree : List AST) (moduleName : List String)
    (isPackage : Bool) (reference before : AST) (root : String) (suffix : List String)
    (named : dottedName reference = some (root :: suffix))
    (namedBefore : dottedName before = some (root :: suffix))
    (inClass : (scopes tree moduleName isPackage).kindAt
      ((scopes tree moduleName isPackage).scopeOf reference) = some .classBody)
    (unbound : (scopes tree moduleName isPackage).reaching reference = [])
    (around : (scopes tree moduleName isPackage).scopeOf before =
      (scopes tree moduleName isPackage).functionParent
        ((scopes tree moduleName isPackage).scopeOf reference))
    (plain : (scopes tree moduleName isPackage).nodePhases.get before.id = none) :
    let analysis := scopes tree moduleName isPackage
    (∀ full, full ∈ analysis.resolvedNames reference ↔ full ∈ analysis.resolvedNames before) ∧
        analysis.ReportedAs reference before ↔
      analysis.SeenAlike root before ∧ (suffix = [] → analysis.MarkersSeenAlike root before) := by
  intro analysis
  have ordered : Ordered analysis.shapes := ordered_scopes tree moduleName isPackage
  obtain ⟨node, rooted⟩ := ScopeBuilder.rootName_of_dottedName reference _ named
  obtain ⟨nodeBefore, rootedBefore⟩ := ScopeBuilder.rootName_of_dottedName before _ namedBefore
  have inside := analysis.functionParent_inside ordered _ _ inClass
  rw [← around] at inside
  have marked := ScopeBuilder.markersSeenAlike_iff ordered before nodeBefore root rootedBefore _
    (List.getElem?_eq_getElem inside) plain
  have names (full : List String) : full ∈ analysis.resolvedNames reference ↔
      ∃ name, analysis.FallsBackOn root (analysis.scopeOf before) name ∧ name ++ suffix = full := by
    rw [around]
    exact analysis.mem_resolvedNames_in_class ordered reference root suffix full named inClass
      unbound
  have hidden := ScopeBuilder.hideMarker_in_class ordered reference node root rooted inClass unbound
  rw [← around] at hidden
  rw [← analysis.names_alike_iff ordered reference before root suffix named namedBefore inClass
    unbound around plain]
  refine and_congr_right fun same => ?_
  obtain ⟨sameClient, sameSkip, -⟩ := analysis.reported_alike reference before same
  constructor
  · rintro ⟨-, -, decorated⟩ rfl
    rw [← marked]
    intro hides
    have reported := decorated reference before
      (ScopeBuilder.markerOf_of_dottedName reference _ named)
      (ScopeBuilder.markerOf_of_dottedName before _ namedBefore)
      ((ScopeBuilder.isForbiddenSkipDecorator_dotted before before root []
        (ScopeBuilder.markerOf_of_dottedName before _ namedBefore) namedBefore).mpr
          (Or.inr ⟨rfl, hides⟩))
    rw [ScopeBuilder.isForbiddenSkipDecorator_dotted reference reference root []
      (ScopeBuilder.markerOf_of_dottedName reference _ named) named] at reported
    refine reported.imp ?_ fun inClass => hidden.mp inClass.2
    rintro ⟨name, forbidden, resolved⟩
    obtain ⟨other, falls, rfl⟩ := (names name).mp resolved
    rw [List.append_nil] at forbidden
    exact ⟨other, forbidden, falls⟩
  · intro seen
    refine ⟨fun reported => sameClient ▸ reported, fun reported => sameSkip ▸ reported, ?_⟩
    intro decorator other marks marksBefore reported
    rw [ScopeBuilder.isForbiddenSkipDecorator_dotted other before root suffix marksBefore
      namedBefore] at reported
    rw [ScopeBuilder.isForbiddenSkipDecorator_dotted decorator reference root suffix marks named]
    obtain ⟨name, forbidden, resolved⟩ | ⟨rfl, hides⟩ := reported
    · exact Or.inl ⟨name, forbidden, (same name).mpr resolved⟩
    · refine (marked.mpr (seen rfl) hides).imp ?_ fun falls => ⟨rfl, hidden.mpr falls⟩
      rintro ⟨name, forbidden, falls⟩
      exact ⟨name, forbidden, (names name).mpr ⟨name, falls, List.append_nil _⟩⟩

/-- `local.mark.skip`, with the identities of its nodes from a number on. -/
def skipMarker (first : Nat) (localName : String) : AST :=
  .attribute ⟨first, first, first⟩
    (.attribute ⟨first + 1, first, first⟩ (.name ⟨first + 2, first, first⟩ localName .load) "mark")
    "skip"

/-- `import pytest as local`, the marker as a statement, and a class with a test that has
the marker as its decorator. -/
def markedModule (asname : Option String) (localName : String) : List AST :=
  [.importStmt ⟨1, 1, 1⟩ [⟨"pytest", asname⟩],
    .exprStmt ⟨2, 3, 3⟩ (skipMarker 3 localName),
    .classDef ⟨10, 5, 8⟩ "TestVm" [] []
      [.functionDef ⟨20, 7, 8⟩ false "test_vm"
        (.arguments ⟨21, 7, 7⟩ [] [.arg ⟨22, 7, 7⟩ "self" none] none [] [] none [])
        [.other ⟨23, 8, 8⟩ .pass []] [skipMarker 30 localName] none] []]

/-- Under a plain import the decorator in the class is reported like the statement before
it. -/
theorem plain_import_seen_alike :
    (scopes (markedModule none "pytest")).SeenAlike "pytest" (skipMarker 3 "pytest") ∧
      (scopes (markedModule none "pytest")).isForbiddenSkipDecorator (skipMarker 30 "pytest") =
        true := by
  have names : (scopes (markedModule none "pytest")).resolvedNames (skipMarker 30 "pytest") =
      (scopes (markedModule none "pytest")).resolvedNames (skipMarker 3 "pytest") := by
    decide +kernel
  have seen := ((scopes (markedModule none "pytest")).names_alike_iff
    (ordered_scopes (markedModule none "pytest") [] false) (skipMarker 30 "pytest")
    (skipMarker 3 "pytest") "pytest" ["mark", "skip"] rfl rfl (by decide +kernel)
    (by decide +kernel) (by decide +kernel) (by decide +kernel)).mp fun full => by rw [names]
  obtain ⟨-, -, -, decorated⟩ := (class_body_resolves_alike_iff (markedModule none "pytest") []
    false (skipMarker 30 "pytest") (skipMarker 3 "pytest") "pytest" ["mark", "skip"] rfl rfl
    (by decide +kernel) (by decide +kernel) (by decide +kernel) (by decide +kernel)).mpr
    ⟨seen, nofun⟩
  exact ⟨seen, decorated (skipMarker 30 "pytest") (skipMarker 3 "pytest") rfl rfl
    (by decide +kernel)⟩

/-- Under `import pytest as pt` the marker is resolved and reported before the class, and
neither as a decorator in it. -/
theorem aliased_marker_lost_in_class :
    let analysis := scopes (markedModule (some "pt") "pt")
    dottedName (skipMarker 30 "pt") = dottedName (skipMarker 3 "pt") ∧
      analysis.kindAt (analysis.scopeOf (skipMarker 30 "pt")) = some .classBody ∧
      analysis.reaching (skipMarker 30 "pt") = [] ∧
      analysis.scopeOf (skipMarker 3 "pt") =
        analysis.functionParent (analysis.scopeOf (skipMarker 30 "pt")) ∧
      ["pytest", "mark", "skip"] ∈ analysis.resolvedNames (skipMarker 3 "pt") ∧
      ["pytest", "mark", "skip"] ∉ analysis.resolvedNames (skipMarker 30 "pt") ∧
      analysis.isForbiddenSkipDecorator (skipMarker 3 "pt") = true ∧
      analysis.isForbiddenSkipDecorator (skipMarker 30 "pt") = false := by
  decide +kernel

end VirtTestTools.Policy
