import VirtTestTools.Policy.Resolution

/-!
# Names in class bodies

A name in a class body that the class does not bind is looked up in the scopes
around the class. `_bindings_for_name` searches them for functions and
comprehensions only, because a class body is evaluated at once. What is left to a
class body is the nearest function in which the name is local, with the bindings
at the end of that function, and otherwise the bare name.

The same name before the class sees the bindings that reach it. This module says
when both stand for the same dotted names.
-/

namespace VirtTestTools.Policy

namespace ScopeBuilder

/-! ## Looking through the classes around -/

/-- No binding is visible where there is none. -/
theorem visibleIn_nil (phase : Option Nat) : visibleIn phase [] = [] := by
  cases phase <;> rfl

/-- Without deferral the search finds the nearest function in which the name is local.

Proof: by induction on the scopes. -/
theorem searchScopes_immediate (name : String) (reference : AST) (phase : Option Nat)
    (chain : List Scope) :
    searchScopes name reference phase false none chain =
      ((chain.find? (isLocalTo name)).map (ownBindings name reference)).getD [] := by
  induction chain with
  | nil => rfl
  | cons scope outer inductionHypothesis =>
    simp only [searchScopes, bindingsAt, Bool.false_eq_true, if_false, visibleIn_nil, ne_eq,
      not_true_eq_false]
    by_cases here : isLocalTo name scope = true
    · rw [if_pos here, List.find?_cons_of_pos here]
      rfl
    · rw [if_neg here, inductionHypothesis, List.find?_cons_of_neg here]

/-- The scopes from a place are its scope and those from its parent. -/
theorem scopesFrom_eq (builder : ScopeBuilder) (ordered : Ordered builder.shapes) (place : Nat)
    (scope : Scope) (found : builder.scopes[place]? = some scope) :
    builder.scopesFrom place = scope :: (scope.parent.map builder.scopesFrom).getD [] := by
  unfold scopesFrom
  rw [builder.chain_eq ordered place scope found, List.filterMap_cons, found]
  cases scope.parent <;> rfl

/-- A scope other than a class body is its own function scope. -/
theorem functionParent_of_kind_ne (builder : ScopeBuilder) (ordered : Ordered builder.shapes)
    (place : Nat) (scope : Scope) (found : builder.scopes[place]? = some scope)
    (noClass : scope.kind ≠ .classBody) : builder.functionParent place = place := by
  unfold functionParent
  rw [builder.chain_eq ordered place scope found, List.find?_cons_of_pos]
  · rfl
  · simp [kindAt, found, noClass]

/-- The chain of a scope is not empty. -/
theorem chain_ne_nil (builder : ScopeBuilder) (ordered : Ordered builder.shapes) (place : Nat)
    (inside : place < builder.scopes.length) : builder.chain place ≠ [] := by
  rw [builder.chain_eq ordered place _ (List.getElem?_eq_getElem inside)]
  exact List.cons_ne_nil _ _

/-- The function parent of a class is that of its parent. -/
theorem functionParent_of_class (builder : ScopeBuilder) (ordered : Ordered builder.shapes)
    (place parent : Nat) (scope : Scope) (found : builder.scopes[place]? = some scope)
    (isClass : scope.kind = .classBody) (above : scope.parent = some parent) :
    builder.functionParent place = builder.functionParent parent := by
  have earlier := builder.parent_lt ordered place parent scope found above
  have inside : parent < builder.scopes.length :=
    Nat.lt_trans earlier (List.getElem?_eq_some_iff.mp found).1
  have chained : builder.chain place = place :: builder.chain parent := by
    rw [builder.chain_eq ordered place scope found, above]
    rfl
  have kindHere : builder.kindAt place = some .classBody := by
    simp [kindAt, found, isClass]
  unfold functionParent
  rw [chained, List.find?_cons, kindHere]
  simp only [ne_eq, not_true_eq_false, decide_false]
  congr 1
  obtain ⟨first, rest, shape⟩ :=
    List.exists_cons_of_ne_nil (builder.chain_ne_nil ordered parent inside)
  rw [shape]
  rfl

/-- Classes on the way outwards are looked through.

Proof: by strong induction on the place. A class passes to its parent, which comes
before it; any other scope is its own function parent. -/
theorem find_scopesFrom_functionParent (builder : ScopeBuilder) (ordered : Ordered builder.shapes)
    (name : String) (place : Nat) :
    (builder.scopesFrom (builder.functionParent place)).find? (isLocalTo name) =
      (builder.scopesFrom place).find? (isLocalTo name) := by
  induction place using Nat.strongRecOn with
  | ind place inductionHypothesis =>
    cases found : builder.scopes[place]? with
    | none =>
      have outside : builder.chain place = [] := by
        simp [chain, chainFrom, found]
      have same : builder.functionParent place = place := by
        simp [functionParent, outside]
      rw [same]
    | some scope =>
      by_cases isClass : scope.kind = .classBody
      · cases above : scope.parent with
        | none =>
          have alone : builder.chain place = [place] := by
            rw [builder.chain_eq ordered place scope found, above]
            rfl
          have same : builder.functionParent place = place := by
            simp [functionParent, alone, kindAt, found, isClass]
          rw [same]
        | some parent =>
          have earlier := builder.parent_lt ordered place parent scope found above
          have noFunction : ¬(isLocalTo name scope = true) := by
            simp [isLocalTo, isClass]
          rw [builder.functionParent_of_class ordered place parent scope found isClass above,
            inductionHypothesis parent earlier, builder.scopesFrom_eq ordered place scope found,
            above, List.find?_cons_of_neg noFunction]
          rfl
      · rw [builder.functionParent_of_kind_ne ordered place scope found isClass]

/-! ## What the two references stand for -/

/-- The dotted names for which a list of bindings stands: those of its members, or the
bare name if there are none. -/
def Stands (scopes : ScopeBuilder) (root : String) (bindings : List Binding)
    (name : List String) : Prop :=
  bindings = [] ∧ name = [root] ∨ ∃ binding ∈ bindings, scopes.Denotes [] binding name

/-- The dotted names that a class body below a scope falls back on: those of the final
bindings of the nearest function in which the name is local, none of its parts if that
function unbinds it, and the bare name if there is no such function. -/
def FallsBackOn (scopes : ScopeBuilder) (root : String) (place : Nat) (name : List String) : Prop :=
  match (scopes.scopesFrom place).find? (isLocalTo root) with
  | none => name = [root]
  | some function =>
    function.activeBindings.find root = [] ∧ name = [] ∨
      ∃ binding ∈ function.activeBindings.find root, scopes.Denotes [] binding name

/-- The bindings of its first name that reach a reference. -/
def reaching (scopes : ScopeBuilder) (reference : AST) : List Binding :=
  ((rootName reference).map scopes.recordedAt).getD []

/-- Whether the scope at a place searches the scopes around it for a name that it has no
binding for. -/
def searchesAround (scopes : ScopeBuilder) (root : String) (place : Nat) : Bool :=
  match scopes.scopes[place]? with
  | none => false
  | some scope => isDeferred (some scope.kind) && !isLocalTo root scope

/-- A class around which `before` stands sees what `before` sees. Bindings that reach
`before` stand for what the class falls back on; where none reaches it and the scope
searches those around it, the ones found there do. -/
def SeenAlike (scopes : ScopeBuilder) (root : String) (before : AST) : Prop :=
  let place := scopes.scopeOf before
  (scopes.reaching before ≠ [] → ∀ name,
    scopes.Stands root (scopes.reaching before) name ↔ scopes.FallsBackOn root place name) ∧
  (scopes.reaching before = [] → scopes.searchesAround root place → ∀ name,
    scopes.Stands root
        (searchScopes root before none true none (scopes.scopesFrom place).tail) name ↔
      scopes.FallsBackOn root place name)

/-- A dotted name has no other alternatives. -/
theorem alternatives_of_dottedName (node : AST) (name : List String)
    (named : dottedName node = some name) : alternatives node = [node] := by
  cases node with
  | ifExp => simp [dottedName] at named
  | namedExpr => simp [dottedName] at named
  | _ => simp [alternatives]

/-- The names of a dotted expression are those of the bindings of its first name, with the
other parts behind. -/
theorem mem_resolvedNames_dotted (scopes : ScopeBuilder) (node : AST) (root : String)
    (suffix full : List String) (named : dottedName node = some (root :: suffix)) :
    full ∈ scopes.resolvedNames node ↔
      ∃ name, scopes.Stands root (scopes.bindingsForName root node) name ∧
        name ++ suffix = full := by
  have single := alternatives_of_dottedName node _ named
  rw [mem_resolvedNames_iff]
  constructor
  · rintro (⟨alternative, other, free⟩ | ⟨alternative, other, member, meaning⟩)
    all_goals
      rw [single, List.mem_singleton] at alternative
      subst alternative
      rw [named] at other
      cases other
    · exact ⟨[root], .inl ⟨free, rfl⟩, rfl⟩
    · exact ⟨_, .inr ⟨_, member, meaning⟩, rfl⟩
  · have alternative : node ∈ alternatives node := by simp [single]
    rintro ⟨name, ⟨free, rfl⟩ | ⟨binding, member, meaning⟩, rfl⟩
    · exact .unbound alternative named free
    · exact .bound alternative named member meaning

/-- An unknown binding denotes nothing but the bare name. -/
theorem denotes_unknownBinding (scopes : ScopeBuilder) (reference : AST) (name : List String) :
    scopes.Denotes [] (unknownBinding reference) name ↔ name = [] := by
  constructor
  · rintro (⟨_, source⟩ | ⟨_, noImport, _⟩)
    · simpa [unknownBinding] using source.symm
    · simp [unknownBinding] at noImport
  · rintro rfl
    exact .imported (by simp) rfl

/-- The final bindings of a function, with the unknown one if there are none. -/
theorem stands_ownBindings (scopes : ScopeBuilder) (root : String) (reference : AST) (scope : Scope)
    (name : List String) :
    scopes.Stands root (ownBindings root reference scope) name ↔
      scope.activeBindings.find root = [] ∧ name = [] ∨
        ∃ binding ∈ scope.activeBindings.find root, scopes.Denotes [] binding name := by
  unfold Stands ownBindings orElse
  by_cases unbound : scope.activeBindings.find root = []
  · simp [unbound, denotes_unknownBinding]
  · simp [unbound]

/-- What is found without deferral is what a class body falls back on. -/
theorem stands_immediate (scopes : ScopeBuilder) (root : String) (reference : AST)
    (phase : Option Nat) (place : Nat) (name : List String) :
    scopes.Stands root (searchScopes root reference phase false none (scopes.scopesFrom place)) name ↔
      scopes.FallsBackOn root place name := by
  rw [searchScopes_immediate]
  unfold FallsBackOn
  cases (scopes.scopesFrom place).find? (isLocalTo root) with
  | none => simp [Stands]
  | some function => exact scopes.stands_ownBindings root reference function name

/-- A dotted name has a root. -/
theorem rootName_of_dottedName (node : AST) (name : List String)
    (named : dottedName node = some name) : ∃ root, rootName node = some root := by
  fun_induction dottedName node generalizing name with
  | case1 => exact ⟨_, rfl⟩
  | case2 info value attr inductionHypothesis =>
    obtain ⟨inner, found, _⟩ := Option.map_eq_some_iff.mp named
    exact inductionHypothesis inner found
  | case3 => simp at named

/-- The first turn of the search: the bindings that reach the reference, then the final
ones of a function in which the name is local, then the scopes around. -/
theorem bindingsForName_eq (scopes : ScopeBuilder) (ordered : Ordered scopes.shapes)
    (reference node : AST) (root : String) (rooted : rootName reference = some node) (scope : Scope)
    (found : scopes.scopes[scopes.scopeOf reference]? = some scope) :
    scopes.bindingsForName root reference =
      let phase := scopes.nodePhases.get reference.id
      let seen := visibleIn phase (scopes.reaching reference)
      if seen ≠ [] then seen
      else if isLocalTo root scope then ownBindings root reference scope
      else searchScopes root reference phase (isDeferred (some scope.kind)) none
        (scopes.scopesFrom (scopes.scopeOf reference)).tail := by
  have recorded : (rootName reference).map scopes.recordedAt = some (scopes.reaching reference) := by
    simp [reaching, rooted]
  have chained := scopes.scopesFrom_eq ordered _ scope found
  unfold bindingsForName
  simp only [recorded, chained, List.tail_cons, kindAt, found, Option.map_some]
  rfl

/-- What a class body falls back on, for a scope and those around it. -/
theorem fallsBackOn_iff (scopes : ScopeBuilder) (ordered : Ordered scopes.shapes) (place : Nat)
    (root : String) (reference : AST) (phase : Option Nat) (scope : Scope)
    (found : scopes.scopes[place]? = some scope) (name : List String) :
    scopes.FallsBackOn root place name ↔
      scopes.Stands root
        (if isLocalTo root scope then ownBindings root reference scope
        else searchScopes root reference phase false none (scopes.scopesFrom place).tail) name := by
  rw [← scopes.stands_immediate root reference phase place name,
    scopes.scopesFrom_eq ordered place scope found, List.tail_cons, searchScopes_immediate,
    searchScopes_immediate]
  by_cases here : isLocalTo root scope = true
  · rw [List.find?_cons_of_pos here, if_pos here]
    rfl
  · rw [List.find?_cons_of_neg here, if_neg here]

/-- Where no binding reaches the reference and its scope does not search those around it,
the reference stands for what a class body falls back on. -/
theorem stands_of_not_searchesAround (scopes : ScopeBuilder) (ordered : Ordered scopes.shapes)
    (reference node : AST) (root : String) (rooted : rootName reference = some node) (scope : Scope)
    (found : scopes.scopes[scopes.scopeOf reference]? = some scope)
    (unbound : scopes.reaching reference = [])
    (alone : scopes.searchesAround root (scopes.scopeOf reference) = false) (name : List String) :
    scopes.Stands root (scopes.bindingsForName root reference) name ↔
      scopes.FallsBackOn root (scopes.scopeOf reference) name := by
  rw [scopes.fallsBackOn_iff ordered _ root reference (scopes.nodePhases.get reference.id) scope found,
    scopes.bindingsForName_eq ordered reference node root rooted scope found]
  simp only [unbound, visibleIn_nil, ne_eq, not_true_eq_false, if_false]
  by_cases here : isLocalTo root scope = true
  · simp only [here, if_true]
  · have immediate : isDeferred (some scope.kind) = false := by
      simpa [searchesAround, found, here] using alone
    simp only [here, immediate]

/-- A reference in a class body stands for what a body falls back on below the nearest
scope around that is no class. -/
theorem stands_in_class (scopes : ScopeBuilder) (ordered : Ordered scopes.shapes)
    (reference node : AST) (root : String) (rooted : rootName reference = some node)
    (inClass : scopes.kindAt (scopes.scopeOf reference) = some .classBody)
    (unbound : scopes.reaching reference = []) (name : List String) :
    scopes.Stands root (scopes.bindingsForName root reference) name ↔
      scopes.FallsBackOn root (scopes.functionParent (scopes.scopeOf reference)) name := by
  obtain ⟨scope, found, isClass⟩ := Option.map_eq_some_iff.mp inClass
  have alone : scopes.searchesAround root (scopes.scopeOf reference) = false := by
    simp [searchesAround, found, isClass, isDeferred]
  rw [scopes.stands_of_not_searchesAround ordered reference node root rooted scope found unbound
    alone]
  unfold FallsBackOn
  rw [scopes.find_scopesFrom_functionParent ordered]

/-- A reference in some scope stands for what a class body there falls back on exactly if
both see alike.

Proof: by cases on whether bindings reach the reference and on whether its scope searches
those around it. If neither is so, nothing is left to compare. -/
theorem seenAlike_iff (scopes : ScopeBuilder) (ordered : Ordered scopes.shapes)
    (before node : AST) (root : String) (rooted : rootName before = some node) (scope : Scope)
    (found : scopes.scopes[scopes.scopeOf before]? = some scope)
    (plain : scopes.nodePhases.get before.id = none) :
    (∀ name, scopes.Stands root (scopes.bindingsForName root before) name ↔
        scopes.FallsBackOn root (scopes.scopeOf before) name) ↔
      scopes.SeenAlike root before := by
  have search := scopes.bindingsForName_eq ordered before node root rooted scope found
  simp only [plain, visibleIn] at search
  unfold SeenAlike
  by_cases unbound : scopes.reaching before = []
  · by_cases around : scopes.searchesAround root (scopes.scopeOf before) = true
    · have inner : isDeferred (some scope.kind) = true ∧ isLocalTo root scope = false := by
        simpa [searchesAround, found] using around
      simp only [unbound, ne_eq, not_true_eq_false, if_false, inner, Bool.false_eq_true] at search
      simp [unbound, around, search]
    · have alone := scopes.stands_of_not_searchesAround ordered before node root rooted scope found
        unbound (by simpa using around)
      simp [unbound, around, alone]
  · simp only [ne_eq, unbound, not_false_eq_true, if_true] at search
    simp [unbound, search]

end ScopeBuilder

/-! ## References in and before a class -/

/-- `_DYNAMIC_CLIENT_NAMES` and the bare name of the class. -/
def dynamicClientNames : List (List String) :=
  [["DynamicClient"], ["kubernetes", "dynamic", "DynamicClient"],
    ["kubernetes", "dynamic", "client", "DynamicClient"]]

/-- `_FORBIDDEN_SKIP_MARKERS`. -/
def forbiddenSkipMarkers : List (List String) :=
  [["pytest", "mark", "skip"], ["pytest", "mark", "skipif"]]

namespace ScopeBuilder

/-- `is_dynamic_client_call`, for the function of the call. -/
def isDynamicClientCall (scopes : ScopeBuilder) (func : AST) : Bool :=
  (scopes.resolvedNames func).any (dynamicClientNames.contains ·)

/-- `_is_pytest_skip_call`, for the function of the call. -/
def isPytestSkipCall (scopes : ScopeBuilder) (func : AST) : Bool :=
  (scopes.resolvedNames func).contains ["pytest", "skip"]

/-- The first test of `_is_forbidden_skip_decorator`: the marker resolves to a forbidden
one. -/
def namesForbiddenSkip (scopes : ScopeBuilder) (marker : AST) : Bool :=
  (scopes.resolvedNames marker).any (forbiddenSkipMarkers.contains ·)

/-- Expressions with the same names are reported alike. -/
theorem reported_alike (scopes : ScopeBuilder) (reference before : AST)
    (same : ∀ full, full ∈ scopes.resolvedNames reference ↔ full ∈ scopes.resolvedNames before) :
    scopes.isDynamicClientCall reference = scopes.isDynamicClientCall before ∧
      scopes.isPytestSkipCall reference = scopes.isPytestSkipCall before ∧
        scopes.namesForbiddenSkip reference = scopes.namesForbiddenSkip before := by
  have anyAlike (test : List String → Bool) :
      (scopes.resolvedNames reference).any test = (scopes.resolvedNames before).any test := by
    rw [Bool.eq_iff_iff, List.any_eq_true, List.any_eq_true]
    exact exists_congr fun full => and_congr_left fun _ => same full
  refine ⟨anyAlike _, ?_, anyAlike _⟩
  unfold isPytestSkipCall
  rw [Bool.eq_iff_iff, List.contains_iff_mem, List.contains_iff_mem]
  exact same _

end ScopeBuilder

/-- A name behind which the same parts stand determines the name before them. -/
theorem forall_append_iff (first second : List String → Prop) (suffix : List String) :
    (∀ full, (∃ name, first name ∧ name ++ suffix = full) ↔ ∃ name, second name ∧ name ++ suffix = full) ↔
      ∀ name, first name ↔ second name := by
  constructor
  · intro same name
    have fixed := same (name ++ suffix)
    simpa using fixed
  · intro same full
    exact exists_congr fun name => and_congr_left fun _ => same name

namespace ScopeBuilder

/-- The function parent of a scope is a scope. -/
theorem functionParent_inside (scopes : ScopeBuilder) (ordered : Ordered scopes.shapes) (place : Nat)
    (kind : ScopeKind) (there : scopes.kindAt place = some kind) :
    scopes.functionParent place < scopes.scopes.length := by
  obtain ⟨scope, found, _⟩ := Option.map_eq_some_iff.mp there
  have valid : Valid place scopes.shapes :=
    ⟨ordered, by simpa [shapes] using (List.getElem?_eq_some_iff.mp found).1⟩
  simpa [shapes] using (scopes.functionParent_valid _ valid).inside

/-- A dotted name in a class body that the class does not bind stands for what the body falls
back on, with the other parts behind. -/
theorem mem_resolvedNames_in_class (scopes : ScopeBuilder) (ordered : Ordered scopes.shapes)
    (reference : AST) (root : String) (suffix full : List String)
    (named : dottedName reference = some (root :: suffix))
    (inClass : scopes.kindAt (scopes.scopeOf reference) = some .classBody)
    (unbound : scopes.reaching reference = []) :
    full ∈ scopes.resolvedNames reference ↔
      ∃ name, scopes.FallsBackOn root (scopes.functionParent (scopes.scopeOf reference)) name ∧
        name ++ suffix = full := by
  obtain ⟨node, rooted⟩ := rootName_of_dottedName reference _ named
  rw [scopes.mem_resolvedNames_dotted _ root suffix _ named]
  exact exists_congr fun name => and_congr_left fun _ =>
    scopes.stands_in_class ordered reference node root rooted inClass unbound name

/-- It stands for the same names as before the class exactly if both see alike.

Proof: both expressions stand for the names of the bindings of their first name, with the
same parts behind. In the class these are the names that the scope around falls back on. -/
theorem names_alike_iff (scopes : ScopeBuilder) (ordered : Ordered scopes.shapes)
    (reference before : AST) (root : String) (suffix : List String)
    (named : dottedName reference = some (root :: suffix))
    (namedBefore : dottedName before = some (root :: suffix))
    (inClass : scopes.kindAt (scopes.scopeOf reference) = some .classBody)
    (unbound : scopes.reaching reference = [])
    (around : scopes.scopeOf before = scopes.functionParent (scopes.scopeOf reference))
    (plain : scopes.nodePhases.get before.id = none) :
    (∀ full, full ∈ scopes.resolvedNames reference ↔ full ∈ scopes.resolvedNames before) ↔
      scopes.SeenAlike root before := by
  obtain ⟨node, rooted⟩ := rootName_of_dottedName before _ namedBefore
  have inside := scopes.functionParent_inside ordered _ _ inClass
  rw [← around] at inside
  simp only [scopes.mem_resolvedNames_in_class ordered reference root suffix _ named inClass unbound,
    scopes.mem_resolvedNames_dotted _ root suffix _ namedBefore]
  rw [forall_append_iff, ← around,
    ← scopes.seenAlike_iff ordered before node root rooted _ (List.getElem?_eq_getElem inside) plain]
  exact forall_congr' fun name => Iff.comm

end ScopeBuilder

end VirtTestTools.Policy
