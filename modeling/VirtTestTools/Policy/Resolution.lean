import VirtTestTools.Policy.ScopeShapes

/-!
# Resolution of dotted names

`resolved_names` of `check_policy.py` follows a dotted expression through imports
and assigned aliases. The bindings of its first name are the ones recorded at the
node, or those of the scopes around it, which `_bindings_for_name` searches.

The search terminates because the bindings on the way are never followed twice;
its meaning is the relation `Resolves`, and the bounded search computes it. The
last part compares a reference in a class body with the same reference in the
scope around the class.
-/

namespace VirtTestTools.Policy

/-- `dotted_name`. -/
def dottedName : AST → Option (List String)
  | .name _ id _ => some [id]
  | .attribute _ value attr => (dottedName value).map (· ++ [attr])
  | _ => none

/-- `_root_name`: the name node at the root of an attribute expression. -/
def rootName : AST → Option AST
  | node@(.name ..) => some node
  | .attribute _ value _ => rootName value
  | _ => none

/-- The binding of a local name that nothing is known about. -/
def unknownBinding (reference : AST) : Binding :=
  { key := 0, value := none, node := reference, importedName := some [] }

/-- `xs or ys` for tuples. -/
def orElse (first second : List Binding) : List Binding :=
  if first.isEmpty then second else first

namespace ScopeBuilder

/-- `scopes.node_scopes.get(node, scopes.root)`. -/
def scopeOf (scopes : ScopeBuilder) (node : AST) : Nat := (scopes.nodeScopes.get node.id).getD 0

/-- `scopes.node_bindings.get(node, ())`. -/
def recordedAt (scopes : ScopeBuilder) (node : AST) : List Binding :=
  (scopes.nodeBindings.get node.id).getD []

/-- The bindings that may be seen in a phase of a comprehension. -/
def visibleIn (phase : Option Nat) (bindings : List Binding) : List Binding :=
  match phase with
  | none => bindings
  | some phase => bindings.filter fun binding =>
      match binding.visiblePhase with
      | none => true
      | some visible => visible ≤ phase

/-- Whether the scope is a function in which the name is local. -/
def isLocalTo (name : String) (scope : Scope) : Bool :=
  decide (scope.kind = .function) && decide (name ∈ scope.localNames)

/-- What a local name of a function is bound to in the end. -/
def ownBindings (name : String) (reference : AST) (scope : Scope) : List Binding :=
  orElse (scope.activeBindings.find name) [unknownBinding reference]

/-- The bindings that one turn of the loop of `_bindings_for_name` looks at. -/
def bindingsAt (name : String) (deferred : Bool) (recorded : Option (List Binding))
    (scope : Scope) : List Binding :=
  match recorded with
  | some bindings => bindings
  | none =>
    if deferred then orElse (scope.activeBindings.find name) (scope.bindings.find name) else []

/-- The loop of `_bindings_for_name` over the scopes outwards. The recorded
bindings count in the first scope, if the reference has a root name. -/
def searchScopes (name : String) (reference : AST) (phase : Option Nat) (deferred : Bool) :
    Option (List Binding) → List Scope → List Binding
  | _, [] => []
  | recorded, scope :: outer =>
    let bindings := visibleIn phase (bindingsAt name deferred recorded scope)
    if bindings ≠ [] then bindings
    else if isLocalTo name scope then ownBindings name reference scope
    else searchScopes name reference phase deferred none outer

/-- The scopes from a place outwards. -/
def scopesFrom (scopes : ScopeBuilder) (place : Nat) : List Scope :=
  (scopes.chain place).filterMap (scopes.scopes[·]?)

/-- Whether what a scope of this kind refers to is looked up when it runs. -/
def isDeferred : Option ScopeKind → Bool
  | some .comprehension | some .function => true
  | _ => false

/-- `_bindings_for_name`. -/
def bindingsForName (scopes : ScopeBuilder) (name : String) (reference : AST) : List Binding :=
  let place := scopes.scopeOf reference
  searchScopes name reference (scopes.nodePhases.get reference.id)
    (isDeferred (scopes.kindAt place)) ((rootName reference).map scopes.recordedAt)
    (scopes.scopesFrom place)

/-- The expressions whose names an expression may evaluate to: the branches of
conditional expressions. One walrus is looked through at each of them. -/
def alternatives : AST → List AST
  | .ifExp _ _ body orelse => alternatives body ++ alternatives orelse
  | .namedExpr _ _ (.ifExp _ _ body orelse) => alternatives body ++ alternatives orelse
  | .namedExpr _ _ value => [value]
  | node => [node]

/-- The names that a binding stands for. What is assigned is resolved by `follow`,
with the node of the binding among those that are being resolved. -/
def bindingNames (follow : List Nat → AST → List (List String)) (resolving : List Nat)
    (binding : Binding) : List (List String) :=
  if binding.node.id ∈ resolving then []
  else
    match binding.importedName, binding.value with
    | some name, _ => [name]
    | none, some value => follow (binding.node.id :: resolving) value
    | none, none => []

/-- The names that a dotted expression stands for. -/
def leafNames (scopes : ScopeBuilder) (follow : List Nat → AST → List (List String))
    (resolving : List Nat) (leaf : AST) : List (List String) :=
  match dottedName leaf with
  | none | some [] => []
  | some (root :: suffix) =>
    let bindings := scopes.bindingsForName root leaf
    if bindings.isEmpty then [root :: suffix]
    else (bindings.flatMap (bindingNames follow resolving)).map (· ++ suffix)

/-- `resolved_names` with the nodes that are being resolved. The fuel bounds the
depth of the recursion. -/
def resolvedFrom (scopes : ScopeBuilder) : Nat → List Nat → AST → List (List String)
  | 0, _, _ => []
  | fuel + 1, resolving, node =>
    (alternatives node).flatMap (scopes.leafNames (scopes.resolvedFrom fuel) resolving)

/-- All bindings that a search can come upon. -/
def allBindings (scopes : ScopeBuilder) : List Binding :=
  scopes.nodeBindings.items.flatMap Prod.snd ++
    scopes.scopes.flatMap fun scope =>
      scope.activeBindings.items.flatMap Prod.snd ++ scope.bindings.items.flatMap Prod.snd

/-- `resolved_names`. -/
def resolvedNames (scopes : ScopeBuilder) (node : AST) : List (List String) :=
  scopes.resolvedFrom (scopes.allBindings.length + 1) [] node

/-! ## The relation that the search computes -/

mutual

/-- An expression stands for a dotted name, while some nodes are being resolved. -/
inductive Resolves (scopes : ScopeBuilder) : List Nat → AST → List String → Prop
  | unbound {resolving : List Nat} {node leaf : AST} {root : String} {suffix : List String}
      (alternative : leaf ∈ alternatives node) (named : dottedName leaf = some (root :: suffix))
      (free : scopes.bindingsForName root leaf = []) :
      Resolves scopes resolving node (root :: suffix)
  | bound {resolving : List Nat} {node leaf : AST} {root : String} {suffix name : List String}
      {binding : Binding} (alternative : leaf ∈ alternatives node)
      (named : dottedName leaf = some (root :: suffix))
      (member : binding ∈ scopes.bindingsForName root leaf)
      (meaning : Denotes scopes resolving binding name) :
      Resolves scopes resolving node (name ++ suffix)

/-- A binding stands for a dotted name: the imported one, or one of the assigned value. -/
inductive Denotes (scopes : ScopeBuilder) : List Nat → Binding → List String → Prop
  | imported {resolving : List Nat} {binding : Binding} {name : List String}
      (new : binding.node.id ∉ resolving) (source : binding.importedName = some name) :
      Denotes scopes resolving binding name
  | assigned {resolving : List Nat} {binding : Binding} {value : AST} {name : List String}
      (new : binding.node.id ∉ resolving) (noImport : binding.importedName = none)
      (source : binding.value = some value)
      (followed : Resolves scopes (binding.node.id :: resolving) value name) :
      Denotes scopes resolving binding name

end

/-- What is found for a binding is what it stands for, if that is so for values. -/
theorem mem_bindingNames_iff (scopes : ScopeBuilder) (follow : List Nat → AST → List (List String))
    (resolving : List Nat) (binding : Binding) (name : List String)
    (follows : binding.node.id ∉ resolving → ∀ value, binding.importedName = none →
      binding.value = some value →
        (name ∈ follow (binding.node.id :: resolving) value ↔
          scopes.Resolves (binding.node.id :: resolving) value name)) :
    name ∈ bindingNames follow resolving binding ↔ scopes.Denotes resolving binding name := by
  unfold bindingNames
  by_cases old : binding.node.id ∈ resolving
  · simp only [old, if_true, List.not_mem_nil, false_iff]
    rintro (⟨new, _⟩ | ⟨new, _⟩) <;> exact new old
  · simp only [old, if_false]
    cases source : binding.importedName with
    | some imported =>
      constructor
      · intro member
        rw [List.mem_singleton.mp member]
        exact .imported old source
      · rintro (⟨_, other⟩ | ⟨_, noImport, _⟩)
        · rw [source] at other
          simpa using other.symm
        · simp [source] at noImport
    | none =>
      cases assigned : binding.value with
      | none =>
        constructor
        · simp
        · rintro (⟨_, other⟩ | ⟨_, _, other, _⟩)
          · simp [source] at other
          · simp [assigned] at other
      | some value =>
        rw [follows old value source assigned]
        constructor
        · exact fun followed => .assigned old source assigned followed
        · rintro (⟨_, other⟩ | ⟨_, _, other, followed⟩)
          · simp [source] at other
          · rw [assigned] at other
            cases other
            exact followed

/-- What is found for a dotted expression. -/
theorem mem_leafNames_iff (scopes : ScopeBuilder) (follow : List Nat → AST → List (List String))
    (resolving : List Nat) (leaf : AST) (root : String) (suffix full : List String)
    (named : dottedName leaf = some (root :: suffix)) :
    full ∈ scopes.leafNames follow resolving leaf ↔
      scopes.bindingsForName root leaf = [] ∧ full = root :: suffix ∨
        ∃ binding ∈ scopes.bindingsForName root leaf,
          ∃ name ∈ bindingNames follow resolving binding, name ++ suffix = full := by
  unfold leafNames
  simp only [named]
  by_cases free : scopes.bindingsForName root leaf = []
  · simp [free]
  · simp only [List.isEmpty_iff, free, if_false, false_and, false_or, List.mem_map,
      List.mem_flatMap]
    constructor
    · rintro ⟨name, ⟨binding, member, found⟩, rfl⟩
      exact ⟨binding, member, name, found, rfl⟩
    · rintro ⟨binding, member, name, found, rfl⟩
      exact ⟨name, ⟨binding, member, found⟩, rfl⟩

/-- An expression without a dotted name has no names. -/
theorem exists_root_of_mem_leafNames (scopes : ScopeBuilder)
    (follow : List Nat → AST → List (List String)) (resolving : List Nat) (leaf : AST)
    (full : List String) (member : full ∈ scopes.leafNames follow resolving leaf) :
    ∃ root suffix, dottedName leaf = some (root :: suffix) := by
  unfold leafNames at member
  match named : dottedName leaf with
  | none => simp [named] at member
  | some [] => simp [named] at member
  | some (root :: suffix) => exact ⟨root, suffix, rfl⟩

/-! ## The bindings that the search can come upon -/

/-- A binding that is found is one of the bindings. -/
theorem mem_of_mem_find (bindings : Bindings) (name : String) (binding : Binding)
    (member : binding ∈ bindings.find name) : binding ∈ bindings.items.flatMap Prod.snd := by
  unfold Bindings.find at member
  cases found : Dict.get bindings name with
  | none => simp [found] at member
  | some list =>
    rw [found, Option.getD_some] at member
    exact List.mem_flatMap.mpr ⟨(name, list), (Dict.get_eq_some_iff _ _ _).mp found, member⟩

/-- A visible binding is one of the bindings. -/
theorem mem_of_mem_visibleIn (phase : Option Nat) (bindings : List Binding) (binding : Binding)
    (member : binding ∈ visibleIn phase bindings) : binding ∈ bindings := by
  unfold visibleIn at member
  cases phase with
  | none => exact member
  | some phase => exact (List.mem_filter.mp member).1

/-- A binding of either list, the second one when the first is empty. -/
theorem mem_of_mem_orElse (first second : List Binding) (binding : Binding)
    (member : binding ∈ orElse first second) : binding ∈ first ∨ binding ∈ second := by
  unfold orElse at member
  split at member
  · exact .inr member
  · exact .inl member

/-- The bindings of a scope are bindings of the builder. -/
theorem active_mem_allBindings (scopes : ScopeBuilder) (scope : Scope) (inside : scope ∈ scopes.scopes)
    (name : String) (binding : Binding)
    (member : binding ∈ scope.activeBindings.find name ∨ binding ∈ scope.bindings.find name) :
    binding ∈ scopes.allBindings := by
  refine List.mem_append_right _ (List.mem_flatMap.mpr ⟨scope, inside, ?_⟩)
  rcases member with active | other
  · exact List.mem_append_left _ (mem_of_mem_find _ _ _ active)
  · exact List.mem_append_right _ (mem_of_mem_find _ _ _ other)

/-- The bindings recorded for a node are bindings of the builder. -/
theorem recorded_mem_allBindings (scopes : ScopeBuilder) (node : AST) (binding : Binding)
    (member : binding ∈ scopes.recordedAt node) : binding ∈ scopes.allBindings := by
  unfold recordedAt at member
  cases found : scopes.nodeBindings.get node.id with
  | none => simp [found] at member
  | some list =>
    rw [found, Option.getD_some] at member
    refine List.mem_append_left _ (List.mem_flatMap.mpr ⟨(node.id, list), ?_, member⟩)
    exact (Dict.get_eq_some_iff _ _ _).mp found

/-- The bindings looked up in a scope are bindings of the builder. -/
theorem mem_of_mem_bindingsAt (scopes : ScopeBuilder) (name : String) (deferred : Bool)
    (recorded : Option (List Binding))
    (known : ∀ bindings ∈ recorded, ∀ binding ∈ bindings, binding ∈ scopes.allBindings)
    (scope : Scope) (inside : scope ∈ scopes.scopes) (binding : Binding)
    (member : binding ∈ bindingsAt name deferred recorded scope) :
    binding ∈ scopes.allBindings := by
  unfold bindingsAt at member
  cases recorded with
  | some bindings => exact known bindings rfl binding member
  | none =>
    simp only at member
    split at member
    · exact scopes.active_mem_allBindings scope inside name binding (mem_of_mem_orElse _ _ _ member)
    · simp at member

/-- A binding that the search over the scopes finds is a known one, or it says that
nothing is known.

Proof: by induction on the scopes. -/
theorem mem_searchScopes (scopes : ScopeBuilder) (name : String) (reference : AST)
    (phase : Option Nat) (deferred : Bool) (recorded : Option (List Binding))
    (known : ∀ bindings ∈ recorded, ∀ binding ∈ bindings, binding ∈ scopes.allBindings)
    (chain : List Scope) (inside : ∀ scope ∈ chain, scope ∈ scopes.scopes) (binding : Binding)
    (member : binding ∈ searchScopes name reference phase deferred recorded chain) :
    binding ∈ scopes.allBindings ∨ binding = unknownBinding reference := by
  induction chain generalizing recorded with
  | nil => simp [searchScopes] at member
  | cons scope outer inductionHypothesis =>
    have here := inside scope List.mem_cons_self
    simp only [searchScopes] at member
    split at member
    · exact .inl (scopes.mem_of_mem_bindingsAt name deferred recorded known scope here binding
        (mem_of_mem_visibleIn _ _ _ member))
    · split at member
      · rcases mem_of_mem_orElse _ _ _ member with active | unknown
        · exact .inl (scopes.active_mem_allBindings scope here name binding (.inl active))
        · exact .inr (List.mem_singleton.mp unknown)
      · exact inductionHypothesis none (by simp)
          (fun other later => inside other (List.mem_cons_of_mem _ later)) member

/-- A binding of a name is a known one, or it says that nothing is known. -/
theorem mem_bindingsForName (scopes : ScopeBuilder) (name : String) (reference : AST)
    (binding : Binding) (member : binding ∈ scopes.bindingsForName name reference) :
    binding ∈ scopes.allBindings ∨ binding = unknownBinding reference := by
  have recorded (bindings : List Binding)
      (found : bindings ∈ (rootName reference).map scopes.recordedAt) :
      ∀ binding ∈ bindings, binding ∈ scopes.allBindings := by
    obtain ⟨node, _, rfl⟩ := Option.map_eq_some_iff.mp found
    exact fun binding member => scopes.recorded_mem_allBindings node binding member
  have inside (scope : Scope) (found : scope ∈ scopes.scopesFrom (scopes.scopeOf reference)) :
      scope ∈ scopes.scopes := by
    obtain ⟨place, _, there⟩ := List.mem_filterMap.mp found
    exact List.mem_of_getElem? there
  exact scopes.mem_searchScopes name reference _ _ _ recorded _ inside binding member

/-- A binding that can be followed to a value is a known one. -/
theorem mem_allBindings (scopes : ScopeBuilder) (name : String) (reference : AST) (binding : Binding)
    (member : binding ∈ scopes.bindingsForName name reference)
    (noImport : binding.importedName = none) : binding ∈ scopes.allBindings := by
  rcases scopes.mem_bindingsForName name reference binding member with known | unknown
  · exact known
  · rw [unknown] at noImport
    simp [unknownBinding] at noImport

/-! ## The search computes the relation -/

/-- The number of bindings whose nodes are not being resolved. -/
def remaining (scopes : ScopeBuilder) (resolving : List Nat) : Nat :=
  (scopes.allBindings.filter fun binding => decide (binding.node.id ∉ resolving)).length

/-- What remains when a node is resolved as well: the bindings of other nodes. -/
theorem filter_resolving_cons (scopes : ScopeBuilder) (resolving : List Nat) (id : Nat) :
    (scopes.allBindings.filter fun other => decide (other.node.id ∉ id :: resolving)) =
      (scopes.allBindings.filter fun other => decide (other.node.id ∉ resolving)).filter
        fun other => decide (other.node.id ≠ id) := by
  rw [List.filter_filter]
  refine List.filter_congr fun other _ => ?_
  simp [not_or]

/-- Behind a new binding fewer bindings remain. -/
theorem remaining_lt (scopes : ScopeBuilder) (resolving : List Nat) (binding : Binding)
    (known : binding ∈ scopes.allBindings) (new : binding.node.id ∉ resolving) :
    scopes.remaining (binding.node.id :: resolving) < scopes.remaining resolving := by
  unfold remaining
  rw [filter_resolving_cons, List.length_filter_lt_length_iff_exists]
  exact ⟨binding, List.mem_filter.mpr ⟨known, by simpa using new⟩, by simp⟩

/-- With enough fuel the search finds exactly what the expression stands for.

Proof: by induction on the fuel. A value is followed only from a known binding whose
node is not being resolved, and then that node is, so fewer bindings remain. -/
theorem mem_resolvedFrom_iff (scopes : ScopeBuilder) (fuel : Nat) (resolving : List Nat) (node : AST)
    (full : List String) (enough : scopes.remaining resolving < fuel) :
    full ∈ scopes.resolvedFrom fuel resolving node ↔ scopes.Resolves resolving node full := by
  induction fuel generalizing resolving node full with
  | zero => omega
  | succ fuel inductionHypothesis =>
    have meaning (root : String) (leaf : AST) (binding : Binding)
        (member : binding ∈ scopes.bindingsForName root leaf) (name : List String) :
        name ∈ bindingNames (scopes.resolvedFrom fuel) resolving binding ↔
          scopes.Denotes resolving binding name := by
      refine scopes.mem_bindingNames_iff _ resolving binding name fun new value noImport _ => ?_
      have known := scopes.mem_allBindings root leaf binding member noImport
      have fewer := scopes.remaining_lt resolving binding known new
      exact inductionHypothesis _ value name (by omega)
    simp only [resolvedFrom, List.mem_flatMap]
    constructor
    · rintro ⟨leaf, alternative, inLeaf⟩
      obtain ⟨root, suffix, named⟩ := scopes.exists_root_of_mem_leafNames _ _ _ _ inLeaf
      rw [mem_leafNames_iff scopes _ _ _ root suffix full named] at inLeaf
      rcases inLeaf with ⟨free, rfl⟩ | ⟨binding, member, name, inBinding, rfl⟩
      · exact .unbound alternative named free
      · exact .bound alternative named member ((meaning root leaf binding member name).mp inBinding)
    · rintro (⟨alternative, named, free⟩ | ⟨alternative, named, member, denoted⟩)
      · exact ⟨_, alternative, (mem_leafNames_iff _ _ _ _ _ _ _ named).mpr (.inl ⟨free, rfl⟩)⟩
      · refine ⟨_, alternative, (mem_leafNames_iff _ _ _ _ _ _ _ named).mpr (.inr ?_)⟩
        exact ⟨_, member, _, (meaning _ _ _ member _).mpr denoted, rfl⟩

/-- `resolved_names` gives exactly the names that the expression stands for. -/
theorem mem_resolvedNames_iff (scopes : ScopeBuilder) (node : AST) (full : List String) :
    full ∈ scopes.resolvedNames node ↔ scopes.Resolves [] node full := by
  refine scopes.mem_resolvedFrom_iff _ [] node full (Nat.lt_succ_of_le ?_)
  exact List.length_filter_le _ _

end ScopeBuilder

end VirtTestTools.Policy
