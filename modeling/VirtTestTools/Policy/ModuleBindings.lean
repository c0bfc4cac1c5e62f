import VirtTestTools.Policy.BindingPaths
import VirtTestTools.Policy.ScopeShapes

/-!
# Bindings in the module scope

What `_ScopeBuilder` holds for one name of the module scope. Bindings are merged by their
identity; the identities of all bindings of the name that were ever made tell them apart,
so merged bindings are the bindings of all parts. Scopes are only added, so what is looked
for on the way outwards from a scope is found at the same place later on.
-/

namespace VirtTestTools.Policy

/-- Where a binding was made. -/
def Binding.site (binding : Binding) : Site := ⟨binding.value, binding.node, binding.importedName⟩

/-- Setting a name changes what is found for it only. -/
theorem Bindings.find_set (bindings : Bindings) (name other : String) (made : List Binding) :
    Bindings.find (Dict.set bindings name made) other =
      if other = name then made else bindings.find other := by
  unfold Bindings.find
  rw [Dict.get_set]
  split <;> rfl

/-! ## Merging -/

/-- The keys tell the bindings apart. -/
def Keyed (known : List Binding) : Prop :=
  ∀ first ∈ known, ∀ second ∈ known, first.key = second.key → first = second

/-- New bindings are added to those that are there. -/
theorem mem_appendNew {known : List Binding} (keyed : Keyed known) (more : List Binding) :
    ∀ bindings : List Binding, bindings ⊆ known → more ⊆ known →
      ∀ binding, binding ∈ appendNew bindings more ↔ binding ∈ bindings ∨ binding ∈ more := by
  induction more with
  | nil => simp [appendNew]
  | cons first rest inductionHypothesis =>
    intro bindings held moreHeld binding
    have firstHeld : first ∈ known := moreHeld (List.mem_cons_self ..)
    have restHeld : rest ⊆ known := fun other inside => moreHeld (List.mem_cons_of_mem _ inside)
    have unfolded : appendNew bindings (first :: rest) =
        appendNew (if bindings.all (·.key ≠ first.key) then bindings ++ [first] else bindings)
          rest := rfl
    rw [unfolded]
    split
    · have grown : bindings ++ [first] ⊆ known := by
        intro other inside
        obtain old | new := List.mem_append.mp inside
        · exact held old
        · rw [List.mem_singleton.mp new]
          exact firstHeld
      rw [inductionHypothesis _ grown restHeld]
      simp only [List.mem_append, List.mem_cons, List.not_mem_nil, or_false]
      exact or_assoc
    · -- a binding with this key is there, so it is this binding
      rename_i taken
      obtain ⟨other, otherInside, sameKey⟩ : ∃ other ∈ bindings, other.key = first.key := by
        simpa using taken
      obtain rfl := keyed other (held otherInside) first firstHeld sameKey
      rw [inductionHypothesis _ held restHeld, List.mem_cons]
      constructor
      · exact Or.imp_right .inr
      · rintro (inside | rfl | inside)
        · exact .inl inside
        · exact .inl otherInside
        · exact .inr inside

/-- All parts are added to the bindings that are there. -/
theorem mem_foldl_appendNew {known : List Binding} (keyed : Keyed known)
    (parts : List (List Binding)) :
    ∀ bindings : List Binding, bindings ⊆ known → (∀ part ∈ parts, part ⊆ known) →
      ∀ binding, binding ∈ parts.foldl appendNew bindings ↔
        binding ∈ bindings ∨ ∃ part ∈ parts, binding ∈ part := by
  induction parts with
  | nil => simp
  | cons part parts inductionHypothesis =>
    intro bindings held partsHeld binding
    have partHeld := partsHeld part (List.mem_cons_self ..)
    have merged : appendNew bindings part ⊆ known := fun other inside =>
      ((mem_appendNew keyed part bindings held partHeld other).mp inside).elim
        (fun old => held old) fun new => partHeld new
    rw [List.foldl_cons, inductionHypothesis _ merged fun other inside =>
      partsHeld other (List.mem_cons_of_mem _ inside), mem_appendNew keyed part bindings held partHeld]
    simp only [List.mem_cons, exists_eq_or_imp]
    exact or_assoc

/-- The bindings of a name in a merged state are merged one state after the other. -/
theorem find_mergeStates (states : List Bindings) (name : String) :
    (mergeStates states).find name =
      (states.map fun state => state.find name).foldl appendNew [] := by
  let gathered (name : String) : List Binding :=
    states.foldl (fun bindings state => appendNew bindings (state.find name)) []
  let kept (name : String) : Option (List Binding) :=
    bif (gathered name).isEmpty then none else some (gathered name)
  have keptD : (kept name).getD [] = gathered name := by
    simp only [kept]
    cases gathered name <;> rfl
  have looked := Dict.get_update_filterMap (Dict.empty : Bindings) (states.flatMap Dict.keys) kept name
  have rewritten : mergeStates states = Dict.empty.update
      ((states.flatMap Dict.keys).filterMap fun name => (kept name).map fun found => (name, found)) := by
    refine congrArg Dict.empty.update (List.filterMap_congr fun name _ => ?_)
    simp only [kept, gathered]
    cases states.foldl (fun bindings state => appendNew bindings (state.find name)) [] <;> rfl
  rw [rewritten, Bindings.find, looked, List.foldl_map]
  split
  · refine Eq.trans ?_ keptD
    cases kept name <;> rfl
  · -- no state has the name
    rename_i unknown
    have nothing (state : Bindings) (inside : state ∈ states) : state.find name = [] := by
      rw [Bindings.find, (Dict.get_eq_none_iff state name).mpr, Option.getD_none]
      exact decide_eq_false fun has => unknown (List.mem_flatMap.mpr ⟨state, inside, has⟩)
    clear keptD looked rewritten unknown kept gathered
    induction states with
    | nil => rfl
    | cons state states inductionHypothesis =>
      rw [List.foldl_cons, nothing state (List.mem_cons_self ..)]
      exact inductionHypothesis fun other inside => nothing other (List.mem_cons_of_mem _ inside)

/-! ## The module scope -/

section Front

variable (name : String)

/-- The bindings of the name in the module scope, in a list of states of all scopes. -/
def front (states : List Bindings) : List Binding :=
  (states[0]?.map fun state => state.find name).getD []

/-- A merged state holds the bindings of all states. -/
theorem mem_front_mergedScopeStates {known : List Binding} (keyed : Keyed known)
    {outputs : List (List Bindings)} (nonempty : ∀ output ∈ outputs, output ≠ [])
    (held : ∀ output ∈ outputs, front name output ⊆ known) (binding : Binding) :
    binding ∈ front name (mergedScopeStates outputs) ↔
      ∃ output ∈ outputs, binding ∈ front name output := by
  cases outputs with
  | nil => simp [mergedScopeStates, front]
  | cons first rest =>
    have firstStates : ((first :: rest).head?.getD []).length ≠ 0 := by
      simpa using nonempty first (List.mem_cons_self ..)
    have heads (outputs : List (List Bindings)) (nonempty : ∀ output ∈ outputs, output ≠ []) :
        (outputs.filterMap (·[0]?)).map (fun state => state.find name) = outputs.map (front name) := by
      induction outputs with
      | nil => rfl
      | cons output outputs inductionHypothesis =>
        obtain ⟨state, states, rfl⟩ := List.exists_cons_of_ne_nil (nonempty output (List.mem_cons_self ..))
        simp only [List.filterMap_cons, List.getElem?_cons_zero, List.map_cons]
        rw [inductionHypothesis fun other inside => nonempty other (List.mem_cons_of_mem _ inside)]
        rfl
    have unfolded : front name (mergedScopeStates (first :: rest)) =
        ((first :: rest).map (front name)).foldl appendNew [] := by
      rw [← heads _ nonempty, ← find_mergeStates, front, mergedScopeStates]
      rw [List.getElem?_map, List.getElem?_range (Nat.pos_of_ne_zero firstStates)]
      rfl
    rw [unfolded, mem_foldl_appendNew keyed _ [] (List.nil_subset _)]
    · simp
    · intro part inside
      obtain ⟨output, outputInside, rfl⟩ := List.mem_map.mp inside
      exact held output outputInside

end Front

namespace ScopeBuilder

section Projections

variable (name : String) (builder : ScopeBuilder)

/-- All bindings of the name that were made in the module scope. -/
def history : List Binding :=
  (builder.scopes[0]?.map fun scope => scope.bindings.find name).getD []

/-- The bindings of the name that reach the current point. -/
def active : List Binding :=
  (builder.scopes[0]?.map fun scope => scope.activeBindings.find name).getD []

/-- In front there are the active bindings. -/
theorem front_states {tracked : Nat} (positive : 0 < tracked) :
    front name (builder.states tracked) = builder.active name := by
  rw [front, active, states, List.getElem?_map, List.getElem?_take_of_lt positive]
  cases builder.scopes[0]? <;> rfl

/-- Some state is tracked. -/
theorem states_ne_nil {tracked : Nat} (positive : 0 < tracked) (nonempty : builder.scopes ≠ []) :
    builder.states tracked ≠ [] := by
  obtain ⟨scope, scopes, same⟩ := List.exists_cons_of_ne_nil nonempty
  obtain ⟨fuel, rfl⟩ : ∃ fuel, tracked = fuel + 1 := ⟨tracked - 1, by omega⟩
  simp [states, same]

/-- Restored states have the bindings of their front. -/
theorem active_restoreStates {states : List Bindings} (given : states ≠ [])
    (nonempty : builder.scopes ≠ []) :
    (builder.restoreStates states).active name = front name states := by
  obtain ⟨scope, scopes, same⟩ := List.exists_cons_of_ne_nil nonempty
  obtain ⟨state, rest, rfl⟩ := List.exists_cons_of_ne_nil given
  simp [active, restoreStates, same, restoreScopes, front]

/-- Restored states keep the history. -/
theorem history_restoreStates (states : List Bindings) :
    (builder.restoreStates states).history name = builder.history name := by
  unfold history restoreStates
  cases same : builder.scopes with
  | nil => cases states <;> rfl
  | cons scope scopes => cases states <;> rfl

/-- Restored scopes declare what they declared. -/
theorem restoreScopes_declared (scopes : List Scope) (states : List Bindings) (place : Nat)
    {scope : Scope} (found : (restoreScopes scopes states)[place]? = some scope) :
    ∃ earlier, scopes[place]? = some earlier ∧ earlier.globalNames = scope.globalNames := by
  induction scopes generalizing states place with
  | nil => cases states <;> simp [restoreScopes] at found
  | cons first rest inductionHypothesis =>
    cases states with
    | nil => exact ⟨scope, found, rfl⟩
    | cons state states =>
      cases place with
      | zero =>
        simp only [restoreScopes, List.getElem?_cons_zero, Option.some.injEq] at found
        exact ⟨first, rfl, by rw [← found]⟩
      | succ place =>
        simp only [restoreScopes, List.getElem?_cons_succ] at found ⊢
        exact inductionHypothesis states place found

end Projections

/-! ## The levels of scopes -/

section Levels

variable {builder next : ScopeBuilder}

/-- A scope that was there keeps its parent and its kind. -/
theorem shape_of_extends (extended : Extends builder.shapes next.shapes) {place : Nat} {scope : Scope}
    (found : builder.scopes[place]? = some scope) :
    ∃ later, next.scopes[place]? = some later ∧ later.parent = scope.parent ∧
      later.kind = scope.kind := by
  obtain ⟨added, same⟩ := extended.opening
  have inside : place < builder.shapes.length := by
    simpa [shapes] using (List.getElem?_eq_some_iff.mp found).1
  have shape : next.shapes[place]? = some (scope.parent, scope.kind) := by
    rw [← same, List.getElem?_append_left inside]
    simp [shapes, found]
  rw [shapes, List.getElem?_map, Option.map_eq_some_iff] at shape
  obtain ⟨later, laterFound, pair⟩ := shape
  exact ⟨later, laterFound, congrArg Prod.fst pair, congrArg Prod.snd pair⟩

/-- The chain of a scope stays when more scopes are opened. -/
theorem chainFrom_of_extends (ordered : Ordered builder.shapes)
    (extended : Extends builder.shapes next.shapes) (fuel place : Nat)
    (inside : place < builder.scopes.length) :
    chainFrom next.scopes fuel place = chainFrom builder.scopes fuel place := by
  induction fuel generalizing place with
  | zero => rfl
  | succ fuel inductionHypothesis =>
    obtain ⟨scope, found⟩ : ∃ scope, builder.scopes[place]? = some scope :=
      ⟨_, List.getElem?_eq_getElem inside⟩
    obtain ⟨later, laterFound, sameParent, -⟩ := shape_of_extends extended found
    simp only [chainFrom, found, laterFound, sameParent]
    cases above : scope.parent with
    | none => rfl
    | some parent =>
      have earlier := builder.parent_lt ordered place parent scope found above
      simp only [inductionHypothesis parent (by omega)]

/-- The way outwards from a scope stays the same. -/
theorem chain_of_extends (ordered : Ordered builder.shapes)
    (extended : Extends builder.shapes next.shapes) {place : Nat}
    (inside : place < builder.scopes.length) : next.chain place = builder.chain place :=
  chainFrom_of_extends ordered extended _ place inside

/-- The kind of a scope stays when more scopes are opened. -/
theorem kindAt_of_extends (extended : Extends builder.shapes next.shapes) {place : Nat}
    (inside : place < builder.scopes.length) : next.kindAt place = builder.kindAt place := by
  obtain ⟨scope, found⟩ : ∃ scope, builder.scopes[place]? = some scope :=
    ⟨_, List.getElem?_eq_getElem inside⟩
  obtain ⟨later, laterFound, -, sameKind⟩ := shape_of_extends extended found
  simp [kindAt, found, laterFound, sameKind]

/-- The first scope on the way outwards that is of a wanted kind, or else the last one. -/
def outwards (builder : ScopeBuilder) (wanted : Option ScopeKind → Bool) (place : Nat) : Nat :=
  ((builder.chain place).find? fun other => wanted (builder.kindAt other)).getD
    ((builder.chain place).getLastD place)

/-- The scope of a walrus is the first one outwards that is no comprehension. -/
theorem walrusScope_eq (builder : ScopeBuilder) (place : Nat) :
    builder.walrusScope place = builder.outwards (fun kind => kind ≠ some .comprehension) place := rfl

/-- The scope around a function is the first one outwards that is no class body. -/
theorem functionParent_eq (builder : ScopeBuilder) (place : Nat) :
    builder.functionParent place = builder.outwards (fun kind => kind ≠ some .classBody) place := rfl

/-- What is looked for by kind on the way outwards is found at the same place. -/
theorem outwards_of_extends (ordered : Ordered builder.shapes)
    (extended : Extends builder.shapes next.shapes) {place : Nat}
    (inside : place < builder.scopes.length) (wanted : Option ScopeKind → Bool) :
    next.outwards wanted place = builder.outwards wanted place := by
  unfold outwards
  rw [chain_of_extends ordered extended inside]
  have within (other : Nat) (member : other ∈ builder.chain place) : other < builder.scopes.length :=
    inside_of_mem_chainFrom builder.scopes _ place other member
  generalize (builder.chain place).getLastD place = last
  generalize builder.chain place = places at within
  congr 1
  induction places with
  | nil => rfl
  | cons first rest inductionHypothesis =>
    rw [List.find?_cons, List.find?_cons,
      kindAt_of_extends extended (within first (List.mem_cons_self ..)),
      inductionHypothesis fun other member => within other (List.mem_cons_of_mem _ member)]

/-- A scope that is pushed is found from itself if it is of the wanted kind; otherwise the
search goes on from its parent. -/
theorem outwards_pushScope (ordered : Ordered builder.shapes) {parent : Nat}
    (inside : parent < builder.scopes.length) (kind : ScopeKind) (wanted : Option ScopeKind → Bool) :
    (builder.pushScope parent kind).outwards wanted builder.scopes.length =
      if wanted (some kind) then builder.scopes.length else builder.outwards wanted parent := by
  have valid : Valid parent builder.shapes := ⟨ordered, by simpa [shapes] using inside⟩
  have extended : Extends builder.shapes (builder.pushScope parent kind).shapes := by
    rw [shapes_pushScope]
    exact .push kind valid
  have found : (builder.pushScope parent kind).scopes[builder.scopes.length]? =
      some { parent := some parent, kind := kind } := by
    simp [pushScope]
  have chained := (builder.pushScope parent kind).chain_eq extended.ordered _ _ found
  have kindThere : (builder.pushScope parent kind).kindAt builder.scopes.length = some kind := by
    simp [kindAt, found]
  have outside := outwards_of_extends ordered extended inside wanted
  obtain ⟨scope, above⟩ : ∃ scope, (builder.pushScope parent kind).scopes[parent]? = some scope := by
    obtain ⟨later, laterFound, -⟩ :=
      shape_of_extends extended (List.getElem?_eq_getElem inside)
    exact ⟨later, laterFound⟩
  have parentChained := (builder.pushScope parent kind).chain_eq extended.ordered _ _ above
  rw [← outside]
  unfold outwards
  rw [chained]
  simp only [Option.map_some, Option.getD_some, List.find?_cons, kindThere]
  split
  · rename_i yes
    simp [yes]
  · rename_i no
    rw [parentChained]
    simp only [no, Bool.false_eq_true, if_false, List.getLastD_cons]

/-- The scope around a function is there. -/
theorem functionParent_lt (ordered : Ordered builder.shapes) {place : Nat}
    (inside : place < builder.scopes.length) :
    builder.functionParent place < builder.scopes.length := by
  have valid := builder.functionParent_valid place ⟨ordered, by simpa [shapes] using inside⟩
  simpa [shapes] using valid.inside

end Levels

end ScopeBuilder

end VirtTestTools.Policy
