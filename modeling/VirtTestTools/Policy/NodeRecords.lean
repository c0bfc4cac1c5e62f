import VirtTestTools.Policy.ModulePaths

/-!
# What visits leave alone

A visit records bindings at nodes of the tree that is visited and at no others. Every binding
that is active behind it, or was noted at an exit of a loop, has been made by then, so that
bindings made later on are told from it.
-/

namespace VirtTestTools.Policy

/-! ## Bindings that were made before -/

/-- The bindings that have been made in each scope. -/
def ScopeBuilder.ledger (builder : ScopeBuilder) (place : Nat) : Set Binding :=
  {binding | ∃ scope, builder.scopes[place]? = some scope ∧
    ∃ name, binding ∈ scope.bindings.find name}

/-- The active bindings of a scope are among those that were made in it. -/
def Older (made : Set Binding) (state : Bindings) : Prop :=
  ∀ name, ∀ binding ∈ state.find name, binding ∈ made

/-- The active bindings of each scope are among those that were made in it. -/
def AllOlder (made : Nat → Set Binding) (states : List Bindings) : Prop :=
  ∀ place state, states[place]? = some state → Older (made place) state

section

variable {made later : Nat → Set Binding} {states : List Bindings} {outputs more : List (List Bindings)}

/-- What has been made stays made. -/
theorem Older.mono {known more : Set Binding} {state : Bindings} (older : Older known state)
    (within : known ⊆ more) : Older more state := fun name binding inside =>
  within (older name binding inside)

/-- No bindings are active. -/
theorem older_empty (known : Set Binding) : Older known ∅ :=
  fun _ _ inside => absurd inside List.not_mem_nil

/-- So it is in each scope. -/
theorem AllOlder.mono (older : AllOlder made states) (within : made ≤ later) :
    AllOlder later states :=
  fun place state found => (older place state found).mono (within place)

/-- Appending what is new adds nothing else. -/
theorem mem_or_of_mem_appendNew {bindings new : List Binding} {binding : Binding}
    (inside : binding ∈ appendNew bindings new) : binding ∈ bindings ∨ binding ∈ new := by
  induction new generalizing bindings with
  | nil => exact .inl inside
  | cons first rest inductionHypothesis =>
    rw [appendNew, List.foldl_cons] at inside
    obtain old | made := inductionHypothesis inside
    · split at old
      · obtain old | here := List.mem_append.mp old
        · exact .inl old
        · exact .inr (List.mem_singleton.mp here ▸ List.mem_cons_self ..)
      · exact .inl old
    · exact .inr (List.mem_cons_of_mem _ made)

/-- Merged bindings come from one of the states. -/
theorem older_mergeStates {known : Set Binding} (older : ∀ state ∈ states, Older known state) :
    Older known (mergeStates states) := by
  intro name binding inside
  rw [find_mergeStates, List.foldl_map] at inside
  have all : ∀ binding ∈ states.foldl (fun bindings state => appendNew bindings (state.find name)) [],
      binding ∈ known := by
    refine List.foldlRecOn (motive := fun bindings : List Binding => ∀ binding ∈ bindings,
      binding ∈ known) _ _ (fun _ inside => absurd inside List.not_mem_nil)
      fun bindings held state stateInside other otherInside => ?_
    obtain old | new := mem_or_of_mem_appendNew otherInside
    · exact held other old
    · exact older state stateInside name other new
  exact all binding inside

/-- So it is for the states of all scopes. -/
theorem allOlder_mergedScopeStates (older : ∀ states ∈ outputs, AllOlder made states) :
    AllOlder made (mergedScopeStates outputs) := by
  intro place state found
  rw [mergedScopeStates, List.getElem?_map, Option.map_eq_some_iff] at found
  obtain ⟨index, foundIndex, rfl⟩ := found
  obtain ⟨inside, rfl⟩ := List.getElem?_eq_some_iff.mp foundIndex
  refine older_mergeStates fun merged mergedInside => ?_
  obtain ⟨output, outputInside, there⟩ := List.mem_filterMap.mp mergedInside
  rw [List.getElem_range] at there
  exact older output outputInside place merged there

end

/-! ## Steps -/

/-- The bindings that are active, and those that were noted at the exits of loops, have been
made in their scopes. Each binding has been made in one scope, and there are scopes. -/
structure Made (builder : ScopeBuilder) : Prop where
  active : AllOlder builder.ledger (builder.scopes.map Scope.activeBindings)
  noted : ∀ exits ∈ builder.loopExits, ∀ states ∈ exits.breakOutputs ++ exits.continueOutputs,
    AllOlder builder.ledger states
  keyed : ∀ place, ∀ binding ∈ builder.ledger place, binding.key < builder.nextKey
  apart : ∀ place other, ∀ binding ∈ builder.ledger place, ∀ same ∈ builder.ledger other,
    binding.key = same.key → place = other
  rooted : 0 < builder.scopes.length

/-- What is recorded at a point are bindings of the module scope, or bindings of other scopes. -/
def RecordedFrom (ofModule : Bool) (builder : ScopeBuilder) (point : Nat) : Prop :=
  ∀ binding ∈ (builder.nodeBindings.get point).getD [],
    ∃ place, decide (place = 0) = ofModule ∧ binding ∈ builder.ledger place

/-- From one builder to the next, bindings are recorded at some points only, and bindings of the
module scope at some of them, those of other scopes at some. -/
structure Keeps (seen : Bool → Set Nat) (builder next : ScopeBuilder) : Prop where
  made : Made next
  later : builder.ledger ≤ next.ledger
  record : ∀ point, (∀ ofModule, point ∉ seen ofModule) →
    next.nodeBindings.get point = builder.nodeBindings.get point
  origin : ∀ point ofModule, point ∉ seen (!ofModule) →
    RecordedFrom ofModule builder point → RecordedFrom ofModule next point

/-- All points, in whatever scope. -/
abbrev anywhere : Bool → Set Nat := fun _ => Set.univ

/-- All points but one, in whatever scope. -/
abbrev besides (point : Nat) : Bool → Set Nat := fun _ => {point}ᶜ

/-- The states that are saved of the first scopes. -/
theorem Made.states {builder : ScopeBuilder} (made : Made builder) (tracked : Nat) :
    AllOlder builder.ledger (builder.states tracked) := by
  intro place state found
  rw [ScopeBuilder.states, List.map_take, List.getElem?_take] at found
  split at found
  · exact made.active place state found
  · cases found

/-- Bindings stay recorded where they have been made. -/
theorem RecordedFrom.later {builder next : ScopeBuilder} {ofModule : Bool} {point : Nat}
    (recorded : RecordedFrom ofModule builder point) (later : builder.ledger ≤ next.ledger)
    (same : next.nodeBindings.get point = builder.nodeBindings.get point) :
    RecordedFrom ofModule next point := by
  intro binding inside
  obtain ⟨place, kind, made⟩ := recorded binding (same ▸ inside)
  exact ⟨place, kind, later place made⟩

/-- Before a module nothing has been made. -/
theorem made_emptyBuilder (moduleName : List String) (isPackage : Bool) :
    Made (emptyBuilder moduleName isPackage) := by
  have nothing (place : Nat) (binding : Binding) :
      binding ∉ (emptyBuilder moduleName isPackage).ledger place := by
    rintro ⟨scope, found, name, inside⟩
    obtain rfl := List.mem_singleton.mp (List.mem_of_getElem? found)
    cases inside
  refine ⟨fun place state found => ?_, nofun, fun place binding inside => absurd inside (nothing _ _),
    fun place other binding inside => absurd inside (nothing _ _), Nat.one_pos⟩
  obtain rfl := List.mem_singleton.mp (List.mem_of_getElem? found)
  exact older_empty _

section

variable {seen more : Bool → Set Nat} {builder middle next : ScopeBuilder} {place : Nat}
  {states : List Bindings} {outputs : List (List Bindings)}

/-- What has been made depends on the bindings of the scopes alone. -/
theorem ledger_congr (same : next.scopes.map Scope.bindings = builder.scopes.map Scope.bindings) :
    next.ledger = builder.ledger := by
  funext place
  ext binding
  have found := congrArg (·[place]?) same
  simp only [List.getElem?_map] at found
  simp only [ScopeBuilder.ledger, Set.mem_ofPred_eq]
  cases ours : next.scopes[place]? with
  | none =>
    rw [ours, Option.map_none, eq_comm, Option.map_eq_none_iff] at found
    simp [found]
  | some scope =>
    rw [ours, Option.map_some, eq_comm, Option.map_eq_some_iff] at found
    obtain ⟨other, theirs, same⟩ := found
    simp [theirs, same]

namespace Keeps

/-- Nothing happens. -/
theorem refl (made : Made builder) : Keeps seen builder builder :=
  ⟨made, le_refl _, fun _ _ => rfl, fun _ _ _ recorded => recorded⟩

/-- Steps in turn. -/
theorem trans (first : Keeps seen builder middle) (second : Keeps seen middle next) :
    Keeps seen builder next where
  made := second.made
  later := le_trans first.later second.later
  record point outside := (second.record point outside).trans (first.record point outside)
  origin point ofModule outside recorded :=
    second.origin point ofModule outside (first.origin point ofModule outside recorded)

/-- More points are allowed. -/
theorem mono (keeps : Keeps seen builder next) (within : seen ≤ more) : Keeps more builder next where
  made := keeps.made
  later := keeps.later
  record point outside := keeps.record point fun ofModule inside => outside ofModule (within _ inside)
  origin point ofModule outside := keeps.origin point ofModule fun inside => outside (within _ inside)

/-- A step that makes no bindings and records nothing. -/
theorem of_bindings (made : Made builder)
    (active : AllOlder builder.ledger (next.scopes.map Scope.activeBindings))
    (bindings : next.scopes.map Scope.bindings = builder.scopes.map Scope.bindings)
    (noted : ∀ exits ∈ next.loopExits, ∀ states ∈ exits.breakOutputs ++ exits.continueOutputs,
      AllOlder builder.ledger states)
    (key : next.nextKey = builder.nextKey) (record : next.nodeBindings = builder.nodeBindings) :
    Keeps seen builder next := by
  have same := ledger_congr bindings
  refine ⟨⟨?_, ?_, ?_, ?_, ?_⟩, same.ge, fun point _ => by rw [record], fun point ofModule _ recorded =>
    recorded.later same.ge (by rw [record])⟩
  · rwa [same]
  · rwa [same]
  · rw [same, key]
    exact made.keyed
  · rw [same]
    exact made.apart
  · have length := congrArg List.length bindings
    rw [List.length_map, List.length_map] at length
    exact length ▸ made.rooted

/-- Marking a node. -/
theorem markNode (made : Made builder) (place : Nat) (node : AST) :
    Keeps seen builder (builder.markNode place node) :=
  .of_bindings made made.active rfl made.noted rfl rfl

/-- Marking a tree. -/
theorem mark (made : Made builder) (place : Nat) (node : AST) :
    Keeps seen builder (builder.mark place node) := by
  obtain ⟨nodeScopes, same⟩ := Watch.mark_eq builder place node
  rw [same]
  exact .of_bindings made made.active rfl made.noted rfl rfl

/-- Marking a phase of a comprehension. -/
theorem markPhase (made : Made builder) (phase : Nat) (node : AST) :
    Keeps seen builder (builder.markPhase phase node) :=
  .of_bindings made made.active rfl made.noted rfl rfl

/-- A scope is changed. -/
theorem getElem?_modifyScope (change : Scope → Scope) {other : Nat} {scope : Scope}
    (found : (builder.modifyScope place change).scopes[other]? = some scope) :
    builder.scopes[other]? = some scope ∨
      place = other ∧ ∃ earlier, builder.scopes[other]? = some earlier ∧ scope = change earlier := by
  rw [ScopeBuilder.modifyScope, List.getElem?_modify, Option.map_eq_map, Option.map_eq_some_iff] at found
  obtain ⟨earlier, foundEarlier, same⟩ := found
  split at same
  · exact .inr ⟨‹_›, earlier, foundEarlier, same.symm⟩
  · exact .inl (same ▸ foundEarlier)

/-- A scope is changed, but not the bindings that were made in it. -/
theorem modifyScope (made : Made builder) (place : Nat) (change : Scope → Scope)
    (bindings : ∀ scope, (change scope).bindings = scope.bindings)
    (older : ∀ scope, builder.scopes[place]? = some scope →
      Older (builder.ledger place) (change scope).activeBindings) :
    Keeps seen builder (builder.modifyScope place change) := by
  refine .of_bindings made (fun other state found => ?_) ?_ made.noted rfl rfl
  · rw [List.getElem?_map, Option.map_eq_some_iff] at found
    obtain ⟨scope, found, rfl⟩ := found
    obtain same | ⟨rfl, earlier, foundEarlier, rfl⟩ := getElem?_modifyScope change found
    · exact made.active other _ (by rw [List.getElem?_map, same, Option.map_some])
    · exact older earlier foundEarlier
  · refine List.ext_getElem? fun other => ?_
    simp only [ScopeBuilder.modifyScope, List.getElem?_map, List.getElem?_modify, Option.map_eq_map,
      Option.map_map]
    congr 1
    funext scope
    simp only [Function.comp]
    split
    · exact bindings scope
    · rfl

/-- The active bindings of a scope have been made in it. -/
theorem older_active (made : Made builder) {scope : Scope} (found : builder.scopes[place]? = some scope) :
    Older (builder.ledger place) scope.activeBindings :=
  made.active place _ (by rw [List.getElem?_map, found, Option.map_some])

/-- `_visit_global` and `_visit_nonlocal`. -/
theorem declareNames (made : Made builder) (place : Nat) (node : AST) :
    Keeps seen builder (ScopeBuilder.declareNames place builder node) := by
  cases node with
  | globalStmt info names =>
    exact .modifyScope made place _ (fun _ => rfl) fun scope found =>
      (older_active made found : Older _ scope.activeBindings)
  | nonlocalStmt info names =>
    exact .modifyScope made place _ (fun _ => rfl) fun scope found =>
      (older_active made found : Older _ scope.activeBindings)
  | _ => exact .refl made

/-- The name of a handler is unbound behind it. -/
theorem unbind (made : Made builder) (place : Nat) (name : String) :
    Keeps seen builder (builder.unbind place name) := by
  refine .modifyScope made _ _ (fun _ => rfl) fun scope found other binding bound => ?_
  rw [Watch.find_unbound] at bound
  split at bound
  · cases bound
  · exact older_active made found other binding bound

/-- A binding that is made is added to one scope. -/
theorem mem_ledger_bind (name : String) (value : Option AST) (node : AST)
    (importedName : Option (List String)) (phase : Option Nat) (other : Nat) (binding : Binding)
    (inside : binding ∈ (builder.bind place name value node importedName phase).ledger other) :
    binding ∈ builder.ledger other ∨
      builder.bindingScope place name = other ∧
        binding = ⟨builder.nextKey, value, node, importedName, phase⟩ := by
  obtain ⟨scope, found, bound, listed⟩ := inside
  obtain same | ⟨here, earlier, foundEarlier, rfl⟩ := getElem?_modifyScope _ found
  · exact .inl ⟨scope, same, bound, listed⟩
  · simp only [Bindings.find_set] at listed
    split at listed
    · obtain old | new := List.mem_append.mp listed
      · exact .inl ⟨earlier, foundEarlier, _, old⟩
      · exact .inr ⟨here, List.mem_singleton.mp new⟩
    · exact .inl ⟨earlier, foundEarlier, _, listed⟩

/-- A binding that is made takes none away. -/
theorem ledger_le_bind (name : String) (value : Option AST) (node : AST)
    (importedName : Option (List String)) (phase : Option Nat) :
    builder.ledger ≤ (builder.bind place name value node importedName phase).ledger := by
  rintro other binding ⟨scope, found, bound, listed⟩
  have modified : (builder.bind place name value node importedName phase).scopes[other]? =
      some (if builder.bindingScope place name = other then { scope with
        bindings := scope.bindings.set name (scope.bindings.find name ++
          [⟨builder.nextKey, value, node, importedName, phase⟩])
        activeBindings := scope.activeBindings.set name
          [⟨builder.nextKey, value, node, importedName, phase⟩]
        localNames := scope.localNames ++ [name] } else scope) := by
    simp only [ScopeBuilder.bind, ScopeBuilder.modifyScope, List.getElem?_modify, found, Option.map_eq_map,
      Option.map_some]
  refine ⟨_, modified, bound, ?_⟩
  split
  · simp only [Bindings.find_set]
    split
    · rename_i same
      exact List.mem_append_left _ (same ▸ listed)
    · exact listed
  · exact listed

/-- A new binding has a key of its own, so it is in one scope and told from all others. -/
theorem bind (made : Made builder) (place : Nat) (name : String) (value : Option AST) (node : AST)
    (importedName : Option (List String)) (phase : Option Nat) :
    Keeps seen builder (builder.bind place name value node importedName phase) := by
  have added : builder.ledger ≤ (builder.bind place name value node importedName phase).ledger :=
    ledger_le_bind name value node importedName phase
  have members := @mem_ledger_bind builder place name value node importedName phase
  have fresh (other : Nat) (binding : Binding) (inside : binding ∈ builder.ledger other) :
      binding.key ≠ builder.nextKey := (made.keyed other binding inside).ne
  refine ⟨⟨fun other state found => ?_, fun exits inside states listed =>
    (made.noted exits inside states listed).mono added, fun other binding inside => ?_,
    fun first second binding inside same insideToo alike => ?_, ?_⟩, added, fun _ _ => rfl,
    fun point ofModule _ recorded => recorded.later added rfl⟩
  · rw [List.getElem?_map, Option.map_eq_some_iff] at found
    obtain ⟨scope, found, rfl⟩ := found
    obtain same | ⟨here, earlier, foundEarlier, rfl⟩ := getElem?_modifyScope _ found
    · exact (older_active made same).mono (added other)
    · intro bound binding listed
      simp only [Bindings.find_set] at listed
      split at listed
      · refine ⟨_, found, name, ?_⟩
        rw [List.mem_singleton.mp listed]
        simp [Bindings.find_set]
      · exact added other (older_active made foundEarlier bound binding listed)
  · obtain old | ⟨-, rfl⟩ := members other binding inside
    · exact Nat.lt_succ_of_lt (made.keyed other binding old)
    · exact Nat.lt_succ_self _
  · obtain old | ⟨here, rfl⟩ := members first binding inside
    · obtain oldToo | ⟨-, rfl⟩ := members second same insideToo
      · exact made.apart first second binding old same oldToo alike
      · exact absurd alike (fresh first binding old)
    · obtain oldToo | ⟨there, -⟩ := members second same insideToo
      · exact absurd alike.symm (fresh second same oldToo)
      · exact here.symm.trans there
  · simpa [ScopeBuilder.bind, ScopeBuilder.modifyScope] using made.rooted

/-- An element of a list with one more element at the end. -/
theorem getElem?_snoc {α : Type} {elements : List α} {last element : α}
    (found : (elements ++ [last])[place]? = some element) :
    elements[place]? = some element ∨ element = last := by
  obtain before | behind := Nat.lt_or_ge place elements.length
  · exact .inl (List.getElem?_append_left before ▸ found)
  · rw [List.getElem?_append_right behind] at found
    exact .inr (List.mem_singleton.mp (List.mem_of_getElem? found))

/-- A scope that is opened is empty. -/
theorem pushScope (made : Made builder) (parent : Nat) (kind : ScopeKind) :
    Keeps seen builder (builder.pushScope parent kind) := by
  have same : (builder.pushScope parent kind).ledger = builder.ledger := by
    funext place
    ext binding
    simp only [ScopeBuilder.ledger, ScopeBuilder.pushScope, Set.mem_ofPred_eq]
    constructor
    · rintro ⟨scope, found, name, listed⟩
      obtain earlier | rfl := getElem?_snoc found
      · exact ⟨scope, earlier, name, listed⟩
      · cases listed
    · rintro ⟨scope, found, listed⟩
      exact ⟨scope, List.getElem?_append_left (List.getElem?_eq_some_iff.mp found).1 ▸ found, listed⟩
  refine ⟨⟨fun place state found => ?_, ?_, ?_, ?_, ?_⟩, same.ge, fun _ _ => rfl,
    fun point ofModule _ recorded => recorded.later same.ge rfl⟩
  · rw [same]
    rw [ScopeBuilder.pushScope, List.map_append] at found
    obtain earlier | rfl := getElem?_snoc found
    · exact made.active place state earlier
    · exact older_empty _
  · rw [same]
    exact made.noted
  · rw [same]
    exact made.keyed
  · rw [same]
    exact made.apart
  · simp [ScopeBuilder.pushScope]

/-- What is recorded at a name is active in the scope of the visit. -/
theorem recordName (made : Made builder) (place : Nat) {node : AST} (name : String)
    (inside : node.id ∈ seen (decide (place = 0))) :
    Keeps seen builder (builder.recordName place node name) := by
  refine ⟨⟨made.active, made.noted, made.keyed, made.apart, made.rooted⟩, le_refl _,
    fun point outside => ?_, fun point ofModule outside recorded => ?_⟩
  · have elsewhere : point ≠ node.id := fun same => outside _ (same ▸ inside)
    rw [ScopeBuilder.recordName, Dict.get_set, if_neg elsewhere]
  · by_cases same : point = node.id
    · intro binding listed
      rw [ScopeBuilder.recordName, Dict.get_set, if_pos same, Option.getD_some] at listed
      cases found : builder.scopes[place]? with
      | none => simp [found] at listed
      | some scope =>
        rw [found, Option.map_some, Option.getD_some] at listed
        refine ⟨place, ?_, older_active made found name binding listed⟩
        by_contra other
        rw [← ne_eq, ← Bool.eq_not] at other
        exact outside (same ▸ other ▸ inside)
    · refine recorded.later (le_refl _) ?_
      rw [ScopeBuilder.recordName, Dict.get_set, if_neg same]

/-- What is active after restoring was active in a state or before. -/
theorem getElem?_restoreScopes {scopes : List Scope} {states : List Bindings} {state : Bindings}
    (found : ((ScopeBuilder.restoreScopes scopes states).map Scope.activeBindings)[place]? = some state) :
    states[place]? = some state ∨ (scopes.map Scope.activeBindings)[place]? = some state := by
  induction scopes generalizing states place with
  | nil => cases states <;> exact .inr found
  | cons scope scopes inductionHypothesis =>
    cases states with
    | nil => exact .inr found
    | cons first rest =>
      cases place with
      | zero => exact .inl found
      | succ place => exact inductionHypothesis found

/-- Restoring states does not touch the bindings that were made. -/
theorem bindings_restoreScopes (scopes : List Scope) (states : List Bindings) :
    (ScopeBuilder.restoreScopes scopes states).map Scope.bindings = scopes.map Scope.bindings := by
  induction scopes generalizing states with
  | nil => cases states <;> rfl
  | cons scope scopes inductionHypothesis =>
    cases states with
    | nil => rfl
    | cons first rest =>
      rw [ScopeBuilder.restoreScopes, List.map_cons, List.map_cons, inductionHypothesis]

/-- Bindings that have been made are restored. -/
theorem restoreStates (made : Made builder) (older : AllOlder builder.ledger states) :
    Keeps seen builder (builder.restoreStates states) :=
  .of_bindings made
    (fun place state found => (getElem?_restoreScopes found).elim (older place state)
      (made.active place state))
    (bindings_restoreScopes builder.scopes states) made.noted rfl rfl

/-- Branches are joined. -/
theorem joinOutputs (made : Made builder) (incoming : AllOlder builder.ledger states)
    (older : ∀ states ∈ outputs, AllOlder builder.ledger states) :
    Keeps seen builder (builder.joinOutputs states outputs) := by
  refine .restoreStates made ?_
  split
  · exact incoming
  · exact allOlder_mergedScopeStates older

/-- A loop is entered with no exits noted. -/
theorem enterLoop (made : Made builder) : Keeps seen builder builder.enterLoop := by
  refine .of_bindings made made.active rfl (fun exits inside => ?_) rfl rfl
  obtain rfl | outer := List.mem_cons.mp inside
  · exact fun states listed => absurd listed List.not_mem_nil
  · exact made.noted exits outer

/-- The innermost loop notes bindings that have been made. -/
theorem noteExit (made : Made builder) {note : List Bindings → LoopExits → LoopExits}
    (noted : ∀ states exits, ∀ listed ∈ (note states exits).breakOutputs ++
      (note states exits).continueOutputs, listed = states ∨
        listed ∈ exits.breakOutputs ++ exits.continueOutputs) :
    Keeps seen builder (builder.noteExit note) := by
  unfold ScopeBuilder.noteExit
  cases same : builder.loopExits with
  | nil => exact .refl made
  | cons exits outer =>
    refine .of_bindings made made.active rfl (fun other inside states listed => ?_) rfl rfl
    obtain rfl | behind := List.mem_cons.mp inside
    · obtain rfl | earlier := noted _ _ states listed
      · exact made.states _
      · exact made.noted exits (same ▸ List.mem_cons_self ..) states earlier
    · exact made.noted other (same ▸ List.mem_cons_of_mem _ behind) states listed

end Keeps

/-- The state behind a branch that falls through. -/
theorem Made.branchOutput (made : Made builder) (tracked : Nat) (branch : List AST) :
    ∀ states ∈ builder.branchOutput tracked branch, AllOlder builder.ledger states := by
  intro states inside
  unfold ScopeBuilder.branchOutput at inside
  split at inside
  · rw [List.mem_singleton.mp inside]
    exact made.states tracked
  · cases inside

/-- Behind the body of a loop. -/
theorem Made.leaveLoop (made : Made builder) (seen : Bool → Set Nat) (tracked : Nat)
    (incoming : AllOlder builder.ledger states) (body : List AST) :
    Keeps seen builder (builder.leaveLoop tracked states body).1 ∧
      ∀ states ∈ (builder.leaveLoop tracked states body).2, AllOlder builder.ledger states := by
  set exits := builder.loopExits.head?.getD { trackedScopes := tracked } with innermost
  have noted : ∀ states ∈ exits.breakOutputs ++ exits.continueOutputs,
      AllOlder builder.ledger states := by
    intro states inside
    cases same : builder.loopExits with
    | nil =>
      rw [innermost, same] at inside
      cases inside
    | cons head outer =>
      rw [innermost, same] at inside
      exact made.noted head (same ▸ List.mem_cons_self ..) states inside
  have outside : Keeps seen builder { builder with loopExits := builder.loopExits.tail } :=
    .of_bindings made made.active rfl
      (fun exits inside => made.noted exits (List.mem_of_mem_tail inside)) rfl rfl
  have left := outside.made
  refine ⟨outside.trans (.restoreStates left (allOlder_mergedScopeStates ?_)), fun states inside =>
    noted states (List.mem_append_left _ inside)⟩
  intro states inside
  obtain rfl | inside := List.mem_cons.mp inside
  · exact incoming
  · obtain continued | fallen := List.mem_append.mp inside
    · exact noted states (List.mem_append_right _ continued)
    · exact left.branchOutput tracked body states fallen

/-! ## Visits of parts -/

/-- A fold of steps. -/
theorem keeps_foldl {α : Type} {step : ScopeBuilder → α → ScopeBuilder}
    (each : ∀ builder element, Made builder → Keeps seen builder (step builder element))
    (elements : List α) (made : Made builder) :
    Keeps seen builder (elements.foldl step builder) := by
  induction elements generalizing builder with
  | nil => exact .refl made
  | cons element rest inductionHypothesis =>
    have first := each builder element made
    exact first.trans (inductionHypothesis first.made)

/-- One name of an import. -/
theorem keeps_bindImport (made : Made builder) (place : Nat) (node : AST) (imported : Alias) :
    Keeps seen builder (ScopeBuilder.bindImport place node builder imported) := by
  unfold ScopeBuilder.bindImport
  cases imported.asname <;> exact .bind made ..

/-- One name of an import from a module, or what the star brings in. -/
theorem keeps_bindImportFrom (made : Made builder) (place : Nat) (node : AST) (level : Nat)
    (opening : List String) (imported : Alias) :
    Keeps seen builder (ScopeBuilder.bindImportFrom place node level opening builder imported) := by
  unfold ScopeBuilder.bindImportFrom
  split
  · split
    · exact keeps_foldl (fun _ _ known => .bind known ..) _ made
    · exact .refl made
  · exact .bind made ..

/-- `_visit_arguments`. -/
theorem keeps_visitArguments (made : Made builder) (place : Nat) (arguments : AST) :
    Keeps seen builder (ScopeBuilder.visitArguments place arguments builder) := by
  refine keeps_foldl (fun current argument known => ?_) _ made
  cases argument with
  | arg info name annot =>
    have bound : Keeps seen current (current.bind place name none (.arg info name annot)) := .bind known ..
    exact bound.trans (.markNode bound.made place _)
  | _ => exact .refl known

mutual

/-- `_bind_targets`. -/
theorem keeps_bindTargets (place : Nat) (node : AST) (phase : Option Nat) :
    ∀ (target : AST) (value : Option AST) (builder : ScopeBuilder), Made builder →
      Keeps seen builder (ScopeBuilder.bindTargets place node phase target value builder)
  | target, value, builder, made => by
    cases target with
    | name info id ctx =>
      simp only [ScopeBuilder.bindTargets]
      exact .bind made ..
    | starred info inner =>
      simp only [ScopeBuilder.bindTargets]
      exact keeps_bindTargets place node phase inner none builder made
    | tuple info elts =>
      simp only [ScopeBuilder.bindTargets]
      exact keeps_bindElements place node phase elts _ builder made
    | list info elts =>
      simp only [ScopeBuilder.bindTargets]
      exact keeps_bindElements place node phase elts _ builder made
    | _ =>
      simp only [ScopeBuilder.bindTargets]
      exact .refl made

/-- The elements of a target with the values they get. -/
theorem keeps_bindElements (place : Nat) (node : AST) (phase : Option Nat) :
    ∀ (targets values : List AST) (builder : ScopeBuilder), Made builder →
      Keeps seen builder (ScopeBuilder.bindElements place node phase targets values builder)
  | [], values, builder, made => by
    simp only [ScopeBuilder.bindElements]
    exact .refl made
  | target :: targets, [], builder, made => by
    simp only [ScopeBuilder.bindElements]
    have first := keeps_bindTargets place node phase target none builder made
    exact first.trans (keeps_bindElements place node phase targets [] _ first.made)
  | target :: targets, value :: values, builder, made => by
    simp only [ScopeBuilder.bindElements]
    have first := keeps_bindTargets place node phase target (some value) builder made
    exact first.trans (keeps_bindElements place node phase targets values _ first.made)

end

/-- The target of an assignment is bound and marked. -/
theorem keeps_bindAssigned (made : Made builder) (place : Nat) (node : AST) (value : Option AST)
    (target : AST) :
    Keeps seen builder (ScopeBuilder.bindAssigned place node value builder target) := by
  have bound : Keeps seen builder (ScopeBuilder.bindTargets place node none target value builder) :=
    keeps_bindTargets place node none target value builder made
  exact bound.trans (.mark bound.made place target)

/-- When the node is visited in a scope, bindings are recorded at some points only. -/
def Visited (seen : Bool → Set Nat) (place : Nat) (node : AST) : Prop :=
  ∀ builder, Made builder → Keeps seen builder (ScopeBuilder.visit node place builder)

/-- Nodes in turn. -/
theorem keeps_visitAll (place : Nat) {nodes : List AST} (each : ∀ node ∈ nodes, Visited seen place node)
    (made : Made builder) : Keeps seen builder (ScopeBuilder.visitAll nodes place builder) := by
  induction nodes generalizing builder with
  | nil => exact .refl made
  | cons node rest inductionHypothesis =>
    obtain ⟨here, others⟩ := List.forall_mem_cons.mp each
    have first := here builder made
    exact first.trans (inductionHypothesis others first.made)

/-- The conditions of a generator, each with its phase. -/
theorem keeps_visitConditions (place : Nat) {conditions : List AST}
    (each : ∀ node ∈ conditions, Visited seen place node) (phase : Nat) (made : Made builder) :
    Keeps seen builder (ScopeBuilder.visitConditions conditions place phase builder) := by
  induction conditions generalizing builder with
  | nil => exact .refl made
  | cons condition rest inductionHypothesis =>
    obtain ⟨here, others⟩ := List.forall_mem_cons.mp each
    have first := here builder made
    have marked := first.trans (.markPhase first.made phase condition)
    exact marked.trans (inductionHypothesis others marked.made)

/-- The first iterable is visited around the comprehension, all other parts in its scope. -/
theorem keeps_visitGenerators (place : Nat) {generators : List AST} (index inner : Nat)
    (outer : index = 0 → ∀ node ∈ outerParts generators, Visited seen place node)
    (each : ∀ node ∈ if index = 0 then innerParts generators
      else generators.flatMap (generatorParts false), Visited seen inner node)
    (made : Made builder) :
    Keeps seen builder (ScopeBuilder.visitGenerators generators index place inner builder) := by
  induction generators generalizing index builder with
  | nil => exact .refl made
  | cons generator rest inductionHypothesis =>
    have parted : (∀ node ∈ generatorParts (index = 0) generator, Visited seen inner node) ∧
        ∀ node ∈ rest.flatMap (generatorParts false), Visited seen inner node := by
      rw [← List.forall_mem_append]
      by_cases first : index = 0
      · simpa [first, innerParts] using each
      · simpa [first] using each
    have here : Keeps seen builder
        (ScopeBuilder.visitGenerator generator index place inner builder) := by
      cases generator with
      | comprehension info isAsync target iter ifs =>
        have iterVisited : Visited seen (if index = 0 then place else inner) iter := by
          split
          · exact outer ‹_› iter (List.mem_singleton_self _)
          · exact parted.1 iter (by simp [generatorParts, *])
        have ifsVisited (condition : AST) (inside : condition ∈ ifs) : Visited seen inner condition :=
          parted.1 condition (by simp only [generatorParts]; split <;> simp [inside])
        simp only [ScopeBuilder.visitGenerator]
        have iterated := iterVisited builder made
        have phased := iterated.trans (.markPhase iterated.made index iter)
        have bound := phased.trans
          (keeps_bindTargets inner target (some (index + 1)) target none _ phased.made)
        have marked := bound.trans (.mark bound.made inner target)
        exact marked.trans (keeps_visitConditions inner ifsVisited (index + 1) marked.made)
      | _ =>
        simp only [ScopeBuilder.visitGenerator]
        exact .refl made
    refine here.trans (inductionHypothesis (index + 1)
      (fun first => absurd first (Nat.succ_ne_zero index)) ?_ here.made)
    simpa using parted.2

/-- The statements of a `try` body or of a handler, with the bindings behind each. -/
theorem keeps_visitBody (place : Nat) {statements : List AST}
    (each : ∀ node ∈ statements, Visited seen place node) (tracked : Nat) (made : Made builder) :
    let visited := ScopeBuilder.visitBody statements place tracked builder
    Keeps seen builder visited.1 ∧ ∀ states ∈ visited.2.1, AllOlder visited.1.ledger states := by
  induction statements generalizing builder with
  | nil => exact ⟨.refl made, nofun⟩
  | cons statement rest inductionHypothesis =>
    obtain ⟨here, others⟩ := List.forall_mem_cons.mp each
    have first := here builder made
    simp only [ScopeBuilder.visitBody]
    split
    · obtain ⟨behind, older⟩ := inductionHypothesis others first.made
      refine ⟨first.trans behind, List.forall_mem_cons.mpr ⟨?_, older⟩⟩
      exact (first.made.states tracked).mono behind.later
    · exact ⟨first, List.forall_mem_singleton.mpr (first.made.states tracked)⟩

/-- A handler: its type, its name, and its body as far as it is completed. -/
theorem keeps_visitHandler (place : Nat) {handler : AST}
    (each : ∀ node ∈ handlerParts handler, Visited seen place node) (tracked : Nat) (made : Made builder) :
    Keeps seen builder (ScopeBuilder.visitHandler handler place tracked builder).1 := by
  cases handler with
  | exceptHandler info type name body =>
    obtain ⟨typeVisited, bodyVisited⟩ := List.forall_mem_append.mp each
    have marked : Keeps seen builder (builder.markNode place (.exceptHandler info type name body)) :=
      .markNode made place _
    have typed := marked.trans (keeps_visitAll place typeVisited marked.made)
    rw [← Watch.visitOpt_eq] at typed
    cases name with
    | none =>
      simp only [ScopeBuilder.visitHandler]
      exact typed.trans (keeps_visitBody place bodyVisited tracked typed.made).1
    | some name =>
      simp only [ScopeBuilder.visitHandler]
      have bound := typed.trans (.bind typed.made place name none
        (.exceptHandler info type (some name) body) none none)
      have visited := bound.trans (keeps_visitBody place bodyVisited tracked bound.made).1
      exact visited.trans (.unbind visited.made place name)
  | _ =>
    simp only [ScopeBuilder.visitHandler]
    exact .refl made

/-- The handlers, each from the same states. -/
theorem keeps_visitHandlers (place : Nat) {handlers : List AST}
    (each : ∀ node ∈ handlers.flatMap handlerParts, Visited seen place node) (tracked : Nat)
    {entry : List Bindings} (made : Made builder) (entered : AllOlder builder.ledger entry) :
    let visited := ScopeBuilder.visitHandlers handlers place tracked entry builder
    Keeps seen builder visited.1 ∧
      ∀ states ∈ visited.2.1 ++ visited.2.2, AllOlder visited.1.ledger states := by
  induction handlers generalizing builder with
  | nil => exact ⟨.refl made, nofun⟩
  | cons handler rest inductionHypothesis =>
    rw [List.flatMap_cons, List.forall_mem_append] at each
    obtain ⟨here, others⟩ := each
    have restored : Keeps seen builder (builder.restoreStates entry) := .restoreStates made entered
    have first := restored.trans (keeps_visitHandler place here tracked restored.made)
    obtain ⟨behind, older⟩ := inductionHypothesis others first.made (entered.mono first.later)
    have own := (first.made.states tracked).mono behind.later
    simp only [ScopeBuilder.visitHandlers]
    split
    · exact ⟨first.trans behind, List.forall_mem_cons.mpr ⟨own, older⟩⟩
    · refine ⟨first.trans behind, fun states inside => ?_⟩
      obtain inside | inside := List.mem_append.mp inside
      · exact older states (List.mem_append_left _ inside)
      · obtain rfl | inside := List.mem_cons.mp inside
        · exact own
        · exact older states (List.mem_append_right _ inside)

/-- The bodies of the cases, each from the same states. -/
theorem keeps_visitCases (place : Nat) {cases : List AST}
    (each : ∀ node ∈ cases.flatMap bodyParts, Visited seen place node) (tracked : Nat)
    {incoming : List Bindings} (made : Made builder) (older : AllOlder builder.ledger incoming) :
    let visited := ScopeBuilder.visitCases cases place tracked incoming builder
    Keeps seen builder visited.1 ∧ ∀ states ∈ visited.2, AllOlder visited.1.ledger states := by
  induction cases generalizing builder with
  | nil => exact ⟨.refl made, nofun⟩
  | cons case rest inductionHypothesis =>
    rw [List.flatMap_cons, List.forall_mem_append] at each
    obtain ⟨here, others⟩ := each
    have restored : Keeps seen builder (builder.restoreStates incoming) := .restoreStates made older
    obtain ⟨visited, output⟩ : Keeps seen (builder.restoreStates incoming)
          (ScopeBuilder.visitCase case place tracked (builder.restoreStates incoming)).1 ∧
        ∀ states ∈ (ScopeBuilder.visitCase case place tracked (builder.restoreStates incoming)).2,
          AllOlder (ScopeBuilder.visitCase case place tracked (builder.restoreStates incoming)).1.ledger
            states := by
      cases case with
      | matchCase info pattern guard body =>
        simp only [ScopeBuilder.visitCase]
        have bodied : Keeps seen (builder.restoreStates incoming)
            (ScopeBuilder.visitAll body place (builder.restoreStates incoming)) :=
          keeps_visitAll place here restored.made
        exact ⟨bodied, bodied.made.branchOutput tracked body⟩
      | _ =>
        simp only [ScopeBuilder.visitCase]
        exact ⟨.refl restored.made, nofun⟩
    have first := restored.trans visited
    obtain ⟨behind, olderBehind⟩ := inductionHypothesis others first.made (older.mono first.later)
    refine ⟨first.trans behind, fun states inside => ?_⟩
    obtain own | later := List.mem_append.mp inside
    · exact (output states own).mono behind.later
    · exact olderBehind states later

/-! ## Visits of nodes -/

/-- A node without a visitor of its own. -/
theorem keeps_generic {node : AST}
    (visits : ScopeBuilder.visit node place builder =
      ScopeBuilder.visitAll node.children place (builder.markNode place node))
    (each : ∀ part ∈ node.children, Visited seen place part) (made : Made builder) :
    Keeps seen builder (ScopeBuilder.visit node place builder) := by
  have marked : Keeps seen builder (builder.markNode place node) := .markNode made place node
  rw [visits]
  exact marked.trans (keeps_visitAll place each marked.made)

/-- Branches are joined behind the last one. -/
theorem keeps_joinBranch {branch : List AST} {incoming : List Bindings} (tracked : Nat)
    (made : Made builder) (older : AllOlder builder.ledger incoming)
    (olderOutputs : ∀ states ∈ outputs, AllOlder builder.ledger states) :
    Keeps seen builder
      (builder.joinOutputs incoming (outputs ++ builder.branchOutput tracked branch)) := by
  refine .joinOutputs made older (List.forall_mem_append.mpr ⟨olderOutputs, ?_⟩)
  exact made.branchOutput tracked branch

/-- What comes behind the body of an `if` statement. -/
theorem keeps_otherwise {body orelse : List AST} {incoming : List Bindings} {tracked : Nat}
    (each : ∀ statement ∈ orelse, Visited seen place statement) (made : Made builder)
    (older : AllOlder builder.ledger incoming) :
    let output := builder.branchOutput tracked body
    let other := ScopeBuilder.visitAll orelse place (builder.restoreStates incoming)
    Keeps seen builder (if orelse.isEmpty then builder.joinOutputs incoming (incoming :: output)
      else other.joinOutputs incoming (output ++ other.branchOutput tracked orelse)) := by
  intro output other
  have outputs := made.branchOutput tracked body
  split
  · exact .joinOutputs made older (List.forall_mem_cons.mpr ⟨older, outputs⟩)
  · have restored : Keeps seen builder (builder.restoreStates incoming) := .restoreStates made older
    have otherwise := restored.trans (keeps_visitAll place each restored.made)
    exact otherwise.trans (keeps_joinBranch tracked otherwise.made (older.mono otherwise.later)
      fun states inside => (outputs states inside).mono otherwise.later)

/-- What comes behind the body of a loop. -/
theorem keeps_loopLeft {body orelse : List AST} {incoming : List Bindings} {tracked : Nat}
    (each : ∀ statement ∈ orelse, Visited seen place statement) (made : Made builder)
    (older : AllOlder builder.ledger incoming) :
    let left := builder.leaveLoop tracked incoming body
    let other := ScopeBuilder.visitAll orelse place left.1
    Keeps seen builder
      (other.joinOutputs incoming (left.2 ++ other.branchOutput tracked orelse)) := by
  intro left other
  obtain ⟨behind, breaks⟩ := made.leaveLoop seen tracked older body
  have otherwise := behind.trans (keeps_visitAll place each behind.made)
  exact otherwise.trans (keeps_joinBranch tracked otherwise.made (older.mono otherwise.later)
    fun states inside => (breaks states inside).mono otherwise.later)

/-- The body of a function may be run or not. -/
theorem Keeps.called (first : Keeps seen builder middle) (second : Keeps seen middle next)
    (inner : Nat) :
    Keeps seen builder (next.restoreStates
      (List.zipWith (fun before after => mergeStates [before, after]) (middle.states inner)
        (next.states inner))) := by
  refine (first.trans second).trans (.restoreStates second.made fun place state found => ?_)
  obtain ⟨before, after, beforeFound, afterFound, rfl⟩ := List.getElem?_zipWith_eq_some.mp found
  refine older_mergeStates (List.forall_mem_cons.mpr ⟨?_, List.forall_mem_singleton.mpr ?_⟩)
  · exact (first.made.states inner place _ beforeFound).mono (second.later place)
  · exact second.made.states inner place _ afterFound

/-- `_visit_function_body`, behind the header. -/
theorem keeps_functionBody {body : List AST}
    (each : ∀ inner ≠ 0, ∀ statement ∈ body, Visited seen inner statement) (args : AST) (place : Nat)
    (made : Made builder) :
    let inner := builder.scopes.length
    let started := ScopeBuilder.visitArguments inner args
      ((scopeStatements body).foldl (ScopeBuilder.declareNames inner)
        (builder.pushScope (builder.functionParent place) .function))
    Keeps seen builder ((ScopeBuilder.visitAll body inner started).restoreStates
      (List.zipWith (fun before after => mergeStates [before, after]) (started.states inner)
        ((ScopeBuilder.visitAll body inner started).states inner))) := by
  intro inner started
  have pushed : Keeps seen builder (builder.pushScope (builder.functionParent place) .function) :=
    .pushScope made _ _
  have declared := pushed.trans (keeps_foldl
    (fun current statement known => .declareNames known inner statement) (scopeStatements body)
    pushed.made)
  have begun := declared.trans (keeps_visitArguments declared.made inner args)
  exact begun.called (keeps_visitAll inner (each inner made.rooted.ne') begun.made) inner

/-- The `finally` block, which is visited twice if control goes on behind it. -/
theorem keeps_finally {finalbody : List AST} {incoming : List Bindings}
    {continuing inputs : List (List Bindings)}
    (each : ∀ statement ∈ finalbody, Visited seen place statement) (made : Made builder)
    (older : AllOlder builder.ledger incoming)
    (olderContinuing : ∀ states ∈ continuing, AllOlder builder.ledger states)
    (olderInputs : ∀ states ∈ inputs, AllOlder builder.ledger states) :
    let first := ScopeBuilder.visitAll finalbody place
      (builder.restoreStates (mergedScopeStates inputs))
    let second := ScopeBuilder.visitAll finalbody place
      (first.restoreStates (mergedScopeStates continuing))
    Keeps seen builder (if finalbody.isEmpty then builder.joinOutputs incoming continuing
      else if continuing.isEmpty then first
      else { second with nodeBindings := second.nodeBindings.update (first.bindingsBelow finalbody) }) := by
  intro first second
  split
  · exact .joinOutputs made older olderContinuing
  · have merged : Keeps seen builder (builder.restoreStates (mergedScopeStates inputs)) :=
      .restoreStates made (allOlder_mergedScopeStates olderInputs)
    have once : Keeps seen builder first := merged.trans (keeps_visitAll place each merged.made)
    split
    · exact once
    · have restart : Keeps seen first (first.restoreStates (mergedScopeStates continuing)) :=
        .restoreStates once.made ((allOlder_mergedScopeStates olderContinuing).mono once.later)
      have again : Keeps seen first second := restart.trans (keeps_visitAll place each restart.made)
      have twice := once.trans again
      have found := Watch.get_bindingsBelow first finalbody second.nodeBindings
      refine ⟨⟨twice.made.active, twice.made.noted, twice.made.keyed, twice.made.apart,
        twice.made.rooted⟩, twice.later, fun point outside => ?_,
        fun point ofModule outside recorded => ?_⟩
      · refine (found point).trans ?_
        rw [once.record point outside, twice.record point outside]
        split
        · cases builder.nodeBindings.get point <;> rfl
        · rfl
      · -- what is kept was recorded by either visit
        have firstly := once.origin point ofModule outside recorded
        have secondly := twice.origin point ofModule outside recorded
        intro binding inside
        have kept : binding ∈ (first.nodeBindings.get point).getD [] ∨
            binding ∈ (second.nodeBindings.get point).getD [] := by
          rw [found point] at inside
          split at inside
          · cases same : first.nodeBindings.get point with
            | none => exact .inr (by simpa [same] using inside)
            | some bindings => exact .inl (by simpa [same] using inside)
          · exact .inr inside
        obtain early | late := kept
        · obtain ⟨made, kind, member⟩ := firstly binding early
          exact ⟨made, kind, again.later made member⟩
        · exact secondly binding late

/-- What a `finally` block is entered with, when the parts before it are left with bindings that have
been made. -/
theorem allOlder_inputs {made : Nat → Set Binding}
    {normal handled abrupt exceptional : List (List Bindings)}
    (olderNormal : ∀ states ∈ normal, AllOlder made states)
    (left : ∀ states ∈ handled ++ abrupt, AllOlder made states)
    (raised : ∀ states ∈ exceptional, AllOlder made states) (unhandled : Bool) :
    (∀ states ∈ normal ++ handled, AllOlder made states) ∧
      ∀ states ∈ normal ++ handled ++ abrupt ++ (if unhandled then exceptional else []),
        AllOlder made states := by
  rw [List.forall_mem_append] at left
  have continuing := List.forall_mem_append.mpr ⟨olderNormal, left.1⟩
  refine ⟨continuing, List.forall_mem_append.mpr
    ⟨List.forall_mem_append.mpr ⟨continuing, left.2⟩, fun states inside => ?_⟩⟩
  split at inside
  · exact raised states inside
  · cases inside

/-- The handlers and the `finally` block. -/
theorem keeps_handled {handlers finalbody : List AST} {incoming : List Bindings}
    {normal exceptional : List (List Bindings)}
    (eachHandler : ∀ node ∈ handlers.flatMap handlerParts, Visited seen place node)
    (eachFinal : ∀ statement ∈ finalbody, Visited seen place statement) (tracked : Nat)
    (made : Made builder) (older : AllOlder builder.ledger incoming)
    (olderNormal : ∀ states ∈ normal, AllOlder builder.ledger states)
    (raised : ∀ states ∈ exceptional, AllOlder builder.ledger states) :
    let caught := ScopeBuilder.visitHandlers handlers place tracked (mergedScopeStates exceptional)
      builder
    let continuing := normal ++ caught.2.1
    let first := ScopeBuilder.visitAll finalbody place (caught.1.restoreStates (mergedScopeStates
      (continuing ++ caught.2.2 ++ if handlers.isEmpty then exceptional else [])))
    let second := ScopeBuilder.visitAll finalbody place
      (first.restoreStates (mergedScopeStates continuing))
    Keeps seen builder (if finalbody.isEmpty then caught.1.joinOutputs incoming continuing
      else if continuing.isEmpty then first
      else { second with nodeBindings := second.nodeBindings.update (first.bindingsBelow finalbody) }) := by
  intro caught continuing first second
  obtain ⟨handled, left⟩ := keeps_visitHandlers place eachHandler tracked made
    (allOlder_mergedScopeStates raised)
  obtain ⟨olderContinuing, olderInputs⟩ := allOlder_inputs
    (fun states inside => (olderNormal states inside).mono handled.later) left
    (fun states inside => (raised states inside).mono handled.later) handlers.isEmpty
  exact handled.trans (keeps_finally eachFinal handled.made (older.mono handled.later) olderContinuing
    olderInputs)

/-- The `else` clause of a `try` statement, if the body falls through. -/
theorem keeps_tryElse (place : Nat) {orelse : List AST}
    (each : ∀ statement ∈ orelse, Visited seen place statement) (falls : Bool) (made : Made builder) :
    Keeps seen builder (if falls then ScopeBuilder.visitAll orelse place builder else builder) := by
  split
  · exact keeps_visitAll place each made
  · exact .refl made

/-- The bindings behind the body of a `try` statement and its `else` clause. -/
theorem Made.normal (made : Made builder) (falls : Bool) (tracked : Nat) :
    ∀ states ∈ (if falls then [builder.states tracked] else []), AllOlder builder.ledger states := by
  intro states inside
  split at inside
  · rw [List.mem_singleton.mp inside]
    exact made.states tracked
  · cases inside

/-- `_visit_try`: the body, the `else` clause, the handlers and the `finally` block. -/
theorem keeps_tryStmt {info : Info} {isStar : Bool} {body handlers orelse finalbody : List AST}
    (eachBody : ∀ statement ∈ body, Visited seen place statement)
    (eachHandler : ∀ node ∈ handlers.flatMap handlerParts, Visited seen place node)
    (eachElse : ∀ statement ∈ orelse, Visited seen place statement)
    (eachFinal : ∀ statement ∈ finalbody, Visited seen place statement) (made : Made builder) :
    Keeps seen builder (ScopeBuilder.visit
      (.tryStmt info isStar body handlers orelse finalbody) place builder) := by
  simp only [ScopeBuilder.visit]
  have marked : Keeps seen builder
      (builder.markNode place (.tryStmt info isStar body handlers orelse finalbody)) :=
    .markNode made place _
  generalize builder.markNode place (.tryStmt info isStar body handlers orelse finalbody) = entered at *
  have incoming := marked.made.states entered.scopes.length
  obtain ⟨bodied, exceptional⟩ := keeps_visitBody place eachBody entered.scopes.length marked.made
  generalize ScopeBuilder.visitBody body place entered.scopes.length entered = visited at *
  have elsed := keeps_tryElse place eachElse visited.2.2 bodied.made
  have raised : ∀ states ∈ entered.states entered.scopes.length :: visited.2.1,
      AllOlder visited.1.ledger states :=
    List.forall_mem_cons.mpr ⟨incoming.mono bodied.later, exceptional⟩
  refine ((marked.trans bodied).trans elsed).trans (keeps_handled eachHandler eachFinal
    entered.scopes.length elsed.made ((incoming.mono bodied.later).mono elsed.later)
    (elsed.made.normal visited.2.2 _) fun states inside => (raised states inside).mono elsed.later)

/-! ## What a visit evaluates -/

/-- The parts of a node that its visitor visits. -/
def visitedParts : AST → List AST
  | .assign _ _ value | .augAssign _ _ value | .namedExpr _ _ value => [value]
  | .annAssign _ _ annot value => annot :: value.toList
  | .lambda _ args body => defaultParts args ++ [body]
  | .comp _ _ elt generators => generators.flatMap (generatorParts false) ++ [elt]
  | .dictComp _ key value generators => generators.flatMap (generatorParts false) ++ [key, value]
  | .functionDef _ _ _ args body decoratorList returns =>
    decoratorList ++ defaultParts args ++ annotationParts args ++ returns.toList ++ body
  | .forStmt _ _ _ iter body orelse => iter :: body ++ orelse
  | .tryStmt _ _ body handlers orelse finalbody =>
    body ++ handlers.flatMap AST.children ++ orelse ++ finalbody
  | .matchStmt _ subject cases => subject :: cases.flatMap AST.children
  | node => node.children

/-- A visit records bindings at no other points than the visits of the parts and the node itself,
if it is a name. The parts are visited in the same scope or in another than the module. -/
theorem visited_of_parts {node : AST} (each : ∀ part ∈ ownParts node, Visited seen place part)
    (nested : ∀ inner ≠ 0, ∀ part ∈ nestedParts node, Visited seen inner part)
    (named : ∀ info id ctx, node = .name info id ctx → node.id ∈ seen (decide (place = 0))) :
    Visited seen place node := by
  intro builder made
  have marked : Keeps seen builder (builder.markNode place node) := .markNode made place node
  cases node with
  | name info id ctx =>
    simp only [ScopeBuilder.visit]
    have recorded := marked.trans (.recordName marked.made place id (named info id ctx rfl))
    split
    · exact recorded.trans (.bind recorded.made ..)
    · exact recorded
  | importStmt info names =>
    simp only [ScopeBuilder.visit]
    have bound := marked.trans (keeps_foldl
      (fun current imported known => keeps_bindImport known place (.importStmt info names) imported)
      names marked.made)
    exact bound.trans (.mark bound.made place _)
  | importFrom info module names dots =>
    simp only [ScopeBuilder.visit]
    have bound := marked.trans (keeps_foldl
      (fun current imported known => keeps_bindImportFrom known place
        (.importFrom info module names dots) dots (builder.importPrefix module dots) imported)
      names marked.made)
    exact bound.trans (.mark bound.made place _)
  | assign info targets value =>
    simp only [ScopeBuilder.visit]
    have evaluated := marked.trans (each value (by simp [ownParts]) _ marked.made)
    exact evaluated.trans (keeps_foldl
      (fun current target known => keeps_bindAssigned known place _ (some value) target) targets
      evaluated.made)
  | annAssign info target annot value =>
    simp only [ScopeBuilder.visit, Watch.visitOpt_eq]
    have annotated := marked.trans (each annot (by simp [ownParts]) _ marked.made)
    have evaluated := annotated.trans (keeps_visitAll place
      (fun inner (inside : inner ∈ value.toList) => each inner (by simp [ownParts, inside]))
      annotated.made)
    exact evaluated.trans (keeps_bindAssigned evaluated.made ..)
  | augAssign info target value =>
    simp only [ScopeBuilder.visit]
    have bound := marked.trans (keeps_bindTargets place (.augAssign info target value) none target none _
      marked.made)
    have evaluated := bound.trans (each value (by simp [ownParts]) _ bound.made)
    exact evaluated.trans (.mark evaluated.made place target)
  | globalStmt info names =>
    simp only [ScopeBuilder.visit]
    have declared := marked.trans (.declareNames marked.made place (.globalStmt info names))
    exact declared.trans (.mark declared.made place _)
  | nonlocalStmt info names =>
    simp only [ScopeBuilder.visit]
    have declared := marked.trans (.declareNames marked.made place (.nonlocalStmt info names))
    exact declared.trans (.mark declared.made place _)
  | namedExpr info target value =>
    simp only [ScopeBuilder.visit]
    have evaluated := marked.trans (each value (by simp [ownParts]) _ marked.made)
    have bound := evaluated.trans (keeps_bindTargets (builder.walrusScope place)
      (.namedExpr info target value) none target (some value) _ evaluated.made)
    exact bound.trans (.mark bound.made place target)
  | lambda info args body =>
    simp only [ScopeBuilder.visit, Watch.visitDefaults_eq]
    have evaluated := marked.trans (keeps_visitAll place
      (fun inner (inside : inner ∈ defaultParts args) => each inner (by simp [ownParts, inside]))
      marked.made)
    generalize ScopeBuilder.visitAll (defaultParts args) place _ = entered at *
    have pushed := evaluated.trans (.pushScope evaluated.made (entered.functionParent place) .function)
    have started := pushed.trans (keeps_visitArguments pushed.made entered.scopes.length args)
    exact started.trans
      (nested _ evaluated.made.rooted.ne' body (List.mem_singleton_self _) _ started.made)
  | comp info kind elt generators =>
    simp only [ScopeBuilder.visit]
    generalize builder.markNode place (.comp info kind elt generators) = entered at *
    have pushed := marked.trans (.pushScope marked.made (entered.functionParent place) .comprehension)
    have inner := nested entered.scopes.length marked.made.rooted.ne'
    have generated := pushed.trans (keeps_visitGenerators place 0 entered.scopes.length (fun _ => each)
      (fun part inside => inner part (List.mem_cons_of_mem _ inside)) pushed.made)
    have evaluated := generated.trans (inner elt (by simp [nestedParts]) _ generated.made)
    exact evaluated.trans (.markPhase evaluated.made ..)
  | dictComp info key value generators =>
    simp only [ScopeBuilder.visit]
    generalize builder.markNode place (.dictComp info key value generators) = entered at *
    have pushed := marked.trans (.pushScope marked.made (entered.functionParent place) .comprehension)
    have inner := nested entered.scopes.length marked.made.rooted.ne'
    have generated := pushed.trans (keeps_visitGenerators place 0 entered.scopes.length (fun _ => each)
      (fun part inside => inner part (List.mem_cons_of_mem _ (List.mem_cons_of_mem _ inside)))
      pushed.made)
    have keyed := generated.trans (inner key (by simp [nestedParts]) _ generated.made)
    have phased := keyed.trans (.markPhase keyed.made generators.length key)
    have evaluated := phased.trans (inner value (by simp [nestedParts]) _ phased.made)
    exact evaluated.trans (.markPhase evaluated.made ..)
  | functionDef info isAsync name args body decoratorList returns =>
    simp only [ScopeBuilder.visit, Watch.visitDefaults_eq, Watch.visitAnnotated_eq, Watch.visitOpt_eq]
    have bound := marked.trans (.bind marked.made place name none
      (.functionDef info isAsync name args body decoratorList returns) none none)
    have decorated := bound.trans (keeps_visitAll place
      (fun inner (inside : inner ∈ decoratorList) => each inner (by simp [ownParts, inside]))
      bound.made)
    have defaulted := decorated.trans (keeps_visitAll place
      (fun inner (inside : inner ∈ defaultParts args) => each inner (by simp [ownParts, inside]))
      decorated.made)
    have annotated := defaulted.trans (keeps_visitAll place
      (fun inner (inside : inner ∈ annotationParts args) => each inner (by simp [ownParts, inside]))
      defaulted.made)
    have returned := annotated.trans (keeps_visitAll place
      (fun inner (inside : inner ∈ returns.toList) => each inner (by simp [ownParts, inside]))
      annotated.made)
    exact returned.trans (keeps_functionBody nested args place returned.made)
  | classDef info name bases keywords body decoratorList =>
    simp only [ScopeBuilder.visit, ← Watch.visitAll_append]
    have bound := marked.trans (.bind marked.made place name none
      (.classDef info name bases keywords body decoratorList) (some ["<local>", name]) none)
    have header := bound.trans (keeps_visitAll place
      (fun inner (inside : inner ∈ decoratorList ++ bases ++ keywords) => each inner inside) bound.made)
    have pushed := header.trans (.pushScope header.made place .classBody)
    exact pushed.trans (keeps_visitAll _ (nested _ header.made.rooted.ne') pushed.made)
  | ifStmt info test body orelse =>
    simp only [ScopeBuilder.visit]
    have tested := marked.trans (each test (by simp [ownParts, AST.children]) _ marked.made)
    have bodied : Keeps seen _ _ := keeps_visitAll place
      (fun inner (inside : inner ∈ body) => each inner (by simp [ownParts, AST.children, inside]))
      tested.made
    exact (tested.trans bodied).trans (keeps_otherwise
      (fun inner inside => each inner (by simp [ownParts, AST.children, inside])) bodied.made
      ((tested.made.states _).mono bodied.later))
  | forStmt info isAsync target iter body orelse =>
    simp only [ScopeBuilder.visit]
    have iterated := marked.trans (each iter (by simp [ownParts]) _ marked.made)
    have entered : Keeps seen _ _ := .enterLoop iterated.made
    have bound := entered.trans (keeps_bindTargets place target none target none _ entered.made)
    have marked := bound.trans (.mark bound.made place target)
    have bodied := marked.trans (keeps_visitAll place
      (fun inner (inside : inner ∈ body) => each inner (by simp [ownParts, inside])) marked.made)
    exact (iterated.trans bodied).trans (keeps_loopLeft
      (fun inner inside => each inner (by simp [ownParts, inside])) bodied.made
      ((iterated.made.states _).mono bodied.later))
  | whileStmt info test body orelse =>
    simp only [ScopeBuilder.visit]
    have tested := marked.trans (each test (by simp [ownParts, AST.children]) _ marked.made)
    have entered : Keeps seen _ _ := .enterLoop tested.made
    have bodied := entered.trans (keeps_visitAll place
      (fun inner (inside : inner ∈ body) => each inner (by simp [ownParts, AST.children, inside]))
      entered.made)
    exact (tested.trans bodied).trans (keeps_loopLeft
      (fun inner inside => each inner (by simp [ownParts, AST.children, inside])) bodied.made
      ((tested.made.states _).mono bodied.later))
  | breakStmt info =>
    simp only [ScopeBuilder.visit]
    refine marked.trans (.noteExit marked.made fun states exits listed inside => ?_)
    simp only [List.mem_append, List.mem_singleton] at inside ⊢
    tauto
  | continueStmt info =>
    simp only [ScopeBuilder.visit]
    refine marked.trans (.noteExit marked.made fun states exits listed inside => ?_)
    simp only [List.mem_append, List.mem_singleton] at inside ⊢
    tauto
  | tryStmt info isStar body handlers orelse finalbody =>
    simp only [ownParts, List.forall_mem_append] at each
    obtain ⟨⟨⟨eachBody, eachHandler⟩, eachElse⟩, eachFinal⟩ := each
    exact keeps_tryStmt eachBody eachHandler eachElse eachFinal made
  | matchStmt info subject cases =>
    simp only [ScopeBuilder.visit]
    obtain ⟨judges, eachPart⟩ := List.forall_mem_cons.mp each
    obtain ⟨eachPattern, eachBody⟩ := List.forall_mem_append.mp eachPart
    have judged := marked.trans (judges _ marked.made)
    have matched := judged.trans (keeps_visitAll place eachPattern judged.made)
    rw [← Watch.visitPatterns_eq] at matched
    generalize ScopeBuilder.visitPatterns cases place _ = entered at *
    have incoming := matched.made.states entered.scopes.length
    obtain ⟨visited, outputs⟩ :=
      keeps_visitCases place eachBody entered.scopes.length matched.made incoming
    have later := incoming.mono visited.later
    exact (matched.trans visited).trans
      (.joinOutputs visited.made later (List.forall_mem_cons.mpr ⟨later, outputs⟩))
  | _ =>
    refine keeps_generic ?_ each made
    simp [ScopeBuilder.visit, AST.children, ScopeBuilder.visitAll, Watch.visitAll_append, Watch.visitOpt_eq]

/-- The name with the identity is among the nodes that a visit of the node comes to. -/
inductive Evaluates (point : Nat) : AST → Prop
  | name (info : Info) (id : String) (ctx : Ctx) (here : info.id = point) :
      Evaluates point (.name info id ctx)
  | part {node part : AST} (inside : part ∈ visitedParts node) (below : Evaluates point part) :
      Evaluates point node

/-- What is visited stands below the node. -/
theorem visitedParts_subset (node : AST) : visitedParts node ⊆ node.descendants := by
  intro part inside
  have child (listed : part ∈ node.children) : part ∈ node.descendants :=
    AST.mem_descendants_of_mem_children listed
  have below (parent : AST) (listed : parent ∈ node.children) (deeper : part ∈ parent.descendants) :
      part ∈ node.descendants :=
    AST.mem_descendants_of_mem_preorder listed (AST.descendants_subset parent deeper)
  have generated (generators : List AST) (listed : generators ⊆ node.children)
      (deeper : part ∈ generators.flatMap (generatorParts false)) : part ∈ node.descendants := by
    obtain ⟨generator, generatorInside, here⟩ := List.mem_flatMap.mp deeper
    exact below generator (listed generatorInside)
      (AST.mem_descendants_of_mem_children (generatorParts_subset false generator here))
  have grouped (groups : List AST) (listed : groups ⊆ node.children)
      (deeper : part ∈ groups.flatMap AST.children) : part ∈ node.descendants := by
    obtain ⟨group, groupInside, here⟩ := List.mem_flatMap.mp deeper
    exact below group (listed groupInside) (AST.mem_descendants_of_mem_children here)
  cases node with
  | assign | augAssign | namedExpr | annAssign | forStmt =>
    refine child ?_
    simp only [visitedParts, AST.children, List.mem_append, List.mem_cons, List.cons_append] at inside ⊢
    tauto
  | lambda info args body =>
    obtain inside | inside := List.mem_append.mp inside
    · exact below args (by simp [AST.children])
        (AST.mem_descendants_of_mem_children (defaultParts_subset args inside))
    · exact child (by simp_all [AST.children])
  | comp info kind elt generators =>
    obtain inside | inside := List.mem_append.mp inside
    · exact generated generators (by simp [AST.children]) inside
    · exact child (by simp_all [AST.children])
  | dictComp info key value generators =>
    obtain inside | inside := List.mem_append.mp inside
    · exact generated generators (by simp [AST.children]) inside
    · exact child (by
        simp only [AST.children, List.mem_cons, List.not_mem_nil, or_false] at inside ⊢
        tauto)
  | functionDef info isAsync name args body decoratorList returns =>
    simp only [visitedParts, List.mem_append] at inside
    obtain (((decorates | defaults) | annotates) | returned) | stated := inside
    · exact child (by simp [AST.children, decorates])
    · exact below args (by simp [AST.children])
        (AST.mem_descendants_of_mem_children (defaultParts_subset args defaults))
    · exact below args (by simp [AST.children]) (annotationParts_subset args annotates)
    · exact child (by simp [AST.children, returned])
    · exact child (by simp [AST.children, stated])
  | tryStmt info isStar body handlers orelse finalbody =>
    simp only [visitedParts, List.mem_append] at inside
    obtain ((stated | handles) | otherwise) | finishes := inside
    · exact child (by simp [AST.children, stated])
    · exact grouped handlers (by simp [AST.children]) handles
    · exact child (by simp [AST.children, otherwise])
    · exact child (by simp [AST.children, finishes])
  | matchStmt info subject cases =>
    obtain rfl | inside := List.mem_cons.mp inside
    · exact child (by simp [AST.children])
    · exact grouped cases (by simp [AST.children]) inside
  | _ => exact child inside

/-- What a visit comes to stands in the node. -/
theorem Evaluates.mem_points {point : Nat} {node : AST} (evaluates : Evaluates point node) :
    point ∈ AST.points [node] := by
  induction evaluates with
  | name info id ctx here => exact here ▸ AST.id_mem_points (.name info id ctx)
  | @part node part inside below inductionHypothesis =>
    have within : [part] ⊆ node.descendants :=
      List.cons_subset.mpr ⟨visitedParts_subset node inside, List.nil_subset _⟩
    exact AST.points_mono (AST.preorderAll_descendants_subset within) inductionHypothesis

/-- A visit in the module scope, or in another one, comes to the name with the identity in the module
scope, or in another one. -/
inductive Comes (point : Nat) : Bool → Bool → AST → Prop
  | name (info : Info) (id : String) (ctx : Ctx) (here : info.id = point) (ofModule : Bool) :
      Comes point ofModule ofModule (.name info id ctx)
  | own {node part : AST} {start there : Bool} (inside : part ∈ ownParts node)
      (below : Comes point start there part) : Comes point start there node
  | nested {node part : AST} {start there : Bool} (inside : part ∈ nestedParts node)
      (below : Comes point false there part) : Comes point start there node

/-- The parts of a generator are among its iterable and its conditions. -/
theorem generatorParts_subset_all (first : Bool) (generator : AST) :
    generatorParts first generator ⊆ generatorParts false generator := by
  cases generator with
  | comprehension info isAsync target iter ifs =>
    cases first with
    | true => exact List.subset_cons_self _ _
    | false => exact List.Subset.refl _
  | _ => exact List.nil_subset _

/-- So is its iterable. -/
theorem iterableParts_subset_all (generator : AST) :
    iterableParts generator ⊆ generatorParts false generator := by
  cases generator with
  | comprehension info isAsync target iter ifs => simp [iterableParts, generatorParts]
  | _ => exact List.nil_subset _

/-- The first iterable is a part of the generators. -/
theorem outerParts_subset_all (generators : List AST) :
    outerParts generators ⊆ generators.flatMap (generatorParts false) := by
  cases generators with
  | nil => exact List.nil_subset _
  | cons generator rest =>
    exact List.subset_append_of_subset_left _ (iterableParts_subset_all generator)

/-- So are the parts in the scope of the comprehension. -/
theorem innerParts_subset_all (generators : List AST) :
    innerParts generators ⊆ generators.flatMap (generatorParts false) := by
  cases generators with
  | nil => exact List.nil_subset _
  | cons generator rest =>
    exact List.append_subset.mpr
      ⟨List.subset_append_of_subset_left _ (generatorParts_subset_all true generator),
        List.subset_append_right _ _⟩

/-- A visitor visits what is evaluated in the scope of the node. -/
theorem ownParts_subset_visitedParts (node : AST) : ownParts node ⊆ visitedParts node := by
  cases node with
  | lambda info args body => exact List.subset_append_left _ _
  | comp info kind elt generators =>
    exact List.subset_append_of_subset_left _ (outerParts_subset_all generators)
  | dictComp info key value generators =>
    exact List.subset_append_of_subset_left _ (outerParts_subset_all generators)
  | functionDef info isAsync name args body decoratorList returns => exact List.subset_append_left _ _
  | classDef info name bases keywords body decoratorList =>
    intro part inside
    simp only [ownParts, visitedParts, AST.children, List.mem_append] at inside ⊢
    tauto
  | tryStmt info isStar body handlers orelse finalbody =>
    have handled : handlers.flatMap handlerParts ⊆ handlers.flatMap AST.children := by
      intro part inside
      obtain ⟨handler, handlerInside, here⟩ := List.mem_flatMap.mp inside
      exact List.mem_flatMap.mpr ⟨handler, handlerInside, handlerParts_subset handler here⟩
    intro part inside
    simp only [ownParts, visitedParts, List.mem_append] at inside ⊢
    exact inside.imp_left (Or.imp_left (Or.imp_right (handled ·)))
  | matchStmt info subject cases =>
    have parted (parts : AST → List AST) (within : ∀ case, parts case ⊆ case.children) :
        cases.flatMap parts ⊆ cases.flatMap AST.children := by
      intro part inside
      obtain ⟨case, caseInside, here⟩ := List.mem_flatMap.mp inside
      exact List.mem_flatMap.mpr ⟨case, caseInside, within case here⟩
    exact List.cons_subset_cons subject (List.append_subset.mpr
      ⟨parted patternParts patternParts_subset, parted bodyParts bodyParts_subset⟩)
  | _ => exact List.Subset.refl _

/-- A visitor visits what is evaluated in a scope that the node opens. -/
theorem nestedParts_subset_visitedParts (node : AST) : nestedParts node ⊆ visitedParts node := by
  cases node with
  | lambda info args body => exact List.subset_append_right _ _
  | comp info kind elt generators =>
    exact List.cons_subset.mpr ⟨by simp [visitedParts],
      List.subset_append_of_subset_left _ (innerParts_subset_all generators)⟩
  | dictComp info key value generators =>
    refine List.cons_subset.mpr
      ⟨by simp [visitedParts], List.cons_subset.mpr ⟨by simp [visitedParts], ?_⟩⟩
    exact List.subset_append_of_subset_left _ (innerParts_subset_all generators)
  | functionDef info isAsync name args body decoratorList returns => exact List.subset_append_right _ _
  | classDef info name bases keywords body decoratorList =>
    intro part inside
    simp only [nestedParts] at inside
    simp [visitedParts, AST.children, inside]
  | _ => exact List.nil_subset _

/-- A visit comes there, in whatever scope. -/
theorem Comes.evaluates {point : Nat} {ofModule there : Bool} {node : AST}
    (comes : Comes point ofModule there node) : Evaluates point node := by
  induction comes with
  | name info id ctx here ofModule => exact .name info id ctx here
  | own inside below inductionHypothesis =>
    exact .part (ownParts_subset_visitedParts _ inside) inductionHypothesis
  | nested inside below inductionHypothesis =>
    exact .part (nestedParts_subset_visitedParts _ inside) inductionHypothesis

/-- A visit records bindings at the names that it comes to and at no other nodes, and those of the
module scope only where it comes in the module scope.

Proof: by induction on the size of the tree. -/
theorem visited (node : AST) (place : Nat) :
    Visited (fun there => {point | Comes point (decide (place = 0)) there node}) place node := by
  induction sized : node.size using Nat.strong_induction_on generalizing node place with
  | _ size inductionHypothesis =>
  subst sized
  refine visited_of_parts (fun part inside builder made => ?_)
    (fun inner opened part inside builder made => ?_) fun info id ctx same => ?_
  · have smaller := AST.size_lt_of_mem_descendants
      (visitedParts_subset node (ownParts_subset_visitedParts node inside))
    exact (inductionHypothesis _ smaller part place rfl builder made).mono
      fun _ _ below => .own inside below
  · have smaller := AST.size_lt_of_mem_descendants
      (visitedParts_subset node (nestedParts_subset_visitedParts node inside))
    refine (inductionHypothesis _ smaller part inner rfl builder made).mono fun there point below => ?_
    rw [Set.mem_ofPred_eq, decide_eq_false opened] at below
    exact .nested inside below
  · subst same
    exact .name info id ctx rfl _

/-- What is recorded at a point changes only if a visit comes there. -/
theorem visited_of_not_evaluates {point : Nat} {node : AST} (never : ¬Evaluates point node)
    (place : Nat) : Visited (besides point) place node := fun builder made =>
  (visited node place builder made).mono fun _ _ comes same => never (same ▸ comes.evaluates)

end

end VirtTestTools.Policy
