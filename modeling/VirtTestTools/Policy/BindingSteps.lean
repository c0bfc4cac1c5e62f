import VirtTestTools.Policy.BindingTracking

/-!
# The steps of the scope builder

What the builder does at a node, to mark it, bind a name, declare names, open a scope, record
a name or note an exit of a loop, follows a pass of one step.
-/

namespace VirtTestTools.Policy

open BindingPaths

namespace Watch

variable {ν : Type} {watch : Watch ν} {places : List (Level × Nat)}
  {builder middle next : ScopeBuilder}

/-- A step that leaves the scopes and what is recorded alone. -/
theorem Quiet.of_scopes (good : watch.Good builder) (scopes : next.scopes = builder.scopes)
    (key : next.nextKey = builder.nextKey)
    (record : next.nodeBindings.get watch.load = builder.nodeBindings.get watch.load)
    (exits : next.loopExits = builder.loopExits) (named : next.importPrefix = builder.importPrefix) :
    watch.Quiet builder next where
  extended := by
    rw [show next.shapes = builder.shapes by rw [ScopeBuilder.shapes, scopes, ScopeBuilder.shapes]]
    exact ⟨List.prefix_rfl, good.ordered⟩
  undeclared place scope _ found declared := ⟨scope, scopes ▸ found, declared⟩
  history := by rw [ScopeBuilder.history, scopes, ScopeBuilder.history]
  active := by rw [ScopeBuilder.active, scopes, ScopeBuilder.active]
  key := key.ge
  record := record
  exits := exits
  named := named

/-- A mark does nothing to the name. -/
theorem tracks_markNode (place : Nat) (node : AST) :
    watch.Tracks places .pass 0 builder (builder.markNode place node) :=
  .quiet fun good _ => .of_scopes good rfl rfl rfl rfl rfl

/-- A mark changes the scopes of nodes only. -/
theorem mark_eq (builder : ScopeBuilder) (place : Nat) (node : AST) :
    ∃ nodeScopes, builder.mark place node = { builder with nodeScopes := nodeScopes } := by
  refine List.foldlRecOn
    (motive := fun current : ScopeBuilder =>
      ∃ nodeScopes, current = { builder with nodeScopes := nodeScopes }) _ _ ⟨_, rfl⟩ ?_
  rintro current ⟨nodeScopes, rfl⟩ child -
  exact ⟨_, rfl⟩

/-- A mark of a node and its children does nothing to the name. -/
theorem tracks_mark (place : Nat) (node : AST) :
    watch.Tracks places .pass 0 builder (builder.mark place node) := by
  obtain ⟨nodeScopes, same⟩ := mark_eq builder place node
  rw [same]
  exact .quiet fun good _ => .of_scopes good rfl rfl rfl rfl rfl

/-- The mark of a phase does nothing to the name. -/
theorem tracks_markPhase (phase : Nat) (node : AST) :
    watch.Tracks places .pass 0 builder (builder.markPhase phase node) :=
  .quiet fun good _ => .of_scopes good rfl rfl rfl rfl rfl

/-- A change of a scope that keeps its shape, declares nothing and leaves the bindings of the
name alone, if the scope is that of the module. -/
theorem Quiet.modifyScope (good : watch.Good builder) (place : Nat) (change : Scope → Scope)
    (shape : ∀ scope, (change scope).parent = scope.parent ∧ (change scope).kind = scope.kind)
    (declares : ∀ scope, place ≠ 0 → watch.name ∈ (change scope).globalNames →
      watch.name ∈ scope.globalNames)
    (same : place = 0 → ∀ scope,
      (change scope).bindings.find watch.name = scope.bindings.find watch.name ∧
        (change scope).activeBindings.find watch.name = scope.activeBindings.find watch.name)
    {key : Nat} (later : builder.nextKey ≤ key) :
    watch.Quiet builder { builder.modifyScope place change with nextKey := key } where
  extended := by
    change Extends builder.shapes (builder.modifyScope place change).shapes
    rw [builder.shapes_modifyScope place change shape]
    exact ⟨List.prefix_rfl, good.ordered⟩
  undeclared other scope nested found declared := by
    have modified : (builder.scopes.modify place change)[other]? = some scope := found
    rw [List.getElem?_modify] at modified
    cases earlier : builder.scopes[other]? with
    | none => simp [earlier] at modified
    | some before =>
      refine ⟨before, rfl, ?_⟩
      by_cases here : place = other
      · subst here
        rw [earlier] at modified
        simp only [if_true, Option.map_eq_map, Option.map_some, Option.some.injEq] at modified
        exact declares before nested (modified ▸ declared)
      · rw [earlier] at modified
        simp only [here, if_false, Option.map_eq_map, Option.map_some, Option.some.injEq] at modified
        exact modified ▸ declared
  history := by
    simp only [ScopeBuilder.history, ScopeBuilder.modifyScope, List.getElem?_modify]
    cases builder.scopes[0]? with
    | none => rfl
    | some scope =>
      by_cases here : place = 0
      · simp [here, (same here scope).1]
      · simp [here]
  active := by
    simp only [ScopeBuilder.active, ScopeBuilder.modifyScope, List.getElem?_modify]
    cases builder.scopes[0]? with
    | none => rfl
    | some scope =>
      by_cases here : place = 0
      · simp [here, (same here scope).2]
      · simp [here]
  key := later
  record := rfl
  exits := rfl
  named := rfl

/-- The first scope is the module. -/
theorem Good.root_scope (good : watch.Good builder) :
    ∃ scope, builder.scopes[0]? = some scope ∧ scope.parent = none ∧ scope.kind = .module := by
  have shape := good.root
  rw [ScopeBuilder.shapes, List.getElem?_map, Option.map_eq_some_iff] at shape
  obtain ⟨scope, found, same⟩ := shape
  exact ⟨scope, found, congrArg Prod.fst same, congrArg Prod.snd same⟩

/-- There is a scope. -/
theorem Good.scopes_ne_nil (good : watch.Good builder) : builder.scopes ≠ [] := by
  obtain ⟨scope, found, -⟩ := good.root_scope
  rintro empty
  simp [empty] at found

/-- What is bound in the module scope is bound there. -/
theorem Good.bindingScope_root (good : watch.Good builder) (bound : String) :
    builder.bindingScope 0 bound = 0 := by
  obtain ⟨scope, found, outermost, -⟩ := good.root_scope
  have chained := builder.chain_eq good.ordered 0 scope found
  rw [outermost] at chained
  simp only [ScopeBuilder.bindingScope, found, chained]
  split
  · rfl
  · split <;> rfl

/-- A scope below the module scope does not bind the name in the module scope. -/
theorem Good.bindingScope_nested (good : watch.Good builder) {place : Nat} (nested : place ≠ 0) :
    builder.bindingScope place watch.name ≠ 0 := by
  unfold ScopeBuilder.bindingScope
  cases found : builder.scopes[place]? with
  | none => exact nested
  | some scope =>
    simp only [good.undeclared place scope nested found, if_false]
    split
    · cases outer : (builder.chain place).tail.find? (builder.kindAt · = some .function) with
      | none => exact nested
      | some function =>
        -- the module scope is no function
        rintro rfl
        obtain ⟨root, rootFound, -, module⟩ := good.root_scope
        have kind := List.find?_some outer
        simp [ScopeBuilder.kindAt, rootFound, module] at kind
    · exact nested

/-- A binding of the name in the module scope. -/
theorem tracks_write (value : Option AST) (node : AST) (importedName : Option (List String))
    (phase : Option Nat) :
    watch.Tracks places (.write (some (watch.wrote ⟨value, node, importedName⟩))) 0 builder
      (builder.bind 0 watch.name value node importedName phase) := by
  intro good _ values _
  let made : Binding := ⟨builder.nextKey, value, node, importedName, phase⟩
  obtain ⟨scope, found, -⟩ := good.root_scope
  have inside : builder.bindingScope 0 watch.name = 0 := good.bindingScope_root _
  have history : (builder.bind 0 watch.name value node importedName phase).history watch.name =
      builder.history watch.name ++ [made] := by
    simp [ScopeBuilder.history, ScopeBuilder.bind, inside, ScopeBuilder.modifyScope, found,
      Bindings.find_set, made]
  have active : (builder.bind 0 watch.name value node importedName phase).active watch.name =
      [made] := by
    simp [ScopeBuilder.active, ScopeBuilder.bind, inside, ScopeBuilder.modifyScope, found,
      Bindings.find_set, made]
  have extended : Extends builder.shapes
      (builder.bind 0 watch.name value node importedName phase).shapes := by
    rw [ScopeBuilder.shapes_bind]
    exact ⟨List.prefix_rfl, good.ordered⟩
  have later : watch.Good (builder.bind 0 watch.name value node importedName phase) := by
    refine ⟨good.extended_root extended, extended.ordered, ?_, ?_, ?_, ?_, ?_, good.tracked, good.named⟩
    · intro place other nested foundOther
      have unmodified : builder.scopes[place]? = some other := by
        have modified : (builder.scopes.modify (builder.bindingScope 0 watch.name) _)[place]? =
          some other := foundOther
        rw [inside, List.getElem?_modify] at modified
        simpa [Ne.symm nested] using modified
      exact good.undeclared place other nested unmodified
    · rw [history]
      intro one oneInside two twoInside sameKey
      obtain oldOne | newOne := List.mem_append.mp oneInside
      · obtain oldTwo | newTwo := List.mem_append.mp twoInside
        · exact good.keyed one oldOne two oldTwo sameKey
        · have bound := good.made one oldOne
          rw [sameKey, List.mem_singleton.mp newTwo] at bound
          exact absurd bound (Nat.lt_irrefl _)
      · obtain oldTwo | newTwo := List.mem_append.mp twoInside
        · have bound := good.made two oldTwo
          rw [← sameKey, List.mem_singleton.mp newOne] at bound
          exact absurd bound (Nat.lt_irrefl _)
        · rw [List.mem_singleton.mp newOne, List.mem_singleton.mp newTwo]
    · rw [history]
      intro binding bindingInside
      obtain old | new := List.mem_append.mp bindingInside
      · exact Nat.lt_succ_of_lt (good.made binding old)
      · rw [List.mem_singleton.mp new]
        exact Nat.lt_succ_self _
    · exact Nat.le_succ_of_le good.started
    · rw [active, history]
      exact List.subset_append_right _ _
  refine ⟨.empty later extended ?_ rfl rfl (fun exit noticed other here => ?_)
    fun exit noticed leaves => ?_, ?_⟩
  · rw [history]
    exact List.subset_append_left _ _
  · obtain ⟨normal, -⟩ | ⟨-, normal, -⟩ := here
    · exact noticed.early normal
    · exact noticed.early normal
  · obtain ⟨written, normal, -⟩ := leaves
    exact noticed.early normal
  · rw [Pass.after_write, active]
    intro seen
    have shown : watch.view made = watch.wrote ⟨value, node, importedName⟩ :=
      watch.fresh made good.started
    simp [shown, eq_comm]

/-- A binding that does not act on the name in the module scope. -/
theorem Quiet.bind (good : watch.Good builder) {place : Nat} {bound : String}
    (aside : place ≠ 0 ∨ bound ≠ watch.name) (value : Option AST) (node : AST)
    (importedName : Option (List String)) (phase : Option Nat) :
    watch.Quiet builder (builder.bind place bound value node importedName phase) := by
  unfold ScopeBuilder.bind
  apply Quiet.modifyScope good
  case shape => exact fun scope => ⟨rfl, rfl⟩
  case declares => exact fun scope _ declared => declared
  case later => exact Nat.le_succ _
  intro here scope
  have other : watch.name ≠ bound := by
    rintro rfl
    obtain nested | different := aside
    · exact good.bindingScope_nested nested here
    · exact different rfl
  simp [Bindings.find_set, other]

/-- A binding acts on the name if it has the name and is made in the module scope. -/
theorem tracks_bind {here : Bool} {place : Nat} (isHere : here = true ↔ place = 0) (bound : String)
    (value : Option AST) (node : AST) (importedName : Option (List String)) (phase : Option Nat) :
    watch.Tracks places
      (bindingsIf watch.name watch.wrote here [(bound, ⟨value, node, importedName⟩)]) 0 builder
      (builder.bind place bound value node importedName phase) := by
  by_cases same : bound = watch.name
  · cases here with
    | true =>
      obtain rfl := isHere.mp rfl
      subst same
      have written : bindingsIf watch.name watch.wrote true
          [(watch.name, (⟨value, node, importedName⟩ : Site))] =
            .write (some (watch.wrote ⟨value, node, importedName⟩)) := by
        simp [bindingsIf, bindings, binding]
      rw [written]
      exact tracks_write value node importedName phase
    | false =>
      have nested : place ≠ 0 := fun root => Bool.false_ne_true (isHere.mpr root)
      exact .quiet fun good _ => .bind good (.inl nested) value node importedName phase
  · have nothing : bindingsIf watch.name watch.wrote here
        [(bound, (⟨value, node, importedName⟩ : Site))] = .pass := by
      cases here <;> simp [bindingsIf, bindings, binding, same]
    rw [nothing]
    exact .quiet fun good _ => .bind good (.inr same) value node importedName phase

/-- Bindings in two stretches. -/
theorem bindingsIf_append (here : Bool) (sites more : List (String × Site)) :
    bindingsIf watch.name watch.wrote here (sites ++ more) =
      (bindingsIf watch.name watch.wrote here sites).seq
        (bindingsIf watch.name watch.wrote here more) := by
  cases here with
  | false => exact (Pass.pass_seq _).symm
  | true => exact bindings_append watch.name watch.wrote sites more

/-- No bindings write nothing. -/
theorem bindingsIf_nil (here : Bool) : bindingsIf watch.name watch.wrote here [] = .pass := by
  cases here <;> rfl

/-- A fold of steps each of which binds. -/
theorem tracks_foldl {α : Type} {here : Bool} (step : ScopeBuilder → α → ScopeBuilder)
    (sites : α → List (String × Site))
    (each : ∀ builder element, watch.Tracks places
      (bindingsIf watch.name watch.wrote here (sites element)) 0 builder (step builder element)) :
    ∀ (elements : List α) (builder : ScopeBuilder), watch.Tracks places
      (bindingsIf watch.name watch.wrote here (elements.flatMap sites)) 0 builder
        (elements.foldl step builder) := by
  intro elements
  induction elements with
  | nil =>
    intro builder
    rw [List.flatMap_nil, bindingsIf_nil]
    exact .quiet fun good _ => .of_scopes good rfl rfl rfl rfl rfl
  | cons element rest inductionHypothesis =>
    intro builder
    rw [List.flatMap_cons, bindingsIf_append, List.foldl_cons]
    exact (each builder element).seq (inductionHypothesis _) (by omega)

mutual

/-- `_bind_targets`. -/
theorem tracks_bindTargets {here : Bool} {place : Nat} (isHere : here = true ↔ place = 0)
    (node : AST) (phase : Option Nat) :
    ∀ (target : AST) (value : Option AST) (builder : ScopeBuilder), watch.Tracks places
      (bindingsIf watch.name watch.wrote here (targetSites node target value)) 0 builder
        (ScopeBuilder.bindTargets place node phase target value builder)
  | target, value, builder => by
    cases target with
    | name info id ctx =>
      simp only [targetSites, ScopeBuilder.bindTargets]
      exact tracks_bind isHere id value node none phase
    | starred info inner =>
      simp only [targetSites, ScopeBuilder.bindTargets]
      exact tracks_bindTargets isHere node phase inner none builder
    | tuple info elts =>
      simp only [targetSites, ScopeBuilder.bindTargets]
      exact tracks_bindElements isHere node phase elts _ builder
    | list info elts =>
      simp only [targetSites, ScopeBuilder.bindTargets]
      exact tracks_bindElements isHere node phase elts _ builder
    | _ =>
      simp only [targetSites, ScopeBuilder.bindTargets, bindingsIf_nil]
      exact .quiet fun good _ => .of_scopes good rfl rfl rfl rfl rfl

/-- The bindings of elements track those of their sites. -/
theorem tracks_bindElements {here : Bool} {place : Nat} (isHere : here = true ↔ place = 0)
    (node : AST) (phase : Option Nat) :
    ∀ (targets values : List AST) (builder : ScopeBuilder), watch.Tracks places
      (bindingsIf watch.name watch.wrote here (elementSites node targets values)) 0 builder
        (ScopeBuilder.bindElements place node phase targets values builder)
  | [], values, builder => by
    simp only [elementSites, ScopeBuilder.bindElements, bindingsIf_nil]
    exact .quiet fun good _ => .of_scopes good rfl rfl rfl rfl rfl
  | target :: targets, [], builder => by
    simp only [elementSites, ScopeBuilder.bindElements, bindingsIf_append]
    exact (tracks_bindTargets isHere node phase target none builder).seq
      (tracks_bindElements isHere node phase targets [] _) (by omega)
  | target :: targets, value :: values, builder => by
    simp only [elementSites, ScopeBuilder.bindElements, bindingsIf_append]
    exact (tracks_bindTargets isHere node phase target (some value) builder).seq
      (tracks_bindElements isHere node phase targets values _) (by omega)

end

/-- A declaration of other names. -/
theorem tracks_declareNames (place : Nat) (node : AST)
    (undeclared : ∀ info names, node = .globalStmt info names → watch.name ∉ names) :
    watch.Tracks places .pass 0 builder (ScopeBuilder.declareNames place builder node) := by
  refine .quiet fun good _ => ?_
  cases node with
  | globalStmt info names =>
    have declaredBefore (scope : Scope) (_ : place ≠ 0)
        (declared : watch.name ∈ scope.globalNames ++ names) : watch.name ∈ scope.globalNames :=
      (List.mem_append.mp declared).resolve_right (undeclared info names rfl)
    exact .modifyScope good place
      (fun scope => { scope with globalNames := scope.globalNames ++ names })
      (fun scope => ⟨rfl, rfl⟩) declaredBefore (fun _ scope => ⟨rfl, rfl⟩) (Nat.le_refl _)
  | nonlocalStmt info names =>
    exact .modifyScope good place
      (fun scope => { scope with nonlocalNames := scope.nonlocalNames ++ names })
      (fun scope => ⟨rfl, rfl⟩) (fun scope _ declared => declared) (fun _ scope => ⟨rfl, rfl⟩)
      (Nat.le_refl _)
  | _ => exact .of_scopes good rfl rfl rfl rfl rfl

/-- A new scope is added behind its parent. -/
theorem Quiet.pushScope (good : watch.Good builder) {parent : Nat}
    (inside : parent < builder.scopes.length) (kind : ScopeKind) :
    watch.Quiet builder (builder.pushScope parent kind) where
  extended := by
    rw [ScopeBuilder.shapes_pushScope]
    exact .push kind ⟨good.ordered, by simpa [ScopeBuilder.shapes] using inside⟩
  undeclared place scope _ found declared := by
    have added : (builder.scopes ++ [{ parent := some parent, kind := kind }])[place]? =
      some scope := found
    rw [List.getElem?_append] at added
    split at added
    · exact ⟨scope, added, declared⟩
    · obtain rfl := List.mem_singleton.mp (List.mem_of_getElem? added)
      exact absurd declared List.not_mem_nil
  history := by
    obtain ⟨scope, found, -⟩ := good.root_scope
    have positive := (List.getElem?_eq_some_iff.mp found).1
    simp only [ScopeBuilder.history, ScopeBuilder.pushScope, List.getElem?_append_left positive]
  active := by
    obtain ⟨scope, found, -⟩ := good.root_scope
    have positive := (List.getElem?_eq_some_iff.mp found).1
    simp only [ScopeBuilder.active, ScopeBuilder.pushScope, List.getElem?_append_left positive]
  key := Nat.le_refl _
  record := rfl
  exits := rfl
  named := rfl

/-- A builder with restored states is good when their bindings are known. -/
theorem Good.restored (good : watch.Good builder) {states : List Bindings} (nonempty : states ≠ [])
    (known : front watch.name states ⊆ builder.history watch.name) :
    watch.Good (builder.restoreStates states) where
  root := by
    rw [ScopeBuilder.shapes_restoreStates]
    exact good.root
  ordered := by
    rw [ScopeBuilder.shapes_restoreStates]
    exact good.ordered
  undeclared place scope nested found := by
    obtain ⟨earlier, foundEarlier, same⟩ :=
      ScopeBuilder.restoreScopes_declared builder.scopes states place found
    rw [← same]
    exact good.undeclared place earlier nested foundEarlier
  keyed := by
    rw [ScopeBuilder.history_restoreStates]
    exact good.keyed
  made := by
    rw [ScopeBuilder.history_restoreStates]
    exact good.made
  started := good.started
  known := by
    rw [ScopeBuilder.history_restoreStates,
      ScopeBuilder.active_restoreStates _ _ nonempty good.scopes_ne_nil]
    exact known
  tracked := good.tracked
  named := good.named

/-- A stretch in which only the active bindings of the module scope change. -/
theorem Good.trace_restored (good : watch.Good builder) {states : List Bindings}
    (nonempty : states ≠ []) (known : front watch.name states ⊆ builder.history watch.name)
    {values : Exit → Set (Option ν)} {met : Exit → Prop}
    (nothing : ∀ exit, watch.Noticed exit → ∀ value, some value ∉ values exit)
    (unmet : ∀ exit, watch.Noticed exit → ¬met exit) :
    watch.Trace values met 0 builder (builder.restoreStates states) := by
  refine .empty (good.restored nonempty known) ?_ ?_ rfl rfl nothing unmet
  · rw [ScopeBuilder.shapes_restoreStates]
    exact ⟨List.prefix_rfl, good.ordered⟩
  · rw [ScopeBuilder.history_restoreStates]
    exact List.Subset.refl _

/-- An unbound name has no bindings, and the others keep theirs. -/
theorem find_unbound (bindings : Bindings) (bound name : String) :
    Bindings.find (Dict.filterMap
        (fun other made => if other = bound then none else some made) bindings) name =
      if name = bound then [] else bindings.find name := by
  unfold Bindings.find
  rw [Dict.get_filterMap]
  split
  · cases Dict.get bindings name <;> simp
  · cases Dict.get bindings name <;> simp [*]

/-- The name of a handler is unbound when the handler is left. -/
theorem tracks_unbind {here : Bool} {place : Nat} (isHere : here = true ↔ place = 0)
    (bound : String) :
    watch.Tracks places (if here = true ∧ bound = watch.name then .write none else .pass) 0 builder
      (builder.unbind place bound) := by
  split
  · rename_i both
    obtain ⟨yes, rfl⟩ := both
    obtain rfl := isHere.mp yes
    intro good _ values _
    have inside : builder.bindingScope 0 watch.name = 0 := good.bindingScope_root _
    obtain ⟨scope, scopes, listed⟩ := List.exists_cons_of_ne_nil good.scopes_ne_nil
    let state := Dict.filterMap
      (fun other made => if other = watch.name then none else some made) scope.activeBindings
    have same : builder.unbind 0 watch.name = builder.restoreStates [state] := by
      simp [ScopeBuilder.unbind, inside, ScopeBuilder.modifyScope, listed,
        ScopeBuilder.restoreStates, ScopeBuilder.restoreScopes, state]
    have nothing : front watch.name [state] = [] := by
      simp [front, state, find_unbound]
    rw [same]
    refine ⟨good.trace_restored (List.cons_ne_nil _ _) ?_ (fun exit noticed value here => ?_)
      fun exit noticed leaves => ?_, fun value => ?_⟩
    · rw [nothing]
      exact List.nil_subset _
    · obtain ⟨normal, -⟩ | ⟨-, normal, -⟩ := here
      · exact noticed.early normal
      · exact noticed.early normal
    · obtain ⟨written, normal, -⟩ := leaves
      exact noticed.early normal
    · rw [ScopeBuilder.active_restoreStates _ _ (List.cons_ne_nil _ _) good.scopes_ne_nil, nothing,
        Pass.after_write]
      simp
  · rename_i other
    refine .quiet fun good _ => ?_
    unfold ScopeBuilder.unbind
    apply Quiet.modifyScope good
    case shape => exact fun scope => ⟨rfl, rfl⟩
    case declares => exact fun scope _ declared => declared
    case later => exact Nat.le_refl _
    intro here scope
    have different : watch.name ≠ bound := by
      rintro rfl
      by_cases root : place = 0
      · exact other ⟨isHere.mpr root, rfl⟩
      · exact good.bindingScope_nested root here
    exact ⟨rfl, by rw [find_unbound, if_neg different]⟩

/-- The load of the name is recorded. -/
theorem tracks_record (node : AST) (isLoad : node.id = watch.load) :
    watch.Tracks places (.observe watch.load) 1 builder
      (builder.recordName 0 node watch.name) := by
  intro good _ values shows
  have found : watch.recorded (builder.recordName 0 node watch.name) =
      builder.active watch.name := by
    simp [recorded, ScopeBuilder.recordName, isLoad, Dict.get_set, ScopeBuilder.active]
  have isRecorded : (1 : Nat) = 0 → False := Nat.one_ne_zero
  refine ⟨⟨?_, ⟨List.prefix_rfl, good.ordered⟩, List.Subset.refl _, fun none => (isRecorded none).elim,
    fun none => (isRecorded none).elim, ?_, id, ?_⟩, ?_⟩
  · exact ⟨good.root, good.ordered, good.undeclared, good.keyed, good.made, good.started, good.known,
      good.tracked, good.named⟩
  · intro _ _
    rw [found, Pass.after_observed]
    exact shows
  · intro head outer same
    refine ⟨[], [], by simp [same, ScopeBuilder.recordName], ?_, ?_⟩
    · exact .unmet _ (by simp [Flow.mem_after, Pass.observe, Flow.observe, Flow.note])
        (by simp [Flow.Leaves, Pass.observe, Flow.observe, Flow.note])
    · exact .unmet _ (by simp [Flow.mem_after, Pass.observe, Flow.observe, Flow.note])
        (by simp [Flow.Leaves, Pass.observe, Flow.observe, Flow.note])
  · rw [Pass.after_observe]
    exact shows

/-- Another name is recorded. -/
theorem Quiet.recordName (good : watch.Good builder) (place : Nat) (node : AST) (name : String)
    (other : node.id ≠ watch.load) : watch.Quiet builder (builder.recordName place node name) :=
  .of_scopes good rfl rfl (by simp [ScopeBuilder.recordName, Dict.get_set, Ne.symm other]) rfl rfl

/-- A quiet step observes another point. -/
theorem tracks_observe {point : Nat} (other : point ≠ watch.load)
    (step : watch.Good builder → watch.Quiet builder next) :
    watch.Tracks places (.observe point) 0 builder next := by
  intro good _ values shows
  have quiet := step good
  have unseen (exit : Exit) (noticed : watch.Noticed exit) (written : Option (Option ν)) :
      ¬(Pass.observe point).flow exit written := by
    rintro ⟨normal | here, -⟩
    · exact noticed.early normal
    · obtain rfl | rfl | rfl := noticed
      · nomatch here
      · nomatch here
      · exact other (Exit.observed.inj here).symm
  refine ⟨quiet.trace good (fun exit noticed value inside => ?_) fun exit noticed leaves => ?_, ?_⟩
  · exact inside.elim (unseen exit noticed _) fun kept => unseen exit noticed _ kept.2
  · exact leaves.elim fun written => unseen exit noticed written
  · rw [Pass.after_observe, quiet.active]
    exact shows

/-- The states of a builder note the values it shows. -/
theorem Noted.single (good : watch.Good builder) {values : Set (Option ν)}
    (shows : watch.Shows (builder.active watch.name) values) {tracked : Nat}
    (positive : 0 < tracked) (sameHistory : next.history watch.name = builder.history watch.name) :
    watch.Noted next values True [builder.states tracked] where
  met_iff := by simp
  shown value := by
    rw [shows value]
    simp [builder.front_states watch.name positive]
  nonempty := by
    simpa using builder.states_ne_nil positive good.scopes_ne_nil
  known := by
    simpa [builder.front_states watch.name positive, sameHistory] using good.known

/-- The innermost loop notes the bindings with which it is left. -/
theorem tracks_noteExit {way : Exit} {note : List Bindings → LoopExits → LoopExits}
    (notes : ∀ states exits, ∃ breaks continues,
      note states exits =
        { exits with
          breakOutputs := exits.breakOutputs ++ breaks
          continueOutputs := exits.continueOutputs ++ continues } ∧
        ((way = .breaks ∧ breaks = [states] ∧ continues = []) ∨
          (way = .continues ∧ breaks = [] ∧ continues = [states]))) :
    watch.Tracks places (.note way) 0 builder (builder.noteExit note) := by
  intro good _ values shows
  have isLoopExit : way = .breaks ∨ way = .continues := by
    obtain ⟨breaks, continues, -, ⟨same, -⟩ | ⟨same, -⟩⟩ := notes [] { trackedScopes := 0 }
    · exact .inl same
    · exact .inr same
  have unseen (exit : Exit) (early : exit ≠ .normal) (other : exit ≠ way)
      (written : Option (Option ν)) : ¬(Pass.note way).flow exit written := by
    rintro ⟨normal | here, -⟩
    · exact early normal
    · exact other here
  have silent (value : ν) :
      some value ∉ (Pass.note way).flow.after (.observed watch.load) values := by
    have other : Exit.observed watch.load ≠ way := by
      obtain rfl | rfl := isLoopExit <;> nofun
    have unseenHere := unseen (.observed watch.load) nofun other
    exact fun inside => inside.elim (unseenHere _) fun kept => unseenHere _ kept.2
  cases listed : builder.loopExits with
  | nil =>
    have same : builder.noteExit note = builder := by simp [ScopeBuilder.noteExit, listed]
    rw [same, Pass.after_note]
    exact ⟨⟨good, ⟨List.prefix_rfl, good.ordered⟩, List.Subset.refl _, fun _ => rfl,
      fun _ => silent, fun absurdly => absurd rfl absurdly, id, by simp [listed]⟩, shows⟩
  | cons head outer =>
    obtain ⟨breaks, continues, made, which⟩ := notes (builder.states head.trackedScopes) head
    have same : builder.noteExit note =
        { builder with loopExits := note (builder.states head.trackedScopes) head :: outer } := by
      simp [ScopeBuilder.noteExit, listed]
    have positive : 0 < head.trackedScopes := good.tracked head (by simp [listed])
    have later : watch.Good (builder.noteExit note) := by
      rw [same]
      refine ⟨good.root, good.ordered, good.undeclared, good.keyed, good.made, good.started,
        good.known, fun exits inside => ?_, good.named⟩
      obtain rfl | old := List.mem_cons.mp inside
      · rw [made]
        exact positive
      · exact good.tracked exits (by simp [listed, old])
    have noted := Noted.single good shows positive
      (show (builder.noteExit note).history watch.name = builder.history watch.name by rw [same]; rfl)
    have unnoted (exit : Exit) (early : exit ≠ .normal) (other : exit ≠ way) :
        watch.Noted (builder.noteExit note) ((Pass.note way).flow.after exit values)
          ((Pass.note way).flow.Leaves exit) [] :=
      .unmet _ (fun value inside => inside.elim (unseen _ early other _)
        fun kept => unseen _ early other _ kept.2) fun leaves => leaves.elim (unseen _ early other)
    have leaves : (Pass.note way : Pass (Option ν)).flow.Leaves way ↔ True :=
      iff_true_intro ⟨none, .inr rfl, rfl⟩
    refine ⟨⟨later, ?_, ?_, fun _ => ?_, fun _ => silent, fun absurdly => absurd rfl absurdly,
      by simp [listed], ?_⟩, ?_⟩
    · rw [same]
      exact ⟨List.prefix_rfl, good.ordered⟩
    · rw [same]
      exact List.Subset.refl _
    · rw [same]
    · intro first rest isListed
      obtain ⟨rfl, rfl⟩ := List.cons.inj (listed.symm.trans isListed)
      refine ⟨breaks, continues, by rw [same, made], ?_⟩
      obtain ⟨rfl, rfl, rfl⟩ | ⟨rfl, rfl, rfl⟩ := which
      · refine ⟨?_, unnoted .continues nofun nofun⟩
        simp only [Pass.after_noted]
        exact ⟨by rw [leaves]; exact noted.met_iff, noted.shown, noted.nonempty, noted.known⟩
      · refine ⟨unnoted .breaks nofun nofun, ?_⟩
        simp only [Pass.after_noted]
        exact ⟨by rw [leaves]; exact noted.met_iff, noted.shown, noted.nonempty, noted.known⟩
    · rw [Pass.after_note, same]
      exact shows

end Watch

end VirtTestTools.Policy
