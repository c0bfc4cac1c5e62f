import VirtTestTools.Policy.Scopes

/-!
# Scopes are only added

The walk over a tree never removes a scope, never changes the parent or the kind
of one, and adds each scope behind its parent. The parents and kinds of the
scopes are their shapes; every visitor extends the shapes and keeps them ordered.
From the order follows that the way outwards from a scope passes through its
parent.
-/

namespace VirtTestTools.Policy

namespace ScopeBuilder

/-- Parents and kinds of the scopes. -/
def shapes (builder : ScopeBuilder) : List (Option Nat × ScopeKind) :=
  builder.scopes.map fun scope => (scope.parent, scope.kind)

end ScopeBuilder

/-- Every parent comes before its children. -/
def Ordered (shapes : List (Option Nat × ScopeKind)) : Prop :=
  ∀ (place parent : Nat) (kind : ScopeKind), shapes[place]? = some (some parent, kind) →
    parent < place

/-- A walk in the scope at a place may start with these shapes. -/
structure Valid (place : Nat) (shapes : List (Option Nat × ScopeKind)) : Prop where
  ordered : Ordered shapes
  inside : place < shapes.length

/-- Shapes extend others if they begin with them and are ordered. -/
structure Extends (before after : List (Option Nat × ScopeKind)) : Prop where
  opening : before <+: after
  ordered : Ordered after

namespace Extends

variable {before middle after : List (Option Nat × ScopeKind)} {place : Nat}

/-- Scopes extend themselves. -/
theorem refl (valid : Valid place before) : Extends before before :=
  ⟨List.prefix_rfl, valid.ordered⟩

/-- Extensions in turn. -/
theorem trans (first : Extends before middle) (second : Extends middle after) :
    Extends before after :=
  ⟨first.opening.trans second.opening, second.ordered⟩

/-- After an extension the place is still inside, and parents still come first. -/
theorem valid (extension : Extends before after) (valid : Valid place before) :
    Valid place after :=
  ⟨extension.ordered, Nat.lt_of_lt_of_le valid.inside extension.opening.length_le⟩

/-- A scope is added behind its parent. -/
theorem push (kind : ScopeKind) (valid : Valid place before) :
    Extends before (before ++ [(some place, kind)]) := by
  refine ⟨List.prefix_append _ _, fun index parent other found => ?_⟩
  rcases Nat.lt_or_ge index before.length with old | new
  · rw [List.getElem?_append_left old] at found
    exact valid.ordered index parent other found
  · rw [List.getElem?_append_right new] at found
    obtain ⟨bound, equal⟩ := List.getElem?_eq_some_iff.mp found
    have last : index - before.length = 0 := by simpa using bound
    simp only [last, List.getElem_cons_zero, Prod.mk.injEq, Option.some.injEq] at equal
    have inside := valid.inside
    omega

end Extends

namespace ScopeBuilder

/-! ## Steps that leave the shapes alone -/

section Same

variable (builder : ScopeBuilder)

/-- A change that keeps the parent and the kind of a scope keeps the shapes. -/
theorem shapes_modifyScope (place : Nat) (change : Scope → Scope)
    (same : ∀ scope, (change scope).parent = scope.parent ∧ (change scope).kind = scope.kind) :
    (builder.modifyScope place change).shapes = builder.shapes := by
  simp only [shapes, modifyScope]
  refine List.ext_getElem? fun index => ?_
  simp only [List.getElem?_map, List.getElem?_modify]
  cases builder.scopes[index]? with
  | none => simp
  | some scope => by_cases here : place = index <;> simp [here, same scope]

/-- `_bind` opens no scope. -/
@[simp]
theorem shapes_bind (place : Nat) (name : String) (value : Option AST) (node : AST)
    (importedName : Option (List String)) (phase : Option Nat) :
    (builder.bind place name value node importedName phase).shapes = builder.shapes :=
  builder.shapes_modifyScope _ _ fun _ => ⟨rfl, rfl⟩

/-- Marking a node opens no scope. -/
@[simp]
theorem shapes_markNode (place : Nat) (node : AST) :
    (builder.markNode place node).shapes = builder.shapes := rfl

/-- A fold of steps that leave the shapes alone. -/
theorem shapes_foldl {α : Type} (step : ScopeBuilder → α → ScopeBuilder)
    (same : ∀ builder element, (step builder element).shapes = builder.shapes) (elements : List α) :
    (elements.foldl step builder).shapes = builder.shapes := by
  induction elements generalizing builder with
  | nil => rfl
  | cons element elements inductionHypothesis =>
    rw [List.foldl_cons, inductionHypothesis, same]

/-- Marking a tree opens no scope. -/
@[simp]
theorem shapes_mark (place : Nat) (node : AST) :
    (builder.mark place node).shapes = builder.shapes :=
  builder.shapes_foldl _ (fun current child => current.shapes_markNode place child) _

/-- Marking a phase of a comprehension opens no scope. -/
@[simp]
theorem shapes_markPhase (phase : Nat) (node : AST) :
    (builder.markPhase phase node).shapes = builder.shapes := rfl

/-- Recording the bindings of a name opens no scope. -/
@[simp]
theorem shapes_recordName (place : Nat) (node : AST) (name : String) :
    (builder.recordName place node name).shapes = builder.shapes := rfl

/-- Restored scopes keep their shapes, however many states there are. -/
theorem shapes_restoreScopes (scopes : List Scope) (states : List Bindings) :
    (restoreScopes scopes states).map (fun scope => (scope.parent, scope.kind)) =
      scopes.map fun scope => (scope.parent, scope.kind) := by
  induction scopes generalizing states with
  | nil => cases states <;> rfl
  | cons scope scopes inductionHypothesis =>
    cases states with
    | nil => rfl
    | cons state states => simp [restoreScopes, inductionHypothesis]

/-- `_restore_states` opens no scope. -/
@[simp]
theorem shapes_restoreStates (states : List Bindings) :
    (builder.restoreStates states).shapes = builder.shapes :=
  shapes_restoreScopes builder.scopes states

/-- Joining branches opens no scope. -/
@[simp]
theorem shapes_joinOutputs (incoming : List Bindings) (outputs : List (List Bindings)) :
    (builder.joinOutputs incoming outputs).shapes = builder.shapes :=
  builder.shapes_restoreStates _

/-- Entering a loop opens no scope. -/
@[simp]
theorem shapes_enterLoop : builder.enterLoop.shapes = builder.shapes := rfl

/-- Leaving a loop opens no scope. -/
@[simp]
theorem shapes_leaveLoop (tracked : Nat) (incoming : List Bindings) (body : List AST) :
    (builder.leaveLoop tracked incoming body).1.shapes = builder.shapes :=
  shapes_restoreStates _ _

/-- Noting an exit of a loop opens no scope. -/
@[simp]
theorem shapes_noteExit (note : List Bindings → LoopExits → LoopExits) :
    (builder.noteExit note).shapes = builder.shapes := by
  unfold noteExit
  cases builder.loopExits <;> rfl

/-- Unbinding the name of a handler opens no scope. -/
@[simp]
theorem shapes_unbind (place : Nat) (name : String) :
    (builder.unbind place name).shapes = builder.shapes :=
  builder.shapes_modifyScope _ _ fun _ => ⟨rfl, rfl⟩

/-- `global` and `nonlocal` open no scope. -/
@[simp]
theorem shapes_declareNames (place : Nat) (node : AST) :
    (declareNames place builder node).shapes = builder.shapes := by
  cases node with
  | globalStmt info names => exact builder.shapes_modifyScope _ _ fun _ => ⟨rfl, rfl⟩
  | nonlocalStmt info names => exact builder.shapes_modifyScope _ _ fun _ => ⟨rfl, rfl⟩
  | _ => rfl

/-- One name of an import opens no scope. -/
@[simp]
theorem shapes_bindImport (place : Nat) (node : AST) (imported : Alias) :
    (bindImport place node builder imported).shapes = builder.shapes := by
  unfold bindImport
  cases imported.asname <;> simp

/-- One name of an import from a module opens no scope. -/
@[simp]
theorem shapes_bindImportFrom (place : Nat) (node : AST) (level : Nat) (opening : List String)
    (imported : Alias) :
    (bindImportFrom place node level opening builder imported).shapes = builder.shapes := by
  unfold bindImportFrom
  split
  · split
    · exact builder.shapes_foldl _ (fun current name => current.shapes_bind _ _ _ _ _ _) _
    · rfl
  · exact builder.shapes_bind _ _ _ _ _ _

/-- One parameter opens no scope. -/
@[simp]
theorem shapes_bindParameter (place : Nat) (argument : AST) :
    (bindParameter place builder argument).shapes = builder.shapes := by
  cases argument <;> simp [bindParameter]

/-- `_visit_arguments` opens no scope. -/
@[simp]
theorem shapes_visitArguments (place : Nat) (arguments : AST) :
    (visitArguments place arguments builder).shapes = builder.shapes :=
  builder.shapes_foldl _ (fun current argument => current.shapes_bindParameter place argument) _

end Same

mutual

/-- `_bind_targets` opens no scope. -/
theorem shapes_bindTargets (place : Nat) (node : AST) (phase : Option Nat) :
    ∀ (target : AST) (value : Option AST) (builder : ScopeBuilder),
      (bindTargets place node phase target value builder).shapes = builder.shapes
  | target, value, builder => by
    cases target with
    | name info id ctx => simp [bindTargets]
    | starred info inner =>
      simp only [bindTargets]
      exact shapes_bindTargets place node phase inner none builder
    | tuple info elts =>
      simp only [bindTargets]
      exact shapes_bindElements place node phase elts _ builder
    | list info elts =>
      simp only [bindTargets]
      exact shapes_bindElements place node phase elts _ builder
    | _ => simp [bindTargets]

/-- The elements of a target open no scope. -/
theorem shapes_bindElements (place : Nat) (node : AST) (phase : Option Nat) :
    ∀ (targets values : List AST) (builder : ScopeBuilder),
      (bindElements place node phase targets values builder).shapes = builder.shapes
  | [], values, builder => by simp [bindElements]
  | target :: targets, [], builder => by
    simp only [bindElements]
    rw [shapes_bindElements place node phase targets, shapes_bindTargets place node phase target]
  | target :: targets, value :: values, builder => by
    simp only [bindElements]
    rw [shapes_bindElements place node phase targets, shapes_bindTargets place node phase target]

end

/-- The target of an assignment opens no scope. -/
@[simp]
theorem shapes_bindAssigned (place : Nat) (node : AST) (value : Option AST) (builder : ScopeBuilder)
    (target : AST) : (bindAssigned place node value builder target).shapes = builder.shapes :=
  (shapes_mark _ _ _).trans (shapes_bindTargets place node none target value builder)

/-! ## The way outwards -/

/-- Everything on the way outwards is a scope. -/
theorem inside_of_mem_chainFrom (scopes : List Scope) (fuel place other : Nat)
    (member : other ∈ chainFrom scopes fuel place) : other < scopes.length := by
  induction fuel generalizing place with
  | zero => simp [chainFrom] at member
  | succ fuel inductionHypothesis =>
    simp only [chainFrom] at member
    cases found : scopes[place]? with
    | none => simp [found] at member
    | some scope =>
      simp only [found, List.mem_cons] at member
      rcases member with rfl | later
      · exact (List.getElem?_eq_some_iff.mp found).1
      · cases above : scope.parent with
        | none => simp [above] at later
        | some parent =>
          simp only [above] at later
          exact inductionHypothesis parent later

/-- The scope that a function is opened in is one of the scopes. -/
theorem functionParent_valid (builder : ScopeBuilder) (place : Nat)
    (valid : Valid place builder.shapes) :
    Valid (builder.functionParent place) builder.shapes := by
  have inside (other : Nat) (member : other ∈ builder.chain place) :
      other < builder.shapes.length := by
    simpa [shapes] using inside_of_mem_chainFrom builder.scopes _ place other member
  refine ⟨valid.ordered, ?_⟩
  unfold functionParent
  cases found : (builder.chain place).find? (builder.kindAt · ≠ some .classBody) with
  | some other => exact inside other (List.mem_of_find?_eq_some found)
  | none =>
    have member : (builder.chain place).getLastD place ∈ place :: builder.chain place :=
      List.getLastD_mem_cons
    rw [Option.getD_none]
    rcases List.mem_cons.mp member with same | later
    · rw [same]
      exact valid.inside
    · exact inside _ later

/-- A scope is added at the end. -/
theorem shapes_pushScope (builder : ScopeBuilder) (parent : Nat) (kind : ScopeKind) :
    (builder.pushScope parent kind).shapes = builder.shapes ++ [(some parent, kind)] := by
  simp [shapes, pushScope]

/-- The scope that is pushed is valid behind the push. -/
theorem valid_pushScope (builder : ScopeBuilder) (parent : Nat) (kind : ScopeKind)
    (valid : Valid parent builder.shapes) :
    Valid builder.scopes.length (builder.pushScope parent kind).shapes := by
  rw [shapes_pushScope]
  exact ⟨(Extends.push kind valid).ordered, by simp [shapes]⟩

/-- From a builder whose shapes allow a walk in the scope at a place, a visitor comes
to one whose shapes extend them. -/
def Grows (place : Nat) (builder next : ScopeBuilder) : Prop :=
  Valid place builder.shapes → Extends builder.shapes next.shapes

namespace Grows

variable {place : Nat} {builder middle next : ScopeBuilder}

/-- A builder has grown from itself. -/
theorem refl : Grows place builder builder := Extends.refl

/-- Steps in turn. -/
theorem trans (first : Grows place builder middle) (second : Grows place middle next) :
    Grows place builder next := fun valid =>
  (first valid).trans (second ((first valid).valid valid))

/-- A step that leaves the shapes alone may follow. -/
theorem after (first : Grows place builder middle) (same : next.shapes = middle.shapes) :
    Grows place builder next := by
  unfold Grows at first ⊢
  rwa [same]

/-- A step that opens no scope. -/
theorem same (unchanged : next.shapes = builder.shapes) : Grows place builder next :=
  refl.after unchanged

/-- A visit begins by marking its node. -/
theorem marked (node : AST) : Grows place builder (builder.markNode place node) :=
  refl

/-- A walk in a new scope whose first part may also walk in the scope around it. -/
theorem pushedAround {parent : Nat} (kind : ScopeKind) (first : Grows place builder middle)
    (reachable : Valid place middle.shapes → Valid parent middle.shapes)
    (rest : Valid place (middle.pushScope parent kind).shapes →
      Grows middle.scopes.length (middle.pushScope parent kind) next) :
    Grows place builder next := by
  intro valid
  have validMiddle := (first valid).valid valid
  have push : Extends middle.shapes (middle.pushScope parent kind).shapes := by
    rw [shapes_pushScope]
    exact .push kind (reachable validMiddle)
  have validInner := middle.valid_pushScope parent kind (reachable validMiddle)
  exact ((first valid).trans push).trans (rest (push.valid validMiddle) validInner)

/-- A walk in a new scope below a scope that can be walked in. -/
theorem pushed {parent : Nat} (kind : ScopeKind) (first : Grows place builder middle)
    (reachable : Valid place middle.shapes → Valid parent middle.shapes)
    (rest : Grows middle.scopes.length (middle.pushScope parent kind) next) :
    Grows place builder next :=
  first.pushedAround kind reachable fun _ => rest

end Grows

/-! ## The walk -/

mutual

/-- A visitor extends the shapes.

Proof: by induction on the tree, with one case for each class of nodes. A visitor
composes steps that leave the shapes alone, visits of children, and walks in a
scope that it pushes below one on the way outwards. The last step comes first. -/
theorem visit_grows : ∀ (node : AST) (place : Nat) (builder : ScopeBuilder),
    Grows place builder (visit node place builder)
  | .name _ id ctx, place, builder => by
    simp only [visit]
    split
    · exact .same (shapes_bind _ _ _ _ _ _ _)
    · exact .refl
  | .importStmt _ names, place, builder => by
    simp only [visit]
    refine .after (.after (.marked _) (shapes_foldl _ _ ?_ names)) (shapes_mark _ _ _)
    exact fun current imported => current.shapes_bindImport place _ imported
  | .importFrom _ module names level, place, builder => by
    simp only [visit]
    refine .after (.after (.marked _) (shapes_foldl _ _ ?_ names)) (shapes_mark _ _ _)
    exact fun current imported => current.shapes_bindImportFrom place _ level _ imported
  | .assign _ targets value, place, builder => by
    simp only [visit]
    refine .after (.trans (.marked _) (visit_grows value place _)) (shapes_foldl _ _ ?_ targets)
    exact fun current target => shapes_bindAssigned place _ (some value) current target
  | .annAssign _ target annot value, place, builder => by
    simp only [visit]
    refine .after ?_ (shapes_bindAssigned _ _ _ _ _)
    refine .trans ?_ (visitOpt_grows value place _)
    exact .trans (.marked _) (visit_grows annot place _)
  | .augAssign _ target value, place, builder => by
    simp only [visit]
    refine .after (.trans ?_ (visit_grows value place _)) (shapes_mark _ _ _)
    exact .after (.marked _) (shapes_bindTargets place _ none target none _)
  | .globalStmt _ names, place, builder => by
    simp only [visit]
    exact .after (.after (.marked _) (shapes_declareNames _ _ _)) (shapes_mark _ _ _)
  | .nonlocalStmt _ names, place, builder => by
    simp only [visit]
    exact .after (.after (.marked _) (shapes_declareNames _ _ _)) (shapes_mark _ _ _)
  | .namedExpr _ target value, place, builder => by
    simp only [visit]
    refine .after (.after ?_ (shapes_bindTargets _ _ none target _ _)) (shapes_mark _ _ _)
    exact .trans (.marked _) (visit_grows value place _)
  | .lambda info args body, place, builder => by
    simp only [visit]
    have defaults : Grows place builder (visitDefaults args place
        (builder.markNode place (.lambda info args body))) :=
      .trans (.marked _) (visitDefaults_grows args place _)
    refine defaults.pushed .function (functionParent_valid _ place) ?_
    exact .trans (.same (shapes_visitArguments _ _ _)) (visit_grows body _ _)
  | .comp info kind elt generators, place, builder => by
    simp only [visit]
    refine .pushedAround .comprehension (.marked (.comp info kind elt generators)) (functionParent_valid _ place) fun valid => ?_
    refine .after (.trans ?_ (visit_grows elt _ _)) (shapes_markPhase _ _ _)
    exact visitGenerators_extends generators 0 place _ _ valid
  | .dictComp info key value generators, place, builder => by
    simp only [visit]
    refine .pushedAround .comprehension (.marked (.dictComp info key value generators)) (functionParent_valid _ place) fun valid => ?_
    refine .after (.trans ?_ (visit_grows value _ _)) (shapes_markPhase _ _ _)
    refine .after (.trans ?_ (visit_grows key _ _)) (shapes_markPhase _ _ _)
    exact visitGenerators_extends generators 0 place _ _ valid
  | .functionDef info isAsync name args body decoratorList returns, place, builder => by
    simp only [visit]
    have declared (current : ScopeBuilder) (inner : Nat) :
        ((scopeStatements body).foldl (declareNames inner) current).shapes = current.shapes :=
      current.shapes_foldl _ (fun builder node => builder.shapes_declareNames inner node) _
    have header : Grows place builder (visitOpt returns place (visitAnnotated args place
        (visitDefaults args place (visitAll decoratorList place
          ((builder.markNode place (.functionDef info isAsync name args body decoratorList
            returns)).bind place name none
              (.functionDef info isAsync name args body decoratorList returns)))))) := by
      refine .trans (.trans ?_ (visitAnnotated_grows args place _)) (visitOpt_grows returns place _)
      refine .trans (.trans ?_ (visitAll_grows decoratorList place _))
        (visitDefaults_grows args place _)
      exact .after (.marked _) (shapes_bind _ _ _ _ _ _ _)
    refine header.pushed .function (functionParent_valid _ place) ?_
    refine .after (.trans ?_ (visitAll_grows body _ _)) (shapes_restoreStates _ _)
    exact .after (.same (declared _ _)) (shapes_visitArguments _ _ _)
  | .classDef _ name bases keywords body decoratorList, place, builder => by
    simp only [visit]
    refine .pushed .classBody ?_ id (visitAll_grows body _ _)
    refine .trans (.trans ?_ (visitAll_grows bases place _)) (visitAll_grows keywords place _)
    refine .trans ?_ (visitAll_grows decoratorList place _)
    exact .after (.marked _) (shapes_bind _ _ _ _ _ _ _)
  | .ifStmt info test body orelse, place, builder => by
    simp only [visit]
    have branch : Grows place builder (visitAll body place
        (visit test place (builder.markNode place (.ifStmt info test body orelse)))) :=
      .trans (.trans (.marked _) (visit_grows test place _)) (visitAll_grows body place _)
    split
    · exact .after branch (shapes_joinOutputs _ _ _)
    · refine .after (.trans ?_ (visitAll_grows orelse place _)) (shapes_joinOutputs _ _ _)
      exact .after branch (shapes_restoreStates _ _)
  | .forStmt _ _ target iter body orelse, place, builder => by
    simp only [visit]
    refine .after (.trans ?_ (visitAll_grows orelse place _)) (shapes_joinOutputs _ _ _)
    refine .after (.trans ?_ (visitAll_grows body place _)) (shapes_leaveLoop _ _ _ body)
    refine .after (.after ?_ (shapes_bindTargets _ _ _ target _ _)) (shapes_mark _ _ _)
    exact .after (.trans (.marked _) (visit_grows iter place _)) (shapes_enterLoop _)
  | .whileStmt _ test body orelse, place, builder => by
    simp only [visit]
    refine .after (.trans ?_ (visitAll_grows orelse place _)) (shapes_joinOutputs _ _ _)
    refine .after (.trans ?_ (visitAll_grows body place _)) (shapes_leaveLoop _ _ _ body)
    exact .after (.trans (.marked _) (visit_grows test place _)) (shapes_enterLoop _)
  | .breakStmt _, place, builder => by
    simp only [visit]
    exact .after (.marked _) (shapes_noteExit _ _)
  | .continueStmt _, place, builder => by
    simp only [visit]
    exact .after (.marked _) (shapes_noteExit _ _)
  | .tryStmt _ _ body handlers orelse finalbody, place, builder => by
    simp only [visit]
    generalize bodyVisited : visitBody body place _ _ = visited
    have behindBody : Grows place builder visited.1 :=
      .trans (.marked _) (bodyVisited ▸ visitBody_grows body place _ _)
    generalize normalChosen :
      (if visited.2.2 = true then visitAll orelse place visited.1 else visited.1) = normal
    have behindNormal : Grows place builder normal := by
      subst normalChosen
      split
      · exact behindBody.trans (visitAll_grows orelse place _)
      · exact behindBody
    generalize handlersVisited : visitHandlers handlers place _ _ normal = handled
    have behindHandlers : Grows place builder handled.1 :=
      behindNormal.trans (handlersVisited ▸ visitHandlers_grows handlers place _ _ _)
    have behindFinal (states : List Bindings) :
        Grows place builder (visitAll finalbody place (handled.1.restoreStates states)) :=
      .trans (behindHandlers.after (shapes_restoreStates _ states))
        (visitAll_grows finalbody place _)
    generalize (if visited.2.2 = true then [normal.states _] else []) ++ handled.2.1 = continuing
    split
    · exact behindHandlers.after (shapes_joinOutputs _ _ _)
    · split
      · exact behindFinal _
      · refine .after (.trans ?_ (visitAll_grows finalbody place _)) rfl
        exact .after (behindFinal _) (shapes_restoreStates _ _)
  | .matchStmt _ subject cases, place, builder => by
    simp only [visit]
    refine .after (.trans ?_ (visitCases_grows cases place _ _ _)) (shapes_joinOutputs _ _ _)
    refine .trans ?_ (visitPatterns_grows cases place _)
    exact .trans (.marked _) (visit_grows subject place _)
  | .constant .., place, builder => by
    simp only [visit]
    exact .refl
  | .attribute _ value _, place, builder => by
    simp only [visit]
    exact .trans (.marked _) (visit_grows value place _)
  | .keyword _ _ value, place, builder => by
    simp only [visit]
    exact .trans (.marked _) (visit_grows value place _)
  | .starred _ value, place, builder => by
    simp only [visit]
    exact .trans (.marked _) (visit_grows value place _)
  | .exprStmt _ value, place, builder => by
    simp only [visit]
    exact .trans (.marked _) (visit_grows value place _)
  | .call _ func args keywords, place, builder => by
    simp only [visit]
    refine .trans (.trans ?_ (visitAll_grows args place _)) (visitAll_grows keywords place _)
    exact .trans (.marked _) (visit_grows func place _)
  | .list _ elts, place, builder => by
    simp only [visit]
    exact .trans (.marked _) (visitAll_grows elts place _)
  | .tuple _ elts, place, builder => by
    simp only [visit]
    exact .trans (.marked _) (visitAll_grows elts place _)
  | .ifExp _ test body orelse, place, builder => by
    simp only [visit]
    refine .trans (.trans ?_ (visit_grows body place _)) (visit_grows orelse place _)
    exact .trans (.marked _) (visit_grows test place _)
  | .comprehension _ _ target iter ifs, place, builder => by
    simp only [visit]
    refine .trans (.trans ?_ (visit_grows iter place _)) (visitAll_grows ifs place _)
    exact .trans (.marked _) (visit_grows target place _)
  | .arguments _ posonlyargs args vararg kwonlyargs kwDefaults kwarg defaults, place, builder => by
    simp only [visit]
    refine .trans (.trans ?_ (visitOpt_grows kwarg place _)) (visitAll_grows defaults place _)
    refine .trans (.trans ?_ (visitAll_grows kwonlyargs place _)) (visitAll_grows kwDefaults place _)
    refine .trans (.trans ?_ (visitAll_grows args place _)) (visitOpt_grows vararg place _)
    exact .trans (.marked _) (visitAll_grows posonlyargs place _)
  | .arg _ _ annot, place, builder => by
    simp only [visit]
    exact .trans (.marked _) (visitOpt_grows annot place _)
  | .returnStmt _ value, place, builder => by
    simp only [visit]
    exact .trans (.marked _) (visitOpt_grows value place _)
  | .raiseStmt _ exc cause, place, builder => by
    simp only [visit]
    exact .trans (.trans (.marked _) (visitOpt_grows exc place _)) (visitOpt_grows cause place _)
  | .exceptHandler _ type _ body, place, builder => by
    simp only [visit]
    exact .trans (.trans (.marked _) (visitOpt_grows type place _)) (visitAll_grows body place _)
  | .matchCase _ pattern guard body, place, builder => by
    simp only [visit]
    refine .trans (.trans ?_ (visitOpt_grows guard place _)) (visitAll_grows body place _)
    exact .trans (.marked _) (visit_grows pattern place _)
  | .other _ _ children, place, builder => by
    simp only [visit]
    exact .trans (.marked _) (visitAll_grows children place _)

/-- Nodes in turn. -/
theorem visitAll_grows : ∀ (nodes : List AST) (place : Nat) (builder : ScopeBuilder),
    Grows place builder (visitAll nodes place builder)
  | [], place, builder => by
    simp only [visitAll]
    exact .refl
  | node :: rest, place, builder => by
    simp only [visitAll]
    exact .trans (visit_grows node place _) (visitAll_grows rest place _)

/-- A node that may be left out. -/
theorem visitOpt_grows : ∀ (node : Option AST) (place : Nat) (builder : ScopeBuilder),
    Grows place builder (visitOpt node place builder)
  | none, place, builder => by
    simp only [visitOpt]
    exact .refl
  | some node, place, builder => by
    simp only [visitOpt]
    exact visit_grows node place _

/-- The default values of parameters. -/
theorem visitDefaults_grows : ∀ (args : AST) (place : Nat) (builder : ScopeBuilder),
    Grows place builder (visitDefaults args place builder)
  | args, place, builder => by
    cases args with
    | arguments info posonlyargs args vararg kwonlyargs kwDefaults kwarg defaults =>
      simp only [visitDefaults]
      exact .trans (visitAll_grows defaults place _) (visitAll_grows kwDefaults place _)
    | _ =>
      simp only [visitDefaults]
      exact .refl

/-- The annotations of parameters. -/
theorem visitAnnotated_grows : ∀ (args : AST) (place : Nat) (builder : ScopeBuilder),
    Grows place builder (visitAnnotated args place builder)
  | args, place, builder => by
    cases args with
    | arguments info posonlyargs args vararg kwonlyargs kwDefaults kwarg defaults =>
      simp only [visitAnnotated]
      refine .trans (.trans ?_ (visitAnnotatedOpt_grows vararg place _))
        (visitAnnotatedOpt_grows kwarg place _)
      refine .trans (.trans ?_ (visitAnnotatedAll_grows args place _))
        (visitAnnotatedAll_grows kwonlyargs place _)
      exact visitAnnotatedAll_grows posonlyargs place _
    | arg info name annot =>
      simp only [visitAnnotated]
      exact visitOpt_grows annot place _
    | _ =>
      simp only [visitAnnotated]
      exact .refl

/-- The annotations of a list of parameters. -/
theorem visitAnnotatedAll_grows : ∀ (arguments : List AST) (place : Nat) (builder : ScopeBuilder),
    Grows place builder (visitAnnotatedAll arguments place builder)
  | [], place, builder => by
    simp only [visitAnnotatedAll]
    exact .refl
  | argument :: rest, place, builder => by
    simp only [visitAnnotatedAll]
    exact .trans (visitAnnotated_grows argument place _) (visitAnnotatedAll_grows rest place _)

/-- The annotation of a parameter that may be left out. -/
theorem visitAnnotatedOpt_grows : ∀ (argument : Option AST) (place : Nat) (builder : ScopeBuilder),
    Grows place builder (visitAnnotatedOpt argument place builder)
  | none, place, builder => by
    simp only [visitAnnotatedOpt]
    exact .refl
  | some argument, place, builder => by
    simp only [visitAnnotatedOpt]
    exact visitAnnotated_grows argument place _

/-- The first iterable is visited outside of the comprehension, and the rest inside. -/
theorem visitGenerators_extends : ∀ (generators : List AST) (index place inner : Nat)
    (builder : ScopeBuilder), Valid place builder.shapes → Valid inner builder.shapes →
      Extends builder.shapes (visitGenerators generators index place inner builder).shapes
  | [], index, place, inner, builder, valid, _ => by
    simp only [visitGenerators]
    exact .refl valid
  | generator :: rest, index, place, inner, builder, valid, validInner => by
    simp only [visitGenerators]
    have first := visitGenerator_extends generator index place inner builder valid validInner
    exact first.trans (visitGenerators_extends rest (index + 1) place inner _ (first.valid valid)
      (first.valid validInner))

/-- One generator, part of which is visited around the scope of the comprehension. -/
theorem visitGenerator_extends : ∀ (generator : AST) (index place inner : Nat)
    (builder : ScopeBuilder), Valid place builder.shapes → Valid inner builder.shapes →
      Extends builder.shapes (visitGenerator generator index place inner builder).shapes
  | generator, index, place, inner, builder, valid, validInner => by
    cases generator with
    | comprehension info isAsync target iter ifs =>
      simp only [visitGenerator]
      have reachable : Valid (if index = 0 then place else inner) builder.shapes := by
        split <;> assumption
      have first := visit_grows iter _ builder reachable
      refine first.trans (Grows.trans ?_ (visitConditions_grows ifs inner (index + 1) _)
        (first.valid validInner))
      refine .after (.after ?_ (shapes_bindTargets _ _ _ target _ _)) (shapes_mark _ _ _)
      exact .same (shapes_markPhase _ index iter)
    | _ =>
      simp only [visitGenerator]
      exact .refl valid

/-- The conditions of a generator. -/
theorem visitConditions_grows : ∀ (conditions : List AST) (place phase : Nat)
    (builder : ScopeBuilder), Grows place builder (visitConditions conditions place phase builder)
  | [], place, phase, builder => by
    simp only [visitConditions]
    exact .refl
  | condition :: rest, place, phase, builder => by
    simp only [visitConditions]
    refine .trans ?_ (visitConditions_grows rest place phase _)
    exact .after (visit_grows condition place _) (shapes_markPhase _ _ _)

/-- A `try` body or the body of a handler, as far as it is completed. -/
theorem visitBody_grows : ∀ (statements : List AST) (place tracked : Nat) (builder : ScopeBuilder),
    Grows place builder (visitBody statements place tracked builder).1
  | [], place, tracked, builder => by
    simp only [visitBody]
    exact .refl
  | statement :: rest, place, tracked, builder => by
    simp only [visitBody]
    split
    · exact .trans (visit_grows statement place _) (visitBody_grows rest place tracked _)
    · exact visit_grows statement place _

/-- The handlers, each from the same states. -/
theorem visitHandlers_grows : ∀ (handlers : List AST) (place tracked : Nat) (entry : List Bindings)
    (builder : ScopeBuilder),
      Grows place builder (visitHandlers handlers place tracked entry builder).1
  | [], place, tracked, entry, builder => by
    simp only [visitHandlers]
    exact .refl
  | handler :: rest, place, tracked, entry, builder => by
    have visited := Grows.trans (.same (builder.shapes_restoreStates entry))
      (visitHandler_grows handler place tracked (builder.restoreStates entry))
    have later := visited.trans (visitHandlers_grows rest place tracked entry _)
    simp only [visitHandlers]
    split <;> exact later

/-- One handler with its name. -/
theorem visitHandler_grows : ∀ (handler : AST) (place tracked : Nat) (builder : ScopeBuilder),
    Grows place builder (visitHandler handler place tracked builder).1
  | handler, place, tracked, builder => by
    cases handler with
    | exceptHandler info type name body =>
      cases name with
      | none =>
        simp only [visitHandler]
        refine .trans ?_ (visitBody_grows body place tracked _)
        exact .trans (.marked _) (visitOpt_grows type place _)
      | some name =>
        simp only [visitHandler]
        refine .after (.trans ?_ (visitBody_grows body place tracked _)) (shapes_unbind _ _ _)
        exact .after (.trans (.marked _) (visitOpt_grows type place _)) (shapes_bind _ _ _ _ _ _ _)
    | _ =>
      simp only [visitHandler]
      exact .refl

/-- The patterns and guards of all cases. -/
theorem visitPatterns_grows : ∀ (cases : List AST) (place : Nat) (builder : ScopeBuilder),
    Grows place builder (visitPatterns cases place builder)
  | [], place, builder => by
    simp only [visitPatterns]
    exact .refl
  | case :: rest, place, builder => by
    simp only [visitPatterns]
    exact .trans (visitPattern_grows case place _) (visitPatterns_grows rest place _)

/-- One pattern with its guard. -/
theorem visitPattern_grows : ∀ (case : AST) (place : Nat) (builder : ScopeBuilder),
    Grows place builder (visitPattern case place builder)
  | case, place, builder => by
    cases case with
    | matchCase info pattern guard body =>
      simp only [visitPattern]
      exact .trans (visit_grows pattern place _) (visitOpt_grows guard place _)
    | _ =>
      simp only [visitPattern]
      exact .refl

/-- The bodies of the cases, each from the same states. -/
theorem visitCases_grows : ∀ (cases : List AST) (place tracked : Nat) (incoming : List Bindings)
    (builder : ScopeBuilder),
      Grows place builder (visitCases cases place tracked incoming builder).1
  | [], place, tracked, incoming, builder => by
    simp only [visitCases]
    exact .refl
  | case :: rest, place, tracked, incoming, builder => by
    simp only [visitCases]
    refine .trans (.trans ?_ (visitCase_grows case place tracked _))
      (visitCases_grows rest place tracked incoming _)
    exact .same (shapes_restoreStates _ incoming)

/-- The body of one case. -/
theorem visitCase_grows : ∀ (case : AST) (place tracked : Nat) (builder : ScopeBuilder),
    Grows place builder (visitCase case place tracked builder).1
  | case, place, tracked, builder => by
    cases case with
    | matchCase info pattern guard body =>
      simp only [visitCase]
      exact visitAll_grows body place _
    | _ =>
      simp only [visitCase]
      exact .refl

end

/-! ## The way outwards in ordered scopes -/

section Outwards

variable (builder : ScopeBuilder) (ordered : Ordered builder.shapes)

include ordered

/-- A parent comes before the scope that is opened in it. -/
theorem parent_lt (place parent : Nat) (scope : Scope) (found : builder.scopes[place]? = some scope)
    (above : scope.parent = some parent) : parent < place := by
  refine ordered place parent scope.kind ?_
  simp [shapes, found, above]

/-- Any number of steps that is large enough gives the whole way.

Proof: by induction on one number of steps; the parent of a scope comes before it. -/
theorem chainFrom_congr (fuel other place : Nat) (enough : place < fuel) (enoughOther : place < other) :
    chainFrom builder.scopes fuel place = chainFrom builder.scopes other place := by
  induction fuel generalizing place other with
  | zero => omega
  | succ fuel inductionHypothesis =>
    obtain ⟨rest, rfl⟩ : ∃ rest, other = rest + 1 := ⟨other - 1, by omega⟩
    simp only [chainFrom]
    cases found : builder.scopes[place]? with
    | none => rfl
    | some scope =>
      cases above : scope.parent with
      | none => simp only [above]
      | some parent =>
        have earlier := builder.parent_lt ordered place parent scope found above
        simp only [above]
        rw [inductionHypothesis rest parent (by omega) (by omega)]

/-- The way outwards goes through the parent. -/
theorem chain_eq (place : Nat) (scope : Scope) (found : builder.scopes[place]? = some scope) :
    builder.chain place = place :: (scope.parent.map builder.chain).getD [] := by
  have unfolded : builder.chain place = chainFrom builder.scopes (place + 1) place := rfl
  rw [unfolded]
  simp only [chainFrom, found]
  cases above : scope.parent with
  | none => rfl
  | some parent =>
    have earlier := builder.parent_lt ordered place parent scope found above
    simp only [Option.map_some, Option.getD_some]
    rw [builder.chainFrom_congr ordered place (parent + 1) parent earlier (by omega)]
    rfl

end Outwards

end ScopeBuilder

/-- The scopes of a module are ordered.

Proof: the walk starts with the module alone, which has no parent. -/
theorem ordered_scopes (tree : List AST) (moduleName : List String) (isPackage : Bool) :
    Ordered (scopes tree moduleName isPackage).shapes := by
  have start : Valid 0 [((none : Option Nat), ScopeKind.module)] := by
    refine ⟨fun place parent kind found => ?_, by simp⟩
    cases place with
    | zero => simp at found
    | succ place => simp at found
  have grown := ScopeBuilder.visitAll_grows tree 0
    { moduleName := moduleName, isPackage := isPackage,
      scopes := [{ parent := none, kind := .module }] }
  exact (grown start).ordered

end VirtTestTools.Policy
