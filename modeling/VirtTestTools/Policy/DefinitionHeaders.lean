import VirtTestTools.Policy.HeaderScripts
import VirtTestTools.Policy.ResourceClients
import VirtTestTools.Policy.StatementEntries

/-!
# Headers of definitions

Python evaluates the header of a definition, and what an augmented assignment adds, before the
name is bound. The builder binds the name first. So what is recorded at a load in the header is
what was active before the statement as long as the load is spared: the statement does not bind
the name of the load itself, and no assignment expression in the header has bound it by then.
-/

namespace VirtTestTools.Policy

open BindingPaths

/-! ## Headers -/

/-- The header of a definition, or what an augmented assignment adds. -/
def headerParts : AST → List AST
  | .functionDef _ _ _ args _ decoratorList returns =>
    decoratorList ++ defaultParts args ++ annotationParts args ++ returns.toList
  | .classDef _ _ bases keywords _ decoratorList => decoratorList ++ bases ++ keywords
  | .augAssign _ _ value => [value]
  | _ => []

/-- The names that such a statement binds. -/
def boundNames : AST → List String
  | .functionDef _ _ name _ _ _ _ => [name]
  | .classDef _ name _ _ _ _ => [name]
  | node@(.augAssign _ target _) => (targetSites node target none).map Prod.fst
  | _ => []

/-- What the builder does to names at such a statement of the module, in its order. -/
def headerScript (statement : AST) : Script String :=
  .seq (.emit ((boundNames statement).map (Event.bind · 0))) (scriptAll (headerParts statement) 0 0)

/-- The load is spared: where it is evaluated, its name has not been bound since the statement was
entered. In a scope of the header this says that the name had no bindings before. -/
def Spared (statement : AST) (builder : ScopeBuilder) (point : Nat) (name : String) : Prop :=
  ∃ before place after,
    (headerScript statement builder.scopes.length).1 =
        before ++ .load point name place :: after ∧
      (∀ event ∈ after, ¬event.LoadsAt point) ∧ .bind name place ∉ before ∧
        (place = 0 ∨ builder.active name = [])

/-! ## Loads in scripts -/

/-- The loads among some events are at names of some trees. -/
def Named (nodes : List AST) (events : List (Event String)) : Prop :=
  ∀ point name place, .load point name place ∈ events →
    ∃ info ctx, info.id = point ∧ .name info name ctx ∈ AST.preorderAll nodes

/-- A script loads at the point, wherever it starts. -/
def Loads (point : Nat) (script : Script String) : Prop :=
  ∀ next, ∃ event ∈ (script next).1, event.LoadsAt point

section

variable {roots nodes : List AST} {point : Nat} {place outer : Nat} {first second : Script String}

/-- Two lists of named events, one behind the other, are named. -/
theorem Named.append {events more : List (Event String)} (named : Named roots events)
    (namedMore : Named roots more) : Named roots (events ++ more) := fun point name place inside =>
  (List.mem_append.mp inside).elim (named point name place) (namedMore point name place)

/-- Bindings load nothing. -/
theorem Named.bound (scope : Nat) (sites : List (String × Site)) :
    Named roots (bindEvents scope sites) := by
  intro point name place inside
  obtain ⟨site, -, same⟩ := List.mem_map.mp inside
  cases same

/-- The bindings of parameters load nothing. -/
theorem Named.parameters (scope : Nat) (arguments : AST) :
    Named roots (parameterEvents scope arguments) := by
  intro point name place inside
  obtain ⟨argument, -, same⟩ := List.mem_filterMap.mp inside
  cases argument <;> simp at same

/-- The events of nodes in turn are named when those of each node are. -/
theorem named_scriptAll
    (each : ∀ node ∈ nodes, ∀ place outer next, Named roots (script node place outer next).1)
    (place outer next : Nat) : Named roots (scriptAll nodes place outer next).1 := by
  induction nodes generalizing next with
  | nil => exact nofun
  | cons node rest inductionHypothesis =>
    obtain ⟨here, others⟩ := List.forall_mem_cons.mp each
    exact (here place outer next).append (inductionHypothesis others _)

/-- The events of generators are named when those of their parts are. -/
theorem named_scriptGenerators
    (each : ∀ node ∈ nodes.flatMap (generatorParts false), ∀ place outer next,
      Named roots (script node place outer next).1)
    (atFirst : Bool) (place inner outer next : Nat) :
    Named roots (scriptGenerators nodes atFirst place inner outer next).1 := by
  induction nodes generalizing atFirst next with
  | nil => exact nofun
  | cons generator rest inductionHypothesis =>
    rw [List.flatMap_cons, List.forall_mem_append] at each
    refine .append ?_ (inductionHypothesis each.2 false _)
    cases generator with
    | comprehension info isAsync target iter ifs =>
      obtain ⟨iterNamed, ifsNamed⟩ := List.forall_mem_cons.mp each.1
      exact (iterNamed _ _ _).append ((Named.bound _ _).append (named_scriptAll ifsNamed _ _ _))
    | _ => exact nofun

/-- The loads of an expression are at its names.

Proof: by induction on the expression. -/
theorem Expression.named {node : AST} (expression : Expression node)
    (listed : node ∈ AST.preorderAll roots) (place outer next : Nat) :
    Named roots (script node place outer next).1 := by
  have below {node part : AST} (listed : node ∈ AST.preorderAll roots)
      (inside : part ∈ visitedParts node) : part ∈ AST.preorderAll roots :=
    AST.preorder_subset_preorderAll listed
      (AST.descendants_subset node (visitedParts_subset node inside))
  induction expression generalizing place outer next with
  | name info id =>
    intro point loaded scope inside
    obtain ⟨rfl, rfl, rfl⟩ := Event.load.inj (List.mem_singleton.mp inside)
    exact ⟨info, .load, rfl, listed⟩
  | constant => exact nofun
  | member info attr inner inductionHypothesis | keyword info arg inner inductionHypothesis =>
    exact inductionHypothesis (below listed (List.mem_singleton_self _)) place outer next
  | starred info inner inductionHypothesis =>
    exact inductionHypothesis (below listed (List.mem_singleton_self _)) place outer next
  | @call func args keywords info called positional named calledNamed positionalNamed namedNamed =>
    have each (part : AST) (inside : part ∈ func :: args ++ keywords) : part ∈ AST.preorderAll roots :=
      below listed inside
    refine .append (calledNamed (each func (by simp)) _ _ _) (.append ?_ ?_)
    · exact named_scriptAll (fun part inside => positionalNamed part inside (each part (by simp [inside]))) _ _ _
    · exact named_scriptAll (fun part inside => namedNamed part inside (each part (by simp [inside]))) _ _ _
  | list info parts named | tuple info parts named =>
    exact named_scriptAll (fun part inside => named part inside (below listed inside)) place outer next
  | other info cls expression parts named =>
    exact named_scriptAll (fun part inside => named part inside (below listed inside)) place outer next
  | @ifExp test body orelse info tested first second testNamed firstNamed secondNamed =>
    have each (part : AST) (inside : part ∈ [test, body, orelse]) : part ∈ AST.preorderAll roots :=
      below listed inside
    exact .append (testNamed (each test (by simp)) _ _ _)
      (.append (firstNamed (each body (by simp)) _ _ _) (secondNamed (each orelse (by simp)) _ _ _))
  | namedExpr info target inner inductionHypothesis =>
    exact (inductionHypothesis (below listed (List.mem_singleton_self _)) _ _ _).append (.bound _ _)
  | lambda info defaults inner defaultsNamed inductionHypothesis =>
    rw [script, scriptDefaults_eq]
    refine .append (named_scriptAll (fun part inside => ?_) _ _ _) (.append (.parameters _ _) ?_)
    · exact defaultsNamed part inside (below listed (List.mem_append_left _ inside))
    · exact inductionHypothesis
        (below listed (List.mem_append_right _ (List.mem_singleton_self _))) _ _ _
  | comp info kind parts inner partsNamed inductionHypothesis =>
    refine .append (named_scriptGenerators (fun part inside => ?_) _ _ _ _ _) ?_
    · exact partsNamed part inside (below listed (List.mem_append_left _ inside))
    · exact inductionHypothesis
        (below listed (List.mem_append_right _ (List.mem_singleton_self _))) _ _ _
  | dictComp info parts first second partsNamed firstNamed secondNamed =>
    refine .append (named_scriptGenerators (fun part inside => ?_) _ _ _ _ _) (.append ?_ ?_)
    · exact partsNamed part inside (below listed (List.mem_append_left _ inside))
    · exact firstNamed (below listed (List.mem_append_right _ (List.mem_cons_self ..))) _ _ _
    · exact secondNamed (below listed (List.mem_append_right _
        (List.mem_cons_of_mem _ (List.mem_singleton_self _)))) _ _ _

/-! ## What is evaluated is loaded -/

/-- A load in the first of two scripts. -/
theorem Loads.before (loads : Loads point first) : Loads point (first.seq second) := by
  intro next
  obtain ⟨event, inside, here⟩ := loads next
  exact ⟨event, List.mem_append_left _ inside, here⟩

/-- A load in the second of two scripts. -/
theorem Loads.behind (loads : Loads point second) : Loads point (first.seq second) := by
  intro next
  obtain ⟨event, inside, here⟩ := loads (first next).2
  exact ⟨event, List.mem_append_right _ inside, here⟩

/-- A load in a scope that is opened. -/
theorem Loads.opened {scripts : Nat → Script String} (loads : ∀ inner, Loads point (scripts inner)) :
    Loads point (.opened scripts) := fun next => loads next (next + 1)

/-- A node that loads the point makes the nodes in turn load it. -/
theorem loads_scriptAll {node : AST} (inside : node ∈ nodes)
    (loads : ∀ place outer, Loads point (script node place outer)) (place outer : Nat) :
    Loads point (scriptAll nodes place outer) := by
  induction nodes with
  | nil => cases inside
  | cons first rest inductionHypothesis =>
    obtain rfl | inside := List.mem_cons.mp inside
    · exact (loads place outer).before
    · exact (inductionHypothesis inside).behind

/-- A part that loads the point makes the generators load it. -/
theorem loads_scriptGenerators {node : AST} (inside : node ∈ nodes.flatMap (generatorParts false))
    (loads : ∀ place outer, Loads point (script node place outer)) (atFirst : Bool)
    (place inner outer : Nat) :
    Loads point (scriptGenerators nodes atFirst place inner outer) := by
  induction nodes generalizing atFirst with
  | nil => cases inside
  | cons generator rest inductionHypothesis =>
    obtain here | inside := List.mem_append.mp inside
    · refine .before ?_
      cases generator with
      | comprehension info isAsync target iter ifs =>
        obtain rfl | condition := List.mem_cons.mp here
        · exact (loads _ _).before
        · exact (Loads.behind (loads_scriptAll condition loads inner outer)).behind
      | _ => cases here
    · exact (inductionHypothesis inside false).behind

/-- The names that the visit of an expression comes to are loaded.

Proof: by induction on the expression. -/
theorem Expression.loads {node : AST} (expression : Expression node) (evaluates : Evaluates point node)
    (place outer : Nat) : Loads point (script node place outer) := by
  induction expression generalizing place outer with
  | name info id =>
    cases evaluates with
    | name _ _ _ here =>
      exact fun next => ⟨_, List.mem_singleton_self _, id, place, here ▸ rfl⟩
    | part inside below => cases inside
  | constant info value =>
    cases evaluates with
    | part inside below => cases inside
  | member info attr inner inductionHypothesis | keyword info arg inner inductionHypothesis =>
    cases evaluates with
    | part inside below =>
      obtain rfl := List.mem_singleton.mp inside
      exact inductionHypothesis below place outer
  | starred info inner inductionHypothesis =>
    cases evaluates with
    | part inside below =>
      obtain rfl := List.mem_singleton.mp inside
      exact inductionHypothesis below place outer
  | call info called positional named calledLoads positionalLoads namedLoads =>
    cases evaluates with
    | part inside below =>
      obtain inside | inside := List.mem_append.mp inside
      · obtain rfl | inside := List.mem_cons.mp inside
        · exact (calledLoads below place outer).before
        · exact .behind (.before (loads_scriptAll inside (positionalLoads _ inside below) place outer))
      · exact .behind (.behind (loads_scriptAll inside (namedLoads _ inside below) place outer))
  | list info parts loads | tuple info parts loads =>
    cases evaluates with
    | part inside below => exact loads_scriptAll inside (loads _ inside below) place outer
  | other info cls expression parts loads =>
    cases evaluates with
    | part inside below => exact loads_scriptAll inside (loads _ inside below) place outer
  | ifExp info tested first second testLoads firstLoads secondLoads =>
    cases evaluates with
    | part inside below =>
      obtain rfl | inside := List.mem_cons.mp inside
      · exact (testLoads below place outer).before
      · obtain rfl | inside := List.mem_cons.mp inside
        · exact .behind (firstLoads below place outer).before
        · obtain rfl := List.mem_singleton.mp inside
          exact .behind (secondLoads below place outer).behind
  | namedExpr info target inner inductionHypothesis =>
    cases evaluates with
    | part inside below =>
      obtain rfl := List.mem_singleton.mp inside
      exact (inductionHypothesis below place outer).before
  | lambda info defaults inner defaultsLoads inductionHypothesis =>
    cases evaluates with
    | part inside below =>
      rw [script, scriptDefaults_eq]
      obtain inside | inside := List.mem_append.mp inside
      · exact .before (loads_scriptAll inside (defaultsLoads _ inside below) place outer)
      · obtain rfl := List.mem_singleton.mp inside
        exact .behind (.opened fun scope => .behind (inductionHypothesis below scope scope))
  | comp info kind parts inner partsLoads inductionHypothesis =>
    cases evaluates with
    | part inside below =>
      refine .opened fun scope => ?_
      obtain inside | inside := List.mem_append.mp inside
      · exact .before (loads_scriptGenerators inside (partsLoads _ inside below) true place scope outer)
      · obtain rfl := List.mem_singleton.mp inside
        exact .behind (inductionHypothesis below scope outer)
  | dictComp info parts first second partsLoads firstLoads secondLoads =>
    cases evaluates with
    | part inside below =>
      refine .opened fun scope => ?_
      obtain inside | inside := List.mem_append.mp inside
      · exact .before (loads_scriptGenerators inside (partsLoads _ inside below) true place scope outer)
      · obtain rfl | inside := List.mem_cons.mp inside
        · exact .behind (firstLoads below scope outer).before
        · obtain rfl := List.mem_singleton.mp inside
          exact .behind (secondLoads below scope outer).behind

end

/-! ## The visit of a definition -/

section

variable {statement : AST} {builder middle next : ScopeBuilder} {info : Info} {name : String} {point : Nat}

/-- The scope of the module is there. -/
theorem Entered.inside (entered : Entered builder) : 0 < builder.scopes.length := by
  have inside := (List.getElem?_eq_some_iff.mp entered.root).1
  simpa [ScopeBuilder.shapes] using inside

/-- A builder inside of the module is ready for a header. -/
theorem Entered.ready (entered : Entered builder) : Ready builder.scopes.length builder where
  root := entered.root
  ordered := entered.ordered
  started := Nat.le_refl _
  clear place scope opened found := by
    rw [List.getElem?_eq_none opened] at found
    cases found

/-- A header is evaluated in the module scope. -/
theorem Entered.stands (entered : Entered builder) : Stands builder.scopes.length builder 0 0 := by
  have shape := entered.root
  rw [ScopeBuilder.shapes, List.getElem?_map, Option.map_eq_some_iff] at shape
  obtain ⟨scope, found, same⟩ := shape
  have outermost : scope.parent = none := congrArg Prod.fst same
  have module : scope.kind = .module := congrArg Prod.snd same
  have chained := builder.chain_eq entered.ordered 0 _ found
  rw [outermost] at chained
  have kind : builder.kindAt 0 = some .module := by
    rw [ScopeBuilder.kindAt, found, Option.map_some, module]
  refine ⟨entered.inside, entered.inside, .inl rfl, .inl rfl, ?_, ?_⟩
  · simp [ScopeBuilder.functionParent, chained, kind]
  · simp [ScopeBuilder.walrusScope, chained, kind]

/-- The parts of a header belong to the scope around the definition. -/
theorem headerParts_subset_ownParts (statement : AST) : headerParts statement ⊆ ownParts statement := by
  cases statement with
  | functionDef | classDef | augAssign => exact List.Subset.refl _
  | _ => exact List.nil_subset _

/-- The parts of a header are parts of the definition. -/
theorem headerParts_subset (statement : AST) : headerParts statement ⊆ statement.descendants :=
  List.Subset.trans (headerParts_subset_ownParts statement) (ownParts_subset statement)

/-- Names are bound before the header is visited. -/
theorem Entered.header {first : Script String} (entered : Entered builder)
    (each : ∀ part ∈ headerParts statement, Expression part)
    (bound : Performs builder.scopes.length name point first builder next) :
    Performs builder.scopes.length name point
      (first.seq (scriptAll (headerParts statement) 0 0)) builder
      (ScopeBuilder.visitAll (headerParts statement) 0 next) :=
  bound.followed fun later extended => performs_visitAll _ (fun part inside => (each part inside).scripted)
    later (entered.stands.extended entered.ready extended)

/-- The binding of a definition performs its event. -/
theorem Entered.binds (entered : Entered builder) (node : AST) (bound : String)
    (importedName : Option (List String)) :
    Performs builder.scopes.length name point (.emit [.bind bound 0]) builder
      ((builder.markNode 0 node).bind 0 bound none node importedName) :=
  .marked entered.ready 0 node fun later extended =>
    .bind later (inside_of_extends entered.inside extended) (.inl rfl) bound none node importedName none

/-- The binding of a definition keeps what the builder has made. -/
theorem made_bound (made : Made builder) (node : AST) (bound : String)
    (importedName : Option (List String)) :
    Made ((builder.markNode 0 node).bind 0 bound none node importedName) :=
  have marked : Keeps anywhere builder (builder.markNode 0 node) := .markNode made 0 node
  (marked.trans (.bind marked.made 0 bound none node importedName none)).made

/-- The body of a definition stands elsewhere than its header. -/
theorem outside_body (distinct : AST.Distinct [statement])
    (placed : point ∈ AST.points (headerParts statement)) :
    point ∉ AST.points (nestedParts statement) :=
  outside_nestedParts distinct (AST.points_subset (headerParts_subset_ownParts statement) placed)

/-- The builder performs the script of the header, and the body leaves alone what is recorded there. -/
theorem Entered.performs (entered : Entered builder) (distinct : AST.Distinct [statement])
    (each : ∀ part ∈ headerParts statement, Expression part)
    (placed : point ∈ AST.points (headerParts statement)) :
    ∃ middle, Performs builder.scopes.length name point (headerScript statement) builder middle ∧
      Keeps (besides point) middle (ScopeBuilder.visit statement 0 builder) := by
  have outside := fun inner : Nat => @visited_outside point _ inner (outside_body distinct placed)
  cases statement with
  | functionDef info isAsync bound args body decoratorList returns =>
    refine ⟨_, entered.header each (entered.binds (.functionDef info isAsync bound args body
      decoratorList returns) bound none), ?_⟩
    have visited := keeps_any (headerParts (.functionDef info isAsync bound args body decoratorList returns))
      (made_bound entered.made (.functionDef info isAsync bound args body decoratorList returns) bound
        none)
    simp only [ScopeBuilder.visit, Watch.visitDefaults_eq, Watch.visitAnnotated_eq, Watch.visitOpt_eq,
      ← Watch.visitAll_append]
    exact keeps_functionBody (fun inner _ => outside inner) args 0 visited.made
  | classDef info bound bases keywords body decoratorList =>
    refine ⟨_, entered.header each (entered.binds (.classDef info bound bases keywords body
      decoratorList) bound (some ["<local>", bound])), ?_⟩
    have visited := keeps_any (headerParts (.classDef info bound bases keywords body decoratorList))
      (made_bound entered.made (.classDef info bound bases keywords body decoratorList) bound
        (some ["<local>", bound]))
    simp only [ScopeBuilder.visit, ← Watch.visitAll_append]
    have pushed : Keeps (besides point) _ _ := .pushScope visited.made 0 .classBody
    exact pushed.trans (keeps_visitAll _ (outside _) pushed.made)
  | augAssign info target value =>
    have events : (boundNames (.augAssign info target value)).map (Event.bind · 0) =
        bindEvents 0 (targetSites (.augAssign info target value) target none) := List.map_map ..
    have bound : Performs builder.scopes.length name point
        (.emit (bindEvents 0 (targetSites (.augAssign info target value) target none))) builder
        (ScopeBuilder.bindTargets 0 (.augAssign info target value) none target none
          (builder.markNode 0 (.augAssign info target value))) :=
      .marked entered.ready 0 _ fun later extended => performs_bindTargets (.inl rfl) _ none target none _
        later (inside_of_extends entered.inside extended)
    have marked : Keeps anywhere builder (builder.markNode 0 (.augAssign info target value)) :=
      .markNode entered.made 0 _
    have assigned := marked.trans (keeps_bindTargets 0 (.augAssign info target value) none target none _
      marked.made)
    refine ⟨_, entered.header each (events ▸ bound), ?_⟩
    simp only [ScopeBuilder.visit]
    exact .mark (keeps_any [value] assigned.made).made 0 target
  | _ => cases placed

/-- What a visit of the statement comes to in the header is loaded there. -/
theorem loads_headerScript (distinct : AST.Distinct [statement])
    (each : ∀ part ∈ headerParts statement, Expression part)
    (placed : point ∈ AST.points (headerParts statement)) (evaluates : Evaluates point statement) :
    Loads point (headerScript statement) := by
  have outside := outside_body distinct placed
  have header (part : AST) (inside : part ∈ headerParts statement) (below : Evaluates point part) :
      Loads point (headerScript statement) :=
    .behind (loads_scriptAll inside ((each part inside).loads below) 0 0)
  have nested (part : AST) (inside : part ∈ nestedParts statement) : ¬Evaluates point part :=
    fun below => outside (AST.points_mono (AST.preorderAll_singleton_subset inside) below.mem_points)
  cases evaluates with
  | name info id ctx here => cases placed
  | @part _ part inside below =>
    cases statement with
    | functionDef info isAsync bound args body decoratorList returns =>
      exact (List.mem_append.mp inside).elim (header part · below) fun inBody =>
        absurd below (nested part inBody)
    | classDef info bound bases keywords body decoratorList =>
      simp only [visitedParts, AST.children, List.mem_append] at inside
      obtain ((based | keyed) | inBody) | decorates := inside
      · exact header part (by simp [headerParts, based]) below
      · exact header part (by simp [headerParts, keyed]) below
      · exact absurd below (nested part inBody)
      · exact header part (by simp [headerParts, decorates]) below
    | augAssign info target value => exact header part inside below
    | _ => cases placed

/-- Bindings that are active have been made. -/
theorem Made.active_lt (made : Made builder) {binding : Binding} (inside : binding ∈ builder.active name) :
    binding.key < builder.nextKey := by
  rw [ScopeBuilder.active] at inside
  cases found : builder.scopes[0]? with
  | none =>
    rw [found] at inside
    cases inside
  | some scope =>
    rw [found] at inside
    exact made.keyed 0 binding (made.active 0 _ (by rw [List.getElem?_map, found, Option.map_some]) name
      binding inside)

/-- The loads at a name of the header are loads of that name. -/
theorem load_headerScript (distinct : AST.Distinct [statement])
    (each : ∀ part ∈ headerParts statement, Expression part)
    (placed : .name info name .load ∈ AST.preorderAll (headerParts statement)) {next place : Nat}
    {loaded : String} (inside : .load info.id loaded place ∈ (headerScript statement next).1) :
    loaded = name := by
  have named : Named (headerParts statement) (scriptAll (headerParts statement) 0 0 next).1 :=
    named_scriptAll (fun part inside => (each part inside).named
      (AST.mem_preorderAll.mpr ⟨part, inside, AST.mem_preorder_self part⟩)) 0 0 next
  obtain bound | evaluated := List.mem_append.mp inside
  · obtain ⟨other, -, same⟩ := List.mem_map.mp bound
    cases same
  · have within := AST.preorderAll_descendants_subset (headerParts_subset statement)
    obtain ⟨other, ctx, here, listed⟩ := named info.id loaded place evaluated
    have same : AST.name other loaded ctx = .name info name .load :=
      distinct.eq_of_id (within listed) (within placed) here
    exact (AST.name.inj same).2.1

/-- At a name that the visit of the statement comes to, bindings are recorded. -/
theorem Entered.recorded (entered : Entered builder) (distinct : AST.Distinct [statement])
    (each : ∀ part ∈ headerParts statement, Expression part)
    (placed : .name info name .load ∈ AST.preorderAll (headerParts statement))
    (evaluates : Evaluates info.id statement) :
    (ScopeBuilder.visit statement 0 builder).nodeBindings.get info.id ≠ none := by
  have point : info.id ∈ AST.points (headerParts statement) := List.mem_map.mpr ⟨_, placed, rfl⟩
  obtain ⟨middle, performs, keeps⟩ := entered.performs distinct each point
  have runs : Runs builder.scopes.length name info.id _ builder middle := performs.runs
  obtain ⟨before, other, place, after, split, last⟩ :=
    exists_last_load (loads_headerScript distinct each point evaluates builder.scopes.length)
  have inside : .load info.id other place ∈ (headerScript statement builder.scopes.length).1 := by
    rw [split]
    exact List.mem_append_right _ (List.mem_cons_self ..)
  obtain rfl := load_headerScript distinct each placed inside
  obtain ⟨bindings, found, -⟩ := runs.recorded before place after split last
  rw [keeps.record info.id fun _ outside => outside rfl, found]
  nofun

/-- At a load in the header of a definition or at the right of an augmented assignment, the bindings
from before the statement are recorded if and only if the load is spared. -/
theorem Entered.recorded_iff_spared (entered : Entered builder) (distinct : AST.Distinct [statement])
    (each : ∀ part ∈ headerParts statement, Expression part)
    (placed : .name info name .load ∈ AST.preorderAll (headerParts statement))
    (unrecorded : builder.nodeBindings.get info.id = none) :
    (ScopeBuilder.visit statement 0 builder).nodeBindings.get info.id = some (builder.active name) ↔
      Spared statement builder info.id name := by
  have point : info.id ∈ AST.points (headerParts statement) := List.mem_map.mpr ⟨_, placed, rfl⟩
  obtain ⟨middle, performs, keeps⟩ := entered.performs distinct each point
  have behind : (ScopeBuilder.visit statement 0 builder).nodeBindings.get info.id =
      middle.nodeBindings.get info.id := keeps.record info.id fun _ outside => outside rfl
  have runs : Runs builder.scopes.length name info.id _ builder middle := performs.runs
  -- in a scope of the header no names were bound before
  have unbound {place : Nat} (opened : builder.scopes.length ≤ place) : builder.activeAt place name = [] := by
    rw [ScopeBuilder.activeAt, List.getElem?_eq_none opened]
    rfl
  rw [behind]
  constructor
  · intro recorded
    by_cases loaded : ∃ event ∈ (headerScript statement builder.scopes.length).1, event.LoadsAt info.id
    · obtain ⟨before, other, place, after, split, last⟩ := exists_last_load loaded
      have inside : .load info.id other place ∈ (headerScript statement builder.scopes.length).1 := by
        rw [split]
        exact List.mem_append_right _ (List.mem_cons_self ..)
      obtain rfl := load_headerScript distinct each placed inside
      obtain ⟨bindings, found, seen⟩ := runs.recorded before place after split last
      obtain rfl : builder.active other = bindings := Option.some.inj (recorded.symm.trans found)
      have early : .bind other place ∉ before := fun renewed => by
        obtain ⟨some, new⟩ := seen.renewed renewed
        obtain ⟨binding, inside⟩ := List.exists_mem_of_ne_nil _ some
        exact Nat.not_lt_of_le (new binding inside) (entered.made.active_lt inside)
      refine ⟨before, place, after, split, last, early, ?_⟩
      exact (runs.within _ inside).imp_right fun opened => (seen.kept early).trans (unbound opened)
    · rw [runs.unrecorded fun event inside loads => loaded ⟨event, inside, loads⟩, unrecorded] at recorded
      cases recorded
  · rintro ⟨before, place, after, split, last, early, outermost⟩
    obtain ⟨bindings, found, seen⟩ := runs.recorded before place after split last
    have inside : .load info.id name place ∈ (headerScript statement builder.scopes.length).1 := by
      rw [split]
      exact List.mem_append_right _ (List.mem_cons_self ..)
    rw [found, seen.kept early]
    congr 1
    have within : place = 0 ∨ builder.scopes.length ≤ place := runs.within _ inside
    by_cases here : place = 0
    · rw [here]
      rfl
    · rw [unbound (within.resolve_left here), outermost.resolve_left here]

end

/-! ## Whole modules -/

section

variable (moduleName : List String) (isPackage : Bool)

/-- The empty builder is inside of the module. -/
theorem entered_emptyBuilder : Entered (emptyBuilder moduleName isPackage) where
  root := rfl
  ordered := ordered_emptyBuilder moduleName isPackage
  made := made_emptyBuilder moduleName isPackage

/-- The builder comes to the statement in the state when it analyses the module. -/
abbrev Reached (tree : List AST) (statement : AST) (builder : ScopeBuilder) : Prop :=
  Enters statement builder tree (emptyBuilder moduleName isPackage)

/-- At a load in the header of a definition of the module scope or at the right of an augmented
assignment, the bindings that are active immediately before the statement are recorded in the end
if and only if the load is spared.

Proof: what the first visit of the statement records stays. The builder binds the name and then
performs the script of the header, and what it records last at the load are the bindings of the
name at that point of the script. If no event of the script is at the load, no visit records it. -/
theorem header_load_recorded_iff {tree : List AST} (distinct : AST.Distinct tree) {statement : AST}
    {builder : ScopeBuilder} (reached : Reached moduleName isPackage tree statement builder)
    (each : ∀ part ∈ headerParts statement, Expression part) {info : Info} {name : String}
    (placed : .name info name .load ∈ AST.preorderAll (headerParts statement)) :
    (scopes tree moduleName isPackage).nodeBindings.get info.id = some (builder.active name) ↔
      Spared statement builder info.id name := by
  have point : info.id ∈ AST.points (headerParts statement) := List.mem_map.mpr ⟨_, placed, rfl⟩
  have inStatement : info.id ∈ AST.points [statement] :=
    AST.points_mono (AST.preorderAll_descendants_subset (headerParts_subset statement)) point
  obtain ⟨alone, entered, unrecorded, silent, recorded⟩ := reached.firstVisit distinct
    (entered_emptyBuilder moduleName isPackage) inStatement rfl
  rw [← entered.recorded_iff_spared alone each placed unrecorded]
  suffices same : (scopes tree moduleName isPackage).nodeBindings.get info.id =
      (ScopeBuilder.visit statement 0 builder).nodeBindings.get info.id by rw [same]
  by_cases evaluates : Evaluates info.id statement
  · exact recorded (entered.recorded alone each placed evaluates)
  · have quiet : Silent info.id [statement] := fun other there nothing =>
      ((visited_of_not_evaluates evaluates 0 other there.made).record info.id
        fun _ outside => outside rfl).trans nothing
    have never : (ScopeBuilder.visit statement 0 builder).nodeBindings.get info.id = none :=
      quiet builder entered unrecorded
    rw [never]
    exact silent quiet _ (entered_emptyBuilder moduleName isPackage) rfl

end

/-- `from ocp_resources.pod import Pod`. -/
def importPod : AST := .importFrom ⟨0, 1, 1⟩ (some "ocp_resources.pod") [⟨"Pod", none⟩] 0

/-- A class with the base `Pod`. -/
def podClass (name : String) : AST :=
  .classDef ⟨1, 2, 3⟩ name [.name ⟨2, 2, 2⟩ "Pod" .load] [] [.other ⟨3, 3, 3⟩ .pass []] []

/-- The header of the sample class has expressions only. -/
theorem podClass_header (name : String) : ∀ part ∈ headerParts (podClass name), Expression part :=
  List.forall_mem_singleton.mpr (.name ⟨2, 2, 2⟩ "Pod")

/-- The base of a class of another name is the class that is imported. -/
theorem server_base_recorded :
    (scopes [importPod, podClass "Server"]).nodeBindings.get 2 =
      some ((ScopeBuilder.visit importPod 0 (emptyBuilder [] false)).active "Pod") :=
  (header_load_recorded_iff [] false (by decide) (.later importPod (.here []))
    (podClass_header "Server") (by simp [podClass, headerParts, AST.preorderAll, AST.preorder])).mpr
      ⟨[.bind "Server" 0], 0, [], rfl, nofun, by decide, .inl rfl⟩

/-- The base of `class Pod(Pod)` is the class itself, and so the class is no resource class. -/
theorem own_base_recorded :
    (¬∀ (moduleName : List String) (isPackage : Bool) (tree : List AST) (statement : AST)
      (builder : ScopeBuilder) (info : Info) (name : String), AST.Distinct tree →
        Reached moduleName isPackage tree statement builder →
          (∀ part ∈ headerParts statement, Expression part) →
            .name info name .load ∈ AST.preorderAll (headerParts statement) →
              (scopes tree moduleName isPackage).nodeBindings.get info.id =
                some (builder.active name)) ∧
      localResourceClasses (scopes [importPod, podClass "Pod"]).resolvedNames
        [importPod, podClass "Pod"] [["ocp_resources", "pod", "Pod"]] = [] := by
  refine ⟨fun resolved => ?_, by decide +kernel⟩
  have recorded := resolved [] false [importPod, podClass "Pod"] (podClass "Pod") _ ⟨2, 2, 2⟩ "Pod"
    (by decide) (.later importPod (.here [])) (podClass_header "Pod")
    (by simp [podClass, headerParts, AST.preorderAll, AST.preorder])
  have found : (scopes [importPod, podClass "Pod"]).nodeBindings.get 2 =
      some [⟨1, none, podClass "Pod", some ["<local>", "Pod"], none⟩] := rfl
  have active : (ScopeBuilder.visit importPod 0 (emptyBuilder [] false)).active "Pod" =
      [⟨0, none, importPod, some ["ocp_resources", "pod", "Pod"], none⟩] := rfl
  rw [found, active] at recorded
  cases recorded

end VirtTestTools.Policy
