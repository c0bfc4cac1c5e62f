import VirtTestTools.Scripts
import VirtTestTools.Policy.BindingVisits

/-!
# Scripts of headers

The expressions in the header of a definition are visited one after the other. What the builder
does there to a name is told by a script: in which scope each name is loaded and bound, and in
which order. No statement is among the parts of an expression, so bindings are never merged
on the way.
-/

namespace VirtTestTools.Policy

open BindingPaths

/-! ## Expressions -/

/-- A node at a place where Python has an expression that is evaluated. -/
inductive Expression : AST → Prop
  | name (info : Info) (id : String) : Expression (.name info id .load)
  | constant (info : Info) (value : Literal) : Expression (.constant info value)
  | member {value : AST} (info : Info) (attr : String) (inner : Expression value) :
      Expression (.attribute info value attr)
  | keyword {value : AST} (info : Info) (arg : Option String) (inner : Expression value) :
      Expression (.keyword info arg value)
  | starred {value : AST} (info : Info) (inner : Expression value) :
      Expression (.starred info value)
  | call {func : AST} {args keywords : List AST} (info : Info) (called : Expression func)
      (positional : ∀ part ∈ args, Expression part) (named : ∀ part ∈ keywords, Expression part) :
      Expression (.call info func args keywords)
  | list {elts : List AST} (info : Info) (parts : ∀ part ∈ elts, Expression part) :
      Expression (.list info elts)
  | tuple {elts : List AST} (info : Info) (parts : ∀ part ∈ elts, Expression part) :
      Expression (.tuple info elts)
  | ifExp {test body orelse : AST} (info : Info) (tested : Expression test)
      (first : Expression body) (second : Expression orelse) :
      Expression (.ifExp info test body orelse)
  | namedExpr {value : AST} (info : Info) (target : AST) (inner : Expression value) :
      Expression (.namedExpr info target value)
  | lambda {args body : AST} (info : Info) (defaults : ∀ part ∈ defaultParts args, Expression part)
      (inner : Expression body) : Expression (.lambda info args body)
  | comp {elt : AST} {generators : List AST} (info : Info) (kind : CompKind)
      (parts : ∀ part ∈ generators.flatMap (generatorParts false), Expression part) (inner : Expression elt) :
      Expression (.comp info kind elt generators)
  | dictComp {key value : AST} {generators : List AST} (info : Info)
      (parts : ∀ part ∈ generators.flatMap (generatorParts false), Expression part) (first : Expression key)
      (second : Expression value) : Expression (.dictComp info key value generators)
  | other {children : List AST} (info : Info) (cls : OtherClass)
      (expression : isExpressionClass cls = true) (parts : ∀ part ∈ children, Expression part) :
      Expression (.other info cls children)

/-! ## The script of an expression -/

/-- Bindings in a scope. -/
def bindEvents (scope : Nat) (sites : List (String × Site)) : List (Event String) :=
  sites.map fun site => .bind site.1 scope

/-- The parameters of a function in its scope. -/
def parameterEvents (scope : Nat) (arguments : AST) : List (Event String) :=
  (ScopeBuilder.parameters arguments).filterMap fun
    | .arg _ name _ => some (.bind name scope)
    | _ => none

mutual

/-- The script of an expression in a scope, with the scope in which its assignment expressions
bind. -/
def script : AST → Nat → Nat → Script String
  | .name info id _, place, _ => .emit [.load info.id id place]
  | node@(.namedExpr _ target value), place, outer =>
    .seq (script value place outer) (.emit (bindEvents outer (targetSites node target (some value))))
  | .lambda _ args body, place, outer =>
    .seq (scriptDefaults args place outer) (.opened fun inner =>
      .seq (.emit (parameterEvents inner args)) (script body inner inner))
  | .comp _ _ elt generators, place, outer =>
    .opened fun inner =>
      .seq (scriptGenerators generators true place inner outer) (script elt inner outer)
  | .dictComp _ key value generators, place, outer =>
    .opened fun inner => .seq (scriptGenerators generators true place inner outer)
      (.seq (script key inner outer) (script value inner outer))
  | .attribute _ value _, place, outer | .keyword _ _ value, place, outer
  | .starred _ value, place, outer => script value place outer
  | .call _ func args keywords, place, outer =>
    .seq (script func place outer) (.seq (scriptAll args place outer) (scriptAll keywords place outer))
  | .list _ elts, place, outer | .tuple _ elts, place, outer => scriptAll elts place outer
  | .ifExp _ test body orelse, place, outer =>
    .seq (script test place outer) (.seq (script body place outer) (script orelse place outer))
  | .other _ _ children, place, outer => scriptAll children place outer
  | _, _, _ => .done
termination_by structural node _ _ => node

/-- The scripts of nodes in turn. -/
def scriptAll : List AST → Nat → Nat → Script String
  | [], _, _ => .done
  | node :: rest, place, outer => .seq (script node place outer) (scriptAll rest place outer)
termination_by structural nodes _ _ => nodes

/-- The script of the default values of parameters. -/
def scriptDefaults : AST → Nat → Nat → Script String
  | .arguments _ _ _ _ _ kwDefaults _ defaults, place, outer =>
    .seq (scriptAll defaults place outer) (scriptAll kwDefaults place outer)
  | _, _, _ => .done
termination_by structural args _ _ => args

/-- The generators of a comprehension. The first iterable is evaluated outside. -/
def scriptGenerators : List AST → Bool → Nat → Nat → Nat → Script String
  | [], _, _, _, _ => .done
  | generator :: rest, first, place, inner, outer =>
    .seq (scriptGenerator generator first place inner outer)
      (scriptGenerators rest false place inner outer)
termination_by structural generators _ _ _ _ => generators

/-- The script of a generator; the first iterable stands in the scope around it. -/
def scriptGenerator : AST → Bool → Nat → Nat → Nat → Script String
  | .comprehension _ _ target iter ifs, first, place, inner, outer =>
    .seq (script iter (if first then place else inner) outer)
      (.seq (.emit (bindEvents inner (targetSites target target none))) (scriptAll ifs inner outer))
  | _, _, _, _, _ => .done
termination_by structural generator _ _ _ _ => generator

end

/-- The script of two lists of nodes, one behind the other. -/
theorem scriptAll_append (nodes more : List AST) (place outer : Nat) :
    scriptAll (nodes ++ more) place outer =
      (scriptAll nodes place outer).seq (scriptAll more place outer) := by
  induction nodes with
  | nil => rw [List.nil_append, scriptAll, Script.done_seq]
  | cons node rest inductionHypothesis =>
    rw [List.cons_append, scriptAll, scriptAll, inductionHypothesis, Script.seq_assoc]

/-- The default values are visited as the nodes they are. -/
theorem scriptDefaults_eq (args : AST) (place outer : Nat) :
    scriptDefaults args place outer = scriptAll (defaultParts args) place outer := by
  cases args <;> simp only [scriptDefaults, defaultParts, scriptAll_append, scriptAll]

namespace ScopeBuilder

/-- The bindings of a name that reach the current point in a scope. -/
def activeAt (builder : ScopeBuilder) (place : Nat) (name : String) : List Binding :=
  (builder.scopes[place]?.map fun scope => scope.activeBindings.find name).getD []

end ScopeBuilder

/-! ## What a script says of the builder -/

/-- Bindings of a name at a place: new ones if the name has been bound there, or else those
from before. -/
structure Seen (name : String) (builder : ScopeBuilder) (place : Nat) (bound : Prop)
    (bindings : List Binding) : Prop where
  renewed : bound → bindings ≠ [] ∧ ∀ binding ∈ bindings, builder.nextKey ≤ binding.key
  kept : ¬bound → bindings = builder.activeAt place name

/-- The scopes that are opened from a number on declare no names. -/
structure Ready (start : Nat) (builder : ScopeBuilder) : Prop where
  root : builder.shapes[0]? = some (none, .module)
  ordered : Ordered builder.shapes
  started : start ≤ builder.scopes.length
  clear : ∀ place scope, start ≤ place → builder.scopes[place]? = some scope →
    scope.globalNames = [] ∧ scope.nonlocalNames = []

/-- A scope that a header is evaluated in, and the one in which its assignment expressions bind. -/
structure Stands (start : Nat) (builder : ScopeBuilder) (place outer : Nat) : Prop where
  inside : place < builder.scopes.length
  outerInside : outer < builder.scopes.length
  here : place = 0 ∨ start ≤ place
  there : outer = 0 ∨ start ≤ outer
  parent : builder.functionParent place = place
  walrus : builder.walrusScope place = outer

/-- From one builder to the next, events happen to a name and to a point. -/
structure Runs (start : Nat) (name : String) (point : Nat) (events : List (Event String))
    (builder next : ScopeBuilder) : Prop where
  ready : Ready start next
  extended : Extends builder.shapes next.shapes
  later : builder.nextKey ≤ next.nextKey
  within : ∀ event ∈ events, event.scope = 0 ∨ start ≤ event.scope
  active : ∀ place, Seen name builder place (.bind name place ∈ events) (next.activeAt place name)
  unrecorded : (∀ event ∈ events, ¬event.LoadsAt point) →
    next.nodeBindings.get point = builder.nodeBindings.get point
  recorded : ∀ before place after, events = before ++ .load point name place :: after →
    (∀ event ∈ after, ¬event.LoadsAt point) →
      ∃ bindings, next.nodeBindings.get point = some bindings ∧
        Seen name builder place (.bind name place ∈ before) bindings

section

variable {start : Nat} {name : String} {point : Nat} {events more : List (Event String)}
  {builder middle next : ScopeBuilder}

/-- What is seen behind two steps is bound in one of them, or before. -/
theorem Seen.trans {bound again : Prop} {place : Nat} {bindings : List Binding}
    (first : Seen name builder place bound (middle.activeAt place name))
    (second : Seen name middle place again bindings) (later : builder.nextKey ≤ middle.nextKey) :
    Seen name builder place (bound ∨ again) bindings := by
  constructor
  · intro either
    by_cases renewed : again
    · obtain ⟨some, new⟩ := second.renewed renewed
      exact ⟨some, fun binding inside => Nat.le_trans later (new binding inside)⟩
    · rw [second.kept renewed]
      exact first.renewed (either.resolve_right renewed)
  · intro neither
    obtain ⟨unbound, same⟩ := not_or.mp neither
    rw [second.kept same, first.kept unbound]

/-- What is seen depends on the binding by its truth only. -/
theorem Seen.congr {bound again : Prop} {place : Nat} {bindings : List Binding}
    (seen : Seen name builder place bound bindings) (same : bound ↔ again) :
    Seen name builder place again bindings :=
  propext same ▸ seen

/-- What happens first and what happens then. -/
theorem Runs.trans (first : Runs start name point events builder middle)
    (second : Runs start name point more middle next) :
    Runs start name point (events ++ more) builder next where
  ready := second.ready
  extended := first.extended.trans second.extended
  later := Nat.le_trans first.later second.later
  within event inside := (List.mem_append.mp inside).elim (first.within event) (second.within event)
  active place :=
    ((first.active place).trans (second.active place) first.later).congr List.mem_append.symm
  unrecorded silent := by
    rw [second.unrecorded fun event inside => silent event (List.mem_append_right _ inside),
      first.unrecorded fun event inside => silent event (List.mem_append_left _ inside)]
  recorded before place after split last := by
    obtain ⟨between, rfl, behind⟩ | ⟨between, rfl, rfl⟩ := split_append split
    · obtain ⟨bindings, found, seen⟩ := second.recorded between place after behind last
      exact ⟨bindings, found,
        ((first.active place).trans seen first.later).congr List.mem_append.symm⟩
    · obtain ⟨bindings, found, seen⟩ := first.recorded before place between rfl
        fun event inside => last event (List.mem_append_left _ inside)
      refine ⟨bindings, ?_, seen⟩
      rw [second.unrecorded fun event inside => last event (List.mem_append_right _ inside), found]

/-- A place stays where it is when more scopes are opened. -/
theorem Stands.extended {place outer : Nat} (stands : Stands start builder place outer)
    (ready : Ready start builder) (more : Extends builder.shapes next.shapes) :
    Stands start next place outer := by
  have longer : builder.scopes.length ≤ next.scopes.length := by
    simpa [ScopeBuilder.shapes] using more.opening.length_le
  refine ⟨Nat.lt_of_lt_of_le stands.inside longer, Nat.lt_of_lt_of_le stands.outerInside longer,
    stands.here, stands.there, ?_, ?_⟩
  · exact (ScopeBuilder.outwards_of_extends ready.ordered more stands.inside
      fun kind => kind ≠ some .classBody).trans stands.parent
  · exact (ScopeBuilder.outwards_of_extends ready.ordered more stands.inside
      fun kind => kind ≠ some .comprehension).trans stands.walrus

end

/-! ## The steps of the builder -/

section

variable {start : Nat} {name : String} {point : Nat} {builder next : ScopeBuilder} {place : Nat}

/-- Without a binding the bindings are those from before. -/
theorem Seen.unbound (bound : Prop) (never : ¬bound) {bindings : List Binding}
    (same : bindings = builder.activeAt place name) : Seen name builder place bound bindings :=
  ⟨fun absurdly => absurd absurdly never, fun _ => same⟩

/-- The shapes of a builder extend themselves. -/
theorem Ready.extends_refl (ready : Ready start builder) : Extends builder.shapes builder.shapes :=
  ⟨List.prefix_rfl, ready.ordered⟩

/-- A step that leaves the scopes and what is recorded alone. -/
theorem Runs.of_scopes (ready : Ready start builder) (scopes : next.scopes = builder.scopes)
    (key : next.nextKey = builder.nextKey) (record : next.nodeBindings = builder.nodeBindings) :
    Runs start name point [] builder next := by
  have shapes : next.shapes = builder.shapes := by
    rw [ScopeBuilder.shapes, scopes, ScopeBuilder.shapes]
  refine ⟨⟨?_, ?_, ?_, ?_⟩, ?_, key.ge, List.forall_mem_nil _, fun place => ?_, fun _ => ?_,
    fun before _ _ split _ => ?_⟩
  · rw [shapes]
    exact ready.root
  · rw [shapes]
    exact ready.ordered
  · rw [scopes]
    exact ready.started
  · rw [scopes]
    exact ready.clear
  · rw [shapes]
    exact ready.extends_refl
  · refine .unbound _ List.not_mem_nil ?_
    rw [ScopeBuilder.activeAt, scopes, ScopeBuilder.activeAt]
  · rw [record]
  · cases before <;> cases split

/-- The bindings of a name are recorded. -/
theorem Runs.load (ready : Ready start builder) (here : place = 0 ∨ start ≤ place) (node : AST)
    (loaded : String) :
    Runs start name point [.load node.id loaded place] builder
      (builder.recordName place node loaded) where
  ready := ⟨ready.root, ready.ordered, ready.started, ready.clear⟩
  extended := ready.extends_refl
  later := Nat.le_refl _
  within event inside := by
    rw [List.mem_singleton.mp inside]
    exact here
  active other := .unbound _ (by simp) rfl
  unrecorded silent := by
    have elsewhere : point ≠ node.id := by
      rintro rfl
      exact silent _ (List.mem_singleton_self _) ⟨loaded, place, rfl⟩
    rw [ScopeBuilder.recordName, Dict.get_set, if_neg elsewhere]
  recorded before other after split _ := by
    cases before with
    | nil =>
      obtain ⟨same, -⟩ := List.cons.inj split
      obtain ⟨rfl, rfl, rfl⟩ := Event.load.inj same
      refine ⟨builder.activeAt place loaded, ?_, .unbound _ List.not_mem_nil rfl⟩
      rw [ScopeBuilder.recordName, Dict.get_set, if_pos rfl]
      rfl
    | cons first rest => simp at split

/-- What is bound in the scope of a header is bound there. -/
theorem Ready.bindingScope (ready : Ready start builder) (here : place = 0 ∨ start ≤ place)
    (bound : String) : builder.bindingScope place bound = place := by
  cases found : builder.scopes[place]? with
  | none => rw [ScopeBuilder.bindingScope, found]
  | some scope =>
    obtain rfl | opened := here
    · have shape := ready.root
      rw [ScopeBuilder.shapes, List.getElem?_map, found] at shape
      have outermost : scope.parent = none := congrArg Prod.fst (Option.some.inj shape)
      have chained := builder.chain_eq ready.ordered 0 scope found
      rw [outermost] at chained
      simp only [ScopeBuilder.bindingScope, found, chained]
      split
      · rfl
      · split <;> rfl
    · obtain ⟨noGlobal, noNonlocal⟩ := ready.clear place scope opened found
      simp [ScopeBuilder.bindingScope, found, noGlobal, noNonlocal]

/-- A name is bound. -/
theorem Runs.bind (ready : Ready start builder) (inside : place < builder.scopes.length)
    (here : place = 0 ∨ start ≤ place) (bound : String) (value : Option AST) (node : AST)
    (importedName : Option (List String)) (phase : Option Nat) :
    Runs start name point [.bind bound place] builder
      (builder.bind place bound value node importedName phase) := by
  have shapes := builder.shapes_bind place bound value node importedName phase
  have target := ready.bindingScope here bound
  have found := List.getElem?_eq_getElem inside
  refine ⟨⟨?_, ?_, ?_, fun other scope opened foundOther => ?_⟩, ?_, Nat.le_succ _, ?_, fun other => ?_,
    fun _ => rfl, fun before _ _ split _ => ?_⟩
  · rw [shapes]
    exact ready.root
  · rw [shapes]
    exact ready.ordered
  · simpa [ScopeBuilder.bind, ScopeBuilder.modifyScope] using ready.started
  · have modified : (builder.scopes.modify (builder.bindingScope place bound) _)[other]? =
      some scope := foundOther
    rw [List.getElem?_modify] at modified
    obtain ⟨earlier, foundEarlier, same⟩ := Option.map_eq_some_iff.mp modified
    have clear := ready.clear other earlier opened foundEarlier
    rw [← same]
    split
    · exact clear
    · exact clear
  · rw [shapes]
    exact ready.extends_refl
  · intro event isEvent
    rw [List.mem_singleton.mp isEvent]
    exact here
  · have looked : (builder.bind place bound value node importedName phase).activeAt other name =
        if other = place ∧ name = bound then [⟨builder.nextKey, value, node, importedName, phase⟩]
        else builder.activeAt other name := by
      simp only [ScopeBuilder.activeAt, ScopeBuilder.bind, target, ScopeBuilder.modifyScope,
        List.getElem?_modify]
      by_cases there : other = place
      · subst there
        by_cases same : name = bound
        · simp [found, same, Bindings.find_set]
        · simp [found, same, Bindings.find_set]
      · simp [there, Ne.symm there]
    rw [looked, List.mem_singleton, Event.bind.injEq]
    split
    · rename_i both
      exact ⟨fun _ => by simp, fun unbound => absurd ⟨both.2, both.1⟩ unbound⟩
    · rename_i neither
      exact .unbound _ (fun both => neither ⟨both.2, both.1⟩) rfl
  · cases before with
    | nil => cases split
    | cons first rest => simp at split

/-- A scope is opened. -/
theorem Runs.push (ready : Ready start builder) {parent : Nat}
    (inside : parent < builder.scopes.length) (kind : ScopeKind) :
    Runs start name point [] builder (builder.pushScope parent kind) := by
  have extended : Extends builder.shapes (builder.pushScope parent kind).shapes := by
    rw [ScopeBuilder.shapes_pushScope]
    exact .push kind ⟨ready.ordered, by simpa [ScopeBuilder.shapes] using inside⟩
  have nonempty : 0 < builder.shapes.length := (List.getElem?_eq_some_iff.mp ready.root).1
  refine ⟨⟨?_, extended.ordered, ?_, fun place scope opened found => ?_⟩, extended, Nat.le_refl _,
    List.forall_mem_nil _, fun place => ?_, fun _ => rfl, fun before _ _ split _ => ?_⟩
  · rw [ScopeBuilder.shapes_pushScope, List.getElem?_append_left nonempty]
    exact ready.root
  · exact Nat.le_trans ready.started (by simp [ScopeBuilder.pushScope])
  · rw [ScopeBuilder.pushScope, List.getElem?_append] at found
    split at found
    · exact ready.clear place scope opened found
    · rw [List.getElem?_singleton] at found
      split at found
      · rw [← Option.some.inj found]
        exact ⟨rfl, rfl⟩
      · cases found
  · refine .unbound _ List.not_mem_nil ?_
    rw [ScopeBuilder.activeAt, ScopeBuilder.activeAt, ScopeBuilder.pushScope, List.getElem?_append]
    split
    · rfl
    · rename_i outside
      rw [List.getElem?_eq_none (Nat.le_of_not_lt outside), List.getElem?_singleton]
      split <;> rfl
  · cases before <;> cases split

end

/-! ## The visitors -/

/-- From one builder to the next, a script is performed. -/
structure Performs (start : Nat) (name : String) (point : Nat) (script : Script String)
    (builder next : ScopeBuilder) : Prop where
  runs : Runs start name point (script builder.scopes.length).1 builder next
  count : next.scopes.length = (script builder.scopes.length).2

/-- The visit of a node performs its script, wherever a header may be evaluated. -/
def Scripted (start : Nat) (name : String) (point : Nat) (node : AST) : Prop :=
  ∀ place outer builder, Ready start builder → Stands start builder place outer →
    Performs start name point (script node place outer) builder
      (ScopeBuilder.visit node place builder)

section

variable {start : Nat} {name : String} {point : Nat} {builder middle next : ScopeBuilder}
  {place outer : Nat} {first rest : Script String}

/-- A step that leaves scopes, keys and records as they are performs nothing. -/
theorem Performs.of_scopes (ready : Ready start builder) (scopes : next.scopes = builder.scopes)
    (key : next.nextKey = builder.nextKey) (record : next.nodeBindings = builder.nodeBindings) :
    Performs start name point .done builder next :=
  ⟨.of_scopes ready scopes key record, by rw [scopes]; rfl⟩

/-- One script after the other. -/
theorem Performs.followed (performs : Performs start name point first builder middle)
    (behind : Ready start middle → Extends builder.shapes middle.shapes →
      Performs start name point rest middle next) :
    Performs start name point (first.seq rest) builder next := by
  obtain ⟨runs, count⟩ := behind performs.runs.ready performs.runs.extended
  rw [performs.count] at runs count
  exact ⟨performs.runs.trans runs, count⟩

/-- A mark in front of a step performs nothing. -/
theorem Performs.marked (ready : Ready start builder) (place : Nat) (node : AST)
    (behind : Ready start (builder.markNode place node) →
      Extends builder.shapes (builder.markNode place node).shapes →
        Performs start name point rest (builder.markNode place node) next) :
    Performs start name point rest builder next :=
  (Performs.of_scopes ready rfl rfl rfl : Performs start name point .done builder
    (builder.markNode place node)).followed behind

/-- A mark behind a step performs nothing. -/
theorem Performs.mark (performs : Performs start name point first builder middle) (place : Nat)
    (node : AST) :
    Performs start name point first builder (middle.mark place node) := by
  obtain ⟨nodeScopes, same⟩ := Watch.mark_eq middle place node
  rw [same, ← Script.seq_done first]
  exact performs.followed fun ready _ => .of_scopes ready rfl rfl rfl

/-- The mark of a phase behind a step performs nothing. -/
theorem Performs.markPhase (performs : Performs start name point first builder middle) (phase : Nat)
    (node : AST) : Performs start name point first builder (middle.markPhase phase node) := by
  rw [← Script.seq_done first]
  exact performs.followed fun ready _ => .of_scopes ready rfl rfl rfl

/-- A binding performs its event. -/
theorem Performs.bind (ready : Ready start builder) (inside : place < builder.scopes.length)
    (here : place = 0 ∨ start ≤ place) (bound : String) (value : Option AST) (node : AST)
    (importedName : Option (List String)) (phase : Option Nat) :
    Performs start name point (.emit [.bind bound place]) builder
      (builder.bind place bound value node importedName phase) :=
  ⟨.bind ready inside here bound value node importedName phase, by
    simp [ScopeBuilder.bind, ScopeBuilder.modifyScope]⟩

/-- A place stays inside. -/
theorem inside_of_extends (inside : place < builder.scopes.length)
    (extended : Extends builder.shapes next.shapes) : place < next.scopes.length :=
  Nat.lt_of_lt_of_le inside (by simpa [ScopeBuilder.shapes] using extended.opening.length_le)

mutual

/-- `_bind_targets`. -/
theorem performs_bindTargets (here : place = 0 ∨ start ≤ place) (node : AST) (phase : Option Nat) :
    ∀ (target : AST) (value : Option AST) (builder : ScopeBuilder), Ready start builder →
      place < builder.scopes.length →
        Performs start name point (.emit (bindEvents place (targetSites node target value))) builder
          (ScopeBuilder.bindTargets place node phase target value builder)
  | target, value, builder, ready, inside => by
    cases target with
    | name info id ctx =>
      simp only [targetSites, ScopeBuilder.bindTargets]
      exact .bind ready inside here id value node none phase
    | starred info inner =>
      simp only [targetSites, ScopeBuilder.bindTargets]
      exact performs_bindTargets here node phase inner none builder ready inside
    | tuple info elts =>
      simp only [targetSites, ScopeBuilder.bindTargets]
      exact performs_bindElements here node phase elts _ builder ready inside
    | list info elts =>
      simp only [targetSites, ScopeBuilder.bindTargets]
      exact performs_bindElements here node phase elts _ builder ready inside
    | _ =>
      simp only [targetSites, ScopeBuilder.bindTargets]
      exact .of_scopes ready rfl rfl rfl

/-- The bindings of elements perform the events of their sites. -/
theorem performs_bindElements (here : place = 0 ∨ start ≤ place) (node : AST) (phase : Option Nat) :
    ∀ (targets values : List AST) (builder : ScopeBuilder), Ready start builder →
      place < builder.scopes.length →
        Performs start name point (.emit (bindEvents place (elementSites node targets values))) builder
          (ScopeBuilder.bindElements place node phase targets values builder)
  | [], values, builder, ready, inside => by
    simp only [elementSites, ScopeBuilder.bindElements]
    exact .of_scopes ready rfl rfl rfl
  | target :: targets, [], builder, ready, inside => by
    simp only [elementSites, ScopeBuilder.bindElements, bindEvents, List.map_append]
    exact (performs_bindTargets here node phase target none builder ready inside).followed
      fun ready extended => performs_bindElements here node phase targets [] _ ready
        (inside_of_extends inside extended)
  | target :: targets, value :: values, builder, ready, inside => by
    simp only [elementSites, ScopeBuilder.bindElements, bindEvents, List.map_append]
    exact (performs_bindTargets here node phase target (some value) builder ready inside).followed
      fun ready extended => performs_bindElements here node phase targets values _ ready
        (inside_of_extends inside extended)

end

/-- `_visit_arguments`. -/
theorem performs_visitArguments (here : place = 0 ∨ start ≤ place) (arguments : AST)
    (ready : Ready start builder) (inside : place < builder.scopes.length) :
    Performs start name point (.emit (parameterEvents place arguments)) builder
      (ScopeBuilder.visitArguments place arguments builder) := by
  unfold ScopeBuilder.visitArguments parameterEvents
  generalize ScopeBuilder.parameters arguments = parameters
  induction parameters generalizing builder with
  | nil => exact .of_scopes ready rfl rfl rfl
  | cons argument rest inductionHypothesis =>
    rw [List.foldl_cons]
    cases argument with
    | arg info bound annot =>
      change Performs start name point ((Script.emit [.bind bound place]).seq (.emit _)) builder _
      have bind : Performs start name point (.emit [.bind bound place]) builder
          (builder.bind place bound none (.arg info bound annot)) :=
        .bind ready inside here bound none (.arg info bound annot) none none
      refine bind.followed fun later extended => ?_
      exact .marked later place _ fun last _ =>
        inductionHypothesis last (inside_of_extends inside extended)
    | _ => exact inductionHypothesis ready inside

/-- A scope is opened for what follows. -/
theorem Performs.push {scripts : Nat → Script String} (ready : Ready start builder) {parent : Nat}
    (inside : parent < builder.scopes.length) (kind : ScopeKind)
    (behind : Ready start (builder.pushScope parent kind) →
      Extends builder.shapes (builder.pushScope parent kind).shapes →
        Performs start name point (scripts builder.scopes.length) (builder.pushScope parent kind) next) :
    Performs start name point (.opened scripts) builder next := by
  have pushed : Runs start name point [] builder (builder.pushScope parent kind) :=
    .push ready inside kind
  obtain ⟨runs, count⟩ := behind pushed.ready pushed.extended
  have longer : (builder.pushScope parent kind).scopes.length = builder.scopes.length + 1 := by
    simp [ScopeBuilder.pushScope]
  rw [longer] at runs count
  exact ⟨pushed.trans runs, count⟩

/-- The function around a place is a scope of the builder. -/
theorem Stands.parentInside (stands : Stands start builder place outer) :
    builder.functionParent place < builder.scopes.length := by
  rw [stands.parent]
  exact stands.inside

/-- The scope of a lambda in a header. -/
theorem Stands.function (stands : Stands start builder place outer) (ready : Ready start builder) :
    Stands start (builder.pushScope (builder.functionParent place) .function)
      builder.scopes.length builder.scopes.length := by
  have walrusHere := ScopeBuilder.outwards_pushScope ready.ordered stands.inside .function
    fun kind => kind ≠ some .comprehension
  have parentHere := ScopeBuilder.outwards_pushScope ready.ordered stands.inside .function
    fun kind => kind ≠ some .classBody
  rw [stands.parent]
  have inside : builder.scopes.length < (builder.pushScope place .function).scopes.length := by
    simp [ScopeBuilder.pushScope]
  exact ⟨inside, inside, .inr ready.started, .inr ready.started, parentHere, walrusHere⟩

/-- The scope of a comprehension in a header. -/
theorem Stands.comprehension (stands : Stands start builder place outer)
    (ready : Ready start builder) :
    Stands start (builder.pushScope (builder.functionParent place) .comprehension)
      builder.scopes.length outer := by
  have walrusHere := ScopeBuilder.outwards_pushScope ready.ordered stands.inside .comprehension
    fun kind => kind ≠ some .comprehension
  have parentHere := ScopeBuilder.outwards_pushScope ready.ordered stands.inside .comprehension
    fun kind => kind ≠ some .classBody
  rw [stands.parent]
  have inside : builder.scopes.length < (builder.pushScope place .comprehension).scopes.length := by
    simp [ScopeBuilder.pushScope]
  exact ⟨inside, Nat.lt_trans stands.outerInside inside, .inr ready.started, stands.there, parentHere,
    walrusHere.trans stands.walrus⟩

/-- Nodes in turn perform their scripts when each node does. -/
theorem performs_visitAll (nodes : List AST) (each : ∀ node ∈ nodes, Scripted start name point node)
    (ready : Ready start builder) (stands : Stands start builder place outer) :
    Performs start name point (scriptAll nodes place outer) builder
      (ScopeBuilder.visitAll nodes place builder) := by
  induction nodes generalizing builder with
  | nil =>
    rw [scriptAll, ScopeBuilder.visitAll]
    exact .of_scopes ready rfl rfl rfl
  | cons node rest inductionHypothesis =>
    obtain ⟨here, others⟩ := List.forall_mem_cons.mp each
    rw [scriptAll, ScopeBuilder.visitAll]
    exact (here place outer builder ready stands).followed fun later extended =>
      inductionHypothesis others later (stands.extended ready extended)

/-- Conditions perform their scripts when each of them does. -/
theorem performs_visitConditions (conditions : List AST)
    (each : ∀ node ∈ conditions, Scripted start name point node) (phase : Nat)
    (ready : Ready start builder) (stands : Stands start builder place outer) :
    Performs start name point (scriptAll conditions place outer) builder
      (ScopeBuilder.visitConditions conditions place phase builder) := by
  induction conditions generalizing builder with
  | nil =>
    rw [scriptAll, ScopeBuilder.visitConditions]
    exact .of_scopes ready rfl rfl rfl
  | cons node rest inductionHypothesis =>
    obtain ⟨here, others⟩ := List.forall_mem_cons.mp each
    rw [scriptAll, ScopeBuilder.visitConditions]
    exact ((here place outer builder ready stands).markPhase phase node).followed
      fun later extended => inductionHypothesis others later (stands.extended ready extended)

/-- The generators of a comprehension. -/
theorem performs_visitGenerators (generators : List AST)
    (each : ∀ node ∈ generators.flatMap (generatorParts false), Scripted start name point node) (index : Nat)
    {inner : Nat} (ready : Ready start builder) (stands : Stands start builder place outer)
    (nested : Stands start builder inner outer) :
    Performs start name point (scriptGenerators generators (index = 0) place inner outer) builder
      (ScopeBuilder.visitGenerators generators index place inner builder) := by
  induction generators generalizing index builder with
  | nil =>
    rw [scriptGenerators, ScopeBuilder.visitGenerators]
    exact .of_scopes ready rfl rfl rfl
  | cons generator rest inductionHypothesis =>
    rw [List.flatMap_cons, List.forall_mem_append] at each
    obtain ⟨here, others⟩ := each
    rw [scriptGenerators, ScopeBuilder.visitGenerators]
    have one : Performs start name point (scriptGenerator generator (index = 0) place inner outer) builder
        (ScopeBuilder.visitGenerator generator index place inner builder) := by
      cases generator with
      | comprehension info isAsync target iter ifs =>
        obtain ⟨iterScripted, ifsHere⟩ := List.forall_mem_cons.mp here
        rw [scriptGenerator, ScopeBuilder.visitGenerator]
        have evaluated : Performs start name point
            (script iter (if index = 0 then place else inner) outer) builder
            (ScopeBuilder.visit iter (if index = 0 then place else inner) builder) := by
          split
          · exact iterScripted place outer builder ready stands
          · exact iterScripted inner outer builder ready nested
        simp only [decide_eq_true_eq]
        refine (evaluated.markPhase index iter).followed fun later extended => ?_
        have nestedLater := nested.extended ready extended
        refine ((performs_bindTargets nestedLater.here target (some (index + 1)) target none _ later
          nestedLater.inside).mark inner target).followed fun last further => ?_
        exact performs_visitConditions ifs ifsHere _ last (nestedLater.extended later further)
      | _ =>
        rw [scriptGenerator, ScopeBuilder.visitGenerator]
        · exact .of_scopes ready rfl rfl rfl
        all_goals simp
    refine one.followed fun later extended => ?_
    exact inductionHypothesis others (index + 1) later (stands.extended ready extended)
      (nested.extended ready extended)

/-- The visit of an expression performs its script.

Proof: by induction on the expression. The visitors bind names, open scopes and visit parts one
after the other; each of these steps is an event or none. -/
theorem Expression.scripted {node : AST} (expression : Expression node) :
    Scripted start name point node := by
  induction expression with
  | name info id =>
    intro place outer builder ready stands
    rw [script, ScopeBuilder.visit]
    rw [if_neg (by simp)]
    refine .marked ready place (.name info id .load) fun later extended => ?_
    exact ⟨.load later stands.here (.name info id .load) id, rfl⟩
  | constant info value =>
    intro place outer builder ready stands
    rw [script, ScopeBuilder.visit]
    · exact .of_scopes ready rfl rfl rfl
    all_goals simp
  | member info attr inner scripted | keyword info arg inner scripted =>
    intro place outer builder ready stands
    rw [script, ScopeBuilder.visit]
    exact .marked ready place _ fun later extended =>
      scripted place outer _ later (stands.extended ready extended)
  | starred info inner scripted =>
    intro place outer builder ready stands
    rw [script, ScopeBuilder.visit]
    exact .marked ready place _ fun later extended =>
      scripted place outer _ later (stands.extended ready extended)
  | @call func args keywords info called positional named calledScripted positionalScripted
      namedScripted =>
    intro place outer builder ready stands
    rw [script, ScopeBuilder.visit]
    refine .marked ready place (.call info func args keywords) fun later extended => ?_
    have standsLater := stands.extended ready extended
    refine (calledScripted place outer _ later standsLater).followed fun behind further => ?_
    have standsBehind := standsLater.extended later further
    refine (performs_visitAll _ positionalScripted behind standsBehind).followed fun last final => ?_
    exact performs_visitAll _ namedScripted last (standsBehind.extended behind final)
  | list info parts scripted | tuple info parts scripted =>
    intro place outer builder ready stands
    rw [script, ScopeBuilder.visit]
    exact .marked ready place _ fun later extended =>
      performs_visitAll _ scripted later (stands.extended ready extended)
  | other info cls expression parts scripted =>
    intro place outer builder ready stands
    rw [script, ScopeBuilder.visit]
    exact .marked ready place _ fun later extended =>
      performs_visitAll _ scripted later (stands.extended ready extended)
  | @ifExp test body orelse info tested first second testScripted firstScripted secondScripted =>
    intro place outer builder ready stands
    rw [script, ScopeBuilder.visit]
    refine .marked ready place (.ifExp info test body orelse) fun later extended => ?_
    have standsLater := stands.extended ready extended
    refine (testScripted place outer _ later standsLater).followed fun behind further => ?_
    have standsBehind := standsLater.extended later further
    refine (firstScripted place outer _ behind standsBehind).followed fun last final => ?_
    exact secondScripted place outer _ last (standsBehind.extended behind final)
  | @namedExpr value info target inner scripted =>
    intro place outer builder ready stands
    rw [script, ScopeBuilder.visit]
    refine .marked ready place (.namedExpr info target value) fun later extended => ?_
    have standsLater := stands.extended ready extended
    refine (scripted place outer _ later standsLater).followed fun behind further => ?_
    have standsBehind := standsLater.extended later further
    rw [stands.walrus]
    exact (performs_bindTargets standsBehind.there _ none target (some value) _ behind
      standsBehind.outerInside).mark place target
  | @lambda args body info defaults inner defaultsScripted scripted =>
    intro place outer builder ready stands
    rw [script, ScopeBuilder.visit, scriptDefaults_eq]
    refine .marked ready place (.lambda info args body) fun later extended => ?_
    have standsLater := stands.extended ready extended
    simp only [Watch.visitDefaults_eq]
    refine (performs_visitAll _ defaultsScripted later standsLater).followed fun behind further => ?_
    have standsBehind := standsLater.extended later further
    refine .push behind standsBehind.parentInside .function
      fun last opening => ?_
    have nested := standsBehind.function behind
    refine (performs_visitArguments nested.here _ last nested.inside).followed fun final growing => ?_
    exact scripted _ _ _ final (nested.extended last growing)
  | @comp elt generators info kind parts inner partsScripted scripted =>
    intro place outer builder ready stands
    rw [script, ScopeBuilder.visit]
    refine .marked ready place (.comp info kind elt generators) fun later extended => ?_
    have standsLater := stands.extended ready extended
    refine .push later standsLater.parentInside .comprehension
      fun behind opening => ?_
    have nested := standsLater.comprehension later
    refine (performs_visitGenerators _ partsScripted 0 behind (standsLater.extended later opening)
      nested).followed fun last growing => ?_
    exact (scripted _ _ _ last (nested.extended behind growing)).markPhase _ _
  | @dictComp key value generators info parts first second partsScripted firstScripted secondScripted =>
    intro place outer builder ready stands
    rw [script, ScopeBuilder.visit]
    refine .marked ready place (.dictComp info key value generators) fun later extended => ?_
    have standsLater := stands.extended ready extended
    refine .push later standsLater.parentInside .comprehension
      fun behind opening => ?_
    have nested := standsLater.comprehension later
    refine (performs_visitGenerators _ partsScripted 0 behind (standsLater.extended later opening)
      nested).followed fun last growing => ?_
    have nestedLast := nested.extended behind growing
    refine ((firstScripted _ _ _ last nestedLast).markPhase generators.length key).followed fun final grown => ?_
    exact (secondScripted _ _ _ final (nestedLast.extended last grown)).markPhase _ _

end

end VirtTestTools.Policy
