import Mathlib.Data.List.Basic
import VirtTestTools.Dict
import VirtTestTools.Syntax

/-!
# Lexical scopes and ordered bindings

`_ScopeBuilder` of `check_policy.py` walks a syntax tree once, in evaluation
order. It keeps for every scope the bindings that reach the current point, joins
them behind branches, loops and exception handlers, and records at each name the
bindings that reach it.

Scopes refer to each other, so they are kept in the order of their creation and
named by their place; the parent of a scope comes before it. Bindings are
compared by identity, which is a number given at their creation.
-/

namespace VirtTestTools.Policy

/-- The kinds of scopes. -/
inductive ScopeKind
  | module
  | function
  | classBody
  | comprehension
deriving DecidableEq, Repr

/-- `_Binding`, with its identity. -/
structure Binding where
  key : Nat
  value : Option AST
  node : AST
  importedName : Option (List String) := none
  visiblePhase : Option Nat := none

/-- Bindings by name. -/
abbrev Bindings := Dict String (List Binding)

/-- `bindings.get(name, ())`. -/
def Bindings.find (bindings : Bindings) (name : String) : List Binding :=
  (Dict.get bindings name).getD []

/-- `_Scope`, with the place of its parent. -/
structure Scope where
  parent : Option Nat
  kind : ScopeKind
  bindings : Bindings := ∅
  localNames : List String := []
  globalNames : List String := []
  nonlocalNames : List String := []
  activeBindings : Bindings := ∅

/-- `_LoopExits`: the number of scopes that exist when the loop is entered, and
their bindings at each `break` and `continue`. -/
structure LoopExits where
  trackedScopes : Nat
  breakOutputs : List (List Bindings) := []
  continueOutputs : List (List Bindings) := []

/-- The state of `_ScopeBuilder`. -/
structure ScopeBuilder where
  moduleName : List String
  isPackage : Bool
  scopes : List Scope
  nodeScopes : Dict Nat Nat := ∅
  nodePhases : Dict Nat Nat := ∅
  nodeBindings : Dict Nat (List Binding) := ∅
  loopExits : List LoopExits := []
  nextKey : Nat := 0

/-- The scopes from one outwards. The fuel bounds the number of steps. -/
def chainFrom (scopes : List Scope) : Nat → Nat → List Nat
  | 0, _ => []
  | fuel + 1, place =>
    match scopes[place]? with
    | none => []
    | some scope =>
      place ::
        match scope.parent with
        | none => []
        | some parent => chainFrom scopes fuel parent

namespace ScopeBuilder

/-- The scopes from one outwards; a parent comes before its children. -/
def chain (builder : ScopeBuilder) (place : Nat) : List Nat :=
  chainFrom builder.scopes (place + 1) place

/-- The kind of the scope at a place. -/
def kindAt (builder : ScopeBuilder) (place : Nat) : Option ScopeKind :=
  builder.scopes[place]?.map Scope.kind

/-- The builder with a changed scope. -/
def modifyScope (builder : ScopeBuilder) (place : Nat) (change : Scope → Scope) : ScopeBuilder :=
  { builder with scopes := builder.scopes.modify place change }

/-- `_binding_scope`. -/
def bindingScope (builder : ScopeBuilder) (place : Nat) (name : String) : Nat :=
  match builder.scopes[place]? with
  | none => place
  | some scope =>
    if name ∈ scope.globalNames then 0
    else if name ∈ scope.nonlocalNames then
      ((builder.chain place).tail.find? (builder.kindAt · = some .function)).getD place
    else place

/-- `_bind`. -/
def bind (builder : ScopeBuilder) (place : Nat) (name : String) (value : Option AST) (node : AST)
    (importedName : Option (List String) := none) (visiblePhase : Option Nat := none) :
    ScopeBuilder :=
  let binding : Binding :=
    { key := builder.nextKey, value := value, node := node, importedName := importedName
      visiblePhase := visiblePhase }
  { builder.modifyScope (builder.bindingScope place name) fun scope => { scope with
      bindings := scope.bindings.set name (scope.bindings.find name ++ [binding])
      activeBindings := scope.activeBindings.set name [binding]
      localNames := scope.localNames ++ [name] } with
    nextKey := builder.nextKey + 1 }

/-- `self.node_scopes[node] = scope`. -/
def markNode (builder : ScopeBuilder) (place : Nat) (node : AST) : ScopeBuilder :=
  { builder with nodeScopes := builder.nodeScopes.set node.id place }

/-- `_mark`. -/
def mark (builder : ScopeBuilder) (place : Nat) (node : AST) : ScopeBuilder :=
  node.preorder.foldl (fun current child => current.markNode place child) builder

/-- `_mark_phase`. -/
def markPhase (builder : ScopeBuilder) (phase : Nat) (node : AST) : ScopeBuilder :=
  { builder with
    nodePhases := node.preorder.foldl
      (fun phases child => if phases.has child.id then phases else phases.set child.id phase)
      builder.nodePhases }

/-- The bindings that reach a name are recorded at the node. -/
def recordName (builder : ScopeBuilder) (place : Nat) (node : AST) (name : String) : ScopeBuilder :=
  let bindings := (builder.scopes[place]?.map fun scope => scope.activeBindings.find name).getD []
  { builder with nodeBindings := builder.nodeBindings.set node.id bindings }

/-- A new scope at the end. -/
def pushScope (builder : ScopeBuilder) (parent : Nat) (kind : ScopeKind) : ScopeBuilder :=
  { builder with scopes := builder.scopes ++ [{ parent := some parent, kind := kind }] }

/-- `_function_parent`. -/
def functionParent (builder : ScopeBuilder) (place : Nat) : Nat :=
  ((builder.chain place).find? (builder.kindAt · ≠ some .classBody)).getD
    ((builder.chain place).getLastD place)

/-- `_state` of the first scopes. -/
def states (builder : ScopeBuilder) (tracked : Nat) : List Bindings :=
  (builder.scopes.take tracked).map Scope.activeBindings

/-- Replace the active bindings of the first scopes. -/
def restoreScopes : List Scope → List Bindings → List Scope
  | scope :: scopes, state :: states =>
    { scope with activeBindings := state } :: restoreScopes scopes states
  | scopes, _ => scopes

/-- `_restore_states`. -/
def restoreStates (builder : ScopeBuilder) (states : List Bindings) : ScopeBuilder :=
  { builder with scopes := restoreScopes builder.scopes states }

end ScopeBuilder

/-- Append the bindings that are not there yet. -/
def appendNew (bindings more : List Binding) : List Binding :=
  more.foldl
    (fun current binding =>
      if current.all (·.key ≠ binding.key) then current ++ [binding] else current) bindings

/-- `_merge_states`. -/
def mergeStates (states : List Bindings) : Bindings :=
  let names := states.flatMap Dict.keys
  Dict.empty.update (names.filterMap fun name =>
    match states.foldl (fun bindings state => appendNew bindings (state.find name)) [] with
    | [] => none
    | bindings => some (name, bindings))

/-- `_merged_scope_states`, for a nonempty list of outputs. -/
def mergedScopeStates (outputs : List (List Bindings)) : List Bindings :=
  (List.range ((outputs.head?.getD []).length)).map fun index =>
    mergeStates (outputs.filterMap (·[index]?))

mutual

/-- `_statement_falls_through`. -/
def statementFallsThrough : AST → Bool
  | .breakStmt .. | .continueStmt .. | .raiseStmt .. | .returnStmt .. => false
  | .ifStmt _ _ body orelse =>
    orelse.isEmpty || statementsFallThrough body || statementsFallThrough orelse
  | _ => true

/-- `_statements_fall_through`. -/
def statementsFallThrough : List AST → Bool
  | [] => true
  | statement :: rest => statementFallsThrough statement && statementsFallThrough rest

end

/-- Whether the node is a statement. -/
def isStatement : AST → Bool
  | .importStmt .. | .importFrom .. | .assign .. | .annAssign .. | .augAssign .. | .globalStmt ..
  | .nonlocalStmt .. | .functionDef .. | .classDef .. | .ifStmt .. | .forStmt .. | .whileStmt ..
  | .breakStmt .. | .continueStmt .. | .returnStmt .. | .raiseStmt .. | .tryStmt ..
  | .matchStmt .. | .exprStmt .. => true
  | .other _ cls _ =>
    [OtherClass.delete, .assert, .pass, .withStmt, .asyncWith, .typeAlias].contains cls
  | _ => false

/-- Whether a node of the class is an expression. -/
def isExpressionClass : OtherClass → Bool
  | .boolOp | .binOp _ | .unaryOp | .dict | .set | .await | .yield | .yieldFrom | .compare _
  | .formattedValue _ | .joinedStr | .subscript | .slice => true
  | .delete | .assert | .pass | .withStmt | .asyncWith | .typeAlias | .withitem | .pattern => false

mutual

/-- A statement and the statements directly below it, over and over. Handlers and
cases are no statements, so what is below them is not met. -/
def scopeStatement : AST → List AST
  | node@(.ifStmt _ _ body orelse) | node@(.whileStmt _ _ body orelse) =>
    node :: scopeStatements body ++ scopeStatements orelse
  | node@(.forStmt _ _ _ _ body orelse) => node :: scopeStatements body ++ scopeStatements orelse
  | node@(.tryStmt _ _ body _ orelse finalbody) =>
    node :: scopeStatements body ++ scopeStatements orelse ++ scopeStatements finalbody
  | node@(.other _ _ children) => node :: scopeStatements children
  | node => [node]

/-- `_scope_statements` of the members of a list that are statements. -/
def scopeStatements : List AST → List AST
  | [] => []
  | node :: rest =>
    (if isStatement node then scopeStatement node else []) ++ scopeStatements rest

end

/-- The parts of a dotted name. -/
def nameParts (name : String) : List String := (Text.split ['.'] name.toList).map String.ofList

/-- `_relative_import_prefixes`. -/
def relativeImportPrefixes (moduleName : List String) (module : Option String) (level : Nat) :
    List (List String) :=
  let suffix := (module.map nameParts).getD []
  let packagePrefix := moduleName.take (moduleName.length + 1 - level)
  let modulePrefix := moduleName.take (moduleName.length - level)
  if packagePrefix ++ suffix = modulePrefix ++ suffix then [packagePrefix ++ suffix]
  else [packagePrefix ++ suffix, modulePrefix ++ suffix]

namespace ScopeBuilder

/-- One name of `_visit_import`. -/
def bindImport (place : Nat) (node : AST) (builder : ScopeBuilder) (imported : Alias) :
    ScopeBuilder :=
  match imported.asname with
  | some asname => builder.bind place asname none node (some (nameParts imported.name))
  | none =>
    let localName := (nameParts imported.name).headD ""
    builder.bind place localName none node (some [localName])

/-- One name of `_visit_importfrom`. -/
def bindImportFrom (place : Nat) (node : AST) (level : Nat) (importedPrefix : List String)
    (builder : ScopeBuilder) (imported : Alias) : ScopeBuilder :=
  if imported.name = "*" then
    if importedPrefix = ["pytest"] ∧ level = 0 then
      ["skip", "mark", "pytestmark"].foldl
        (fun current exported => current.bind place exported none node (some ["pytest", exported]))
        builder
    else builder
  else
    builder.bind place (imported.asname.getD imported.name) none node
      (some (importedPrefix ++ [imported.name]))

/-- The prefix of the names that an import takes from a module. -/
def importPrefix (builder : ScopeBuilder) (module : Option String) (level : Nat) : List String :=
  if level = 0 then (module.map nameParts).getD []
  else
    let prefixes := relativeImportPrefixes builder.moduleName module level
    if builder.isPackage then prefixes.headD [] else prefixes.getLastD []

/-- The elements of a tuple or list display. -/
def displayElements : Option AST → List AST
  | some (.tuple _ elts) | some (.list _ elts) => elts
  | _ => []

mutual

/-- `_bind_targets`. -/
def bindTargets (place : Nat) (node : AST) (phase : Option Nat) :
    AST → Option AST → ScopeBuilder → ScopeBuilder
  | .name _ id _, value, builder => builder.bind place id value node none phase
  | .starred _ target, _, builder => bindTargets place node phase target none builder
  | .tuple _ elts, value, builder | .list _ elts, value, builder =>
    let values := displayElements value
    bindElements place node phase elts (if values.length = elts.length then values else []) builder
  | _, _, builder => builder

/-- The loop of `_bind_targets` over the elements of a target. -/
def bindElements (place : Nat) (node : AST) (phase : Option Nat) :
    List AST → List AST → ScopeBuilder → ScopeBuilder
  | [], _, builder => builder
  | target :: targets, [], builder =>
    bindElements place node phase targets []
      (bindTargets place node phase target none builder)
  | target :: targets, value :: values, builder =>
    bindElements place node phase targets values
      (bindTargets place node phase target (some value) builder)

end

/-- The targets of an assignment, each bound and then marked. -/
def bindAssigned (place : Nat) (node : AST) (value : Option AST) (builder : ScopeBuilder)
    (target : AST) : ScopeBuilder :=
  (bindTargets place node none target value builder).mark place target

/-- One parameter of `_visit_arguments`. -/
def bindParameter (place : Nat) (builder : ScopeBuilder) (argument : AST) : ScopeBuilder :=
  match argument with
  | .arg _ name _ => (builder.bind place name none argument).markNode place argument
  | _ => builder

/-- The parameters in the order of `_visit_arguments` and `_visit_header`. -/
def parameters : AST → List AST
  | .arguments _ posonlyargs args vararg kwonlyargs _ kwarg _ =>
    posonlyargs ++ args ++ kwonlyargs ++ vararg.toList ++ kwarg.toList
  | _ => []

/-- `_visit_arguments`. -/
def visitArguments (place : Nat) (arguments : AST) (builder : ScopeBuilder) : ScopeBuilder :=
  (parameters arguments).foldl (bindParameter place) builder

/-- One statement of the scan for `global` and `nonlocal`. -/
def declareNames (place : Nat) (builder : ScopeBuilder) : AST → ScopeBuilder
  | .globalStmt _ names => builder.modifyScope place fun scope =>
      { scope with globalNames := scope.globalNames ++ names }
  | .nonlocalStmt _ names => builder.modifyScope place fun scope =>
      { scope with nonlocalNames := scope.nonlocalNames ++ names }
  | _ => builder

/-- The scope that a walrus in a comprehension binds in. -/
def walrusScope (builder : ScopeBuilder) (place : Nat) : Nat :=
  ((builder.chain place).find? (builder.kindAt · ≠ some .comprehension)).getD
    ((builder.chain place).getLastD place)

/-- `_visit_break` and `_visit_continue`: the innermost loop notes the bindings. -/
def noteExit (builder : ScopeBuilder) (note : List Bindings → LoopExits → LoopExits) :
    ScopeBuilder :=
  match builder.loopExits with
  | [] => builder
  | exits :: outer =>
    { builder with loopExits := note (builder.states exits.trackedScopes) exits :: outer }

/-- The bindings behind a branch that does not leave the statement. -/
def branchOutput (builder : ScopeBuilder) (tracked : Nat) (branch : List AST) :
    List (List Bindings) :=
  if statementsFallThrough branch then [builder.states tracked] else []

/-- Continue with the merged outputs, or with the incoming bindings if there are
none. -/
def joinOutputs (builder : ScopeBuilder) (incoming : List Bindings)
    (outputs : List (List Bindings)) : ScopeBuilder :=
  builder.restoreStates (if outputs.isEmpty then incoming else mergedScopeStates outputs)

/-- The builder in a loop, whose exits are collected. -/
def enterLoop (builder : ScopeBuilder) : ScopeBuilder :=
  { builder with loopExits := { trackedScopes := builder.scopes.length } :: builder.loopExits }

/-- Behind the body of a loop: the exits of the loop, and the bindings with which
its test is left. -/
def leaveLoop (builder : ScopeBuilder) (tracked : Nat) (incoming : List Bindings)
    (body : List AST) : ScopeBuilder × List (List Bindings) :=
  let exits := builder.loopExits.head?.getD { trackedScopes := tracked }
  let builder := { builder with loopExits := builder.loopExits.tail }
  let normal := incoming :: exits.continueOutputs ++ builder.branchOutput tracked body
  (builder.restoreStates (mergedScopeStates normal), exits.breakOutputs)

/-- The handler of an exception unbinds its name when it is left. -/
def unbind (builder : ScopeBuilder) (place : Nat) (name : String) : ScopeBuilder :=
  builder.modifyScope (builder.bindingScope place name) fun scope => { scope with
    activeBindings := scope.activeBindings.filterMap fun other bindings =>
      if other = name then none else some bindings }

/-- `self.node_bindings` of the nodes below some statements. -/
def bindingsBelow (builder : ScopeBuilder) (statements : List AST) :
    List (Nat × List Binding) :=
  (AST.preorderAll statements).filterMap fun child =>
    (builder.nodeBindings.get child.id).map fun bindings => (child.id, bindings)

mutual

/-- `_visit` with the visitor of each class. -/
def visit : AST → Nat → ScopeBuilder → ScopeBuilder
  | node@(.name _ id ctx), place, builder =>
    let builder := (builder.markNode place node).recordName place node id
    if ctx = .store then builder.bind place id none node else builder
  | node@(.importStmt _ names), place, builder =>
    (names.foldl (bindImport place node) (builder.markNode place node)).mark place node
  | node@(.importFrom _ module names level), place, builder =>
    (names.foldl (bindImportFrom place node level (builder.importPrefix module level))
      (builder.markNode place node)).mark place node
  | node@(.assign _ targets value), place, builder =>
    targets.foldl (bindAssigned place node (some value))
      (visit value place (builder.markNode place node))
  | node@(.annAssign _ target annot value), place, builder =>
    bindAssigned place node value
      (visitOpt value place (visit annot place (builder.markNode place node))) target
  | node@(.augAssign _ target value), place, builder =>
    (visit value place
      (bindTargets place node none target none (builder.markNode place node))).mark place target
  | node@(.globalStmt ..), place, builder | node@(.nonlocalStmt ..), place, builder =>
    (declareNames place (builder.markNode place node) node).mark place node
  | node@(.namedExpr _ target value), place, builder =>
    let binding := builder.walrusScope place
    (bindTargets binding node none target (some value)
      (visit value place (builder.markNode place node))).mark place target
  | node@(.lambda _ args body), place, builder =>
    let builder := visitDefaults args place (builder.markNode place node)
    let inner := builder.scopes.length
    let builder := builder.pushScope (builder.functionParent place) .function
    visit body inner (visitArguments inner args builder)
  | node@(.comp _ _ elt generators), place, builder =>
    let builder := builder.markNode place node
    let inner := builder.scopes.length
    let builder := builder.pushScope (builder.functionParent place) .comprehension
    let builder := visitGenerators generators 0 place inner builder
    (visit elt inner builder).markPhase generators.length elt
  | node@(.dictComp _ key value generators), place, builder =>
    let builder := builder.markNode place node
    let inner := builder.scopes.length
    let builder := builder.pushScope (builder.functionParent place) .comprehension
    let builder := visitGenerators generators 0 place inner builder
    let builder := (visit key inner builder).markPhase generators.length key
    (visit value inner builder).markPhase generators.length value
  | node@(.functionDef _ _ name args body decoratorList returns), place, builder =>
    let builder := (builder.markNode place node).bind place name none node
    let builder := visitAll decoratorList place builder
    let builder := visitOpt returns place (visitAnnotated args place (visitDefaults args place builder))
    let inner := builder.scopes.length
    let builder := builder.pushScope (builder.functionParent place) .function
    let builder := (scopeStatements body).foldl (declareNames inner) builder
    let builder := visitArguments inner args builder
    let incoming := builder.states inner
    let builder := visitAll body inner builder
    builder.restoreStates (List.zipWith (fun before after => mergeStates [before, after])
      incoming (builder.states inner))
  | node@(.classDef _ name bases keywords body decoratorList), place, builder =>
    let builder := (builder.markNode place node).bind place name none node (some ["<local>", name])
    let builder := visitAll keywords place (visitAll bases place (visitAll decoratorList place builder))
    let inner := builder.scopes.length
    visitAll body inner (builder.pushScope place .classBody)
  | node@(.ifStmt _ test body orelse), place, builder =>
    let builder := visit test place (builder.markNode place node)
    let tracked := builder.scopes.length
    let incoming := builder.states tracked
    let builder := visitAll body place builder
    let bodyOutput := builder.branchOutput tracked body
    if orelse.isEmpty then builder.joinOutputs incoming (incoming :: bodyOutput)
    else
      let builder := visitAll orelse place (builder.restoreStates incoming)
      builder.joinOutputs incoming (bodyOutput ++ builder.branchOutput tracked orelse)
  | node@(.forStmt _ _ target iter body orelse), place, builder =>
    let builder := visit iter place (builder.markNode place node)
    let tracked := builder.scopes.length
    let incoming := builder.states tracked
    let builder := (bindTargets place target none target none builder.enterLoop).mark place target
    let (builder, breaks) := (visitAll body place builder).leaveLoop tracked incoming body
    let builder := visitAll orelse place builder
    builder.joinOutputs incoming (breaks ++ builder.branchOutput tracked orelse)
  | node@(.whileStmt _ test body orelse), place, builder =>
    let builder := visit test place (builder.markNode place node)
    let tracked := builder.scopes.length
    let incoming := builder.states tracked
    let (builder, breaks) := (visitAll body place builder.enterLoop).leaveLoop tracked incoming body
    let builder := visitAll orelse place builder
    builder.joinOutputs incoming (breaks ++ builder.branchOutput tracked orelse)
  | node@(.breakStmt _), place, builder =>
    (builder.markNode place node).noteExit fun states exits =>
      { exits with breakOutputs := exits.breakOutputs ++ [states] }
  | node@(.continueStmt _), place, builder =>
    (builder.markNode place node).noteExit fun states exits =>
      { exits with continueOutputs := exits.continueOutputs ++ [states] }
  | node@(.tryStmt _ _ body handlers orelse finalbody), place, builder =>
    let builder := builder.markNode place node
    let tracked := builder.scopes.length
    let incoming := builder.states tracked
    let (builder, outputs, fallsThrough) := visitBody body place tracked builder
    let exceptional := incoming :: outputs
    let builder := if fallsThrough then visitAll orelse place builder else builder
    let normal := if fallsThrough then [builder.states tracked] else []
    let (builder, handled, abrupt) :=
      visitHandlers handlers place tracked (mergedScopeStates exceptional) builder
    let continuing := normal ++ handled
    if finalbody.isEmpty then builder.joinOutputs incoming continuing
    else
      let inputs := continuing ++ abrupt ++ if handlers.isEmpty then exceptional else []
      let builder := visitAll finalbody place (builder.restoreStates (mergedScopeStates inputs))
      if continuing.isEmpty then builder
      else
        let recorded := builder.bindingsBelow finalbody
        let builder :=
          visitAll finalbody place (builder.restoreStates (mergedScopeStates continuing))
        { builder with nodeBindings := builder.nodeBindings.update recorded }
  | node@(.matchStmt _ subject cases), place, builder =>
    let builder := visitPatterns cases place (visit subject place (builder.markNode place node))
    let tracked := builder.scopes.length
    let incoming := builder.states tracked
    let (builder, outputs) := visitCases cases place tracked incoming builder
    builder.joinOutputs incoming (incoming :: outputs)
  | node@(.constant ..), place, builder => builder.markNode place node
  | node@(.attribute _ value _), place, builder | node@(.keyword _ _ value), place, builder
  | node@(.starred _ value), place, builder | node@(.exprStmt _ value), place, builder =>
    visit value place (builder.markNode place node)
  | node@(.call _ func args keywords), place, builder =>
    visitAll keywords place (visitAll args place (visit func place (builder.markNode place node)))
  | node@(.list _ elts), place, builder | node@(.tuple _ elts), place, builder =>
    visitAll elts place (builder.markNode place node)
  | node@(.ifExp _ test body orelse), place, builder =>
    visit orelse place (visit body place (visit test place (builder.markNode place node)))
  | node@(.comprehension _ _ target iter ifs), place, builder =>
    visitAll ifs place (visit iter place (visit target place (builder.markNode place node)))
  | node@(.arguments _ posonlyargs args vararg kwonlyargs kwDefaults kwarg defaults), place,
    builder =>
    let builder := visitAll args place (visitAll posonlyargs place (builder.markNode place node))
    let builder := visitAll kwonlyargs place (visitOpt vararg place builder)
    visitAll defaults place (visitOpt kwarg place (visitAll kwDefaults place builder))
  | node@(.arg _ _ annot), place, builder => visitOpt annot place (builder.markNode place node)
  | node@(.returnStmt _ value), place, builder =>
    visitOpt value place (builder.markNode place node)
  | node@(.raiseStmt _ exc cause), place, builder =>
    visitOpt cause place (visitOpt exc place (builder.markNode place node))
  | node@(.exceptHandler _ type _ body), place, builder =>
    visitAll body place (visitOpt type place (builder.markNode place node))
  | node@(.matchCase _ pattern guard body), place, builder =>
    visitAll body place (visitOpt guard place (visit pattern place (builder.markNode place node)))
  | node@(.other _ _ children), place, builder =>
    visitAll children place (builder.markNode place node)

/-- Visit nodes in turn. -/
def visitAll : List AST → Nat → ScopeBuilder → ScopeBuilder
  | [], _, builder => builder
  | node :: rest, place, builder => visitAll rest place (visit node place builder)

/-- The visit of a node that may be missing. -/
def visitOpt : Option AST → Nat → ScopeBuilder → ScopeBuilder
  | none, _, builder => builder
  | some node, place, builder => visit node place builder

/-- The default values of the parameters. -/
def visitDefaults : AST → Nat → ScopeBuilder → ScopeBuilder
  | .arguments _ _ _ _ _ kwDefaults _ defaults, place, builder =>
    visitAll kwDefaults place (visitAll defaults place builder)
  | _, _, builder => builder

/-- The annotations of the parameters. -/
def visitAnnotated : AST → Nat → ScopeBuilder → ScopeBuilder
  | .arguments _ posonlyargs args vararg kwonlyargs _ kwarg _, place, builder =>
    let builder := visitAnnotatedAll kwonlyargs place
      (visitAnnotatedAll args place (visitAnnotatedAll posonlyargs place builder))
    visitAnnotatedOpt kwarg place (visitAnnotatedOpt vararg place builder)
  | .arg _ _ annot, place, builder => visitOpt annot place builder
  | _, _, builder => builder

/-- The visit of the annotations of arguments. -/
def visitAnnotatedAll : List AST → Nat → ScopeBuilder → ScopeBuilder
  | [], _, builder => builder
  | argument :: rest, place, builder =>
    visitAnnotatedAll rest place (visitAnnotated argument place builder)

/-- The visit of the annotation of an argument that may be missing. -/
def visitAnnotatedOpt : Option AST → Nat → ScopeBuilder → ScopeBuilder
  | none, _, builder => builder
  | some argument, place, builder => visitAnnotated argument place builder

/-- The generators of a comprehension. The first iterable is evaluated outside. -/
def visitGenerators : List AST → Nat → Nat → Nat → ScopeBuilder → ScopeBuilder
  | [], _, _, _, builder => builder
  | generator :: rest, index, place, inner, builder =>
    visitGenerators rest (index + 1) place inner (visitGenerator generator index place inner builder)

/-- The visit of a generator; the first iterable belongs to the scope around it. -/
def visitGenerator : AST → Nat → Nat → Nat → ScopeBuilder → ScopeBuilder
  | .comprehension _ _ target iter ifs, index, place, inner, builder =>
    let builder := (visit iter (if index = 0 then place else inner) builder).markPhase index iter
    let builder :=
      (bindTargets inner target (some (index + 1)) target none builder).mark inner target
    visitConditions ifs inner (index + 1) builder
  | _, _, _, _, builder => builder

/-- The visit of the conditions of a generator. -/
def visitConditions : List AST → Nat → Nat → ScopeBuilder → ScopeBuilder
  | [], _, _, builder => builder
  | condition :: rest, place, phase, builder =>
    visitConditions rest place phase ((visit condition place builder).markPhase phase condition)

/-- The statements of a `try` body or of a handler, up to the first that does not
fall through, with the bindings behind each. -/
def visitBody : List AST → Nat → Nat → ScopeBuilder →
    ScopeBuilder × List (List Bindings) × Bool
  | [], _, _, builder => (builder, [], true)
  | statement :: rest, place, tracked, builder =>
    let builder := visit statement place builder
    let output := builder.states tracked
    if statementFallsThrough statement then
      let (builder, outputs, fallsThrough) := visitBody rest place tracked builder
      (builder, output :: outputs, fallsThrough)
    else (builder, [output], false)

/-- The handlers, with the bindings behind those that fall through and behind the
others. -/
def visitHandlers : List AST → Nat → Nat → List Bindings → ScopeBuilder →
    ScopeBuilder × List (List Bindings) × List (List Bindings)
  | [], _, _, _, builder => (builder, [], [])
  | handler :: rest, place, tracked, entry, builder =>
    let (builder, fallsThrough) :=
      visitHandler handler place tracked (builder.restoreStates entry)
    let output := builder.states tracked
    let (builder, handled, abrupt) := visitHandlers rest place tracked entry builder
    if fallsThrough then (builder, output :: handled, abrupt)
    else (builder, handled, output :: abrupt)

/-- The visit of a handler, and whether its body falls through. -/
def visitHandler : AST → Nat → Nat → ScopeBuilder → ScopeBuilder × Bool
  | handler@(.exceptHandler _ type name body), place, tracked, builder =>
    let builder := visitOpt type place (builder.markNode place handler)
    let builder :=
      match name with
      | none => builder
      | some name => builder.bind place name none handler
    let (builder, _, fallsThrough) := visitBody body place tracked builder
    match name with
    | none => (builder, fallsThrough)
    | some name => (builder.unbind place name, fallsThrough)
  | _, _, _, builder => (builder, true)

/-- The patterns and guards of a `match`. -/
def visitPatterns : List AST → Nat → ScopeBuilder → ScopeBuilder
  | [], _, builder => builder
  | case :: rest, place, builder => visitPatterns rest place (visitPattern case place builder)

/-- The visit of a pattern with its guard. -/
def visitPattern : AST → Nat → ScopeBuilder → ScopeBuilder
  | .matchCase _ pattern guard _, place, builder =>
    visitOpt guard place (visit pattern place builder)
  | _, _, builder => builder

/-- The bodies of a `match`, each from the same bindings. -/
def visitCases : List AST → Nat → Nat → List Bindings → ScopeBuilder →
    ScopeBuilder × List (List Bindings)
  | [], _, _, _, builder => (builder, [])
  | case :: rest, place, tracked, incoming, builder =>
    let (builder, output) := visitCase case place tracked (builder.restoreStates incoming)
    let (builder, outputs) := visitCases rest place tracked incoming builder
    (builder, output ++ outputs)

/-- The visit of the body of a case, and the states behind it. -/
def visitCase : AST → Nat → Nat → ScopeBuilder → ScopeBuilder × List (List Bindings)
  | .matchCase _ _ _ body, place, tracked, builder =>
    let builder := visitAll body place builder
    (builder, builder.branchOutput tracked body)
  | _, _, _, builder => (builder, [])

end

end ScopeBuilder

/-- `scopes`: the analysis of a module. -/
def scopes (tree : List AST) (moduleName : List String := []) (isPackage : Bool := false) :
    ScopeBuilder :=
  ScopeBuilder.visitAll tree 0
    { moduleName := moduleName, isPackage := isPackage
      scopes := [{ parent := none, kind := .module }] }

end VirtTestTools.Policy
