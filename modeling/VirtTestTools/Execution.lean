import VirtTestTools.Flows
import VirtTestTools.Policy.ScopeParts
import VirtTestTools.Policy.Scopes

/-!
# Executions of a module

What the statements of a module do to one name of the module scope when they are
executed. Either branch of an `if` may be taken, a loop may run any number of times, a
pattern may match or not, and an exception may be raised before and behind every
statement. An exception is taken by any one handler, by none of them, or by a context
manager; `finally` runs on every way out.

The body of a class is executed in a namespace of its own, and a name that is bound there
hides the one of the module. A comprehension sees the names of the module other than its
targets, and acts on them by its assignment expressions. Functions and lambdas are not
called. What a pattern binds, what a star import brings in and what becomes of a function
later is not in the tree.
-/

namespace VirtTestTools

open Policy

/-- Where a name is bound: the value and the node of a binding and the name that is
imported. -/
structure Site where
  value : Option AST
  node : AST
  importedName : Option (List String)

/-- What an execution depends on besides the tree: the place of the module, the names that
a pattern binds, the names that a star import binds, and the bindings with which a load is
evaluated when the function, generator or alias that holds it is called, consumed or looked
up. -/
structure Surroundings where
  moduleName : List String
  isPackage : Bool
  captures : AST → List String
  exports : AST → List String
  called : Nat → Site → Prop

/-- A module outside of packages the patterns and star imports of which bind nothing, and
nothing in which is called. -/
def plainModule : Surroundings :=
  { moduleName := ["test_module"], isPackage := false, captures := fun _ => [], exports := fun _ => []
    called := fun _ _ => False }

namespace Execution

/-- The bindings of the name: a site, or `none` when the name is deleted. -/
abbrev Writes := Flow (Option Site)

/-- A binding of some name. -/
def bindName (name bound : String) (site : Site) : Pass (Option Site) :=
  if bound = name then .write (some site) else .pass

/-- One name of an import. -/
def bindImport (name : String) (node : AST) (imported : Alias) : Pass (Option Site) :=
  match imported.asname with
  | some asname => bindName name asname ⟨none, node, some (nameParts imported.name)⟩
  | none =>
    let localName := (nameParts imported.name).headD ""
    bindName name localName ⟨none, node, some [localName]⟩

/-- One name of an import from a module, other than the star. -/
def bindImportFrom (name : String) (node : AST) (importedPrefix : List String)
    (imported : Alias) : Pass (Option Site) :=
  bindName name (imported.asname.getD imported.name)
    ⟨none, node, some (importedPrefix ++ [imported.name])⟩

section

variable (name : String) (around : Surroundings)

/-- One name of an import from a module. -/
def importMember (node : AST) (importedPrefix : List String) (imported : Alias) : Writes :=
  if imported.name = "*" then
    if name ∈ around.exports node then .write (some ⟨none, node, some (importedPrefix ++ [name])⟩)
    else .pass
  else (bindImportFrom name node importedPrefix imported).flow

/-- The prefix of the names that an import takes from a module. -/
def importPrefix (module : Option String) (level : Nat) : List String :=
  ScopeBuilder.importPrefix
    { moduleName := around.moduleName, isPackage := around.isPackage, scopes := [] } module level

/-- The body of a handler, with the name that is bound while it runs. -/
def runHandlerBody (handler : AST) (bound : Option String) (body : Writes) : Writes :=
  if bound = some name then
    .ensure (.seq (.write (some ⟨none, handler, none⟩)) body) (.write none)
  else body

/-- What a context manager may suppress. -/
def managed (body : Writes) : Writes := .rescue body .pass (.choice .pass (.leave .raises))

/-- The names of a pattern. -/
def bindCaptures (pattern : AST) : Writes :=
  if name ∈ around.captures pattern then .write (some ⟨none, pattern, none⟩) else .pass

/-- The name of an assignment expression. -/
def bindWalrus (node target value : AST) : Writes :=
  match target with
  | .name _ id _ => (bindName name id ⟨some value, node, none⟩).flow
  | _ => .pass

/-- The name of an augmented assignment. -/
def bindPlace (node : AST) : AST → Writes
  | .name _ id _ => (bindName name id ⟨none, node, none⟩).flow
  | _ => .pass

/-- The names that the generators of a comprehension bind. -/
def generatorNames (generators : List AST) : List String :=
  generators.flatMap fun
    | .comprehension _ _ target _ _ => target.preorder.filterMap fun
      | .name _ id .store => some id
      | _ => none
    | _ => []

/-- Whether the name is seen in the scope of a comprehension. -/
def sees (own : Bool) (generators : List AST) : Bool :=
  own && !(generatorNames generators).contains name

/-- The body of a class, which writes to a namespace of its own. A load in it comes to the
name of the module unless the name is bound in the class; scopes that are opened in the
body pass over the class. -/
def classBody (statements : List AST) (body : Writes) : Writes := fun exit written =>
  written = none ∧ ∃ bound, body exit bound ∧ ∀ point, exit = .observed point →
    point ∈ AST.points ((AST.preorderAll statements).flatMap nestedParts) ∨
      bound = none ∨ bound = some none

/-- An item of a `with` statement. -/
def isItem : AST → Bool
  | .other _ .withitem _ => true
  | _ => false

mutual

/-- The execution of a statement and the evaluation of an expression, where the name is seen or
is hidden by a target of a comprehension. -/
def run (own : Bool) : AST → Writes
  | node@(.name info id ctx) =>
    if own ∧ id = name then
      match ctx with
      | .load => .observe info.id
      | .store => .write (some ⟨none, node, none⟩)
      | .del => .write none
    else .pass
  | .attribute _ value _ | .keyword _ _ value | .starred _ value | .exprStmt _ value => run own value
  | .call _ func args keywords => .seq (run own func) (.seq (runAll own args) (runAll own keywords))
  | .list _ elts | .tuple _ elts => runAll own elts
  | node@(.namedExpr _ target value) =>
    .seq (run own value) (bindWalrus name node target value)
  | .ifExp _ test body orelse => .seq (run own test) (.choice (run own body) (run own orelse))
  | .lambda _ args _ => runDefaults own args
  | .comp _ _ elt generators =>
    runGenerators own (sees name own generators) generators (run (sees name own generators) elt)
  | .dictComp _ key value generators =>
    runGenerators own (sees name own generators) generators
      (.seq (run (sees name own generators) key) (run (sees name own generators) value))
  | node@(.importStmt _ names) =>
    names.foldr (fun imported rest => .seq (bindImport name node imported).flow rest) .pass
  | node@(.importFrom _ module names level) =>
    names.foldr (fun imported rest =>
      .seq (importMember name around node (importPrefix around module level) imported) rest) .pass
  | node@(.assign _ targets value) =>
    .seq (run own value) (runTargets own node (some value) targets)
  | node@(.annAssign _ target annot (some value)) =>
    .seq (run own value) (.seq (runTarget own node target (some value)) (run own annot))
  | .annAssign _ target annot none => .seq (runPlace own target) (run own annot)
  | node@(.augAssign _ target value) =>
    .seq (runPlace own target) (.seq (run own value) (bindPlace name node target))
  | node@(.functionDef _ _ bound args _ decoratorList returns) =>
    .seq (runAll own decoratorList) (.seq (runDefaults own args) (.seq (runAnnotated own args)
      (.seq (runOpt own returns) (bindName name bound ⟨none, node, none⟩).flow)))
  | node@(.classDef _ bound bases keywords body decoratorList) =>
    .seq (runAll own decoratorList) (.seq (runAll own bases) (.seq (runAll own keywords)
      (.seq (classBody body (execute body))
        (bindName name bound ⟨none, node, some ["<local>", bound]⟩).flow)))
  | .ifStmt _ test body orelse => .seq (run own test) (.choice (execute body) (execute orelse))
  | .forStmt _ _ target iter body orelse =>
    .seq (run own iter)
      (.loop .pass (.seq (runTarget own target target none) (execute body)) (execute orelse))
  | .whileStmt _ test body orelse => .loop (run own test) (execute body) (execute orelse)
  | .breakStmt _ => .leave .breaks
  | .continueStmt _ => .leave .continues
  | .returnStmt _ value => .seq (runOpt own value) (.leave .returns)
  | .raiseStmt _ exc cause => .seq (runOpt own exc) (.seq (runOpt own cause) (.leave .raises))
  | .tryStmt _ isStar body handlers orelse finalbody =>
    .ensure (.rescue (execute body) (execute orelse)
      (if isStar then runGroup handlers false false else runHandlers handlers)) (execute finalbody)
  | .matchStmt _ subject cases => .seq (run own subject) (runCases cases)
  | .other _ .boolOp children => runChain own children
  | .other _ (.compare _) (left :: comparators) => .seq (run own left) (runChain own comparators)
  | .other _ .withStmt children | .other _ .asyncWith children => runWith children
  | .other _ .typeAlias (target :: _) => run own target
  | .other _ _ children => runAll own children
  | .constant .. | .globalStmt .. | .nonlocalStmt .. | .comprehension .. | .arguments .. | .arg ..
  | .exceptHandler .. | .matchCase .. => .pass
termination_by structural node => node

/-- Expressions from left to right. -/
def runAll (own : Bool) : List AST → Writes
  | [] => .pass
  | node :: rest => .seq (run own node) (runAll own rest)
termination_by structural node => node

/-- A node that may be missing. -/
def runOpt (own : Bool) : Option AST → Writes
  | none => .pass
  | some node => run own node
termination_by structural node => node

/-- Statements in turn. -/
def execute : List AST → Writes
  | [] => .pass
  | statement :: rest => .seq (.fallible (run true statement)) (execute rest)
termination_by structural node => node

/-- Expressions the evaluation of which may stop after each. -/
def runChain (own : Bool) : List AST → Writes
  | [] => .pass
  | node :: rest => .seq (run own node) (.choice .pass (runChain own rest))
termination_by structural node => node

/-- The items of a `with` statement and behind them its body. -/
def runWith : List AST → Writes
  | [] => .pass
  | item :: rest =>
    if isItem item then .seq (run true item) (managed (runWith rest))
    else .seq (.fallible (run true item)) (runWith rest)
termination_by structural node => node

/-- The target of an assignment. -/
def runTarget (own : Bool) (node : AST) : AST → Option AST → Writes
  | .name _ id _, value => if own then (bindName name id ⟨value, node, none⟩).flow else .pass
  | .starred _ target, _ => runTarget own node target none
  | .tuple _ elts, value | .list _ elts, value =>
    let values := ScopeBuilder.displayElements value
    runElements own node elts (if values.length = elts.length then values else [])
  | .attribute _ value _, _ => run own value
  | .other _ _ children, _ => runAll own children
  | _, _ => .pass
termination_by structural node _ => node

/-- The expressions in a target that is not a name. -/
def runPlace (own : Bool) : AST → Writes
  | .attribute _ value _ => run own value
  | .other _ _ children => runAll own children
  | _ => .pass
termination_by structural node => node

/-- The elements of a target, each with its value as far as there is one. -/
def runElements (own : Bool) (node : AST) : List AST → List AST → Writes
  | [], _ => .pass
  | target :: targets, [] =>
    .seq (runTarget own node target none) (runElements own node targets [])
  | target :: targets, value :: values =>
    .seq (runTarget own node target (some value)) (runElements own node targets values)
termination_by structural node _ => node

/-- The targets of an assignment, from left to right. -/
def runTargets (own : Bool) (node : AST) (value : Option AST) : List AST → Writes
  | [] => .pass
  | target :: rest => .seq (runTarget own node target value) (runTargets own node value rest)
termination_by structural node => node

/-- The default values of the parameters. -/
def runDefaults (own : Bool) : AST → Writes
  | .arguments _ _ _ _ _ kwDefaults _ defaults =>
    .seq (runAll own defaults) (runAll own kwDefaults)
  | _ => .pass
termination_by structural node => node

/-- The annotations of the parameters. -/
def runAnnotated (own : Bool) : AST → Writes
  | .arguments _ posonlyargs args vararg kwonlyargs _ kwarg _ =>
    .seq (runAnnotatedAll own posonlyargs) (.seq (runAnnotatedAll own args)
      (.seq (runAnnotatedAll own kwonlyargs) (.seq (runAnnotatedOpt own vararg)
        (runAnnotatedOpt own kwarg))))
  | .arg _ _ annot => runOpt own annot
  | _ => .pass
termination_by structural node => node

/-- The annotations of arguments. -/
def runAnnotatedAll (own : Bool) : List AST → Writes
  | [] => .pass
  | argument :: rest => .seq (runAnnotated own argument) (runAnnotatedAll own rest)
termination_by structural node => node

/-- The annotation of an argument that may be missing. -/
def runAnnotatedOpt (own : Bool) : Option AST → Writes
  | none => .pass
  | some argument => runAnnotated own argument
termination_by structural node => node

/-- The generators of a comprehension around its element. The first iterable is evaluated
outside. -/
def runGenerators (own inside : Bool) : List AST → Writes → Writes
  | [], element => element
  | generator :: rest, element =>
    runGenerator own inside generator (runGenerators inside inside rest element)
termination_by structural node _ => node

/-- A generator around the inner ones. -/
def runGenerator (own inside : Bool) : AST → Writes → Writes
  | .comprehension _ _ target iter ifs, inner =>
    .seq (run own iter)
      (.rounds (.seq (runTarget inside target target none) (runConditions inside ifs inner)))
  | _, inner => inner
termination_by structural node _ => node

/-- The conditions of a generator; the inner part runs where all hold. -/
def runConditions (inside : Bool) : List AST → Writes → Writes
  | [], inner => inner
  | condition :: rest, inner =>
    .seq (run inside condition) (.choice .pass (runConditions inside rest inner))
termination_by structural node _ => node

/-- The handlers of an exception. -/
def runHandlers : List AST → Writes
  | [] => .leave .raises
  | handler :: rest => runHandler handler (runHandlers rest)
termination_by structural node => node

/-- A handler without a type takes every exception. -/
def runHandler : AST → Writes → Writes
  | handler@(.exceptHandler _ none bound body), _ => runHandlerBody name handler bound (execute body)
  | handler@(.exceptHandler _ (some type) bound body), rest =>
    .seq (run true type) (.choice (runHandlerBody name handler bound (execute body)) rest)
  | _, rest => rest
termination_by structural node _ => node

/-- The handlers of a group of exceptions: each may take a part of it. Exceptions that are
not taken and those that the handlers raise leave the statement. -/
def runGroup : List AST → Bool → Bool → Writes
  | [], handled, failed =>
    if handled ∧ ¬failed then .choice .pass (.leave .raises) else .leave .raises
  | handler :: rest, handled, failed =>
    runMember handler (runGroup rest handled failed) (runGroup rest true failed)
      (runGroup rest true true)
termination_by structural node _ _ => node

/-- A handler: its type is evaluated, and it is skipped or it handles the exception. -/
def runMember : AST → Writes → Writes → Writes → Writes
  | handler@(.exceptHandler _ type bound body), skipped, done, failed =>
    .seq (runOpt true type) (.choice skipped
      (.rescue (runHandlerBody name handler bound (execute body)) done failed))
  | _, skipped, _, _ => skipped
termination_by structural node _ _ _ => node

/-- The cases of a `match` statement. -/
def runCases : List AST → Writes
  | [] => .pass
  | case :: rest => runCase case (runCases rest)
termination_by structural node => node

/-- The names of a pattern are bound when it matches, before the guard is evaluated. -/
def runCase : AST → Writes → Writes
  | .matchCase _ pattern guard body, rest =>
    .seq (run true pattern) (.choice rest (.seq (bindCaptures name around pattern)
      (runGuard guard (execute body) rest)))
  | _, rest => rest
termination_by structural node _ => node

/-- A guard: behind it runs the body, or the rest. -/
def runGuard : Option AST → Writes → Writes → Writes
  | none, body, _ => body
  | some guard, body, rest => .seq (run true guard) (.choice body rest)
termination_by structural node _ _ => node

end

/-! ## Statements in turn -/

/-- No statements write nothing. -/
theorem execute_nil_normal_iff (written : Option (Option Site)) :
    execute name around [] .normal written ↔ written = none := by
  simp [execute, Flow.pass]

/-- The first statement runs to its end, and the rest does behind it. -/
theorem execute_cons_normal_iff (statement : AST) (rest : List AST)
    (written : Option (Option Site)) :
    execute name around (statement :: rest) .normal written ↔
      ∃ before after, run name around true statement .normal before ∧
        execute name around rest .normal after ∧ written = after.or before := by
  simp [execute, Flow.seq, Flow.fallible]

variable {name around}

/-- A single statement runs as a list. -/
theorem execute_singleton {statement : AST} {written : Option (Option Site)}
    (done : run name around true statement .normal written) :
    execute name around [statement] .normal written :=
  (execute_cons_normal_iff name around statement [] written).mpr
    ⟨written, none, done, (execute_nil_normal_iff name around none).mpr rfl, Option.none_or.symm⟩

/-- Statements that go on are followed by those behind them. -/
theorem execute_append {before after : List AST} {earlier later : Option (Option Site)}
    (start : execute name around before .normal earlier)
    (rest : execute name around after .normal later) :
    execute name around (before ++ after) .normal (later.or earlier) := by
  induction before generalizing earlier with
  | nil =>
    obtain rfl := (execute_nil_normal_iff name around earlier).mp start
    rwa [Option.or_none, List.nil_append]
  | cons statement before inductionHypothesis =>
    obtain ⟨first, middle, done, beforeDone, rfl⟩ :=
      (execute_cons_normal_iff name around statement before earlier).mp start
    rw [List.cons_append, ← Option.or_assoc]
    exact (execute_cons_normal_iff name around statement (before ++ after) _).mpr
      ⟨first, _, done, inductionHypothesis beforeDone, rfl⟩

end

end Execution

end VirtTestTools
