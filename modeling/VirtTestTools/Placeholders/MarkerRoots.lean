import Mathlib.Data.List.Dedup
import VirtTestTools.Execution
import VirtTestTools.Policy.TestBasics

/-!
# The roots of the marker for manual tests

`_marker_roots` of `check_test_std.py` says for each name of a module to which object of
pytest it is bound at the end of the module, or that it is bound to something else. It
copies the bindings at each branch, merges the copies behind it, and gives a name up
unless the copies agree.

The copies follow paths through the module: a loop body and then the `else` clause, or the
clause alone; a `try` body with `else` and `finally`, or all handlers in turn and
`finally`. A name keeps an object only if it has the object at the end of all of these
paths. Executions take other paths as well.
-/

namespace VirtTestTools.Placeholders

open Policy Text

/-- `_UNRELATED_BINDING`. -/
def unrelatedBinding : String := "other"

/-- `_MANUAL_MARKER`. -/
def manualMarker : String := "pytest.mark.manual"

/-- `_MarkerRoots`. -/
abbrev MarkerRoots := Dict String String

namespace MarkerRoots

/-- `_MarkerRoots.resolve`. -/
def resolve (roots : MarkerRoots) : List String → Option String
  | [] => none
  | root :: rest =>
    match Dict.get roots root with
    | some binding =>
      if binding = unrelatedBinding then none else some (".".intercalate (binding :: rest))
    | none =>
      if root = "pytest" then some (".".intercalate (root :: rest))
      else if root = "mark" then some (".".intercalate ("pytest" :: root :: rest))
      else none

/-- Names that are bound to something else. -/
def bindUnrelated (names : List String) (roots : MarkerRoots) : MarkerRoots :=
  roots.update (names.map fun name => (name, unrelatedBinding))

/-- The value that all paths have in common. -/
def agreed (values : List (Option String)) : Option String :=
  match values.dedup with
  | [value] => value
  | _ => some unrelatedBinding

/-- `merge_branch_bindings`. -/
def mergeBranchBindings (target : MarkerRoots) (paths : List MarkerRoots) : MarkerRoots :=
  target.update ((paths.flatMap Dict.keys).filterMap fun name =>
    (agreed (paths.map fun path => path.get name)).map fun binding => (name, binding))

/-- The binding of one name of an import: the bound name and its object. -/
def importBinding (imported : Alias) : String × String :=
  let boundName := imported.asname.getD ((nameParts imported.name).headD "")
  let fromPytest := imported.name = "pytest" ∨ startsWith "pytest.".toList imported.name.toList
  (boundName,
    if imported.asname.isSome ∧ fromPytest then imported.name
    else if fromPytest then boundName else unrelatedBinding)

/-- The binding of one name of an import from a module. -/
def importFromBinding (module : Option String) (imported : Alias) : String × String :=
  (imported.asname.getD imported.name,
    if module = some "pytest" then "pytest." ++ imported.name else unrelatedBinding)

/-- The names below a node. -/
def namesBelow (node : AST) : List String :=
  node.preorder.filterMap fun
    | .name _ id _ => some id
    | _ => none

/-- The names of the variables of `with` items. -/
def itemNames : AST → List String
  | .other _ .withitem (_ :: optionalVars) => optionalVars.flatMap namesBelow
  | _ => []

/-- The name of an annotated or augmented assignment. -/
def targetName : AST → List String
  | .name _ id _ => [id]
  | _ => []

/-- The name that a handler binds, if it is not empty. -/
def handlerName : Option String → List String
  | some name => if name = "" then [] else [name]
  | none => []

/-- The names that a statement binds by assignment expressions. -/
def bindWalrus (statement : AST) (roots : MarkerRoots) : MarkerRoots :=
  roots.bindUnrelated (walrusBoundNames statement)

mutual

/-- `bind_statement`. -/
def bindStatement : AST → MarkerRoots → MarkerRoots
  | statement@(.importStmt _ names), roots =>
    (bindWalrus statement roots).update (names.map importBinding)
  | statement@(.importFrom _ module names _), roots =>
    (bindWalrus statement roots).update (names.map (importFromBinding module))
  | statement@(.assign _ targets _), roots =>
    (bindWalrus statement roots).bindUnrelated (targets.flatMap namesBelow)
  | statement@(.annAssign _ target _ _), roots | statement@(.augAssign _ target _), roots =>
    (bindWalrus statement roots).bindUnrelated (targetName target)
  | statement@(.functionDef _ _ name ..), roots | statement@(.classDef _ name ..), roots =>
    (bindWalrus statement roots).bindUnrelated [name]
  | statement@(.forStmt _ _ target _ body orelse), roots =>
    let target := namesBelow target
    let incoming := bindWalrus statement roots
    incoming.mergeBranchBindings
      [bindStatements orelse (bindStatements body (incoming.bindUnrelated target)),
        bindStatements orelse incoming]
  | statement@(.whileStmt _ _ body orelse), roots =>
    let incoming := bindWalrus statement roots
    incoming.mergeBranchBindings
      [bindStatements orelse (bindStatements body incoming), bindStatements orelse incoming]
  | statement@(.ifStmt _ _ body orelse), roots =>
    let incoming := bindWalrus statement roots
    incoming.mergeBranchBindings [bindStatements body incoming, bindStatements orelse incoming]
  | statement@(.tryStmt _ _ body handlers orelse finalbody), roots =>
    let incoming := bindWalrus statement roots
    incoming.mergeBranchBindings
      [bindStatements finalbody (bindStatements orelse (bindStatements body incoming)),
        bindStatements finalbody (bindHandlers handlers incoming)]
  | statement@(.matchStmt _ _ cases), roots =>
    let incoming := bindWalrus statement roots
    incoming.mergeBranchBindings (incoming :: bindCases cases incoming)
  | statement@(.other _ .delete _), roots =>
    (bindWalrus statement roots).bindUnrelated (namesBelow statement)
  | statement@(.other _ .withStmt children), roots =>
    bindBody children ((bindWalrus statement roots).bindUnrelated (children.flatMap itemNames))
  | statement, roots => bindWalrus statement roots

/-- Statements in turn. -/
def bindStatements : List AST → MarkerRoots → MarkerRoots
  | [], roots => roots
  | statement :: rest, roots => bindStatements rest (bindStatement statement roots)

/-- The body of a `with` statement, which follows its items. -/
def bindBody : List AST → MarkerRoots → MarkerRoots
  | [], roots => roots
  | child :: rest, roots =>
    bindBody rest (if Execution.isItem child then roots else bindStatement child roots)

/-- The handlers of a `try` statement, one after the other. -/
def bindHandlers : List AST → MarkerRoots → MarkerRoots
  | [], roots => roots
  | handler :: rest, roots => bindHandlers rest (bindHandler handler roots)

/-- The state behind a handler. -/
def bindHandler : AST → MarkerRoots → MarkerRoots
  | .exceptHandler _ _ name body, roots =>
    bindStatements body (roots.bindUnrelated (handlerName name))
  | _, roots => roots

/-- The cases of a `match` statement, each from the same bindings. -/
def bindCases : List AST → MarkerRoots → List MarkerRoots
  | [], _ => []
  | case :: rest, roots => bindCase case roots :: bindCases rest roots

/-- The state behind a case. -/
def bindCase : AST → MarkerRoots → MarkerRoots
  | .matchCase _ _ _ body, roots => bindStatements body roots
  | _, roots => roots

end

end MarkerRoots

/-- `_marker_roots`. -/
def markerRoots (tree : List AST) : MarkerRoots := MarkerRoots.bindStatements tree ∅

/-! ## The paths of the copies -/

namespace RootPaths

section

variable (name : String)

/-- Names that are bound to something else. -/
def unrelated (names : List String) : Pass String :=
  if name ∈ names then .write unrelatedBinding else .pass

/-- Names that are bound to given objects, one after the other. -/
def assigned : List (String × String) → Pass String
  | [] => .pass
  | (bound, binding) :: rest =>
    .seq (if bound = name then .write binding else .pass) (assigned rest)

mutual

/-- What `bind_statement` lets a name go through. -/
def ofStatement : AST → Pass String
  | statement@(.importStmt _ names) =>
    .seq (unrelated name (walrusBoundNames statement))
      (assigned name (names.map MarkerRoots.importBinding))
  | statement@(.importFrom _ module names _) =>
    .seq (unrelated name (walrusBoundNames statement))
      (assigned name (names.map (MarkerRoots.importFromBinding module)))
  | statement@(.assign _ targets _) =>
    .seq (unrelated name (walrusBoundNames statement))
      (unrelated name (targets.flatMap MarkerRoots.namesBelow))
  | statement@(.annAssign _ target _ _) | statement@(.augAssign _ target _) =>
    .seq (unrelated name (walrusBoundNames statement))
      (unrelated name (MarkerRoots.targetName target))
  | statement@(.functionDef _ _ bound ..) | statement@(.classDef _ bound ..) =>
    .seq (unrelated name (walrusBoundNames statement)) (unrelated name [bound])
  | statement@(.forStmt _ _ target _ body orelse) =>
    -- the body once and then the `else` clause, or the clause alone
    .seq (unrelated name (walrusBoundNames statement))
      (.anyOf (.seq (.seq (unrelated name (MarkerRoots.namesBelow target)) (ofStatements body))
        (ofStatements orelse)) [ofStatements orelse])
  | statement@(.whileStmt _ _ body orelse) =>
    .seq (unrelated name (walrusBoundNames statement))
      (.anyOf (.seq (ofStatements body) (ofStatements orelse)) [ofStatements orelse])
  | statement@(.ifStmt _ _ body orelse) =>
    .seq (unrelated name (walrusBoundNames statement))
      (.anyOf (ofStatements body) [ofStatements orelse])
  | statement@(.tryStmt _ _ body handlers orelse finalbody) =>
    -- no failure, or all handlers in turn
    .seq (unrelated name (walrusBoundNames statement))
      (.anyOf (.seq (.seq (ofStatements body) (ofStatements orelse)) (ofStatements finalbody))
        [.seq (ofHandlers handlers) (ofStatements finalbody)])
  | statement@(.matchStmt _ _ cases) =>
    .seq (unrelated name (walrusBoundNames statement)) (.anyOf .pass (ofCases cases))
  | statement@(.other _ .delete _) =>
    .seq (unrelated name (walrusBoundNames statement))
      (unrelated name (MarkerRoots.namesBelow statement))
  | statement@(.other _ .withStmt children) =>
    .seq (.seq (unrelated name (walrusBoundNames statement))
      (unrelated name (children.flatMap MarkerRoots.itemNames))) (ofBody children)
  | statement => unrelated name (walrusBoundNames statement)

/-- The pass for statements in turn. -/
def ofStatements : List AST → Pass String
  | [] => .pass
  | statement :: rest => .seq (ofStatement statement) (ofStatements rest)

/-- The pass for the children of a statement that are statements. -/
def ofBody : List AST → Pass String
  | [] => .pass
  | child :: rest =>
    .seq (if Execution.isItem child then .pass else ofStatement child) (ofBody rest)

/-- The pass for handlers, one behind the other. -/
def ofHandlers : List AST → Pass String
  | [] => .pass
  | handler :: rest => .seq (ofHandler handler) (ofHandlers rest)

/-- The pass for a handler. -/
def ofHandler : AST → Pass String
  | .exceptHandler _ _ bound body =>
    .seq (unrelated name (MarkerRoots.handlerName bound)) (ofStatements body)
  | _ => .pass

/-- The passes for the cases. -/
def ofCases : List AST → List (Pass String)
  | [] => []
  | case :: rest => ofCase case :: ofCases rest

/-- The pass for the body of a case. -/
def ofCase : AST → Pass String
  | .matchCase _ _ _ body => ofStatements body
  | _ => .pass

end

end

end RootPaths

/-! ## What the copies agree on -/

/-- Behind a pass a name is given up, or it has the same object on every path. -/
def Follows (pass : Pass String) (before after : Option String) : Prop :=
  after = some unrelatedBinding ∨ ∀ written, pass.flow .normal written → written.or before = after

namespace Follows

variable {first second : Pass String} {before middle after : Option String}

/-- A pass that does nothing keeps the object. -/
theorem pass : Follows .pass before before :=
  .inr fun _ ⟨_, nothing⟩ => by rw [nothing, Option.none_or]

/-- Behind a write there is the object that is written. -/
theorem write (binding : String) : Follows (.write binding) before (some binding) :=
  .inr fun _ ⟨_, done⟩ => by rw [done, Option.some_or]

/-- A name that is given up is given up behind a pass that may let it through. -/
theorem seq (start : Follows first before middle) (rest : Follows second middle after) :
    Follows (first.seq second) before after := by
  obtain lost | kept := rest
  · exact .inl lost
  obtain lostBefore | keptBefore := start
  · by_cases lets : second.flow .normal none
    · left
      rw [← kept none lets, Option.none_or, lostBefore]
    · right
      rintro written (⟨early, -⟩ | ⟨early, late, -, secondDone, rfl⟩)
      · exact absurd rfl early
      · cases late with
        | none => exact absurd secondDone lets
        | some binding => exact kept (some binding) secondDone
  · right
    rintro written (⟨early, -⟩ | ⟨early, late, firstDone, secondDone, rfl⟩)
    · exact absurd rfl early
    · rw [Option.or_assoc, keptBefore early firstDone, kept late secondDone]

/-- A pass behind which the name is unbound is one before which it is unbound. -/
theorem unbound (unboundAfter : Follows first before none) : before = none := by
  obtain lost | kept := unboundAfter
  · exact absurd lost (by simp)
  · obtain ⟨written, on⟩ := first.total
    exact (Option.or_eq_none_iff.mp (kept written on)).2

/-- Passes that all lead to the same object. -/
theorem anyOf {others : List (Pass String)}
    (each : ∀ part ∈ first :: others, Follows part before after) :
    Follows (.anyOf first others) before after := by
  by_cases lost : after = some unrelatedBinding
  · exact .inl lost
  · right
    rintro written ⟨part, inside, done⟩
    exact (each part inside).resolve_left lost written done

end Follows

namespace MarkerRoots

variable (name : String) (roots : MarkerRoots)

/-- Values that agree are all the same one. -/
theorem agreed_eq_or (first : Option String) (rest : List (Option String)) :
    agreed (first :: rest) = some unrelatedBinding ∨
      ∀ value ∈ first :: rest, value = agreed (first :: rest) := by
  unfold agreed
  split
  · rename_i only single
    right
    intro value inside
    rw [← List.mem_dedup, single] at inside
    exact List.mem_singleton.mp inside
  · exact .inl rfl

/-- Behind a merge a name has what the paths agree on. -/
theorem follows_mergeBranchBindings {first : Pass String} {others : List (Pass String)}
    {firstPath : MarkerRoots} {paths : List MarkerRoots}
    (each : List.Forall₂ (fun part path => Follows part (roots.get name) (Dict.get path name))
      (first :: others) (firstPath :: paths)) :
    Follows (.anyOf first others) (roots.get name)
      (Dict.get (roots.mergeBranchBindings (firstPath :: paths)) name) := by
  have looked := Dict.get_update_filterMap roots ((firstPath :: paths).flatMap Dict.keys)
    (fun name => agreed ((firstPath :: paths).map fun path => path.get name)) name
  have reached (part : Pass String) (inside : part ∈ first :: others) :
      ∃ path ∈ firstPath :: paths, Follows part (roots.get name) (Dict.get path name) := by
    obtain ⟨place, bound, rfl⟩ := List.mem_iff_getElem.mp inside
    have matching : place < (firstPath :: paths).length := each.length_eq ▸ bound
    exact ⟨_, List.getElem_mem matching, each.get bound matching⟩
  rw [mergeBranchBindings, looked]
  split
  · rename_i known
    obtain ⟨path, pathInside, has⟩ := List.mem_flatMap.mp known
    obtain lost | same := agreed_eq_or (firstPath.get name) (paths.map fun path => path.get name)
    · left
      rw [List.map_cons, lost, Option.some_or]
    · have agree (path : MarkerRoots) (inside : path ∈ firstPath :: paths) :
          Dict.get path name = agreed ((firstPath :: paths).map fun path => path.get name) := by
        apply same
        rw [← List.map_cons (f := fun path : MarkerRoots => Dict.get path name)]
        exact List.mem_map_of_mem inside
      obtain ⟨binding, found⟩ : ∃ binding, Dict.get path name = some binding :=
        (Dict.has_iff path name).mp (decide_eq_true has)
      rw [← agree path pathInside, found, Option.some_or]
      refine Follows.anyOf fun part inside => ?_
      obtain ⟨other, otherInside, follows⟩ := reached part inside
      rwa [agree other otherInside, ← agree path pathInside, found] at follows
  · rename_i unknown
    have missing (path : MarkerRoots) (inside : path ∈ firstPath :: paths) :
        Dict.get path name = none :=
      (Dict.get_eq_none_iff path name).mpr (decide_eq_false fun has =>
        unknown (List.mem_flatMap.mpr ⟨path, inside, has⟩))
    have unboundPart (part : Pass String) (inside : part ∈ first :: others) :
        Follows part (roots.get name) none := by
      obtain ⟨path, pathInside, follows⟩ := reached part inside
      rwa [missing path pathInside] at follows
    have unbound := (unboundPart first (List.mem_cons_self ..)).unbound
    refine Follows.anyOf fun part inside => ?_
    rw [unbound]
    exact unbound ▸ unboundPart part inside

/-- Names bound to something unrelated follow their pass. -/
theorem follows_bindUnrelated (names : List String) :
    Follows (RootPaths.unrelated name names) (roots.get name)
      (Dict.get (roots.bindUnrelated names) name) := by
  have looked := Dict.get_update_map roots names (fun _ => unrelatedBinding) name
  rw [bindUnrelated, looked, RootPaths.unrelated]
  split
  · exact .write _
  · exact .pass

/-- An update with bindings follows its pass. -/
theorem follows_update (bindings : List (String × String)) :
    Follows (RootPaths.assigned name bindings) (roots.get name)
      (Dict.get (roots.update bindings) name) := by
  induction bindings generalizing roots with
  | nil => exact .pass
  | cons binding rest inductionHypothesis =>
    rw [Dict.update_cons, RootPaths.assigned]
    refine .seq ?_ (inductionHypothesis _)
    rw [Dict.get_set]
    by_cases same : binding.1 = name
    · rw [if_pos same, if_pos same.symm]
      exact .write _
    · rw [if_neg same, if_neg (Ne.symm same)]
      exact .pass

mutual

/-- A statement leads a name through its paths.

Proof: by induction on the statement. Copies are merged behind it, and a copy goes through
the statements of one path. -/
theorem follows_bindStatement : ∀ (statement : AST) (roots : MarkerRoots),
    Follows (RootPaths.ofStatement name statement) (roots.get name)
      (Dict.get (bindStatement statement roots) name)
  | statement, roots => by
    have walrus := follows_bindUnrelated name roots (walrusBoundNames statement)
    have merged {first second : Pass String} {firstPath secondPath : MarkerRoots}
        (one : Follows first (Dict.get (bindWalrus statement roots) name) (Dict.get firstPath name))
        (two : Follows second (Dict.get (bindWalrus statement roots) name)
          (Dict.get secondPath name)) :=
      follows_mergeBranchBindings name (bindWalrus statement roots) (.cons one (.cons two .nil))
    cases statement with
    | importStmt info names =>
      simp only [bindStatement, RootPaths.ofStatement]
      exact .seq walrus (follows_update name _ _)
    | importFrom info module names level =>
      simp only [bindStatement, RootPaths.ofStatement]
      exact .seq walrus (follows_update name _ _)
    | assign info targets value =>
      simp only [bindStatement, RootPaths.ofStatement]
      exact .seq walrus (follows_bindUnrelated name _ _)
    | annAssign info target annot value =>
      simp only [bindStatement, RootPaths.ofStatement]
      exact .seq walrus (follows_bindUnrelated name _ _)
    | augAssign info target value =>
      simp only [bindStatement, RootPaths.ofStatement]
      exact .seq walrus (follows_bindUnrelated name _ _)
    | functionDef info isAsync bound args body decoratorList returns =>
      simp only [bindStatement, RootPaths.ofStatement]
      exact .seq walrus (follows_bindUnrelated name _ _)
    | classDef info bound bases keywords body decoratorList =>
      simp only [bindStatement, RootPaths.ofStatement]
      exact .seq walrus (follows_bindUnrelated name _ _)
    | forStmt info isAsync target iter body orelse =>
      simp only [bindStatement, RootPaths.ofStatement]
      refine .seq walrus (merged ?_ (follows_bindStatements orelse _))
      exact .seq (.seq (follows_bindUnrelated name _ _) (follows_bindStatements body _))
        (follows_bindStatements orelse _)
    | whileStmt info test body orelse =>
      simp only [bindStatement, RootPaths.ofStatement]
      refine .seq walrus (merged ?_ (follows_bindStatements orelse _))
      exact .seq (follows_bindStatements body _) (follows_bindStatements orelse _)
    | ifStmt info test body orelse =>
      simp only [bindStatement, RootPaths.ofStatement]
      exact .seq walrus (merged (follows_bindStatements body _) (follows_bindStatements orelse _))
    | tryStmt info isStar body handlers orelse finalbody =>
      simp only [bindStatement, RootPaths.ofStatement]
      refine .seq walrus (merged ?_ ?_)
      · exact .seq (.seq (follows_bindStatements body _) (follows_bindStatements orelse _))
          (follows_bindStatements finalbody _)
      · exact .seq (follows_bindHandlers handlers _) (follows_bindStatements finalbody _)
    | matchStmt info subject cases =>
      simp only [bindStatement, RootPaths.ofStatement]
      refine .seq walrus ?_
      exact follows_mergeBranchBindings name _ (.cons .pass (follows_bindCases cases _))
    | other info cls children =>
      cases cls with
      | delete =>
        simp only [bindStatement, RootPaths.ofStatement]
        exact .seq walrus (follows_bindUnrelated name _ _)
      | withStmt =>
        simp only [bindStatement, RootPaths.ofStatement]
        exact .seq (.seq walrus (follows_bindUnrelated name _ _)) (follows_bindBody children _)
      | _ =>
        simp only [bindStatement, RootPaths.ofStatement]
        exact walrus
    | _ =>
      simp only [bindStatement, RootPaths.ofStatement]
      exact walrus

/-- Statements in turn follow their pass. -/
theorem follows_bindStatements : ∀ (statements : List AST) (roots : MarkerRoots),
    Follows (RootPaths.ofStatements name statements) (roots.get name)
      (Dict.get (bindStatements statements roots) name)
  | [], roots => by
    simp only [bindStatements, RootPaths.ofStatements]
    exact .pass
  | statement :: rest, roots => by
    simp only [bindStatements, RootPaths.ofStatements]
    exact .seq (follows_bindStatement statement roots) (follows_bindStatements rest _)

/-- The children of a statement follow their pass. -/
theorem follows_bindBody : ∀ (children : List AST) (roots : MarkerRoots),
    Follows (RootPaths.ofBody name children) (roots.get name)
      (Dict.get (bindBody children roots) name)
  | [], roots => by
    simp only [bindBody, RootPaths.ofBody]
    exact .pass
  | child :: rest, roots => by
    simp only [bindBody, RootPaths.ofBody]
    refine .seq ?_ (follows_bindBody rest _)
    split
    · exact .pass
    · exact follows_bindStatement child roots

/-- The handlers of a statement follow their pass. -/
theorem follows_bindHandlers : ∀ (handlers : List AST) (roots : MarkerRoots),
    Follows (RootPaths.ofHandlers name handlers) (roots.get name)
      (Dict.get (bindHandlers handlers roots) name)
  | [], roots => by
    simp only [bindHandlers, RootPaths.ofHandlers]
    exact .pass
  | handler :: rest, roots => by
    simp only [bindHandlers, RootPaths.ofHandlers]
    exact .seq (follows_bindHandler handler roots) (follows_bindHandlers rest _)

/-- A handler follows its pass. -/
theorem follows_bindHandler : ∀ (handler : AST) (roots : MarkerRoots),
    Follows (RootPaths.ofHandler name handler) (roots.get name)
      (Dict.get (bindHandler handler roots) name)
  | handler, roots => by
    cases handler with
    | exceptHandler info type bound body =>
      simp only [bindHandler, RootPaths.ofHandler]
      exact .seq (follows_bindUnrelated name roots _) (follows_bindStatements body _)
    | _ =>
      simp only [bindHandler, RootPaths.ofHandler]
      exact .pass

/-- Each case follows its pass. -/
theorem follows_bindCases : ∀ (cases : List AST) (roots : MarkerRoots),
    List.Forall₂ (fun part path => Follows part (roots.get name) (Dict.get path name))
      (RootPaths.ofCases name cases) (bindCases cases roots)
  | [], roots => by
    simp only [bindCases, RootPaths.ofCases]
    exact .nil
  | case :: rest, roots => by
    simp only [bindCases, RootPaths.ofCases]
    exact .cons (follows_bindCase case roots) (follows_bindCases rest roots)

/-- The body of a case follows its pass. -/
theorem follows_bindCase : ∀ (case : AST) (roots : MarkerRoots),
    Follows (RootPaths.ofCase name case) (roots.get name)
      (Dict.get (bindCase case roots) name)
  | case, roots => by
    cases case with
    | matchCase info pattern guard body =>
      simp only [bindCase, RootPaths.ofCase]
      exact follows_bindStatements body roots
    | _ =>
      simp only [bindCase, RootPaths.ofCase]
      exact .pass

end

end MarkerRoots

/-! ## Executions -/

/-- The object of pytest that an import binds. -/
def pytestObject (site : Site) : Option String :=
  match site.importedName with
  | some ("pytest" :: members) => some (".".intercalate ("pytest" :: members))
  | _ => none

/-- At the end of an execution the name is bound to an object of pytest. -/
def BoundTo (binding : String) (written : Option (Option Site)) : Prop :=
  ∃ site, written = some (some site) ∧ pytestObject site = some binding

/-- How a name stands at the end of an execution, in the words of the check: with an object of
pytest, with something else, or unbound. -/
def standing (written : Option (Option Site)) : Option String :=
  written.map fun site => (site.bind pytestObject).getD unrelatedBinding

/-- A related binding stands exactly when the last write binds it. -/
theorem standing_eq_some_iff {binding : String} (related : binding ≠ unrelatedBinding)
    (written : Option (Option Site)) : standing written = some binding ↔ BoundTo binding written := by
  obtain _ | _ | site := written
  · simp [standing, BoundTo]
  · simpa [standing, BoundTo] using related.symm
  · cases found : pytestObject site with
    | none => simpa [standing, BoundTo, found] using related.symm
    | some object => simp [standing, BoundTo, found]

/-- A chain that resolves over a bound root has a root that is not given up. -/
theorem related_of_resolve {roots : MarkerRoots} {root binding : String} {members : List String}
    {marker : String} (bound : Dict.get roots root = some binding)
    (resolved : roots.resolve (root :: members) = some marker) : binding ≠ unrelatedBinding := by
  rintro rfl
  simp [MarkerRoots.resolve, bound] at resolved

/-- At the end of an execution the name is bound to an object of pytest from which members
lead to the marker for manual tests. -/
def LeadsToMarker (members : List String) (written : Option (Option Site)) : Prop :=
  ∃ object, BoundTo object written ∧ ".".intercalate (object :: members) = manualMarker

/-- One object only leads to the marker over given members. -/
theorem leadsToMarker_iff {roots : MarkerRoots} {root binding : String} {members : List String}
    (bound : Dict.get roots root = some binding)
    (resolved : roots.resolve (root :: members) = some manualMarker)
    (written : Option (Option Site)) : LeadsToMarker members written ↔ BoundTo binding written := by
  have spelled : ".".intercalate (binding :: members) = manualMarker := by
    have related := related_of_resolve bound resolved
    simpa [MarkerRoots.resolve, bound, related] using resolved
  constructor
  · rintro ⟨object, boundTo, leads⟩
    obtain rfl : object = binding := by
      cases members with
      | nil => simpa using leads.trans spelled.symm
      | cons member members =>
        have same := congrArg String.toList (leads.trans spelled.symm)
        exact String.toList_inj.mp (by simpa [String.intercalate_cons_cons] using same)
    exact boundTo
  · intro boundTo
    exact ⟨binding, boundTo, spelled⟩

/-! ## What the copies leave out -/

section

variable (root : String) (around : Surroundings)

/-- On some path of a statement the root is bound to something else, so the check gives it
up. -/
def GivenUp (statement : AST) : Prop :=
  (RootPaths.ofStatement root statement).flow .normal (some unrelatedBinding)

/-- A statement that is executed otherwise than on any path of the copies, and on none of
these gives the root up. -/
structure Omitted (statement : AST) (written : Option (Option Site)) : Prop where
  executed : Execution.run root around true statement .normal written
  offPath : ¬(RootPaths.ofStatement root statement).flow .normal (standing written)
  kept : ¬GivenUp root statement

/-- What the ways to execute a statement must satisfy that the copies leave out: if nothing
behind the statement binds the root again, the root has been bound last to an object that
leads to the marker. -/
def OmittedHarmless (members : List String) (tree : List AST) : Prop :=
  ∀ before statement after written, tree = before ++ statement :: after →
    Omitted root around statement written → ∀ earlier,
      Execution.execute root around before .normal earlier →
        Execution.execute root around after .normal none →
          LeadsToMarker members (written.or earlier)

variable {root around}

/-- If the omitted ways are harmless, then an execution of the rest of a module leaves the root
as one of the paths through the rest does, or one of these gives the root up, or the root
is bound to an object that leads to the marker.

Proof: by induction on the rest. A statement before one that binds the root does not
matter. -/
theorem rest_covered {members : List String} {tree : List AST}
    (harmless : OmittedHarmless root around members tree) (before rest : List AST)
    (split : tree = before ++ rest) (earlier written : Option (Option Site))
    (start : Execution.execute root around before .normal earlier)
    (executed : Execution.execute root around rest .normal written) :
    (RootPaths.ofStatements root rest).flow .normal (standing written) ∨
      (RootPaths.ofStatements root rest).flow .normal (some unrelatedBinding) ∨
        LeadsToMarker members (written.or earlier) := by
  induction rest generalizing before earlier written with
  | nil =>
    obtain rfl := (Execution.execute_nil_normal_iff root around written).mp executed
    left
    simp only [RootPaths.ofStatements]
    exact ⟨rfl, rfl⟩
  | cons statement after inductionHypothesis =>
    obtain ⟨first, last, ran, afterDone, rfl⟩ :=
      (Execution.execute_cons_normal_iff root around statement after written).mp executed
    have extended := Execution.execute_append start (Execution.execute_singleton ran)
    have behind := inductionHypothesis (before ++ [statement]) (by simpa using split)
      (first.or earlier) last extended afterDone
    obtain ⟨passed, path⟩ := (RootPaths.ofStatement root statement).total
    simp only [RootPaths.ofStatements]
    obtain covered | lost | bound := behind
    · cases last with
      | some site =>
        left
        exact Flow.seq_on path covered rfl
      | none =>
        -- the statement decides: it is on a path, gives the root up, or is omitted
        by_cases onPath : (RootPaths.ofStatement root statement).flow .normal (standing first)
        · left
          exact Flow.seq_on onPath covered rfl
        by_cases givenUp : GivenUp root statement
        · right; left
          exact Flow.seq_on givenUp covered rfl
        · right; right
          exact harmless before statement after first split ⟨ran, onPath, givenUp⟩ earlier start
            afterDone
    · right; left
      exact Flow.seq_on path lost rfl
    · right; right
      rwa [Option.or_assoc]

end

/-- `from pytest import mark`. -/
def importMark : AST := .importFrom ⟨0, 1, 1⟩ (some "pytest") [⟨"mark", none⟩] 0

/-- `mark = fake`. -/
def fakeMark : AST :=
  .assign ⟨4, 2, 2⟩ [.name ⟨5, 2, 2⟩ "mark" .store] (.name ⟨6, 2, 2⟩ "fake" .load)

/-- A loop over hosts that binds `mark` to something else and breaks; its `else` clause
imports `mark`. -/
def breakingLoop : AST :=
  .forStmt ⟨1, 1, 5⟩ false (.name ⟨2, 1, 1⟩ "host" .store) (.name ⟨3, 1, 1⟩ "hosts" .load)
    [fakeMark, .breakStmt ⟨7, 3, 3⟩] [importMark]

/-- The loop may be left with the other `mark`. -/
theorem breakingLoop_executed :
    Execution.execute "mark" plainModule [breakingLoop] .normal
      (some (some ⟨some (.name ⟨6, 2, 2⟩ "fake" .load), fakeMark, none⟩)) := by
  have assigned : Execution.run "mark" plainModule true fakeMark .normal
      (some (some ⟨some (.name ⟨6, 2, 2⟩ "fake" .load), fakeMark, none⟩)) := by
    simp only [fakeMark, Execution.run, Execution.runTargets, Execution.runTarget]
    exact Flow.seq_on ⟨rfl, rfl⟩ (Flow.seq_on ⟨rfl, rfl⟩ ⟨rfl, rfl⟩ rfl) rfl
  have body : Execution.execute "mark" plainModule [fakeMark, .breakStmt ⟨7, 3, 3⟩] .breaks
      (some (some ⟨some (.name ⟨6, 2, 2⟩ "fake" .load), fakeMark, none⟩)) := by
    simp only [Execution.execute]
    have leaves : Execution.run "mark" plainModule true (.breakStmt ⟨7, 3, 3⟩) .breaks none :=
      ⟨rfl, rfl⟩
    exact Flow.seq_on (.inl assigned) (Flow.seq_out (by decide) (.inl leaves)) rfl
  have broken : Execution.run "mark" plainModule true breakingLoop .normal
      (some (some ⟨some (.name ⟨6, 2, 2⟩ "fake" .load), fakeMark, none⟩)) := by
    simp only [breakingLoop, Execution.run, Execution.runTarget]
    refine Flow.seq_on ⟨rfl, rfl⟩ ?_ Option.or_none.symm
    refine Flow.loop_broken ⟨rfl, rfl⟩ ?_ Option.or_none.symm
    exact Flow.seq_on ⟨rfl, rfl⟩ body rfl
  simp only [Execution.execute]
  exact Flow.seq_on (.inl broken) ⟨rfl, rfl⟩ rfl

end VirtTestTools.Placeholders
