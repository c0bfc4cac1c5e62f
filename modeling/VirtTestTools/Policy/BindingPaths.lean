import VirtTestTools.Execution

/-!
# The paths of the scope builder

`_ScopeBuilder` goes through a tree once. What it does to one name of the module scope
follows from the tree: it takes some paths and not others. A loop body is gone through at
most once, and the test of a `while` loop before it only; what stands behind `break`,
`continue` and `raise` is gone through as well; a branch that ends with one of them is left
out where branches are joined. An exception is seen behind the statements of a `try` body
themselves and not inside them, and a definition binds its name before its header.

The paths are those of a `Pass`: on some of them the builder always goes on.
-/

namespace VirtTestTools.Policy

/-- What the scope of a node has to do with the names of the module: whether it is the
module scope, whether an assignment expression in it binds there, and whether one in a
comprehension below it does. -/
structure Level where
  own : Bool
  walrus : Bool
  below : Bool

namespace Level

/-- The statements of the module. -/
def module : Level := ⟨true, true, true⟩

/-- The body of a function, whose names are its own. -/
def function : Level := ⟨false, false, false⟩

/-- The body of a class, whose names are its own. -/
def classBody (level : Level) : Level := ⟨false, false, level.below⟩

/-- The inside of a comprehension, whose targets are its own. -/
def comprehension (level : Level) : Level := ⟨false, level.below, level.below⟩

end Level

namespace BindingPaths

section Joins

variable {α : Type}

/-- The writes of the branches behind which control goes on. -/
def outputs (branches : List (Pass α × Bool)) : Set (Option α) :=
  {written | ∃ branch ∈ branches, branch.2 = true ∧ branch.1.flow .normal written}

/-- The ways out of any of the branches. -/
def exits (branches : List (Pass α × Bool)) : Flow α := fun exit written =>
  ∃ branch ∈ branches, branch.1.flow exit written

section Append

variable (branches : List (Pass α × Bool)) (part : Pass α) (values : Set α)

/-- Behind one more branch there are its values too. -/
theorem after_exits_append (exit : Exit) (falls : Bool) :
    (exits (branches ++ [(part, falls)])).after exit values =
      (exits branches).after exit values ∪ part.flow.after exit values := by
  ext value
  simp only [Flow.mem_after, exits, Set.mem_union, List.mem_append, List.mem_singleton, or_and_right,
    exists_or, exists_eq_left, and_or_left]
  exact or_or_or_comm

/-- One more branch adds its ways to leave. -/
theorem leaves_exits_append (exit : Exit) (falls : Bool) :
    (exits (branches ++ [(part, falls)])).Leaves exit ↔
      (exits branches).Leaves exit ∨ part.flow.Leaves exit := by
  simp only [Flow.Leaves, exits, List.mem_append, List.mem_singleton, or_and_right, exists_or,
    exists_eq_left]

/-- A branch that falls through adds its values. -/
theorem spread_outputs_append :
    Flow.spread (outputs (branches ++ [(part, true)])) values =
      Flow.spread (outputs branches) values ∪ part.flow.after .normal values := by
  ext value
  simp only [Flow.mem_spread, Flow.mem_after, outputs, Set.mem_ofPred_eq, Set.mem_union,
    List.mem_append, List.mem_singleton, or_and_right, exists_or, exists_eq_left, true_and,
    and_or_left]
  exact or_or_or_comm

/-- A branch that does not fall through has no output. -/
theorem outputs_append_abrupt : outputs (branches ++ [(part, false)]) = outputs branches := by
  ext written
  simp [outputs]

/-- Control goes on behind branches if it does so behind one of them. -/
theorem nonempty_outputs : (outputs branches).Nonempty ↔ ∃ branch ∈ branches, branch.2 = true := by
  constructor
  · rintro ⟨written, branch, inside, falls, -⟩
    exact ⟨branch, inside, falls⟩
  · rintro ⟨branch, inside, falls⟩
    obtain ⟨written, on⟩ := branch.1.total
    exact ⟨written, branch, inside, falls, on⟩

/-- The outputs of the first branch and of the others. -/
theorem outputs_cons (falls : Bool) :
    outputs ((part, falls) :: branches) =
      {written | falls = true ∧ part.flow .normal written} ∪ outputs branches := by
  ext written
  simp [outputs]

/-- The exits of the first branch and of the others. -/
theorem exits_cons (falls : Bool) :
    exits ((part, falls) :: branches) = .choice part.flow (exits branches) := by
  funext exit written
  simp [exits, Flow.choice]

end Append

/-- The branches that fall through for those that do not. -/
def flipped (branches : List (Pass α × Bool)) : List (Pass α × Bool) :=
  branches.map fun branch => (branch.1, !branch.2)

/-- Branches that are entered behind a pass. -/
def entered (first : Pass α) (branches : List (Pass α × Bool)) : List (Pass α × Bool) :=
  branches.map fun branch => (first.settle.seq branch.1, branch.2)

section Entered

variable (first : Pass α) (branches : List (Pass α × Bool)) (values : Set α)

/-- The values behind branches that are entered through a common part. -/
theorem spread_outputs_entered :
    Flow.spread (outputs (entered first branches)) values =
      Flow.spread (outputs branches) (first.flow.after .normal values) := by
  induction branches with
  | nil =>
    ext value
    simp [Flow.mem_spread, outputs, entered]
  | cons branch rest inductionHypothesis =>
    obtain ⟨part, falls⟩ := branch
    have behind : entered first ((part, falls) :: rest) =
        (first.settle.seq part, falls) :: entered first rest := rfl
    rw [behind, outputs_cons, outputs_cons, Flow.spread_union, Flow.spread_union, inductionHypothesis]
    cases falls with
    | false => simp [Flow.spread]
    | true =>
      have here := @Pass.after_seq_normal _ values first.settle part
      rw [Pass.after_settle] at here
      simp only [true_and]
      exact congrArg (· ∪ _) here

/-- A common part in front does not change whether there are outputs. -/
theorem nonempty_outputs_entered :
    (outputs (entered first branches)).Nonempty ↔ (outputs branches).Nonempty := by
  rw [nonempty_outputs, nonempty_outputs]
  simp [entered]

/-- A common part in front of the branches is in front of the flipped ones. -/
theorem flipped_entered : flipped (entered first branches) = entered first (flipped branches) := by
  simp [flipped, entered]

/-- Behind a pass, the branches are left early as they are from the values behind it. -/
theorem after_exits_entered {exit : Exit} (early : exit ≠ .normal) :
    (exits (entered first branches)).after exit values =
      (exits branches).after exit (first.flow.after .normal values) := by
  induction branches with
  | nil =>
    ext value
    simp [Flow.mem_after, exits, entered]
  | cons branch rest inductionHypothesis =>
    obtain ⟨part, falls⟩ := branch
    have behind : entered first ((part, falls) :: rest) =
        (first.settle.seq part, falls) :: entered first rest := rfl
    rw [behind, exits_cons, exits_cons, Flow.after_choice, Flow.after_choice, inductionHypothesis,
      Pass.after_seq_late part early (Pass.not_settle early), Pass.after_settle]

/-- A common part in front does not change the ways to leave. -/
theorem leaves_exits_entered {exit : Exit} (early : exit ≠ .normal) :
    (exits (entered first branches)).Leaves exit ↔ (exits branches).Leaves exit := by
  induction branches with
  | nil => simp [Flow.Leaves, exits, entered]
  | cons branch rest inductionHypothesis =>
    obtain ⟨part, falls⟩ := branch
    have behind : entered first ((part, falls) :: rest) =
        (first.settle.seq part, falls) :: entered first rest := rfl
    rw [behind, exits_cons, exits_cons, Flow.leaves_choice, Flow.leaves_choice, inductionHypothesis,
      Pass.leaves_seq_late part early (Pass.not_settle early)]

/-- The writes with which a `finally` block is entered: those behind the body and the handlers,
and without handlers those of an exception. -/
def entries (completed : Pass α × Bool) : Set (Option α) :=
  outputs (completed :: entered first branches) ∪ outputs (flipped (entered first branches)) ∪
    {written | branches = [] ∧ first.flow .normal written}

/-- A `finally` block is always entered. -/
theorem nonempty_entries (completed : Pass α × Bool) : (entries first branches completed).Nonempty := by
  cases branches with
  | nil =>
    obtain ⟨written, on⟩ := first.total
    exact ⟨written, .inr ⟨rfl, on⟩⟩
  | cons branch rest =>
    obtain ⟨part, falls⟩ := branch
    refine .mono Set.subset_union_left (Set.union_nonempty.mpr ?_)
    rw [nonempty_outputs, nonempty_outputs]
    cases falls with
    | true => exact .inl ⟨(first.settle.seq part, true), by simp [entered], rfl⟩
    | false => exact .inr ⟨(first.settle.seq part, true), by simp [flipped, entered], rfl⟩

end Entered

/-- `_visit_branches`: one of the branches, or none of them if they may be skipped. -/
def branching (skipped : Bool) (branches : List (Pass α × Bool)) : Pass α :=
  .aside (exits branches)
    (.joined {written | (skipped = true ∧ written = none) ∨ written ∈ outputs branches})

/-- Behind the body of a loop: no round, a round that is continued, or a whole round. -/
def turned (round : Pass α) (bodyFalls : Bool) : Pass α :=
  .joined {written | written = none ∨ round.flow .continues written ∨
    (bodyFalls = true ∧ round.flow .normal written)}

/-- The ways out of a round that leave the loop as well. -/
def throughLoop (round : Flow α) : Flow α := fun exit written =>
  exit ≠ .breaks ∧ exit ≠ .continues ∧ round exit written

/-- `_visit_loop`: the body once or not at all, and the `else` clause if it is not broken. -/
def looping (round : Pass α) (bodyFalls : Bool) (orelse : Pass α) (orelseFalls : Bool) : Pass α :=
  let rest := (turned round bodyFalls).seq orelse
  .aside (.choice (throughLoop round.flow) rest.flow)
    (.joined {written | round.flow .breaks written ∨
      (orelseFalls = true ∧ rest.flow .normal written)})

/-- `_visit_try`: the body with the `else` clause, or the body as far as it came and one of the
handlers. The `finally` block is entered from all of these, and left only from those that
go on; without handlers it is entered from an exception as well. -/
def trying (completed : Pass α × Bool) (interrupted : Pass α) (handlers : List (Pass α × Bool))
    (finalbody : Option (Pass α)) : Pass α :=
  let branches := completed :: entered interrupted handlers
  let continuing := outputs branches
  match finalbody with
  | none => .aside (exits branches) (.joined continuing)
  | some finalbody =>
    let entering := (Pass.joined (entries interrupted handlers completed)).seq finalbody
    .aside (.choice (exits branches) entering.flow)
      (.joined {written |
        (continuing.Nonempty ∧ ((Pass.joined continuing).seq finalbody).flow .normal written) ∨
          (continuing = ∅ ∧ entering.flow .normal written)})

end Joins

section

variable {ν : Type} (name : String) (importPrefix : Option String → Nat → List String)
  (wrote : Site → ν)

/-- `_bind` in the module scope. -/
def binding (bound : String) (site : Site) : Pass (Option ν) :=
  if bound = name then .write (some (wrote site)) else .pass

/-- Bindings one after the other. -/
def bindings : List (String × Site) → Pass (Option ν)
  | [] => .pass
  | (bound, site) :: rest => (binding name wrote bound site).seq (bindings rest)

/-- Bindings in two stretches. -/
theorem bindings_append (sites more : List (String × Site)) :
    bindings name wrote (sites ++ more) =
      (bindings name wrote sites).seq (bindings name wrote more) := by
  induction sites with
  | nil => exact (Pass.pass_seq _).symm
  | cons site sites inductionHypothesis =>
    rw [List.cons_append, bindings, bindings, inductionHypothesis, Pass.seq_assoc]

/-- One name of `_visit_import`. -/
def importSite (node : AST) (imported : Alias) : String × Site :=
  match imported.asname with
  | some asname => (asname, ⟨none, node, some (nameParts imported.name)⟩)
  | none =>
    let localName := (nameParts imported.name).headD ""
    (localName, ⟨none, node, some [localName]⟩)

/-- One name of `_visit_importfrom`. -/
def importFromSites (node : AST) (level : Nat) (opening : List String) (imported : Alias) :
    List (String × Site) :=
  if imported.name = "*" then
    if opening = ["pytest"] ∧ level = 0 then
      ["skip", "mark", "pytestmark"].map fun exported =>
        (exported, ⟨none, node, some ["pytest", exported]⟩)
    else []
  else [(imported.asname.getD imported.name, ⟨none, node, some (opening ++ [imported.name])⟩)]

mutual

/-- `_bind_targets`. -/
def targetSites (node : AST) : AST → Option AST → List (String × Site)
  | .name _ id _, value => [(id, ⟨value, node, none⟩)]
  | .starred _ target, _ => targetSites node target none
  | .tuple _ elts, value | .list _ elts, value =>
    let values := ScopeBuilder.displayElements value
    elementSites node elts (if values.length = elts.length then values else [])
  | _, _ => []
termination_by structural target _ => target

/-- The bindings of the elements of a target, each with its value as far as there is one. -/
def elementSites (node : AST) : List AST → List AST → List (String × Site)
  | [], _ => []
  | target :: targets, [] => targetSites node target none ++ elementSites node targets []
  | target :: targets, value :: values =>
    targetSites node target (some value) ++ elementSites node targets values
termination_by structural targets _ => targets

end

/-- Bindings in the module scope, if this is the scope they are made in. -/
def bindingsIf (here : Bool) (sites : List (String × Site)) : Pass (Option ν) :=
  if here then bindings name wrote sites else .pass

mutual

/-- The paths of `_visit`. -/
def walk : AST → Level → Pass (Option ν)
  | node@(.name info id ctx), level =>
    if level.own ∧ id = name then
      match ctx with
      | .load => .observe info.id
      | .store => .write (some (wrote ⟨none, node, none⟩))
      | .del => .pass
    else .pass
  | node@(.importStmt _ names), level =>
    bindingsIf name wrote level.own (names.map (importSite node))
  | node@(.importFrom _ module names importLevel), level =>
    bindingsIf name wrote level.own
      (names.flatMap (importFromSites node importLevel (importPrefix module importLevel)))
  | node@(.assign _ targets value), level =>
    .seq (walk value level)
      (bindingsIf name wrote level.own (targets.flatMap (targetSites node · (some value))))
  | node@(.annAssign _ target annot value), level =>
    .seq (walk annot level) (.seq (walkOpt value level)
      (bindingsIf name wrote level.own (targetSites node target value)))
  | node@(.augAssign _ target value), level =>
    .seq (bindingsIf name wrote level.own (targetSites node target none)) (walk value level)
  | .globalStmt .., _ | .nonlocalStmt .., _ => .pass
  | node@(.namedExpr _ target value), level =>
    .seq (walk value level)
      (bindingsIf name wrote level.walrus (targetSites node target (some value)))
  | .lambda _ args body, level => .seq (walkDefaults args level) (walk body .function)
  | .comp _ _ elt generators, level =>
    .seq (walkGenerators generators true level) (walk elt level.comprehension)
  | .dictComp _ key value generators, level =>
    .seq (walkGenerators generators true level)
      (.seq (walk key level.comprehension) (walk value level.comprehension))
  | node@(.functionDef _ _ bound args body decoratorList returns), level =>
    .seq (bindingsIf name wrote level.own [(bound, ⟨none, node, none⟩)])
      (.seq (walkAll decoratorList level) (.seq (walkDefaults args level)
        (.seq (walkAnnotated args level) (.seq (walkOpt returns level)
          (.anyOf .pass [walkAll body .function])))))
  | node@(.classDef _ bound bases keywords body decoratorList), level =>
    .seq (bindingsIf name wrote level.own [(bound, ⟨none, node, some ["<local>", bound]⟩)])
      (.seq (walkAll decoratorList level) (.seq (walkAll bases level)
        (.seq (walkAll keywords level) (walkAll body level.classBody))))
  | .ifStmt _ test body orelse, level =>
    .seq (walk test level) (branching orelse.isEmpty
      [(walkAll body level, statementsFallThrough body),
        (walkAll orelse level, !orelse.isEmpty && statementsFallThrough orelse)])
  | .forStmt _ _ target iter body orelse, level =>
    .seq (walk iter level) (looping
      (.seq (bindingsIf name wrote level.own (targetSites target target none)) (walkAll body level))
      (statementsFallThrough body) (walkAll orelse level) (statementsFallThrough orelse))
  | .whileStmt _ test body orelse, level =>
    .seq (walk test level) (looping (walkAll body level) (statementsFallThrough body)
      (walkAll orelse level) (statementsFallThrough orelse))
  | .breakStmt _, _ => .note .breaks
  | .continueStmt _, _ => .note .continues
  | .tryStmt _ _ body handlers orelse finalbody, level =>
    trying (walkCompleted body (walkAll orelse level) level, statementsFallThrough body)
      (walkInterrupted body level) (walkHandlers handlers level)
      (if finalbody.isEmpty then none else some (walkAll finalbody level))
  | .matchStmt _ subject cases, level =>
    .seq (walk subject level) (.seq (walkPatterns cases level)
      (branching true (walkCases cases level)))
  | .constant .., _ => .pass
  | .attribute _ value _, level | .keyword _ _ value, level | .starred _ value, level
  | .exprStmt _ value, level => walk value level
  | .call _ func args keywords, level =>
    .seq (walk func level) (.seq (walkAll args level) (walkAll keywords level))
  | .list _ elts, level | .tuple _ elts, level => walkAll elts level
  | .ifExp _ test body orelse, level =>
    .seq (walk test level) (.seq (walk body level) (walk orelse level))
  | .comprehension _ _ target iter ifs, level =>
    .seq (walk target level) (.seq (walk iter level) (walkAll ifs level))
  | .arguments _ posonlyargs args vararg kwonlyargs kwDefaults kwarg defaults, level =>
    .seq (walkAll posonlyargs level) (.seq (walkAll args level) (.seq (walkOpt vararg level)
      (.seq (walkAll kwonlyargs level) (.seq (walkAll kwDefaults level)
        (.seq (walkOpt kwarg level) (walkAll defaults level))))))
  | .arg _ _ annot, level => walkOpt annot level
  | .returnStmt _ value, level => walkOpt value level
  | .raiseStmt _ exc cause, level => .seq (walkOpt exc level) (walkOpt cause level)
  | .exceptHandler _ type _ body, level => .seq (walkOpt type level) (walkAll body level)
  | .matchCase _ pattern guard body, level =>
    .seq (walk pattern level) (.seq (walkOpt guard level) (walkAll body level))
  | .other _ _ children, level => walkAll children level
termination_by structural node _ => node

/-- Nodes in turn. -/
def walkAll : List AST → Level → Pass (Option ν)
  | [], _ => .pass
  | node :: rest, level => .seq (walk node level) (walkAll rest level)
termination_by structural nodes _ => nodes

/-- The scan of a node that may be missing. -/
def walkOpt : Option AST → Level → Pass (Option ν)
  | none, _ => .pass
  | some node, level => walk node level
termination_by structural node _ => node

/-- The default values of the parameters. -/
def walkDefaults : AST → Level → Pass (Option ν)
  | .arguments _ _ _ _ _ kwDefaults _ defaults, level =>
    .seq (walkAll defaults level) (walkAll kwDefaults level)
  | _, _ => .pass
termination_by structural args _ => args

/-- The annotations of the parameters. -/
def walkAnnotated : AST → Level → Pass (Option ν)
  | .arguments _ posonlyargs args vararg kwonlyargs _ kwarg _, level =>
    .seq (walkAnnotatedAll posonlyargs level) (.seq (walkAnnotatedAll args level)
      (.seq (walkAnnotatedAll kwonlyargs level) (.seq (walkAnnotatedOpt vararg level)
        (walkAnnotatedOpt kwarg level))))
  | .arg _ _ annot, level => walkOpt annot level
  | _, _ => .pass
termination_by structural args _ => args

/-- The scan of the annotations of arguments. -/
def walkAnnotatedAll : List AST → Level → Pass (Option ν)
  | [], _ => .pass
  | argument :: rest, level => .seq (walkAnnotated argument level) (walkAnnotatedAll rest level)
termination_by structural arguments _ => arguments

/-- The scan of the annotation of an argument that may be missing. -/
def walkAnnotatedOpt : Option AST → Level → Pass (Option ν)
  | none, _ => .pass
  | some argument, level => walkAnnotated argument level
termination_by structural argument _ => argument

/-- The generators of a comprehension. -/
def walkGenerators : List AST → Bool → Level → Pass (Option ν)
  | [], _, _ => .pass
  | generator :: rest, first, level =>
    .seq (walkGenerator generator first level) (walkGenerators rest false level)
termination_by structural generators _ _ => generators

/-- The scan of a generator; the first iterable belongs to the scope around it. -/
def walkGenerator : AST → Bool → Level → Pass (Option ν)
  | .comprehension _ _ _ iter ifs, first, level =>
    .seq (walk iter (if first then level else level.comprehension)) (walkAll ifs level.comprehension)
  | _, _, _ => .pass
termination_by structural generator _ _ => generator

/-- The statements of a `try` body up to the first that does not fall through, and the `else`
clause if there is none. -/
def walkCompleted : List AST → Pass (Option ν) → Level → Pass (Option ν)
  | [], orelse, _ => orelse
  | statement :: rest, orelse, level =>
    .seq (walk statement level)
      (if statementFallsThrough statement then walkCompleted rest orelse level else .pass)
termination_by structural statements _ _ => statements

/-- The statements of a `try` body as far as an exception lets them. -/
def walkInterrupted : List AST → Level → Pass (Option ν)
  | [], _ => .pass
  | statement :: rest, level =>
    .anyOf .pass [.seq (walk statement level)
      (if statementFallsThrough statement then walkInterrupted rest level else .pass)]
termination_by structural statements _ => statements

/-- The handlers, and whether they fall through. -/
def walkHandlers : List AST → Level → List (Pass (Option ν) × Bool)
  | [], _ => []
  | handler :: rest, level => walkHandler handler level :: walkHandlers rest level
termination_by structural handlers _ => handlers

/-- The scan of a handler, and whether its body falls through. -/
def walkHandler : AST → Level → Pass (Option ν) × Bool
  | handler@(.exceptHandler _ type bound body), level =>
    (.seq (walkOpt type level)
      (.seq (bindingsIf name wrote level.own
        (bound.toList.map fun bound => (bound, ⟨none, handler, none⟩)))
        (.seq (walkCompleted body .pass level)
          (if level.own ∧ bound = some name then .write none else .pass))),
      statementsFallThrough body)
  | _, _ => (.pass, true)
termination_by structural handler _ => handler

/-- The patterns and guards of a `match`. -/
def walkPatterns : List AST → Level → Pass (Option ν)
  | [], _ => .pass
  | case :: rest, level => .seq (walkPattern case level) (walkPatterns rest level)
termination_by structural cases _ => cases

/-- The scan of a pattern with its guard. -/
def walkPattern : AST → Level → Pass (Option ν)
  | .matchCase _ pattern guard _, level => .seq (walk pattern level) (walkOpt guard level)
  | _, _ => .pass
termination_by structural case _ => case

/-- The bodies of a `match`, and whether they fall through. -/
def walkCases : List AST → Level → List (Pass (Option ν) × Bool)
  | [], _ => []
  | case :: rest, level => walkCase case level :: walkCases rest level
termination_by structural cases _ => cases

/-- The scan of the body of a case, and whether it falls through. -/
def walkCase : AST → Level → Pass (Option ν) × Bool
  | .matchCase _ _ _ body, level => (walkAll body level, statementsFallThrough body)
  | _, _ => (.pass, false)
termination_by structural case _ => case

end

/-- A declaration neither reads nor binds a name. -/
theorem walk_globalStmt (info : Info) (names : List String) (level : Level) :
    walk name importPrefix wrote (.globalStmt info names) level = .pass := by
  rw [walk]

/-- A nonlocal statement is passed over. -/
theorem walk_nonlocalStmt (info : Info) (names : List String) (level : Level) :
    walk name importPrefix wrote (.nonlocalStmt info names) level = .pass := by
  rw [walk]

end

end BindingPaths

end VirtTestTools.Policy
