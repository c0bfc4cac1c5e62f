import VirtTestTools.Branches
import VirtTestTools.Policy.BindingSoundness

/-!
# Reaching definitions of branching code

A module of imports, assignments, expression statements, `raise` and `if`, without
expressions that bind. At a load that is reached, the scope builder records exactly the
bindings that come there on an execution that takes either branch of each `if`.

The builder goes on behind `raise`, so what it records at a load that no execution reaches
is another matter.
-/

namespace VirtTestTools.Policy

open BindingPaths

/-! ## The modules -/

/-- An expression without lambdas, comprehensions and assignment expressions. -/
inductive Plain : AST → Prop
  | name (info : Info) (id : String) : Plain (.name info id .load)
  | constant (info : Info) (value : Literal) : Plain (.constant info value)
  | member {value : AST} (info : Info) (attr : String) (plain : Plain value) :
      Plain (.attribute info value attr)
  | keyword {value : AST} (info : Info) (arg : Option String) (plain : Plain value) :
      Plain (.keyword info arg value)
  | starred {value : AST} (info : Info) (plain : Plain value) : Plain (.starred info value)
  | call {func : AST} {args keywords : List AST} (info : Info) (called : Plain func)
      (positional : ∀ part ∈ args, Plain part) (named : ∀ part ∈ keywords, Plain part) :
      Plain (.call info func args keywords)
  | list {elts : List AST} (info : Info) (parts : ∀ part ∈ elts, Plain part) :
      Plain (.list info elts)
  | tuple {elts : List AST} (info : Info) (parts : ∀ part ∈ elts, Plain part) :
      Plain (.tuple info elts)
  | ifExp {test body orelse : AST} (info : Info) (tested : Plain test) (first : Plain body)
      (second : Plain orelse) : Plain (.ifExp info test body orelse)
  | other {children : List AST} (info : Info) (cls : OtherClass)
      (expression : isExpressionClass cls = true) (parts : ∀ part ∈ children, Plain part) :
      Plain (.other info cls children)

/-- The target of an assignment. -/
inductive Target : AST → Prop
  | name (info : Info) (id : String) : Target (.name info id .store)
  | member {value : AST} (info : Info) (attr : String) (plain : Plain value) :
      Target (.attribute info value attr)
  | subscript {children : List AST} (info : Info) (parts : ∀ part ∈ children, Plain part) :
      Target (.other info .subscript children)
  | starred {target : AST} (info : Info) (inner : Target target) : Target (.starred info target)
  | list {elts : List AST} (info : Info) (parts : ∀ part ∈ elts, Target part) :
      Target (.list info elts)
  | tuple {elts : List AST} (info : Info) (parts : ∀ part ∈ elts, Target part) :
      Target (.tuple info elts)

/-- The statements of branching code. -/
inductive Branching : AST → Prop
  | importStmt (info : Info) (names : List Alias) : Branching (.importStmt info names)
  | importFrom {names : List Alias} (info : Info) (module : Option String) (level : Nat)
      (named : ∀ imported ∈ names, imported.name ≠ "*") :
      Branching (.importFrom info module names level)
  | assign {targets : List AST} {value : AST} (info : Info)
      (bound : ∀ target ∈ targets, Target target) (plain : Plain value) :
      Branching (.assign info targets value)
  | exprStmt {value : AST} (info : Info) (plain : Plain value) : Branching (.exprStmt info value)
  | raiseStmt {exc cause : Option AST} (info : Info) (raised : ∀ part ∈ exc, Plain part)
      (chained : ∀ part ∈ cause, Plain part) : Branching (.raiseStmt info exc cause)
  | ifStmt {test : AST} {body orelse : List AST} (info : Info) (tested : Plain test)
      (first : ∀ statement ∈ body, Branching statement)
      (second : ∀ statement ∈ orelse, Branching statement) :
      Branching (.ifStmt info test body orelse)

mutual

/-- The expressions that a statement evaluates: those of expression statements, `raise` and
`if`, and the right-hand sides of assignments. -/
def evaluated : AST → List AST
  | .assign _ _ value | .exprStmt _ value => [value]
  | .raiseStmt _ exc cause => exc.toList ++ cause.toList
  | .ifStmt _ test body orelse => test :: evaluatedAll body ++ evaluatedAll orelse
  | _ => []

/-- The parts that the statements evaluate. -/
def evaluatedAll : List AST → List AST
  | [] => []
  | statement :: rest => evaluated statement ++ evaluatedAll rest

end

/-! ## Nodes and their identities -/

/-- The loads of a name in some trees. -/
def loads (name : String) (nodes : List AST) : Set Nat :=
  {point | ∃ info, .name info name .load ∈ AST.preorderAll nodes ∧ info.id = point}

section

variable {name : String} {node : AST} {nodes more : List AST}

/-- Nothing loads nothing. -/
@[simp]
theorem loads_nil : loads name [] = ∅ := by
  ext point
  simp [loads, AST.preorderAll]

/-- Two lists of nodes load what either loads. -/
theorem loads_append : loads name (nodes ++ more) = loads name nodes ∪ loads name more := by
  ext point
  simp only [loads, AST.preorderAll_append, List.mem_append, Set.mem_ofPred_eq, Set.mem_union,
    or_and_right, exists_or]

/-- The loads of the first node and of the rest. -/
theorem loads_cons (node : AST) (rest : List AST) :
    loads name (node :: rest) = loads name [node] ∪ loads name rest :=
  @loads_append name [node] rest

/-- A loaded name is the only point where it is looked up. -/
theorem loads_name (info : Info) (id : String) :
    loads name [.name info id .load] = if id = name then {info.id} else ∅ := by
  ext point
  simp only [loads, AST.preorderAll, AST.preorder, List.append_nil, List.mem_singleton,
    Set.mem_ofPred_eq, AST.name.injEq]
  split
  · rename_i same
    simp [same, eq_comm]
  · rename_i different
    simp [Ne.symm different]

/-- A node that is no name loads nothing itself. -/
theorem loads_children (other : ∀ info, node ≠ .name info name .load) :
    loads name [node] = loads name node.children := by
  ext point
  simp only [loads, AST.preorderAll_singleton, List.mem_cons, Set.mem_ofPred_eq]
  refine exists_congr fun info => and_congr_left fun _ => or_iff_right fun same => ?_
  exact other info same.symm

/-- Loads are points of the nodes. -/
theorem loads_subset_points : loads name nodes ⊆ AST.points nodes := by
  rintro point ⟨info, inside, rfl⟩
  exact List.mem_map.mpr ⟨_, inside, rfl⟩

end

/-- Two lists lie within two larger ones, one behind the other. -/
theorem append_subset_append {first second firstMore secondMore : List AST}
    (within : first ⊆ firstMore) (behind : second ⊆ secondMore) :
    first ++ second ⊆ firstMore ++ secondMore :=
  List.append_subset.mpr ⟨List.subset_append_of_subset_left _ within,
    List.subset_append_of_subset_right _ behind⟩

mutual

/-- What is evaluated stands in the tree. -/
theorem evaluated_subset (node : AST) : AST.preorderAll (evaluated node) ⊆ AST.preorderAll [node] := by
  rw [AST.preorderAll_singleton]
  refine List.subset_cons_of_subset _ ?_
  cases node with
  | assign info targets value =>
    rw [evaluated, AST.children, AST.preorderAll_append]
    exact List.subset_append_right _ _
  | exprStmt info value =>
    rw [evaluated, AST.children]
    exact List.Subset.refl _
  | raiseStmt info exc cause =>
    rw [evaluated, AST.children]
    exact List.Subset.refl _
  | ifStmt info test body orelse =>
    have first := evaluatedAll_subset body
    have second := evaluatedAll_subset orelse
    rw [evaluated, AST.children, List.cons_append, List.cons_append, AST.preorderAll, AST.preorderAll,
      AST.preorderAll_append, AST.preorderAll_append]
    exact append_subset_append (List.Subset.refl _) (append_subset_append first second)
  | _ =>
    rw [evaluated]
    exact List.nil_subset _
    all_goals simp

/-- What statements evaluate are parts of them. -/
theorem evaluatedAll_subset (nodes : List AST) :
    AST.preorderAll (evaluatedAll nodes) ⊆ AST.preorderAll nodes := by
  cases nodes with
  | nil =>
    rw [evaluatedAll]
    exact List.Subset.refl _
  | cons node rest =>
    have first := evaluated_subset node
    have others := evaluatedAll_subset rest
    rw [evaluatedAll, AST.preorderAll_append, ← List.singleton_append, AST.preorderAll_append]
    exact append_subset_append first others

end

/-! ## Expressions -/

section

variable {ν : Type} {name : String} {around : Surroundings}
  {importPrefix : Option String → Nat → List String} {wrote : Site → ν} {node : AST}
  {nodes : List AST}

/-- Nodes that only look at the name do so one after another. -/
theorem runAll_glances
    (each : ∀ node ∈ nodes, (Execution.run name around true node).Glances (loads name [node])) :
    (Execution.runAll name around true nodes).Glances (loads name nodes) := by
  induction nodes with
  | nil =>
    rw [Execution.runAll, loads_nil]
    exact Flow.glances_pass
  | cons node rest inductionHypothesis =>
    rw [Execution.runAll, loads_cons]
    obtain ⟨first, others⟩ := List.forall_mem_cons.mp each
    exact first.seq (inductionHypothesis others)

/-- A chain of comparisons whose parts only look at the name only looks at it. -/
theorem runChain_glances
    (each : ∀ node ∈ nodes, (Execution.run name around true node).Glances (loads name [node])) :
    (Execution.runChain name around true nodes).Glances (loads name nodes) := by
  induction nodes with
  | nil =>
    rw [Execution.runChain, loads_nil]
    exact Flow.glances_pass
  | cons node rest inductionHypothesis =>
    rw [Execution.runChain, loads_cons]
    obtain ⟨first, others⟩ := List.forall_mem_cons.mp each
    have behind := Flow.glances_pass.choice (inductionHypothesis others)
    rw [Set.empty_union] at behind
    exact first.seq behind

/-- The scan of nodes that only look at the name only looks at it. -/
theorem walkAll_glances
    (each : ∀ node ∈ nodes,
      (walk name importPrefix wrote node .module).flow.Glances (loads name [node])) :
    (walkAll name importPrefix wrote nodes .module).flow.Glances (loads name nodes) := by
  induction nodes with
  | nil =>
    rw [walkAll, loads_nil]
    exact Flow.glances_pass
  | cons node rest inductionHypothesis =>
    rw [walkAll, loads_cons]
    obtain ⟨first, others⟩ := List.forall_mem_cons.mp each
    exact first.seq (inductionHypothesis others)

/-- The evaluation of an expression observes its loads. -/
theorem Plain.run_glances (plain : Plain node) :
    (Execution.run name around true node).Glances (loads name [node]) := by
  induction plain with
  | name info id =>
    rw [Execution.run, loads_name]
    by_cases same : id = name
    · simpa [same] using Flow.glances_observe info.id
    · simpa [same] using Flow.glances_pass
  | constant info value =>
    rw [Execution.run, loads_children (by simp), AST.children, loads_nil]
    exact Flow.glances_pass
  | member info attr plain inner =>
    rwa [Execution.run, loads_children (by simp)]
  | keyword info arg plain inner =>
    rwa [Execution.run, loads_children (by simp)]
  | starred info plain inner =>
    rwa [Execution.run, loads_children (by simp)]
  | call info called positional named calledGlances positionalGlances namedGlances =>
    rw [Execution.run, loads_children (by simp), AST.children, List.cons_append, loads_cons, loads_append]
    exact calledGlances.seq ((runAll_glances positionalGlances).seq (runAll_glances namedGlances))
  | list info parts inner =>
    rw [Execution.run, loads_children (by simp)]
    exact runAll_glances inner
  | tuple info parts inner =>
    rw [Execution.run, loads_children (by simp)]
    exact runAll_glances inner
  | @ifExp test body orelse info tested first second testGlances firstGlances secondGlances =>
    rw [Execution.run, loads_children (by simp), AST.children, loads_cons, loads_cons body]
    exact testGlances.seq (firstGlances.choice secondGlances)
  | @other children info cls expression parts inner =>
    rw [loads_children (by simp), AST.children]
    cases cls with
    | boolOp =>
      rw [Execution.run]
      exact runChain_glances inner
    | compare ops =>
      cases children with
      | nil =>
        rw [Execution.run]
        · exact runAll_glances inner
        all_goals simp
      | cons left comparators =>
        rw [Execution.run, loads_cons]
        obtain ⟨first, others⟩ := List.forall_mem_cons.mp inner
        exact first.seq (runChain_glances others)
    | _ =>
      first
      | cases expression; done
      | rw [Execution.run]
        · exact runAll_glances inner
        all_goals simp

/-- So does the visit of the builder. -/
theorem Plain.walk_glances (plain : Plain node) :
    (walk name importPrefix wrote node .module).flow.Glances (loads name [node]) := by
  induction plain with
  | name info id =>
    rw [walk, loads_name]
    by_cases same : id = name
    · rw [if_pos same, if_pos ⟨rfl, same⟩]
      exact Flow.glances_observe info.id
    · rw [if_neg same, if_neg fun both => same both.2]
      exact Flow.glances_pass
  | constant info value =>
    rw [walk, loads_children (by simp), AST.children, loads_nil]
    exact Flow.glances_pass
  | member info attr plain inner =>
    rwa [walk, loads_children (by simp)]
  | keyword info arg plain inner =>
    rwa [walk, loads_children (by simp)]
  | starred info plain inner =>
    rwa [walk, loads_children (by simp)]
  | call info called positional named calledGlances positionalGlances namedGlances =>
    rw [walk, loads_children (by simp), AST.children, List.cons_append, loads_cons, loads_append]
    exact calledGlances.seq ((walkAll_glances positionalGlances).seq (walkAll_glances namedGlances))
  | list info parts inner =>
    rw [walk, loads_children (by simp)]
    exact walkAll_glances inner
  | tuple info parts inner =>
    rw [walk, loads_children (by simp)]
    exact walkAll_glances inner
  | @ifExp test body orelse info tested first second testGlances firstGlances secondGlances =>
    rw [walk, loads_children (by simp), AST.children, loads_cons, loads_cons body]
    exact testGlances.seq (firstGlances.seq secondGlances)
  | other info cls expression parts inner =>
    rw [walk, loads_children (by simp)]
    exact walkAll_glances inner

/-- At every point, the visit agrees with the evaluation. -/
theorem Plain.agrees (plain : Plain node) (point : Nat) :
    Agrees point (AST.points [node]) (Execution.run name around true node)
      (walk name importPrefix id node .module) true :=
  (Agrees.of_glances plain.run_glances plain.walk_glances).mono loads_subset_points

end

/-! ## Bindings -/

section

variable {ν : Type} {name : String} {around : Surroundings} {wrote : Site → ν}

/-- A binding goes on. -/
theorem bindings_normal (sites : List (String × Site)) {exit : Exit} {written : Option (Option ν)}
    (left : (bindings name wrote sites).flow exit written) : exit = .normal := by
  induction sites generalizing written with
  | nil => exact left.1
  | cons site sites inductionHypothesis =>
    obtain ⟨bound, made⟩ := site
    obtain ⟨early, first⟩ | ⟨before, after, -, second, -⟩ := left
    · have normal : exit = .normal := by
        unfold binding at first
        split at first
        · exact first.1
        · exact first.1
      exact absurd normal early
    · exact inductionHypothesis second

/-- Some statement makes the bindings of some sites, and observes nothing but some points. -/
structure Assigns (name : String) (seen : Set Nat) (flow : Execution.Writes)
    (sites : List (String × Site)) : Prop where
  on : ∀ written, flow .normal written ↔ (bindings name id sites).flow .normal written
  within : ∀ point, flow.Leaves (.observed point) → point ∈ seen

namespace Assigns

variable {seen more : Set Nat} {flow other : Execution.Writes} {sites behind : List (String × Site)}

/-- The flow of some bindings makes these bindings. -/
theorem of_flow (same : flow = (bindings name id sites).flow) : Assigns name seen flow sites where
  on written := by rw [same]
  within point := by
    rintro ⟨written, met⟩
    rw [same] at met
    cases bindings_normal sites met

/-- A flow that only looks makes no binding. -/
theorem of_glances (glances : flow.Glances seen) : Assigns name seen flow [] where
  on written := by
    rw [glances]
    exact ⟨fun both => ⟨rfl, both.1⟩, fun both => ⟨both.2, .inl rfl⟩⟩
  within point := by
    rintro ⟨written, met⟩
    obtain ⟨-, normal | ⟨point, inside, observed⟩⟩ := (glances _ _).mp met
    · cases normal
    · cases observed
      exact inside

/-- Looks may be counted among more points. -/
theorem mono (assigns : Assigns name seen flow sites) (inside : seen ⊆ more) :
    Assigns name more flow sites :=
  ⟨assigns.on, fun point met => inside (assigns.within point met)⟩

/-- Bindings one after the other. -/
theorem seq (assigns : Assigns name seen flow sites) (later : Assigns name more other behind) :
    Assigns name (seen ∪ more) (Flow.seq flow other) (sites ++ behind) where
  on written := by
    rw [bindings_append]
    simp only [Flow.seq, Pass.seq, assigns.on, later.on]
  within point := by
    rintro ⟨written, ⟨-, met⟩ | ⟨before, after, -, met, -⟩⟩
    · exact .inl (assigns.within point ⟨_, met⟩)
    · exact .inr (later.within point ⟨_, met⟩)

/-- At a point outside of the assignment, the bindings agree with it. -/
theorem agrees (assigns : Assigns name seen flow sites) {point : Nat} (outside : point ∉ seen) :
    Agrees point seen flow (bindings name id sites) true where
  on written := by rw [assigns.on, and_iff_right rfl]
  sound written met := absurd (assigns.within point ⟨written, met⟩) outside
  complete met := absurd (assigns.within point met) outside
  within := by
    rintro ⟨written, met⟩
    cases bindings_normal sites met

end Assigns

/-- The elements of a target bind what each of them binds. -/
theorem runElements_assigns (node : AST) {elts : List AST} (values : List AST)
    (each : ∀ target ∈ elts, ∀ value, Assigns name (AST.points [target])
      (Execution.runTarget name around true node target value) (targetSites node target value)) :
    Assigns name (AST.points elts) (Execution.runElements name around true node elts values)
      (elementSites node elts values) := by
  induction elts generalizing values with
  | nil =>
    simp only [Execution.runElements, elementSites]
    exact .of_flow rfl
  | cons target rest inductionHypothesis =>
    obtain ⟨first, others⟩ := List.forall_mem_cons.mp each
    rw [AST.points_cons]
    cases values with
    | nil =>
      simp only [Execution.runElements, elementSites]
      exact (first none).seq (inductionHypothesis [] others)
    | cons value values =>
      simp only [Execution.runElements, elementSites]
      exact (first (some value)).seq (inductionHypothesis values others)

/-- An assignment to a target makes the bindings of `_bind_targets`. -/
theorem Target.assigns {target : AST} (isTarget : Target target) (node : AST) (value : Option AST) :
    Assigns name (AST.points [target]) (Execution.runTarget name around true node target value)
      (targetSites node target value) := by
  induction isTarget generalizing value with
  | name info id =>
    simp only [Execution.runTarget, targetSites]
    refine .of_flow ?_
    rw [bindings, bindings, Pass.seq_pass]
    rfl
  | member info attr plain =>
    simp only [Execution.runTarget, targetSites]
    exact (Assigns.of_glances plain.run_glances).mono
      (loads_subset_points.trans (AST.points_children_subset (.attribute info _ attr)))
  | subscript info parts =>
    simp only [Execution.runTarget, targetSites]
    refine (Assigns.of_glances (runAll_glances fun part inside => ?_)).mono
      (loads_subset_points.trans (AST.points_children_subset (.other info .subscript _)))
    exact (parts part inside).run_glances
  | starred info inner inductionHypothesis =>
    simp only [Execution.runTarget, targetSites]
    exact (inductionHypothesis none).mono (AST.points_children_subset (.starred info _))
  | list info parts inductionHypothesis =>
    simp only [Execution.runTarget, targetSites]
    exact (runElements_assigns node _ inductionHypothesis).mono
      (AST.points_children_subset (.list info _))
  | tuple info parts inductionHypothesis =>
    simp only [Execution.runTarget, targetSites]
    exact (runElements_assigns node _ inductionHypothesis).mono
      (AST.points_children_subset (.tuple info _))

/-- The targets of an assignment bind what each of them binds. -/
theorem runTargets_assigns (node : AST) (value : Option AST) {targets : List AST}
    (bound : ∀ target ∈ targets, Target target) :
    Assigns name (AST.points targets) (Execution.runTargets name around true node value targets)
      (targets.flatMap (targetSites node · value)) := by
  induction targets with
  | nil =>
    rw [Execution.runTargets]
    exact .of_flow rfl
  | cons target rest inductionHypothesis =>
    obtain ⟨first, others⟩ := List.forall_mem_cons.mp bound
    rw [Execution.runTargets, List.flatMap_cons, AST.points_cons]
    exact (first.assigns node value).seq (inductionHypothesis others)

/-- The names of an import in turn. -/
theorem importing_assigns {seen : Set Nat} (names : List Alias) (one : Alias → Execution.Writes)
    (site : Alias → String × Site)
    (each : ∀ imported ∈ names, one imported = (binding name id (site imported).1 (site imported).2).flow) :
    Assigns name seen (names.foldr (fun imported rest => .seq (one imported) rest) .pass)
      (names.map site) := by
  refine .of_flow ?_
  induction names with
  | nil => rfl
  | cons imported rest inductionHypothesis =>
    obtain ⟨first, others⟩ := List.forall_mem_cons.mp each
    rw [List.foldr_cons, inductionHypothesis others, first]
    rfl

end

/-! ## Statements -/

section

variable {name : String} {around : Surroundings} {point : Nat} {statement : AST}

/-- Statements agree with their scan when each of them does. -/
theorem execute_agrees {statements : List AST}
    (each : ∀ statement ∈ statements, AST.Distinct [statement] →
      (point ∈ AST.points [statement] → point ∈ AST.points (evaluated statement)) →
      Agrees point (AST.points [statement]) (Execution.run name around true statement)
        (walk name (Execution.importPrefix around) id statement .module)
        (statementFallsThrough statement))
    (distinct : AST.Distinct statements)
    (placed : point ∈ AST.points statements → point ∈ AST.points (evaluatedAll statements)) :
    Agrees point (AST.points statements) (Execution.execute name around statements)
      (walkAll name (Execution.importPrefix around) id statements .module)
      (statementsFallThrough statements) := by
  induction statements with
  | nil =>
    rw [Execution.execute, walkAll, statementsFallThrough]
    exact (Agrees.of_glances Flow.glances_pass Flow.glances_pass).mono (Set.empty_subset _)
  | cons statement rest inductionHypothesis =>
    obtain ⟨first, others⟩ := List.forall_mem_cons.mp each
    obtain ⟨firstDistinct, restDistinct, apart⟩ := (@AST.distinct_append [statement] rest).mp distinct
    rw [evaluatedAll, AST.points_append, AST.points_cons] at placed
    rw [Execution.execute, walkAll, statementsFallThrough, AST.points_cons]
    refine (first firstDistinct fun here => ?_).fallible.seq
      (inductionHypothesis others restDistinct fun there => ?_) (apart point)
    · refine (placed (.inl here)).resolve_right fun evaluatedThere => ?_
      exact apart point here (AST.points_mono (evaluatedAll_subset rest) evaluatedThere)
    · refine (placed (.inr there)).resolve_left fun evaluatedHere => ?_
      exact apart point (AST.points_mono (evaluated_subset statement) evaluatedHere) there

/-- An import statement makes a binding for each of its modules. -/
theorem importStmt_assigns (node : AST) (names : List Alias) :
    Assigns name ∅
      (names.foldr (fun imported rest => .seq (Execution.bindImport name node imported).flow rest) .pass)
      (names.map (importSite node)) := by
  refine importing_assigns names _ _ fun imported _ => ?_
  obtain ⟨imported, asname⟩ := imported
  cases asname with
  | none => rfl
  | some asname => rfl

/-- An import from a module makes a binding for each of its names. -/
theorem importFrom_assigns (node : AST) (module : Option String) (level : Nat) {names : List Alias}
    (named : ∀ imported ∈ names, imported.name ≠ "*") :
    Assigns name ∅
      (names.foldr (fun imported rest => .seq (Execution.importMember name around node
        (Execution.importPrefix around module level) imported) rest) .pass)
      (names.flatMap (importFromSites node level (Execution.importPrefix around module level))) := by
  have sites : names.flatMap (importFromSites node level (Execution.importPrefix around module level)) =
      names.map fun imported => (imported.asname.getD imported.name,
        ⟨none, node, some (Execution.importPrefix around module level ++ [imported.name])⟩) := by
    rw [← List.flatMap_pure_eq_map]
    refine List.flatMap_congr fun imported inside => ?_
    exact if_neg (named imported inside)
  rw [sites]
  refine importing_assigns names _ _ fun imported inside => ?_
  exact if_neg (named imported inside)

/-- The branches of an `if`: without `else`, the other one falls through. -/
theorem branching_eq {ν : Type} (first : Pass (Option ν)) (falls : Bool) (orelse : List AST)
    (second : Pass (Option ν)) (nothing : orelse = [] → second = .pass) :
    branching orelse.isEmpty [(first, falls), (second, !orelse.isEmpty && statementsFallThrough orelse)] =
      .aside (.choice first.flow second.flow)
        (.joined {written | (falls = true ∧ first.flow .normal written) ∨
          (statementsFallThrough orelse = true ∧ second.flow .normal written)}) := by
  have exitsEq (goesOn : Bool) :
      exits [(first, falls), (second, goesOn)] = .choice first.flow second.flow := by
    funext exit written
    simp [exits, Flow.choice]
  unfold branching
  rw [exitsEq]
  congr 2
  ext written
  cases orelse with
  | nil =>
    rw [nothing rfl]
    simp [outputs, statementsFallThrough, Pass.pass, Flow.pass, or_comm]
  | cons statement rest =>
    simp [outputs]

/-- The visit of a statement agrees with its execution, unless the point is in a target. -/
theorem Branching.agrees (branching : Branching statement) (distinct : AST.Distinct [statement])
    (placed : point ∈ AST.points [statement] → point ∈ AST.points (evaluated statement)) :
    Agrees point (AST.points [statement]) (Execution.run name around true statement)
      (walk name (Execution.importPrefix around) id statement .module)
      (statementFallsThrough statement) := by
  induction branching with
  | importStmt info names =>
    rw [Execution.run, walk]
    exact ((importStmt_assigns _ names).agrees (Set.notMem_empty point)).mono (Set.empty_subset _)
  | importFrom info module level named =>
    rw [Execution.run, walk]
    exact ((importFrom_assigns _ module level named).agrees (Set.notMem_empty point)).mono
      (Set.empty_subset _)
  | @assign targets value info bound plain =>
    have parts := AST.distinct_append.mp (AST.distinct_children distinct)
    have outside : point ∉ AST.points targets := by
      intro inside
      refine parts.2.2 point inside (placed ?_)
      exact AST.points_children_subset (.assign info targets value)
        (AST.points_append ▸ .inl inside)
    rw [Execution.run, walk]
    refine ((plain.agrees point).seq ((runTargets_assigns _ _ bound).agrees outside)
      fun _ => outside).mono ?_
    rw [Set.union_comm, ← AST.points_append]
    exact AST.points_children_subset (.assign info targets value)
  | exprStmt info plain =>
    rw [Execution.run, walk]
    exact (plain.agrees point).mono (AST.points_children_subset (.exprStmt info _))
  | @raiseStmt exc cause info raised chained =>
    have optional (part : Option AST) (plain : ∀ inner ∈ part, Plain inner) :
        Agrees point (AST.points part.toList) (Execution.runOpt name around true part)
          (walkOpt name (Execution.importPrefix around) id part .module) true := by
      cases part with
      | none =>
        rw [Execution.runOpt, walkOpt]
        exact (Agrees.of_glances Flow.glances_pass Flow.glances_pass).mono (Set.empty_subset _)
      | some inner =>
        rw [Execution.runOpt, walkOpt]
        exact (plain inner rfl).agrees point
    have apart := (AST.distinct_append.mp (AST.distinct_children distinct)).2.2
    have left : Agrees point ∅ (Flow.leave .raises) (.pass : Pass (Option Site)) false :=
      .leave (fun same => by cases same) (fun same => by cases same)
    have whole := (optional exc raised).seq ((optional cause chained).seq left fun _ => Set.notMem_empty _)
      (by simpa using apart point)
    rw [Pass.seq_pass, Set.union_empty, ← AST.points_append] at whole
    rw [Execution.run, walk, statementFallsThrough]
    exact whole.mono (AST.points_children_subset (.raiseStmt info exc cause))
  | @ifStmt test body orelse info tested first second firstAgrees secondAgrees =>
    obtain ⟨-, restDistinct, testApart⟩ :=
      (@AST.distinct_append [test] (body ++ orelse)).mp (AST.distinct_children distinct)
    obtain ⟨bodyDistinct, elseDistinct, apart⟩ := AST.distinct_append.mp restDistinct
    rw [AST.points_append] at testApart
    -- the point is evaluated in the part it stands in
    have below := AST.points_children_subset (.ifStmt info test body orelse)
    rw [AST.children, List.cons_append, AST.points_cons, AST.points_append] at below
    rw [evaluated, List.cons_append, AST.points_cons test, AST.points_append] at placed
    have bodySubset := AST.points_mono (evaluatedAll_subset body)
    have elseSubset := AST.points_mono (evaluatedAll_subset orelse)
    have firstBranch := execute_agrees firstAgrees bodyDistinct fun here => by
      obtain inTest | inBody | inElse := placed (below (.inr (.inl here)))
      · exact absurd (.inl here) (testApart point inTest)
      · exact inBody
      · exact absurd (elseSubset inElse) (apart point here)
    have secondBranch := execute_agrees secondAgrees elseDistinct fun here => by
      obtain inTest | inBody | inElse := placed (below (.inr (.inr here)))
      · exact absurd (.inr here) (testApart point inTest)
      · exact absurd here (apart point (bodySubset inBody))
      · exact inElse
    have joined := branching_eq
      (walkAll name (Execution.importPrefix around) id body .module) (statementsFallThrough body) orelse
      (walkAll name (Execution.importPrefix around) id orelse .module) (by rintro rfl; rw [walkAll])
    have goesOn : statementFallsThrough (.ifStmt info test body orelse) =
        (true && (statementsFallThrough body || statementsFallThrough orelse)) := by
      rw [statementFallsThrough, Bool.true_and]
      cases orelse with
      | nil => simp [statementsFallThrough]
      | cons => rfl
    rw [Execution.run, walk, joined, goesOn]
    exact ((tested.agrees point).seq (firstBranch.branch secondBranch (apart point))
      (testApart point)).mono below

end

/-! ## What opens a scope -/

/-- The node neither opens a scope nor declares names global. -/
structure Simple (node : AST) : Prop where
  opens : nestedParts node = []
  declares : ∀ info names, node ≠ .globalStmt info names

/-- So it is for all nodes of some trees. -/
def AllSimple (nodes : List AST) : Prop := ∀ inner ∈ AST.preorderAll nodes, Simple inner

/-- Nodes are simple throughout when each of them is. -/
theorem allSimple_of_forall {nodes : List AST} (each : ∀ node ∈ nodes, AllSimple [node]) :
    AllSimple nodes := by
  intro inner inside
  obtain ⟨node, nodeInside, deeper⟩ := AST.mem_preorderAll.mp inside
  exact each node nodeInside inner (AST.mem_preorderAll.mpr ⟨node, List.mem_singleton_self _, deeper⟩)

/-- A simple node with simple children is simple throughout. -/
theorem allSimple_of_children {node : AST} (simple : Simple node) (below : AllSimple node.children) :
    AllSimple [node] := by
  intro inner inside
  rw [AST.preorderAll_singleton] at inside
  obtain rfl | deeper := List.mem_cons.mp inside
  · exact simple
  · exact below inner deeper

/-- Two simple lists, one behind the other, are simple. -/
theorem allSimple_append {nodes more : List AST} (first : AllSimple nodes) (second : AllSimple more) :
    AllSimple (nodes ++ more) := by
  intro inner inside
  rw [AST.preorderAll_append, List.mem_append] at inside
  exact inside.elim (first inner) (second inner)

/-- A plain statement is simple throughout. -/
theorem Plain.allSimple {node : AST} (plain : Plain node) : AllSimple [node] := by
  induction plain with
  | name | constant => exact allSimple_of_children ⟨rfl, nofun⟩ nofun
  | member info attr plain inner => exact allSimple_of_children ⟨rfl, nofun⟩ inner
  | keyword info arg plain inner => exact allSimple_of_children ⟨rfl, nofun⟩ inner
  | starred info plain inner => exact allSimple_of_children ⟨rfl, nofun⟩ inner
  | call info called positional named calledInner positionalInner namedInner =>
    exact allSimple_of_children ⟨rfl, nofun⟩ (allSimple_append
      (allSimple_append calledInner (allSimple_of_forall positionalInner))
      (allSimple_of_forall namedInner))
  | list info parts inner => exact allSimple_of_children ⟨rfl, nofun⟩ (allSimple_of_forall inner)
  | tuple info parts inner => exact allSimple_of_children ⟨rfl, nofun⟩ (allSimple_of_forall inner)
  | ifExp info tested first second testInner firstInner secondInner =>
    exact allSimple_of_children ⟨rfl, nofun⟩ (allSimple_append testInner
      (allSimple_append firstInner secondInner))
  | other info cls expression parts inner =>
    exact allSimple_of_children ⟨rfl, nofun⟩ (allSimple_of_forall inner)

/-- A target is simple throughout. -/
theorem Target.allSimple {node : AST} (target : Target node) : AllSimple [node] := by
  induction target with
  | name => exact allSimple_of_children ⟨rfl, nofun⟩ nofun
  | member info attr plain => exact allSimple_of_children ⟨rfl, nofun⟩ plain.allSimple
  | subscript info parts =>
    exact allSimple_of_children ⟨rfl, nofun⟩
      (allSimple_of_forall fun part inside => (parts part inside).allSimple)
  | starred info inner below => exact allSimple_of_children ⟨rfl, nofun⟩ below
  | list info parts inner => exact allSimple_of_children ⟨rfl, nofun⟩ (allSimple_of_forall inner)
  | tuple info parts inner => exact allSimple_of_children ⟨rfl, nofun⟩ (allSimple_of_forall inner)

/-- A branching statement is simple throughout. -/
theorem Branching.allSimple {node : AST} (branching : Branching node) : AllSimple [node] := by
  induction branching with
  | importStmt | importFrom => exact allSimple_of_children ⟨rfl, nofun⟩ nofun
  | assign info bound plain =>
    exact allSimple_of_children ⟨rfl, nofun⟩ (allSimple_append
      (allSimple_of_forall fun target inside => (bound target inside).allSimple) plain.allSimple)
  | exprStmt info plain => exact allSimple_of_children ⟨rfl, nofun⟩ plain.allSimple
  | raiseStmt info raised chained =>
    have optional (part : Option AST) (plain : ∀ inner ∈ part, Plain inner) : AllSimple part.toList :=
      allSimple_of_forall fun inner inside => (plain inner (Option.mem_toList.mp inside)).allSimple
    exact allSimple_of_children ⟨rfl, nofun⟩
      (allSimple_append (optional _ raised) (optional _ chained))
  | ifStmt info tested first second firstInner secondInner =>
    exact allSimple_of_children ⟨rfl, nofun⟩ (allSimple_append
      (allSimple_append tested.allSimple (allSimple_of_forall firstInner))
      (allSimple_of_forall secondInner))

/-! ## The result -/

section

variable {tree : List AST} {info : Info} {name : String}

/-- All loads of such a module stand in the module scope. -/
theorem moduleLoad_of_branching (branching : ∀ statement ∈ tree, Branching statement)
    (placed : .name info name .load ∈ AST.preorderAll (evaluatedAll tree)) :
    ModuleLoad tree info name := by
  have simple : AllSimple tree := allSimple_of_forall fun node inside => (branching node inside).allSimple
  refine ⟨⟨evaluatedAll_subset tree placed, fun declaration names inside => ?_⟩,
    fun node inside part partInside => ?_⟩
  · exact absurd rfl ((simple _ inside).declares declaration names)
  · rw [(simple node inside).opens] at partInside
    cases partInside

/-- At a load that is reached, in an expression statement, a right-hand side or a test, exactly the
bindings are recorded that come there on an execution.

Proof: what is recorded is what the builder's paths bring to the load. Piece by piece they agree
with the executions; a branch that ends in `raise` is left by no execution, and the builder
drops it where branches join. -/
theorem branching_load_recorded_iff (around : Surroundings) (distinct : AST.Distinct tree)
    (branching : ∀ statement ∈ tree, Branching statement)
    (placed : .name info name .load ∈ AST.preorderAll (evaluatedAll tree))
    (reached : ∃ written, Execution.execute name around tree (.observed info.id) written)
    (site : Site) :
    Recorded around tree info site ↔ Reaches around tree info name site := by
  have load := moduleLoad_of_branching branching placed
  have agrees : Agrees info.id (AST.points tree) (Execution.execute name around tree)
      (walkAll name (Execution.importPrefix around) id tree .module) (statementsFallThrough tree) :=
    execute_agrees (fun statement inside => (branching statement inside).agrees) distinct
      fun _ => List.mem_map.mpr ⟨_, placed, rfl⟩
  rw [load.recorded_iff_reachesOnPath distinct around site]
  exact ⟨agrees.complete reached _, agrees.sound _⟩

end

/-- `check` is bound to `skip` if the flag is set; otherwise nothing behind is reached. -/
def guardedImport : List AST :=
  [importHelper 0 1,
    .ifStmt ⟨1, 2, 5⟩ (.name ⟨2, 2, 2⟩ "flag" .load) [importSkip 3 3]
      [.raiseStmt ⟨4, 5, 5⟩ (some (.name ⟨5, 5, 5⟩ "flag" .load)) none],
    checkStatement 6 6]

/-- The guarded import is a branching statement. -/
theorem branching_guardedImport : ∀ statement ∈ guardedImport, Branching statement := by
  have flag (info : Info) : Plain (.name info "flag" .load) := .name info "flag"
  refine List.forall_mem_cons.mpr ⟨?_, List.forall_mem_cons.mpr ⟨?_, List.forall_mem_singleton.mpr ?_⟩⟩
  · exact .importFrom _ _ _ (by decide)
  · refine .ifStmt _ (flag _) (List.forall_mem_singleton.mpr ?_) (List.forall_mem_singleton.mpr ?_)
    · exact .importFrom _ _ _ (by decide)
    · exact .raiseStmt _ (fun part same => Option.some.inj same ▸ flag _) nofun
  · exact .exprStmt _ (.name _ "check")

/-- The binding of the import below the flag. -/
def guardedSite : Site := ⟨none, importSkip 3 3, some ["pytest", "skip"]⟩

/-- A run of the guarded import reaches the load with its binding. -/
theorem guardedImport_reached : Reaches plainModule guardedImport ⟨7, 6, 6⟩ "check" guardedSite := by
  have branch : Execution.execute "check" plainModule [importSkip 3 3] .normal
      (some (some guardedSite)) := by
    simp only [Execution.execute]
    exact Flow.seq_on (.inl (importSkip_runs 3 3)) ⟨rfl, rfl⟩ rfl
  simp only [Reaches, guardedImport, Execution.execute, Execution.run]
  exact Flow.seq_on (.inl (importHelper_runs 0 1))
    (Flow.seq_on (.inl (Flow.seq_on ⟨rfl, rfl⟩ (.inl branch) rfl))
      (Flow.seq_out (fun same => by cases same) (.inl (checkStatement_runs 6 6 (.inr rfl)))) rfl) rfl

/-- The binding is recorded for the load, by the general theorem. -/
theorem guardedImport_recorded : Recorded plainModule guardedImport ⟨7, 6, 6⟩ guardedSite :=
  (branching_load_recorded_iff plainModule (by decide) branching_guardedImport
    (by simp [guardedImport, importHelper, importSkip, checkStatement, evaluatedAll, evaluated,
      AST.preorderAll, AST.preorder]) ⟨_, guardedImport_reached⟩ guardedSite).mpr
    guardedImport_reached

end VirtTestTools.Policy
