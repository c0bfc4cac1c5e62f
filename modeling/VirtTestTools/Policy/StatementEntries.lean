import VirtTestTools.Policy.NodeRecords

/-!
# How statements are entered

The builder comes to a statement of the module through the blocks around it. A block is entered
with the bindings that the visitor of its statement has by then; a `finally` block is entered a
second time if control goes on behind it, and what was recorded at first is put back. So what is
recorded at a node in the end is what the first visit of its statement has recorded.
-/

namespace VirtTestTools.Policy

open ScopeBuilder

/-! ## Blocks and their entries -/

/-- The statements up to the first that does not fall through. -/
def completed : List AST → List AST
  | [] => []
  | statement :: rest =>
    statement :: if statementFallsThrough statement then completed rest else []

/-- How a handler enters its body. -/
def handlerEntry (handler : AST) (builder : ScopeBuilder) : List AST × ScopeBuilder :=
  match handler with
  | .exceptHandler _ type name body =>
    let typed := visitOpt type 0 (builder.markNode 0 handler)
    (completed body, match name with
      | none => typed
      | some name => typed.bind 0 name none handler)
  | _ => ([], builder)

/-- How the bodies of handlers are entered. -/
def handlerEntries (tracked : Nat) (entry : List Bindings) :
    List AST → ScopeBuilder → List (List AST × ScopeBuilder)
  | [], _ => []
  | handler :: rest, builder =>
    let restored := builder.restoreStates entry
    handlerEntry handler restored ::
      handlerEntries tracked entry rest (visitHandler handler 0 tracked restored).1

/-- How the bodies of cases are entered. -/
def caseEntries (tracked : Nat) (incoming : List Bindings) :
    List AST → ScopeBuilder → List (List AST × ScopeBuilder)
  | [], _ => []
  | case :: rest, builder =>
    let restored := builder.restoreStates incoming
    (bodyParts case, restored) ::
      caseEntries tracked incoming rest (visitCase case 0 tracked restored).1

/-- The blocks of a statement of the module, each with the builder by which it is entered first. -/
def entries : AST → ScopeBuilder → List (List AST × ScopeBuilder)
  | node@(.ifStmt _ test body orelse), builder =>
    let tested := ScopeBuilder.visit test 0 (builder.markNode 0 node)
    [(body, tested),
      (orelse, (visitAll body 0 tested).restoreStates (tested.states tested.scopes.length))]
  | node@(.forStmt _ _ target iter body orelse), builder =>
    let iterated := ScopeBuilder.visit iter 0 (builder.markNode 0 node)
    let tracked := iterated.scopes.length
    let entered := (bindTargets 0 target none target none iterated.enterLoop).mark 0 target
    [(body, entered),
      (orelse, ((visitAll body 0 entered).leaveLoop tracked (iterated.states tracked) body).1)]
  | node@(.whileStmt _ test body orelse), builder =>
    let tested := ScopeBuilder.visit test 0 (builder.markNode 0 node)
    let tracked := tested.scopes.length
    [(body, tested.enterLoop),
      (orelse, ((visitAll body 0 tested.enterLoop).leaveLoop tracked (tested.states tracked) body).1)]
  | node@(.tryStmt _ _ body handlers orelse finalbody), builder =>
    let entered := builder.markNode 0 node
    let tracked := entered.scopes.length
    let visited := visitBody body 0 tracked entered
    let exceptional := entered.states tracked :: visited.2.1
    let normal := if visited.2.2 then visitAll orelse 0 visited.1 else visited.1
    let caught := visitHandlers handlers 0 tracked (mergedScopeStates exceptional) normal
    let continuing := (if visited.2.2 then [normal.states tracked] else []) ++ caught.2.1
    let inputs := continuing ++ caught.2.2 ++ if handlers.isEmpty then exceptional else []
    (completed body, entered) ::
      (if statementsFallThrough body then orelse else [], visited.1) ::
        (finalbody, caught.1.restoreStates (mergedScopeStates inputs)) ::
          handlerEntries tracked (mergedScopeStates exceptional) handlers normal
  | node@(.matchStmt _ subject cases), builder =>
    let matched := visitPatterns cases 0 (ScopeBuilder.visit subject 0 (builder.markNode 0 node))
    let tracked := matched.scopes.length
    caseEntries tracked (matched.states tracked) cases matched
  | node@(.other _ _ children), builder => [(children, builder.markNode 0 node)]
  | _, _ => []

/-- The builder comes to a statement on its first way through some statements of the module. -/
inductive Enters (target : AST) (before : ScopeBuilder) : List AST → ScopeBuilder → Prop
  | here (rest : List AST) : Enters target before (target :: rest) before
  | later {rest : List AST} {builder : ScopeBuilder} (statement : AST)
      (behind : Enters target before rest (ScopeBuilder.visit statement 0 builder)) :
      Enters target before (statement :: rest) builder
  | inside {statement : AST} {builder entry : ScopeBuilder} {block : List AST} (rest : List AST)
      (listed : (block, entry) ∈ entries statement builder)
      (within : Enters target before block entry) : Enters target before (statement :: rest) builder

/-! ## States in which statements are entered -/

/-- A state in which a statement of the module may be entered. -/
structure Entered (builder : ScopeBuilder) : Prop where
  root : builder.shapes[0]? = some (none, .module)
  ordered : Ordered builder.shapes
  made : Made builder

/-- From one builder to the next, nothing is recorded at the point. -/
structure Steps (point : Nat) (builder next : ScopeBuilder) : Prop where
  keeps : Keeps (besides point) builder next
  grows : Grows 0 builder next

section

variable {point : Nat} {builder middle next : ScopeBuilder}

/-- The module scope is there, and parents come first. -/
theorem Entered.valid (entered : Entered builder) : Valid 0 builder.shapes :=
  ⟨entered.ordered, (List.getElem?_eq_some_iff.mp entered.root).1⟩

/-- The next builder is sound as well, if the scopes are only added. -/
theorem Entered.grown (entered : Entered builder) (made : Made next) (grows : Grows 0 builder next) :
    Entered next := by
  have extended := grows entered.valid
  obtain ⟨added, same⟩ := extended.opening
  refine ⟨?_, extended.ordered, made⟩
  rw [← same, List.getElem?_append_left entered.valid.inside]
  exact entered.root

/-- A statement may be entered after steps. -/
theorem Entered.stepped (entered : Entered builder) (steps : Steps point builder next) : Entered next :=
  entered.grown steps.keeps.made steps.grows

/-- Steps in turn. -/
theorem Steps.trans (first : Steps point builder middle) (second : Steps point middle next) :
    Steps point builder next :=
  ⟨first.keeps.trans second.keeps, first.grows.trans second.grows⟩

/-- What is recorded at the point is what was recorded before. -/
theorem Steps.record (steps : Steps point builder next) :
    next.nodeBindings.get point = builder.nodeBindings.get point :=
  steps.keeps.record point fun _ outside => outside rfl

/-- A visit of a node, whatever it records. -/
theorem visited_any (node : AST) : Visited anywhere 0 node := fun builder known =>
  (visited node 0 builder known).mono fun _ => Set.subset_univ _

/-- A visit of statements, whatever they record. -/
theorem keeps_any (nodes : List AST) (made : Made builder) :
    Keeps anywhere builder (ScopeBuilder.visitAll nodes 0 builder) :=
  keeps_visitAll 0 (fun node _ => visited_any node) made

/-- A statement may be entered after other statements. -/
theorem Entered.visited (entered : Entered builder) (nodes : List AST) :
    Entered (ScopeBuilder.visitAll nodes 0 builder) :=
  entered.grown (keeps_any nodes entered.made).made (visitAll_grows nodes 0 builder)

/-- What stands elsewhere is not recorded. -/
theorem visited_outside {nodes : List AST} {place : Nat} (outside : point ∉ AST.points nodes) :
    ∀ node ∈ nodes, Visited (besides point) place node := by
  intro node inside
  refine visited_of_not_evaluates (fun evaluates => outside ?_) place
  exact AST.points_mono (AST.preorderAll_singleton_subset inside) evaluates.mem_points

/-- Statements that the point does not stand in. -/
theorem steps_visitAll {nodes : List AST} (outside : point ∉ AST.points nodes) (made : Made builder) :
    Steps point builder (ScopeBuilder.visitAll nodes 0 builder) :=
  ⟨keeps_visitAll 0 (visited_outside outside) made, visitAll_grows nodes 0 builder⟩

/-- A node that the point does not stand in. -/
theorem steps_visit {node : AST} (outside : point ∉ AST.points [node]) (made : Made builder) :
    Steps point builder (ScopeBuilder.visit node 0 builder) :=
  steps_visitAll outside made

/-- The visit of a statement begins by marking it. -/
theorem steps_markNode (made : Made builder) (node : AST) :
    Steps point builder (builder.markNode 0 node) :=
  ⟨.markNode made 0 node, .marked node⟩

/-- Saved states are restored. -/
theorem steps_restoreStates {states : List Bindings} (made : Made builder)
    (older : AllOlder builder.ledger states) : Steps point builder (builder.restoreStates states) :=
  ⟨.restoreStates made older, .same (shapes_restoreStates _ states)⟩

/-! ## Passing a block -/

/-- A block is entered on the way from one builder to the next, and what its visit records is there
in the end. If it records nothing, the same may hold for another visit. -/
structure Passes (point : Nat) (block : List AST) (entry builder next : ScopeBuilder) : Prop where
  entered : Entered entry
  unrecorded : entry.nodeBindings.get point = builder.nodeBindings.get point
  behind : next.nodeBindings.get point = (ScopeBuilder.visitAll block 0 entry).nodeBindings.get point ∨
    (ScopeBuilder.visitAll block 0 entry).nodeBindings.get point = none ∧
      ∃ again, Entered again ∧ again.nodeBindings.get point = none ∧
        next.nodeBindings.get point = (ScopeBuilder.visitAll block 0 again).nodeBindings.get point

variable {block : List AST} {entry : ScopeBuilder}

/-- The block is visited once, and the visitor records nothing at the point around it. -/
theorem Passes.of_steps (entered : Entered builder) (before : Steps point builder entry)
    (behind : Keeps (besides point) (ScopeBuilder.visitAll block 0 entry) next) :
    Passes point block entry builder next where
  entered := entered.stepped before
  unrecorded := before.record
  behind := .inl (behind.record point fun _ outside => outside rfl)

/-- Parts of a tree with distinct identities do not share points. -/
theorem outside_of_distinct {first second : List AST} (distinct : AST.Distinct (first ++ second)) :
    (point ∈ AST.points first → point ∉ AST.points second) ∧
      (point ∈ AST.points second → point ∉ AST.points first) := by
  obtain ⟨-, -, apart⟩ := AST.distinct_append.mp distinct
  exact ⟨apart point, fun inside other => apart point other inside⟩

/-- A block with a point in it is not empty. -/
theorem nonempty_of_points {nodes : List AST} (placed : point ∈ AST.points nodes) :
    ¬nodes.isEmpty = true := by
  cases nodes with
  | nil => cases placed
  | cons node rest => nofun

/-- Either branch is entered with the bindings behind the test. -/
theorem passes_ifStmt {info : Info} {test : AST} {body orelse : List AST}
    (entered : Entered builder)
    (distinct : AST.Distinct [.ifStmt info test body orelse])
    (listed : (block, entry) ∈ entries (.ifStmt info test body orelse) builder)
    (placed : point ∈ AST.points block) :
    Passes point block entry builder (ScopeBuilder.visit (.ifStmt info test body orelse) 0 builder) := by
  have apart : AST.Distinct ([test] ++ body ++ orelse) := AST.distinct_children distinct
  obtain ⟨apartTest, -, -⟩ := AST.distinct_append.mp apart
  have marked : Steps point builder (builder.markNode 0 (.ifStmt info test body orelse)) :=
    steps_markNode entered.made _
  simp only [entries, List.mem_cons, Prod.mk.injEq, List.not_mem_nil, or_false] at listed
  simp only [ScopeBuilder.visit]
  obtain ⟨rfl, rfl⟩ | ⟨rfl, rfl⟩ := listed
  · have tested := marked.trans
      (steps_visit ((outside_of_distinct apartTest).2 placed) marked.keeps.made)
    generalize ScopeBuilder.visit test 0
      (builder.markNode 0 (.ifStmt info test block orelse)) = middle at *
    have bodied := keeps_any block tested.keeps.made
    have before : point ∈ AST.points ([test] ++ block) := AST.points_append ▸ .inr placed
    have outside := (outside_of_distinct apart).1 before
    exact .of_steps entered tested (keeps_otherwise (visited_outside outside) bodied.made
      ((tested.keeps.made.states middle.scopes.length).mono bodied.later))
  · have outside := (outside_of_distinct apart).2 placed
    rw [AST.points_append, Set.mem_union, not_or] at outside
    have tested := marked.trans (steps_visit outside.1 marked.keeps.made)
    generalize ScopeBuilder.visit test 0
      (builder.markNode 0 (.ifStmt info test body block)) = middle at *
    have bodied : Steps point middle (visitAll body 0 middle) :=
      steps_visitAll outside.2 tested.keeps.made
    have older := (tested.keeps.made.states middle.scopes.length).mono bodied.keeps.later
    have restored : Steps point (visitAll body 0 middle) _ := steps_restoreStates bodied.keeps.made older
    have otherwise := keeps_any block restored.keeps.made
    have later := restored.keeps.later.trans otherwise.later
    rw [if_neg (nonempty_of_points placed)]
    refine .of_steps entered ((tested.trans bodied).trans restored)
      (keeps_joinBranch _ otherwise.made (older.mono later) fun states inside => ?_)
    exact (bodied.keeps.made.branchOutput _ _ states inside).mono later

/-- A block of a loop. -/
theorem passes_loop {body orelse : List AST} (distinct : AST.Distinct (body ++ orelse))
    (before : Steps point builder middle) (started : Steps point middle next)
    (listed : (block, entry) ∈ [(body, next), (orelse, ((ScopeBuilder.visitAll body 0 next).leaveLoop
      middle.scopes.length (middle.states middle.scopes.length) body).1)])
    (entered : Entered builder) (placed : point ∈ AST.points block) :
    let incoming := middle.states middle.scopes.length
    let left := (ScopeBuilder.visitAll body 0 next).leaveLoop middle.scopes.length incoming body
    let other := ScopeBuilder.visitAll orelse 0 left.1
    Passes point block entry builder
      (other.joinOutputs incoming (left.2 ++ other.branchOutput middle.scopes.length orelse)) := by
  intro incoming left other
  have older : AllOlder next.ledger incoming :=
    (before.keeps.made.states middle.scopes.length).mono started.keeps.later
  simp only [List.mem_cons, Prod.mk.injEq, List.not_mem_nil, or_false] at listed
  obtain ⟨rfl, rfl⟩ | ⟨rfl, rfl⟩ := listed
  · have bodied := keeps_any block started.keeps.made
    exact .of_steps entered (before.trans started)
      (keeps_loopLeft (visited_outside ((outside_of_distinct distinct).1 placed)) bodied.made
        (older.mono bodied.later))
  · have bodied : Steps point next (ScopeBuilder.visitAll body 0 next) :=
      steps_visitAll ((outside_of_distinct distinct).2 placed) started.keeps.made
    obtain ⟨leaving, breaks⟩ := bodied.keeps.made.leaveLoop (besides point) middle.scopes.length
      (older.mono bodied.keeps.later) body
    have leaves : Steps point (ScopeBuilder.visitAll body 0 next) left.1 :=
      ⟨leaving, .same (shapes_leaveLoop _ _ _ _)⟩
    have otherwise : Keeps anywhere left.1 other := keeps_any block leaving.made
    refine .of_steps entered (((before.trans started).trans bodied).trans leaves) (keeps_joinBranch _
      otherwise.made (((older.mono bodied.keeps.later).mono leaving.later).mono otherwise.later)
      fun states inside => ?_)
    exact ((breaks states inside).mono leaving.later).mono otherwise.later

/-- The body of a loop is entered behind the targets, and the `else` clause behind the loop. -/
theorem passes_forStmt {info : Info} {isAsync : Bool} {target iter : AST} {body orelse : List AST}
    (entered : Entered builder)
    (distinct : AST.Distinct [.forStmt info isAsync target iter body orelse])
    (listed : (block, entry) ∈ entries (.forStmt info isAsync target iter body orelse) builder)
    (placed : point ∈ AST.points block) :
    Passes point block entry builder
      (ScopeBuilder.visit (.forStmt info isAsync target iter body orelse) 0 builder) := by
  have apart : AST.Distinct ([target, iter] ++ (body ++ orelse)) := AST.distinct_children distinct
  have marked : Steps point builder (builder.markNode 0 (.forStmt info isAsync target iter body orelse)) :=
    steps_markNode entered.made _
  have below : point ∈ AST.points (body ++ orelse) := by
    simp only [entries, List.mem_cons, Prod.mk.injEq, List.not_mem_nil, or_false] at listed
    obtain ⟨rfl, -⟩ | ⟨rfl, -⟩ := listed
    · exact AST.points_append ▸ .inl placed
    · exact AST.points_append ▸ .inr placed
  have outside := (outside_of_distinct apart).2 below
  rw [AST.points_cons, Set.mem_union, not_or] at outside
  have iterated := marked.trans (steps_visit outside.2 marked.keeps.made)
  simp only [entries] at listed
  simp only [ScopeBuilder.visit]
  generalize ScopeBuilder.visit iter 0
    (builder.markNode 0 (.forStmt info isAsync target iter body orelse)) = middle at *
  have looped : Steps point middle middle.enterLoop := ⟨.enterLoop iterated.keeps.made, .same rfl⟩
  have bound : Steps point middle.enterLoop (bindTargets 0 target none target none middle.enterLoop) :=
    ⟨keeps_bindTargets 0 target none target none _ looped.keeps.made,
      .same (shapes_bindTargets 0 target none target none _)⟩
  have started : Steps point middle _ :=
    (looped.trans bound).trans ⟨.mark bound.keeps.made 0 target, .same (shapes_mark _ 0 target)⟩
  exact passes_loop (AST.distinct_append.mp apart).2.1 iterated started listed entered placed

/-- The body of a loop is entered behind the test, and the `else` clause behind the loop. -/
theorem passes_whileStmt {info : Info} {test : AST} {body orelse : List AST}
    (entered : Entered builder)
    (distinct : AST.Distinct [.whileStmt info test body orelse])
    (listed : (block, entry) ∈ entries (.whileStmt info test body orelse) builder)
    (placed : point ∈ AST.points block) :
    Passes point block entry builder
      (ScopeBuilder.visit (.whileStmt info test body orelse) 0 builder) := by
  have apart : AST.Distinct ([test] ++ (body ++ orelse)) := AST.distinct_children distinct
  have marked : Steps point builder (builder.markNode 0 (.whileStmt info test body orelse)) :=
    steps_markNode entered.made _
  have below : point ∈ AST.points (body ++ orelse) := by
    simp only [entries, List.mem_cons, Prod.mk.injEq, List.not_mem_nil, or_false] at listed
    obtain ⟨rfl, -⟩ | ⟨rfl, -⟩ := listed
    · exact AST.points_append ▸ .inl placed
    · exact AST.points_append ▸ .inr placed
  have tested := marked.trans
    (steps_visit ((outside_of_distinct apart).2 below) marked.keeps.made)
  simp only [entries] at listed
  simp only [ScopeBuilder.visit]
  generalize ScopeBuilder.visit test 0
    (builder.markNode 0 (.whileStmt info test body orelse)) = middle at *
  have looped : Steps point middle middle.enterLoop := ⟨.enterLoop tested.keeps.made, .same rfl⟩
  exact passes_loop (AST.distinct_append.mp apart).2.1 tested looped listed entered placed

/-! ## Cases -/

/-- The parts of cases or handlers that stand elsewhere. -/
theorem visited_parts {parts : AST → List AST} (within : ∀ group, parts group ⊆ group.children)
    {groups : List AST} (outside : point ∉ AST.points groups) :
    ∀ node ∈ groups.flatMap parts, Visited (besides point) 0 node := by
  intro node inside
  obtain ⟨group, groupInside, here⟩ := List.mem_flatMap.mp inside
  exact visited_outside (fun below => outside (AST.points_children_of_mem groupInside below)) node
    (within group here)

/-- The body of a case stands in the case. -/
theorem points_bodyParts_subset (case : AST) : AST.points (bodyParts case) ⊆ AST.points [case] :=
  (AST.points_subset (bodyParts_subset case)).trans (AST.points_children_subset case)

/-- The blocks are the bodies of the cases. -/
theorem block_of_mem_caseEntries {cases : List AST} {tracked : Nat} {incoming : List Bindings}
    (listed : (block, entry) ∈ caseEntries tracked incoming cases builder) :
    ∃ case ∈ cases, block.Sublist case.children := by
  induction cases generalizing builder with
  | nil => cases listed
  | cons case rest inductionHypothesis =>
    obtain same | behind := List.mem_cons.mp listed
    · obtain ⟨rfl, -⟩ := Prod.mk.inj same
      refine ⟨case, List.mem_cons_self .., ?_⟩
      cases case with
      | matchCase info pattern guard body => exact List.sublist_append_right _ _
      | _ => exact List.nil_sublist _
    · obtain ⟨other, inside, within⟩ := inductionHypothesis behind
      exact ⟨other, List.mem_cons_of_mem _ inside, within⟩

/-- They stand in the cases. -/
theorem points_caseEntries {cases : List AST} {tracked : Nat} {incoming : List Bindings}
    (listed : (block, entry) ∈ caseEntries tracked incoming cases builder) :
    AST.points block ⊆ AST.points cases := by
  obtain ⟨case, inside, within⟩ := block_of_mem_caseEntries listed
  exact (AST.points_subset within.subset).trans (AST.points_children_of_mem inside)

/-- A case is visited by its body. -/
theorem visitCase_eq (case : AST) (tracked : Nat) (builder : ScopeBuilder) :
    (visitCase case 0 tracked builder).1 = ScopeBuilder.visitAll (bodyParts case) 0 builder := by
  cases case <;> simp only [visitCase, bodyParts, ScopeBuilder.visitAll]

/-- The way to the body of a case, and the way on from it. -/
theorem passes_visitCases {cases : List AST} {tracked : Nat} {incoming : List Bindings}
    (distinct : AST.Distinct cases) (made : Made builder) (older : AllOlder builder.ledger incoming)
    (listed : (block, entry) ∈ caseEntries tracked incoming cases builder)
    (placed : point ∈ AST.points block) :
    Steps point builder entry ∧
      Keeps (besides point) (ScopeBuilder.visitAll block 0 entry)
        (visitCases cases 0 tracked incoming builder).1 := by
  induction cases generalizing builder with
  | nil => cases listed
  | cons case rest inductionHypothesis =>
    have apart : (point ∈ AST.points [case] → point ∉ AST.points rest) ∧
      (point ∈ AST.points rest → point ∉ AST.points [case]) := outside_of_distinct distinct
    have restored : Steps point builder (builder.restoreStates incoming) := steps_restoreStates made older
    simp only [visitCases, visitCase_eq]
    obtain same | behind := List.mem_cons.mp listed
    · obtain ⟨rfl, rfl⟩ := Prod.mk.inj same
      have bodied := keeps_any (bodyParts case) restored.keeps.made
      exact ⟨restored, (keeps_visitCases 0
        (visited_parts bodyParts_subset (apart.1 (points_bodyParts_subset case placed))) tracked
        bodied.made (older.mono (restored.keeps.later.trans bodied.later))).1⟩
    · simp only [visitCase_eq] at behind
      have outside := apart.2 (points_caseEntries behind placed)
      have bodied := restored.trans (steps_visitAll
        (fun inside => outside (points_bodyParts_subset case inside)) restored.keeps.made)
      obtain ⟨later, left⟩ := inductionHypothesis (AST.distinct_append.mp
        (List.singleton_append ▸ distinct : AST.Distinct ([case] ++ rest))).2.1 bodied.keeps.made
        (older.mono bodied.keeps.later) behind
      exact ⟨bodied.trans later, left⟩

/-- The patterns and guards stand elsewhere than the bodies of the cases. -/
theorem outside_patterns {cases : List AST} {tracked : Nat} {incoming : List Bindings}
    (distinct : AST.Distinct cases)
    (listed : (block, entry) ∈ caseEntries tracked incoming cases builder)
    (placed : point ∈ AST.points block) : point ∉ AST.points (cases.flatMap patternParts) := by
  induction cases generalizing builder with
  | nil => cases listed
  | cons case rest inductionHypothesis =>
    obtain ⟨alone, apartRest, separate⟩ := AST.distinct_append.mp
      (List.singleton_append ▸ distinct : AST.Distinct ([case] ++ rest))
    have patterns : AST.points (patternParts case) ⊆ AST.points [case] :=
      (AST.points_subset (patternParts_subset case)).trans (AST.points_children_subset case)
    have further : AST.points (rest.flatMap patternParts) ⊆ AST.points rest := by
      intro other inside
      obtain ⟨node, deeper, rfl⟩ := List.mem_map.mp inside
      obtain ⟨part, partInside, here⟩ := AST.mem_preorderAll.mp deeper
      obtain ⟨inner, innerInside, listed⟩ := List.mem_flatMap.mp partInside
      have within := AST.points_subset (patternParts_subset inner)
      exact AST.points_children_of_mem innerInside
        (within (List.mem_map_of_mem (AST.mem_preorderAll.mpr ⟨part, listed, here⟩)))
    rw [List.flatMap_cons, AST.points_append, Set.mem_union, not_or]
    obtain same | behind := List.mem_cons.mp listed
    · obtain ⟨rfl, -⟩ := Prod.mk.inj same
      refine ⟨fun inside => ?_, fun inside =>
        separate point (points_bodyParts_subset case placed) (further inside)⟩
      cases case with
      | matchCase info pattern guard body =>
        have inner : AST.Distinct ((pattern :: guard.toList) ++ body) := AST.distinct_children alone
        exact (outside_of_distinct inner).1 inside placed
      | _ => cases placed
    · exact ⟨fun inside => separate point (patterns inside) (points_caseEntries behind placed),
        inductionHypothesis apartRest behind⟩

/-- The body of each case is entered behind the patterns of all cases. -/
theorem passes_matchStmt {info : Info} {subject : AST} {cases : List AST} (entered : Entered builder)
    (distinct : AST.Distinct [.matchStmt info subject cases])
    (listed : (block, entry) ∈ entries (.matchStmt info subject cases) builder)
    (placed : point ∈ AST.points block) :
    Passes point block entry builder
      (ScopeBuilder.visit (.matchStmt info subject cases) 0 builder) := by
  have apart : AST.Distinct ([subject] ++ cases) := AST.distinct_children distinct
  obtain ⟨-, apartCases, -⟩ := AST.distinct_append.mp apart
  simp only [entries, Watch.visitPatterns_eq] at listed
  have marked : Steps point builder (builder.markNode 0 (.matchStmt info subject cases)) :=
    steps_markNode entered.made _
  have judged := marked.trans (steps_visit
    ((outside_of_distinct apart).2 (points_caseEntries listed placed)) marked.keeps.made)
  have matched := judged.trans
    (steps_visitAll (outside_patterns apartCases listed placed) judged.keeps.made)
  simp only [ScopeBuilder.visit, Watch.visitPatterns_eq]
  generalize ScopeBuilder.visitAll (cases.flatMap patternParts) 0 _ = middle at *
  have incoming := matched.keeps.made.states middle.scopes.length
  obtain ⟨before, left⟩ := passes_visitCases apartCases matched.keeps.made incoming listed placed
  obtain ⟨visited, outputs⟩ := keeps_visitCases 0
    (fun node (_ : node ∈ cases.flatMap bodyParts) => visited_any node) middle.scopes.length
    matched.keeps.made incoming
  have older := incoming.mono visited.later
  exact .of_steps entered (matched.trans before)
    (left.trans (.joinOutputs left.made older (List.forall_mem_cons.mpr ⟨older, outputs⟩)))

/-- Statements below a node without a visitor of its own. -/
theorem passes_other {info : Info} {cls : OtherClass} {children : List AST} (entered : Entered builder)
    (listed : (block, entry) ∈ entries (.other info cls children) builder) :
    Passes point block entry builder (ScopeBuilder.visit (.other info cls children) 0 builder) := by
  obtain ⟨rfl, rfl⟩ := Prod.mk.inj (List.mem_singleton.mp listed)
  have marked : Steps point builder (builder.markNode 0 (.other info cls block)) :=
    steps_markNode entered.made _
  simp only [ScopeBuilder.visit]
  exact .of_steps entered marked (.refl (keeps_any block marked.keeps.made).made)

/-! ## Exceptions -/

/-- The body of a `try` statement or of a handler is visited as far as it is completed. -/
theorem visitBody_eq (statements : List AST) (tracked : Nat) (builder : ScopeBuilder) :
    (visitBody statements 0 tracked builder).1 =
      ScopeBuilder.visitAll (completed statements) 0 builder := by
  induction statements generalizing builder with
  | nil => rfl
  | cons statement rest inductionHypothesis =>
    simp only [visitBody, completed, ScopeBuilder.visitAll]
    split
    · exact inductionHypothesis _
    · rfl

/-- What is completed of a body is its beginning. -/
theorem completed_sublist (statements : List AST) : (completed statements).Sublist statements := by
  induction statements with
  | nil => exact List.Sublist.refl _
  | cons statement rest inductionHypothesis =>
    rw [completed]
    split
    · exact inductionHypothesis.cons_cons _
    · exact (List.nil_sublist _).cons_cons _

/-- The block of a handler stands among its children. -/
theorem sublist_handlerEntry (handler : AST) (builder : ScopeBuilder) :
    (handlerEntry handler builder).1.Sublist handler.children := by
  cases handler with
  | exceptHandler info type name body =>
    exact (completed_sublist body).trans (List.sublist_append_right _ _)
  | _ => exact List.nil_sublist _

/-- So its identities are those of the handler. -/
theorem points_handlerEntry (handler : AST) (builder : ScopeBuilder) :
    AST.points (handlerEntry handler builder).1 ⊆ AST.points [handler] :=
  (AST.points_subset (sublist_handlerEntry handler builder).subset).trans
    (AST.points_children_subset handler)

/-- The blocks are the bodies of the handlers. -/
theorem block_of_mem_handlerEntries {handlers : List AST} {tracked : Nat} {states : List Bindings}
    (listed : (block, entry) ∈ handlerEntries tracked states handlers builder) :
    ∃ handler ∈ handlers, block.Sublist handler.children := by
  induction handlers generalizing builder with
  | nil => cases listed
  | cons handler rest inductionHypothesis =>
    obtain same | behind := List.mem_cons.mp listed
    · have here := sublist_handlerEntry handler (builder.restoreStates states)
      rw [← same] at here
      exact ⟨handler, List.mem_cons_self .., here⟩
    · obtain ⟨other, inside, within⟩ := inductionHypothesis behind
      exact ⟨other, List.mem_cons_of_mem _ inside, within⟩

/-- They stand in the handlers. -/
theorem points_handlerEntries {handlers : List AST} {tracked : Nat} {states : List Bindings}
    (listed : (block, entry) ∈ handlerEntries tracked states handlers builder) :
    AST.points block ⊆ AST.points handlers := by
  obtain ⟨handler, inside, within⟩ := block_of_mem_handlerEntries listed
  exact (AST.points_subset within.subset).trans (AST.points_children_of_mem inside)

/-- The way to the body of a handler, and the way on from it. -/
theorem passes_visitHandler {handler : AST} (tracked : Nat) (distinct : AST.Distinct [handler])
    (made : Made builder) (placed : point ∈ AST.points (handlerEntry handler builder).1) :
    Steps point builder (handlerEntry handler builder).2 ∧
      Keeps (besides point)
        (ScopeBuilder.visitAll (handlerEntry handler builder).1 0 (handlerEntry handler builder).2)
        (visitHandler handler 0 tracked builder).1 := by
  cases handler with
  | exceptHandler info type name body =>
    have inBody : point ∈ AST.points body := AST.points_subset (completed_sublist body).subset placed
    have apart : AST.Distinct (type.toList ++ body) := AST.distinct_children distinct
    have marked : Steps point builder (builder.markNode 0 (.exceptHandler info type name body)) :=
      steps_markNode made _
    have typed := marked.trans
      (steps_visitAll ((outside_of_distinct apart).2 inBody) marked.keeps.made)
    rw [← Watch.visitOpt_eq] at typed
    cases name with
    | none =>
      simp only [visitHandler, visitBody_eq]
      exact ⟨typed, .refl (keeps_any (completed body) typed.keeps.made).made⟩
    | some name =>
      have bound : Steps point builder _ := typed.trans ⟨.bind typed.keeps.made 0 name none
        (.exceptHandler info type (some name) body) none none, .same (shapes_bind _ _ _ _ _ _ _)⟩
      simp only [visitHandler, visitBody_eq]
      exact ⟨bound, .unbind (keeps_any (completed body) bound.keeps.made).made 0 name⟩
  | _ => cases placed

/-- The way to the body of one of the handlers, and the way on from it. -/
theorem passes_visitHandlers {handlers : List AST} {tracked : Nat} {states : List Bindings}
    (distinct : AST.Distinct handlers) (made : Made builder) (older : AllOlder builder.ledger states)
    (listed : (block, entry) ∈ handlerEntries tracked states handlers builder)
    (placed : point ∈ AST.points block) :
    Steps point builder entry ∧
      Keeps (besides point) (ScopeBuilder.visitAll block 0 entry)
        (visitHandlers handlers 0 tracked states builder).1 := by
  induction handlers generalizing builder with
  | nil => cases listed
  | cons handler rest inductionHypothesis =>
    obtain ⟨alone, apartRest, separate⟩ := AST.distinct_append.mp
      (List.singleton_append ▸ distinct : AST.Distinct ([handler] ++ rest))
    have restored : Steps point builder (builder.restoreStates states) := steps_restoreStates made older
    have handled := restored.keeps.later.trans (keeps_visitHandler 0
      (fun node (_ : node ∈ handlerParts handler) => visited_any node) tracked restored.keeps.made).later
    have behindHandler : (visitHandlers (handler :: rest) 0 tracked states builder).1 =
        (visitHandlers rest 0 tracked states
          (visitHandler handler 0 tracked (builder.restoreStates states)).1).1 := by
      simp only [visitHandlers]
      split <;> rfl
    rw [behindHandler]
    obtain same | behind := List.mem_cons.mp listed
    · have here : point ∈ AST.points (handlerEntry handler (builder.restoreStates states)).1 := by
        rwa [← same]
      obtain ⟨before, left⟩ := passes_visitHandler tracked alone restored.keeps.made here
      have outside := separate point (points_handlerEntry _ _ here)
      rw [← same] at before left
      exact ⟨restored.trans before, left.trans (keeps_visitHandlers 0
        (visited_parts handlerParts_subset outside) tracked left.made (older.mono handled)).1⟩
    · have outside : point ∉ AST.points [handler] := fun inside =>
        separate point inside (points_handlerEntries behind placed)
      have passed : Steps point (builder.restoreStates states) _ :=
        ⟨keeps_visitHandler 0 (fun node inside => visited_parts handlerParts_subset outside node
          (List.mem_flatMap.mpr ⟨handler, List.mem_singleton_self _, inside⟩)) tracked
          restored.keeps.made, visitHandler_grows handler 0 tracked _⟩
      obtain ⟨later, left⟩ := inductionHypothesis apartRest passed.keeps.made
        (older.mono handled) behind
      exact ⟨(restored.trans passed).trans later, left⟩

/-- The `finally` block is visited once or twice, and what the first visit has recorded stays. -/
theorem passes_finally {finalbody : List AST} {incoming : List Bindings}
    {continuing inputs : List (List Bindings)} (entered : Entered builder)
    (before : Steps point builder middle)
    (olderContinuing : ∀ states ∈ continuing, AllOlder middle.ledger states)
    (olderInputs : ∀ states ∈ inputs, AllOlder middle.ledger states)
    (placed : point ∈ AST.points finalbody) :
    let first := ScopeBuilder.visitAll finalbody 0 (middle.restoreStates (mergedScopeStates inputs))
    let second := ScopeBuilder.visitAll finalbody 0
      (first.restoreStates (mergedScopeStates continuing))
    Passes point finalbody (middle.restoreStates (mergedScopeStates inputs)) builder
      (if finalbody.isEmpty then middle.joinOutputs incoming continuing
        else if continuing.isEmpty then first
        else { second with
          nodeBindings := second.nodeBindings.update (first.bindingsBelow finalbody) }) := by
  intro first second
  have restored : Steps point middle (middle.restoreStates (mergedScopeStates inputs)) :=
    steps_restoreStates before.keeps.made (allOlder_mergedScopeStates olderInputs)
  have merged := before.trans restored
  have once : Keeps anywhere (middle.restoreStates (mergedScopeStates inputs)) first :=
    keeps_any finalbody merged.keeps.made
  rw [if_neg (nonempty_of_points placed)]
  split
  · exact .of_steps entered merged (.refl once.made)
  · refine ⟨entered.stepped merged, merged.record, ?_⟩
    have again : Steps point first (first.restoreStates (mergedScopeStates continuing)) :=
      steps_restoreStates once.made ((allOlder_mergedScopeStates olderContinuing).mono
        (restored.keeps.later.trans once.later))
    have found : (second.nodeBindings.update (first.bindingsBelow finalbody)).get point =
        (first.nodeBindings.get point).or (second.nodeBindings.get point) :=
      (Watch.get_bindingsBelow first finalbody _ point).trans (if_pos placed)
    cases kept : first.nodeBindings.get point with
    | some bindings =>
      rw [kept] at found
      exact .inl found
    | none =>
      rw [kept] at found
      refine .inr ⟨rfl, _, ?_, again.record.trans kept, found⟩
      exact ((entered.stepped merged).grown once.made (visitAll_grows finalbody 0 _)).stepped again

/-- The handlers and the `finally` block. -/
theorem passes_handled {handlers finalbody : List AST} {incoming : List Bindings}
    {normal exceptional : List (List Bindings)} {tracked : Nat}
    (distinct : AST.Distinct (handlers ++ finalbody)) (entered : Entered builder)
    (before : Steps point builder middle) (older : AllOlder middle.ledger incoming)
    (olderNormal : ∀ states ∈ normal, AllOlder middle.ledger states)
    (raised : ∀ states ∈ exceptional, AllOlder middle.ledger states)
    (placed : point ∈ AST.points block) :
    let caught := visitHandlers handlers 0 tracked (mergedScopeStates exceptional) middle
    let continuing := normal ++ caught.2.1
    let inputs := continuing ++ caught.2.2 ++ if handlers.isEmpty then exceptional else []
    let first := ScopeBuilder.visitAll finalbody 0 (caught.1.restoreStates (mergedScopeStates inputs))
    let second := ScopeBuilder.visitAll finalbody 0
      (first.restoreStates (mergedScopeStates continuing))
    (block, entry) ∈ (finalbody, caught.1.restoreStates (mergedScopeStates inputs)) ::
        handlerEntries tracked (mergedScopeStates exceptional) handlers middle →
      Passes point block entry builder
        (if finalbody.isEmpty then caught.1.joinOutputs incoming continuing
          else if continuing.isEmpty then first
          else { second with
            nodeBindings := second.nodeBindings.update (first.bindingsBelow finalbody) }) := by
  intro caught continuing inputs first second listed
  have olderEntry := allOlder_mergedScopeStates raised
  obtain ⟨handled, left⟩ := keeps_visitHandlers 0
    (fun node (_ : node ∈ handlers.flatMap handlerParts) => visited_any node) tracked before.keeps.made
    olderEntry
  obtain ⟨olderContinuing, olderInputs⟩ := allOlder_inputs
    (fun states inside => (olderNormal states inside).mono handled.later) left
    (fun states inside => (raised states inside).mono handled.later) handlers.isEmpty
  obtain same | inHandlers := List.mem_cons.mp listed
  · obtain ⟨rfl, rfl⟩ := Prod.mk.inj same
    have passed : Steps point middle caught.1 :=
      ⟨(keeps_visitHandlers 0
        (visited_parts handlerParts_subset ((outside_of_distinct distinct).2 placed)) tracked
        before.keeps.made olderEntry).1, visitHandlers_grows handlers 0 tracked _ middle⟩
    exact passes_finally entered (before.trans passed) olderContinuing olderInputs placed
  · obtain ⟨apartHandlers, -, -⟩ := AST.distinct_append.mp distinct
    obtain ⟨way, behind⟩ := passes_visitHandlers apartHandlers before.keeps.made olderEntry inHandlers
      placed
    have outside := (outside_of_distinct distinct).1 (points_handlerEntries inHandlers placed)
    exact .of_steps entered (before.trans way) (behind.trans (keeps_finally (visited_outside outside)
      behind.made (older.mono handled.later) olderContinuing olderInputs))

/-- The four kinds of blocks of a `try` statement, each with the bindings that it is entered with.
-/
theorem passes_tryStmt {info : Info} {isStar : Bool} {body handlers orelse finalbody : List AST}
    (entered : Entered builder)
    (distinct : AST.Distinct [.tryStmt info isStar body handlers orelse finalbody])
    (listed : (block, entry) ∈ entries (.tryStmt info isStar body handlers orelse finalbody) builder)
    (placed : point ∈ AST.points block) :
    Passes point block entry builder
      (ScopeBuilder.visit (.tryStmt info isStar body handlers orelse finalbody) 0 builder) := by
  have apart : AST.Distinct (body ++ handlers ++ orelse ++ finalbody) := AST.distinct_children distinct
  obtain ⟨apartElse, apartFinal, fromFinal⟩ := AST.distinct_append.mp apart
  obtain ⟨apartHandlers, -, fromElse⟩ := AST.distinct_append.mp apartElse
  obtain ⟨-, handlersAlone, fromHandlers⟩ := AST.distinct_append.mp apartHandlers
  simp only [AST.points_append, Set.mem_union] at fromFinal fromElse
  have marked : Steps point builder
    (builder.markNode 0 (.tryStmt info isStar body handlers orelse finalbody)) :=
    steps_markNode entered.made _
  simp only [entries] at listed
  simp only [ScopeBuilder.visit]
  generalize builder.markNode 0 (.tryStmt info isStar body handlers orelse finalbody) = start at *
  have incoming := marked.keeps.made.states start.scopes.length
  obtain ⟨bodied, exceptional⟩ :=
    keeps_visitBody 0 (fun node (_ : node ∈ body) => visited_any node) start.scopes.length
      marked.keeps.made
  have bodyWay (outside : point ∉ AST.points body) : Steps point start
      (visitBody body 0 start.scopes.length start).1 :=
    ⟨(keeps_visitBody 0 (visited_outside outside) start.scopes.length marked.keeps.made).1,
      visitBody_grows body 0 start.scopes.length start⟩
  have falls := Watch.visitBody_falls body 0 start.scopes.length start
  have bodyEnd := visitBody_eq body start.scopes.length start
  generalize visitBody body 0 start.scopes.length start = attempted at *
  have older := incoming.mono bodied.later
  have raised : ∀ states ∈ start.states start.scopes.length :: attempted.2.1,
      AllOlder attempted.1.ledger states := List.forall_mem_cons.mpr ⟨older, exceptional⟩
  rw [List.mem_cons, List.mem_cons] at listed
  obtain same | same | rescued := listed
  · obtain ⟨rfl, rfl⟩ := Prod.mk.inj same
    have inBody : point ∈ AST.points body := AST.points_subset (completed_sublist body).subset placed
    have elsed := keeps_tryElse 0 (visited_outside (fromElse point (.inl inBody))) attempted.2.2
      bodied.made
    refine .of_steps entered marked ?_
    rw [← bodyEnd]
    exact elsed.trans (keeps_handled
      (visited_parts handlerParts_subset (fromHandlers point inBody))
      (visited_outside (fromFinal point (.inl (.inl inBody)))) _ elsed.made (older.mono elsed.later)
      (elsed.made.normal _ _) fun states inside => (raised states inside).mono elsed.later)
  · obtain ⟨rfl, rfl⟩ := Prod.mk.inj same
    by_cases through : statementsFallThrough body = true
    · rw [if_pos through] at placed ⊢
      rw [falls, if_pos through, if_pos through]
      have before := marked.trans (bodyWay fun inside => fromElse point (.inl inside) placed)
      have elsed : Keeps anywhere attempted.1 _ := keeps_any orelse bodied.made
      refine .of_steps entered before (keeps_handled
        (visited_parts handlerParts_subset fun inside => fromElse point (.inr inside) placed)
        (visited_outside (fromFinal point (.inr placed))) _ elsed.made (older.mono elsed.later) ?_
        fun states inside => (raised states inside).mono elsed.later)
      exact List.forall_mem_singleton.mpr (elsed.made.states _)
    · rw [if_neg through] at placed
      cases placed
  · have below : point ∈ AST.points handlers ∨ point ∈ AST.points finalbody := by
      obtain same | inHandlers := List.mem_cons.mp rescued
      · obtain ⟨rfl, -⟩ := Prod.mk.inj same
        exact .inr placed
      · exact .inl (points_handlerEntries inHandlers placed)
    have outsideBody : point ∉ AST.points body := fun inside =>
      below.elim (fromHandlers point inside) (fromFinal point (.inl (.inl inside)))
    have outsideElse : point ∉ AST.points orelse := fun inside =>
      below.elim (fun handled => fromElse point (.inr handled) inside) (fromFinal point (.inr inside))
    have way := bodyWay outsideBody
    have elsed : Steps point attempted.1
        (if attempted.2.2 then ScopeBuilder.visitAll orelse 0 attempted.1 else attempted.1) := by
      refine ⟨keeps_tryElse 0 (visited_outside outsideElse) _ way.keeps.made, ?_⟩
      split
      · exact visitAll_grows orelse 0 _
      · exact .refl
    have separate : AST.Distinct (handlers ++ finalbody) := AST.distinct_append.mpr
      ⟨handlersAlone, apartFinal, fun other inside => fromFinal other (.inl (.inr inside))⟩
    exact passes_handled separate entered ((marked.trans way).trans elsed)
      (older.mono elsed.keeps.later) (elsed.keeps.made.normal _ _)
      (fun states inside => (raised states inside).mono elsed.keeps.later) placed rescued

/-- A block is passed on the way through its statement. -/
theorem passes_of_mem_entries {statement : AST} (entered : Entered builder)
    (distinct : AST.Distinct [statement]) (listed : (block, entry) ∈ entries statement builder)
    (placed : point ∈ AST.points block) :
    Passes point block entry builder (ScopeBuilder.visit statement 0 builder) := by
  cases statement with
  | ifStmt => exact passes_ifStmt entered distinct listed placed
  | forStmt => exact passes_forStmt entered distinct listed placed
  | whileStmt => exact passes_whileStmt entered distinct listed placed
  | tryStmt => exact passes_tryStmt entered distinct listed placed
  | matchStmt => exact passes_matchStmt entered distinct listed placed
  | other => exact passes_other entered listed
  | _ => cases listed

/-! ## Blocks in their statements -/

/-- A block stands among the children of its statement or of one of these. -/
theorem block_of_mem_entries {statement : AST} (listed : (block, entry) ∈ entries statement builder) :
    block.Sublist statement.children ∨
      ∃ child ∈ statement.children, block.Sublist child.children := by
  cases statement with
  | ifStmt info test body orelse | whileStmt info test body orelse =>
    simp only [entries, List.mem_cons, Prod.mk.injEq, List.not_mem_nil, or_false] at listed
    obtain ⟨rfl, -⟩ | ⟨rfl, -⟩ := listed
    · exact .inl ((List.sublist_append_left block orelse).cons test)
    · exact .inl (List.sublist_append_right (test :: body) block)
  | forStmt info isAsync target iter body orelse =>
    simp only [entries, List.mem_cons, Prod.mk.injEq, List.not_mem_nil, or_false] at listed
    obtain ⟨rfl, -⟩ | ⟨rfl, -⟩ := listed
    · exact .inl (((List.sublist_append_left block orelse).cons iter).cons target)
    · exact .inl (List.sublist_append_right (target :: iter :: body) block)
  | tryStmt info isStar body handlers orelse finalbody =>
    simp only [entries, List.mem_cons] at listed
    obtain same | same | same | inHandlers := listed
    · obtain ⟨rfl, -⟩ := Prod.mk.inj same
      refine .inl ((completed_sublist body).trans ?_)
      rw [AST.children, List.append_assoc, List.append_assoc]
      exact List.sublist_append_left _ _
    · obtain ⟨rfl, -⟩ := Prod.mk.inj same
      refine .inl ?_
      split
      · exact (List.sublist_append_right _ orelse).trans (List.sublist_append_left _ finalbody)
      · exact List.nil_sublist _
    · obtain ⟨rfl, -⟩ := Prod.mk.inj same
      exact .inl (List.sublist_append_right _ block)
    · obtain ⟨handler, inside, within⟩ := block_of_mem_handlerEntries inHandlers
      exact .inr ⟨handler, by simp [AST.children, inside], within⟩
  | matchStmt info subject cases =>
    obtain ⟨case, inside, within⟩ := block_of_mem_caseEntries listed
    exact .inr ⟨case, List.mem_cons_of_mem _ inside, within⟩
  | other info cls children =>
    obtain ⟨rfl, -⟩ := Prod.mk.inj (List.mem_singleton.mp listed)
    exact .inl (List.Sublist.refl _)
  | _ => cases listed

/-- The nodes of a block come in the order of the statement. -/
theorem preorderAll_block {statement : AST} (listed : (block, entry) ∈ entries statement builder) :
    (AST.preorderAll block).Sublist (AST.preorderAll [statement]) := by
  have children := AST.preorderAll_children_sublist statement
  obtain within | ⟨child, inside, within⟩ := block_of_mem_entries listed
  · exact (AST.preorderAll_sublist within).trans children
  · have alone : [child].Sublist statement.children := List.singleton_sublist.mpr inside
    have below := (AST.preorderAll_sublist within).trans (AST.preorderAll_children_sublist child)
    exact below.trans ((AST.preorderAll_sublist alone).trans children)

/-- The identities of a block are those of its statement. -/
theorem points_block {statement : AST} (listed : (block, entry) ∈ entries statement builder) :
    AST.points block ⊆ AST.points [statement] := AST.points_mono (preorderAll_block listed).subset

/-- They are distinct if those of the statement are. -/
theorem distinct_block {statement : AST} (distinct : AST.Distinct [statement])
    (listed : (block, entry) ∈ entries statement builder) : AST.Distinct block :=
  List.Nodup.sublist ((preorderAll_block listed).map AST.id) distinct

/-- Each handler has its block, whatever it is entered with. -/
theorem handlerEntries_blocks (handlers : List AST) :
    ∀ (tracked more : Nat) (states others : List Bindings) (builder next : ScopeBuilder),
      (handlerEntries tracked states handlers builder).map Prod.fst =
        (handlerEntries more others handlers next).map Prod.fst := by
  induction handlers with
  | nil => exact fun _ _ _ _ _ _ => rfl
  | cons handler rest inductionHypothesis =>
    intro tracked more states others builder next
    have here : (handlerEntry handler (builder.restoreStates states)).1 =
        (handlerEntry handler (next.restoreStates others)).1 := by
      cases handler <;> rfl
    simp only [handlerEntries, List.map_cons, here]
    rw [inductionHypothesis tracked more states others]

/-- So has each case. -/
theorem caseEntries_blocks (cases : List AST) :
    ∀ (tracked more : Nat) (states others : List Bindings) (builder next : ScopeBuilder),
      (caseEntries tracked states cases builder).map Prod.fst =
        (caseEntries more others cases next).map Prod.fst := by
  induction cases with
  | nil => exact fun _ _ _ _ _ _ => rfl
  | cons case rest inductionHypothesis =>
    intro tracked more states others builder next
    simp only [caseEntries, List.map_cons]
    rw [inductionHypothesis tracked more states others]

/-- The same blocks are entered whatever the builder is. -/
theorem entries_blocks (statement : AST) (builder next : ScopeBuilder) :
    (entries statement builder).map Prod.fst = (entries statement next).map Prod.fst := by
  cases statement with
  | tryStmt info isStar body handlers orelse finalbody =>
    simp only [entries, List.map_cons]
    rw [handlerEntries_blocks handlers]
  | matchStmt info subject cases =>
    simp only [entries]
    exact caseEntries_blocks ..
  | _ => rfl

/-- A block of a statement is entered with some bindings. -/
theorem exists_entry {statement : AST} (listed : (block, entry) ∈ entries statement builder)
    (next : ScopeBuilder) : ∃ other, (block, other) ∈ entries statement next := by
  have inside : block ∈ (entries statement next).map Prod.fst := by
    rw [← entries_blocks statement builder next]
    exact List.mem_map.mpr ⟨_, listed, rfl⟩
  obtain ⟨⟨_, other⟩, found, rfl⟩ := List.mem_map.mp inside
  exact ⟨other, found⟩

/-! ## Runs -/

/-- Visits of some nodes leave a point unrecorded. -/
def Silent (point : Nat) (nodes : List AST) : Prop :=
  ∀ builder, Entered builder → builder.nodeBindings.get point = none →
    (ScopeBuilder.visitAll nodes 0 builder).nodeBindings.get point = none

/-- A block that leaves the point unrecorded stands in a statement that does. -/
theorem Silent.statement {statement : AST} (silent : Silent point block)
    (distinct : AST.Distinct [statement]) (listed : (block, entry) ∈ entries statement builder)
    (placed : point ∈ AST.points block) : Silent point [statement] := by
  intro other entered unrecorded
  obtain ⟨way, found⟩ := exists_entry listed other
  have passes := passes_of_mem_entries entered distinct found placed
  have none := silent way passes.entered (passes.unrecorded.trans unrecorded)
  obtain same | ⟨-, again, enteredAgain, unrecordedAgain, same⟩ := passes.behind
  · exact same.trans none
  · exact same.trans (silent again enteredAgain unrecordedAgain)

/-- Nothing is recorded in one of the statements. -/
theorem Silent.before {statement : AST} {rest : List AST} (silent : Silent point [statement])
    (outside : point ∉ AST.points rest) : Silent point (statement :: rest) := by
  intro builder entered unrecorded
  have first := silent builder entered unrecorded
  exact (steps_visitAll outside (entered.visited [statement]).made).record.trans first

/-- Nothing is recorded in the other statements. -/
theorem Silent.behind {statement : AST} {rest : List AST} (silent : Silent point rest)
    (outside : point ∉ AST.points [statement]) : Silent point (statement :: rest) := by
  intro builder entered unrecorded
  have first := steps_visit outside entered.made
  exact silent _ (entered.stepped first) (first.record.trans unrecorded)

/-- What the builder does at a point when it comes to a statement for the first time, and behind it. -/
structure FirstVisit (point : Nat) (target : AST) (before : ScopeBuilder) (nodes : List AST)
    (builder : ScopeBuilder) : Prop where
  distinct : AST.Distinct [target]
  entered : Entered before
  unrecorded : before.nodeBindings.get point = none
  silent : Silent point [target] → Silent point nodes
  recorded : (ScopeBuilder.visit target 0 before).nodeBindings.get point ≠ none →
    (ScopeBuilder.visitAll nodes 0 builder).nodeBindings.get point =
      (ScopeBuilder.visit target 0 before).nodeBindings.get point

variable {target : AST} {before : ScopeBuilder} {nodes : List AST}

/-- The statement that is entered stands in the trees. -/
theorem Enters.points_subset (enters : Enters target before nodes builder) :
    AST.points [target] ⊆ AST.points nodes := by
  induction enters with
  | here rest =>
    rw [AST.points_cons target rest]
    exact Set.subset_union_left
  | @later rest builder statement behind inductionHypothesis =>
    rw [AST.points_cons statement rest]
    exact inductionHypothesis.trans Set.subset_union_right
  | @inside statement builder entry block rest listed within inductionHypothesis =>
    rw [AST.points_cons statement rest]
    exact (inductionHypothesis.trans (points_block listed)).trans Set.subset_union_left

/-- What the first visit of a statement records stays recorded.

Proof: by induction on the way to the statement. What is visited before it and behind it stands
elsewhere. -/
theorem Enters.firstVisit (enters : Enters target before nodes builder)
    (distinct : AST.Distinct nodes) (entered : Entered builder) (placed : point ∈ AST.points [target])
    (unrecorded : builder.nodeBindings.get point = none) :
    FirstVisit point target before nodes builder := by
  induction enters with
  | here rest =>
    obtain ⟨alone, -, separate⟩ := AST.distinct_append.mp
      (List.singleton_append ▸ distinct : AST.Distinct ([target] ++ rest))
    have outside := separate point placed
    refine ⟨alone, entered, unrecorded, fun silent => silent.before outside, fun _ => ?_⟩
    exact (steps_visitAll outside (entered.visited [target]).made).record
  | @later rest builder statement behind inductionHypothesis =>
    obtain ⟨-, apart, separate⟩ := AST.distinct_append.mp
      (List.singleton_append ▸ distinct : AST.Distinct ([statement] ++ rest))
    have outside : point ∉ AST.points [statement] := fun inside =>
      separate point inside (behind.points_subset placed)
    have first := steps_visit outside entered.made
    obtain ⟨alone, there, nothing, silent, recorded⟩ := inductionHypothesis apart
      (entered.stepped first) (first.record.trans unrecorded)
    exact ⟨alone, there, nothing, fun quiet => (silent quiet).behind outside, recorded⟩
  | @inside statement builder entry block rest listed within inductionHypothesis =>
    obtain ⟨around, -, separate⟩ := AST.distinct_append.mp
      (List.singleton_append ▸ distinct : AST.Distinct ([statement] ++ rest))
    have inBlock := within.points_subset placed
    have outside := separate point (points_block listed inBlock)
    have passes := passes_of_mem_entries entered around listed inBlock
    obtain ⟨alone, there, nothing, silent, recorded⟩ := inductionHypothesis
      (distinct_block around listed) passes.entered (passes.unrecorded.trans unrecorded)
    refine ⟨alone, there, nothing, fun quiet => ((silent quiet).statement around listed inBlock).before
      outside, fun found => ?_⟩
    have kept := recorded found
    have behind : (ScopeBuilder.visit statement 0 builder).nodeBindings.get point =
        (ScopeBuilder.visitAll block 0 entry).nodeBindings.get point :=
      passes.behind.resolve_right fun lost => found (kept ▸ lost.1)
    exact (steps_visitAll outside (entered.visited [statement]).made).record.trans (behind.trans kept)

end

end VirtTestTools.Policy
