import VirtTestTools.Policy.NodeRecords

/-!
# Loops and exceptions

A binding of the module with which a load is evaluated should be recorded there. It is recorded
if and only if the load stands in the module scope and the binding reaches it on one of the
paths that the scope builder takes. On these a loop body runs at most once and an exception
comes between the statements of a `try` body only, so behind a back edge and behind a
statement inside another the builder misses bindings. At a load in another scope, that of a
comprehension for example, it records bindings of this scope only.
-/

namespace VirtTestTools.Policy

open BindingPaths

section

variable (around : Surroundings) (tree : List AST) (info : Info) (name : String) (site : Site)

/-- The binding reaches the load on an execution of the module. -/
def Reaches : Prop := Execution.execute name around tree (.observed info.id) (some (some site))

/-- The binding reaches the load on a path of the scope builder. -/
def ReachesOnPath : Prop :=
  (walkAll name (emptyBuilder around.moduleName around.isPackage).importPrefix id tree .module).flow
    (.observed info.id) (some (some site))

/-- The binding is in `node_bindings` of the load. -/
def Recorded : Prop :=
  ∃ binding ∈ ((scopes tree around.moduleName around.isPackage).nodeBindings.get info.id).getD [],
    binding.site = site

end

/-! ## Where the loads stand -/

/-- What is evaluated later than a node: the body of a lambda or a function in a call, a generator
when it is consumed, an alias when it is looked up. -/
def deferredParts : AST → List AST
  | .lambda _ _ body => [body]
  | .functionDef _ _ _ _ body _ _ => body
  | .comp _ .generator elt generators => elt :: innerParts generators
  | .other _ .typeAlias (_ :: rest) => rest
  | _ => []

section

variable (tree : List AST)

/-- The blocks of statements in a statement. -/
def blocks : AST → List (List AST)
  | .ifStmt _ _ body orelse | .whileStmt _ _ body orelse | .forStmt _ _ _ _ body orelse =>
    [body, orelse]
  | .tryStmt _ _ body _ orelse finalbody => [body, orelse, finalbody]
  | .exceptHandler _ _ _ body | .matchCase _ _ _ body => [body]
  | .other _ _ children => [children]
  | _ => []

/-- A node is evaluated later than the statement that it stands in. -/
def Deferred (node : AST) : Prop :=
  ∃ opener ∈ AST.preorderAll tree, ∃ part ∈ deferredParts opener, node ∈ part.preorder

/-- A node stands in a statement behind another. -/
def Behind (earlier node : AST) : Prop :=
  ∃ block ∈ tree :: (AST.preorderAll tree).flatMap blocks, ∃ before statement after,
    block = before ++ statement :: after ∧ earlier ∈ statement.preorder ∧
      node ∈ AST.preorderAll after

/-- A loop. -/
def isLoop : AST → Bool
  | .forStmt .. | .whileStmt .. => true
  | _ => false

/-- The body of a loop, the test of a `while` loop and the `else` clause. -/
def loopParts : AST → List AST
  | .forStmt _ _ _ _ body orelse => body ++ orelse
  | .whileStmt _ test body orelse => test :: body ++ orelse
  | _ => []

/-- A load in a loop of the module scope or behind it, in whatever scope the load stands. -/
structure LoopLoad (loop : AST) (info : Info) (name : String) : Prop
    extends TreeLoad tree info name where
  loops : isLoop loop = true
  loopListed : loop ∈ AST.preorderAll tree
  loopScope : InModuleScope tree loop
  placed : .name info name .load ∈ AST.preorderAll (loopParts loop) ∨
    Behind tree loop (.name info name .load)

/-- A `try` statement. -/
def isTry : AST → Bool
  | .tryStmt .. => true
  | _ => false

/-- The handlers and the `finally` block of a `try` statement. -/
def rescueParts : AST → List AST
  | .tryStmt _ _ _ handlers _ finalbody => handlers ++ finalbody
  | _ => []

/-- A load in a handler or the `finally` block of a `try` statement of the module scope or
behind the statement, in whatever scope the load stands. -/
structure RescueLoad (statement : AST) (info : Info) (name : String) : Prop
    extends TreeLoad tree info name where
  tries : isTry statement = true
  statementListed : statement ∈ AST.preorderAll tree
  statementScope : InModuleScope tree statement
  placed : .name info name .load ∈ AST.preorderAll (rescueParts statement) ∨
    Behind tree statement (.name info name .load)

end

/-! ## What is recorded at a load -/

section

variable (around : Surroundings) (tree : List AST) (info : Info) (name : String) (site : Site)

/-- The load is evaluated with the binding, on an execution of the module or later. -/
def EvaluatedWith : Prop :=
  Reaches around tree info name site ∨
    (Deferred tree (.name info name .load) ∧ around.called info.id site)

/-- A binding of the module scope is in `node_bindings` of the load. -/
def RecordedOfModule : Prop :=
  ∃ binding ∈ ((scopes tree around.moduleName around.isPackage).nodeBindings.get info.id).getD [],
    binding.site = site ∧ binding ∈ (scopes tree around.moduleName around.isPackage).ledger 0

end

section

variable {point : Nat} {start there : Bool} {node : AST}

/-- From a scope of its own a visit does not come back to the module scope. -/
theorem Comes.inner (comes : Comes point start there node) (nested : start = false) :
    there = false := by
  induction comes with
  | name => exact nested
  | own inside below inductionHypothesis => exact inductionHypothesis nested
  | nested inside below inductionHypothesis => exact inductionHypothesis rfl

/-- Where a visit comes in the module scope, no scope that is opened holds the point. -/
theorem Comes.outside (comes : Comes point start there node) (distinct : AST.Distinct [node])
    (ofModule : there = true) :
    ∀ opener ∈ node.preorder, point ∉ AST.points (nestedParts opener) := by
  induction comes with
  | name info id ctx here =>
    intro opener inside
    obtain rfl : opener = .name info id ctx := by simpa [AST.preorder] using inside
    exact List.not_mem_nil
  | @own node part start there inside below inductionHypothesis =>
    have through := through_of_mem_ownParts inside
    have listed := AST.descendants_subset node through.mem_descendants
    have alone : AST.Distinct [part] := by
      have within : (AST.preorderAll [part]).Sublist (AST.preorderAll [node]) := by
        simpa [AST.preorderAll_eq] using AST.preorder_sublist listed
      exact List.Nodup.sublist (within.map AST.id) distinct
    have placed := below.evaluates.mem_points
    intro opener openerInside
    rw [AST.preorder_eq, List.mem_cons] at openerInside
    obtain rfl | deeper := openerInside
    · exact outside_nestedParts distinct
        (AST.points_mono (AST.preorderAll_singleton_subset inside) placed)
    · obtain within | outside := through.outside distinct placed deeper
      · exact inductionHypothesis alone ofModule opener within
      · exact outside
  | nested inside below => exact absurd (ofModule.symm.trans (below.inner rfl)) Bool.noConfusion

/-- Where a visit comes in another scope, the point stands in a scope that is opened. -/
theorem Comes.opened (comes : Comes point start there node) (ofModule : start = true)
    (nested : there = false) :
    ∃ opener ∈ node.preorder, point ∈ AST.points (nestedParts opener) := by
  induction comes with
  | name => exact absurd (ofModule.symm.trans nested) Bool.noConfusion
  | @own node part start there inside below inductionHypothesis =>
    obtain ⟨opener, openerInside, placed⟩ := inductionHypothesis ofModule nested
    exact ⟨opener, (AST.preorder_sublist
      (AST.descendants_subset node (ownParts_subset node inside))).subset openerInside, placed⟩
  | @nested node part start there inside below =>
    exact ⟨node, AST.mem_preorder_self node,
      AST.points_mono (AST.preorderAll_singleton_subset inside) below.evaluates.mem_points⟩

end

section

variable {tree : List AST} (distinct : AST.Distinct tree) {info : Info} {name : String}

include distinct

/-- A load stands in a scope that a node opens where its identity does. -/
theorem mem_points_nestedParts_iff (listed : .name info name .load ∈ AST.preorderAll tree)
    {opener : AST} (openerInside : opener ∈ AST.preorderAll tree) :
    info.id ∈ AST.points (nestedParts opener) ↔
      ∃ part ∈ nestedParts opener, .name info name .load ∈ part.preorder := by
  constructor
  · intro placed
    obtain ⟨inner, innerInside, same⟩ := List.mem_map.mp placed
    obtain ⟨part, partInside, deeper⟩ := AST.mem_preorderAll.mp innerInside
    have below := AST.descendants_subset opener (nestedParts_subset opener partInside)
    have innerListed := AST.preorder_subset_preorderAll openerInside
      ((AST.preorder_sublist below).subset deeper)
    have isLoad : inner = .name info name .load := distinct.eq_of_id innerListed listed same
    exact ⟨part, partInside, isLoad ▸ deeper⟩
  · rintro ⟨part, partInside, deeper⟩
    exact List.mem_map.mpr ⟨_, AST.mem_preorderAll.mpr ⟨part, partInside, deeper⟩, rfl⟩

/-- At a load of the module scope bindings of this scope are recorded, and at a load of another scope
bindings of other scopes. -/
theorem recordedFrom_scopes (listed : .name info name .load ∈ AST.preorderAll tree)
    (moduleName : List String) (isPackage : Bool) (ofModule : Bool)
    (stands : ofModule = true ↔ InModuleScope tree (.name info name .load)) :
    RecordedFrom ofModule (scopes tree moduleName isPackage) info.id := by
  have each (node : AST) (inside : node ∈ tree) :
      Visited (fun there => {point | ∃ node ∈ tree, Comes point true there node}) 0 node :=
    fun builder made => (visited node 0 builder made).mono fun there point comes => ⟨node, inside, comes⟩
  have kept := keeps_visitAll 0 each (made_emptyBuilder moduleName isPackage)
  refine kept.origin info.id ofModule ?_ fun binding inside => absurd inside List.not_mem_nil
  rintro ⟨node, inside, comes⟩
  have alone : AST.Distinct [node] := List.Nodup.sublist
    ((AST.preorderAll_sublist (List.singleton_sublist.mpr inside)).map AST.id) distinct
  have within : node.preorder ⊆ AST.preorderAll tree :=
    fun inner deeper => AST.mem_preorderAll.mpr ⟨node, inside, deeper⟩
  cases ofModule with
  | true =>
    obtain ⟨opener, openerInside, placed⟩ := comes.opened rfl rfl
    obtain ⟨part, partInside, deeper⟩ :=
      (mem_points_nestedParts_iff distinct listed (within openerInside)).mp placed
    exact stands.mp rfl opener (within openerInside) part partInside deeper
  | false =>
    have outside := comes.outside alone rfl
    refine Bool.noConfusion (stands.mpr fun opener openerInside part partInside deeper => ?_)
    have placed :=
      (mem_points_nestedParts_iff distinct listed openerInside).mpr ⟨part, partInside, deeper⟩
    obtain ⟨root, rootInside, below⟩ := AST.mem_preorderAll.mp openerInside
    have here := comes.evaluates.mem_points
    have there : info.id ∈ AST.points [root] := by
      refine AST.points_mono ?_ (points_nestedParts_subset opener placed)
      simpa [AST.preorderAll_eq] using (AST.preorder_sublist below).subset
    obtain rfl := eq_of_mem_points distinct inside rootInside here there
    exact outside opener below placed

omit distinct in
/-- What is active behind a module has been made. -/
theorem made_scopes (tree : List AST) (moduleName : List String) (isPackage : Bool) :
    Made (scopes tree moduleName isPackage) := by
  have each (node : AST) (_ : node ∈ tree) : Visited anywhere 0 node := fun builder made =>
    (visited node 0 builder made).mono fun _ => Set.subset_univ _
  exact (keeps_visitAll 0 each (made_emptyBuilder moduleName isPackage)).made

/-- A binding of the module is recorded at a load if and only if the load stands in the module scope
and a path of the builder brings the binding there. -/
theorem TreeLoad.recordedOfModule_iff (load : TreeLoad tree info name) (around : Surroundings)
    (site : Site) :
    RecordedOfModule around tree info site ↔
      InModuleScope tree (.name info name .load) ∧ ReachesOnPath around tree info name site := by
  have made : Made (scopes tree around.moduleName around.isPackage) :=
    made_scopes tree around.moduleName around.isPackage
  have moduleLoad (stands : InModuleScope tree (.name info name .load)) : ModuleLoad tree info name :=
    ⟨load, stands⟩
  constructor
  · rintro ⟨binding, inside, same, ofModule⟩
    have stands : InModuleScope tree (.name info name .load) := by
      by_contra nested
      obtain ⟨place, kind, there⟩ := recordedFrom_scopes distinct load.listed around.moduleName
        around.isPackage false ⟨Bool.noConfusion, fun stands => absurd stands nested⟩ binding inside
      have zero := made.apart 0 place binding ofModule binding there rfl
      exact absurd zero.symm (of_decide_eq_false kind)
    exact ⟨stands, ((moduleLoad stands).recorded_iff distinct around.moduleName around.isPackage site).mp
      ⟨binding, inside, same⟩⟩
  · rintro ⟨stands, reaches⟩
    obtain ⟨binding, inside, same⟩ :=
      ((moduleLoad stands).recorded_iff distinct around.moduleName around.isPackage site).mpr reaches
    obtain ⟨place, kind, there⟩ := recordedFrom_scopes distinct load.listed around.moduleName
      around.isPackage true ⟨fun _ => stands, fun _ => rfl⟩ binding inside
    obtain rfl := of_decide_eq_true kind
    exact ⟨binding, inside, same, there⟩

/-- What is recorded at a load of the module scope is what the builder's paths bring there. -/
theorem ModuleLoad.recorded_iff_reachesOnPath (load : ModuleLoad tree info name)
    (around : Surroundings) (site : Site) :
    Recorded around tree info site ↔ ReachesOnPath around tree info name site :=
  load.recorded_iff distinct around.moduleName around.isPackage site

end

/-! ## Soundness -/

section

variable {tree : List AST} (distinct : AST.Distinct tree)

include distinct

end

/-- `from helpers import check`. -/
def importHelper (id line : Nat) : AST :=
  .importFrom ⟨id, line, line⟩ (some "helpers") [⟨"check", none⟩] 0

/-- `from pytest import skip as check`. -/
def importSkip (id line : Nat) : AST :=
  .importFrom ⟨id, line, line⟩ (some "pytest") [⟨"skip", some "check"⟩] 0

/-- `check`, as a statement. -/
def checkStatement (id line : Nat) : AST :=
  .exprStmt ⟨id, line, line⟩ (.name ⟨id + 1, line, line⟩ "check" .load)

/-- A loop over items that uses `check` and then binds it anew. -/
def rebindingLoop : AST :=
  .forStmt ⟨1, 2, 4⟩ false (.name ⟨2, 2, 2⟩ "item" .store) (.name ⟨3, 2, 2⟩ "items" .load)
    [checkStatement 4 3, importSkip 6 4] []

/-- The use in the body is a load in the loop. -/
theorem rebindingLoop_load :
    LoopLoad [importHelper 0 1, rebindingLoop] rebindingLoop ⟨5, 3, 3⟩ "check" where
  listed := by
    simp [AST.preorderAll, AST.preorder, importHelper, rebindingLoop, checkStatement, importSkip]
  undeclared := by
    simp [AST.preorderAll, AST.preorder, importHelper, rebindingLoop, checkStatement, importSkip]
  loops := rfl
  loopListed := by simp [AST.preorderAll, AST.preorder, rebindingLoop]
  loopScope := by
    simp [InModuleScope, AST.preorderAll, AST.preorder, importHelper, rebindingLoop, checkStatement,
      importSkip, nestedParts]
  placed := by
    left
    simp [AST.preorderAll, AST.preorder, rebindingLoop, checkStatement, importSkip, loopParts]

/-- The import binds `check` to `skip`. -/
theorem importSkip_runs (id line : Nat) :
    Execution.run "check" plainModule true (importSkip id line) .normal
      (some (some ⟨none, importSkip id line, some ["pytest", "skip"]⟩)) := by
  simp only [importSkip, Execution.run, List.foldr_cons, List.foldr_nil]
  exact Flow.seq_on ⟨rfl, rfl⟩ ⟨rfl, rfl⟩ rfl

/-- The import binds `check` to the helper. -/
theorem importHelper_runs (id line : Nat) :
    Execution.run "check" plainModule true (importHelper id line) .normal
      (some (some ⟨none, importHelper id line, some ["helpers", "check"]⟩)) := by
  simp only [importHelper, Execution.run, List.foldr_cons, List.foldr_nil]
  exact Flow.seq_on ⟨rfl, rfl⟩ ⟨rfl, rfl⟩ rfl

/-- The statement is passed, and the load in it is met. -/
theorem checkStatement_runs (id line : Nat) {exit : Exit}
    (met : exit = .normal ∨ exit = .observed (id + 1)) :
    Execution.run "check" plainModule true (checkStatement id line) exit none := by
  simp only [checkStatement, Execution.run]
  exact ⟨met, rfl⟩

/-- The second binding comes to the load in the next round. -/
theorem rebindingLoop_reaches :
    Reaches plainModule [importHelper 0 1, rebindingLoop] ⟨5, 3, 3⟩ "check"
      ⟨none, importSkip 6 4, some ["pytest", "skip"]⟩ := by
  have first : Execution.execute "check" plainModule [checkStatement 4 3, importSkip 6 4] .normal
      (some (some ⟨none, importSkip 6 4, some ["pytest", "skip"]⟩)) := by
    simp only [Execution.execute]
    exact Flow.seq_on (.inl (checkStatement_runs 4 3 (.inl rfl)))
      (Flow.seq_on (.inl (importSkip_runs 6 4)) ⟨rfl, rfl⟩ rfl) rfl
  have second : Execution.execute "check" plainModule [checkStatement 4 3, importSkip 6 4]
      (.observed 5) none := by
    simp only [Execution.execute]
    exact Flow.seq_out (by decide) (.inl (checkStatement_runs 4 3 (.inr rfl)))
  have looped : Execution.run "check" plainModule true rebindingLoop (.observed 5)
      (some (some ⟨none, importSkip 6 4, some ["pytest", "skip"]⟩)) := by
    simp only [rebindingLoop, Execution.run, Execution.runTarget]
    refine Flow.seq_on ⟨rfl, rfl⟩ ?_ Option.or_none.symm
    refine Flow.loop_second ⟨rfl, rfl⟩ (Flow.seq_on ⟨rfl, rfl⟩ first rfl)
      (Flow.seq_on ⟨rfl, rfl⟩ second rfl) (by decide) (by decide) (by decide) rfl
  unfold Reaches
  simp only [Execution.execute]
  exact Flow.seq_on (.inl (importHelper_runs 0 1)) (Flow.seq_out (by decide) (.inl looped)) rfl

section

variable {tree : List AST} (distinct : AST.Distinct tree)

include distinct

end

/-- A `try` statement in which `check` is bound to `skip` for a while, and used in the handler. -/
def wavering : AST :=
  .tryStmt ⟨1, 2, 7⟩ false
    [.ifStmt ⟨2, 3, 5⟩ (.name ⟨3, 3, 3⟩ "flag" .load) [importSkip 4 4, importHelper 5 5] []]
    [.exceptHandler ⟨6, 6, 7⟩ none none [checkStatement 7 7]] [] []

/-- The use in the handler is a load in a handler of the statement. -/
theorem wavering_load : RescueLoad [importHelper 0 1, wavering] wavering ⟨8, 7, 7⟩ "check" where
  listed := by
    simp [AST.preorderAll, AST.preorder, AST.preorderOpt, importHelper, wavering, checkStatement,
      importSkip]
  undeclared := by
    simp [AST.preorderAll, AST.preorder, AST.preorderOpt, importHelper, wavering, checkStatement,
      importSkip]
  tries := rfl
  statementListed := by simp [AST.preorderAll, AST.preorder, wavering]
  statementScope := by
    simp [InModuleScope, AST.preorderAll, AST.preorder, AST.preorderOpt, importHelper, wavering,
      checkStatement, importSkip, nestedParts]
  placed := by
    left
    simp [AST.preorderAll, AST.preorder, AST.preorderOpt, wavering, checkStatement, rescueParts]

/-- The binding to `skip` comes to the handler when the second import fails. -/
theorem wavering_reaches :
    Reaches plainModule [importHelper 0 1, wavering] ⟨8, 7, 7⟩ "check"
      ⟨none, importSkip 4 4, some ["pytest", "skip"]⟩ := by
  have failed : Execution.execute "check" plainModule [importSkip 4 4, importHelper 5 5] .raises
      (some (some ⟨none, importSkip 4 4, some ["pytest", "skip"]⟩)) := by
    simp only [Execution.execute]
    exact Flow.seq_out (by decide) (.inr ⟨rfl, .inr (importSkip_runs 4 4)⟩)
  have handled : Execution.execute "check" plainModule [checkStatement 7 7] (.observed 8) none := by
    simp only [Execution.execute]
    exact Flow.seq_out (by decide) (.inl (checkStatement_runs 7 7 (.inr rfl)))
  have tried : Execution.run "check" plainModule true wavering (.observed 8)
      (some (some ⟨none, importSkip 4 4, some ["pytest", "skip"]⟩)) := by
    simp only [wavering, Execution.run, Execution.runHandlers, Execution.runHandler,
      Execution.runHandlerBody, Bool.false_eq_true, if_false]
    refine .inl ⟨8, rfl, .inr (.inr ⟨_, none, ?_, handled, rfl⟩)⟩
    simp only [Execution.execute, Execution.run]
    exact Flow.seq_out (by decide) (.inl (Flow.seq_on ⟨rfl, rfl⟩ (.inl failed) Option.or_none.symm))
  unfold Reaches
  simp only [Execution.execute]
  exact Flow.seq_on (.inl (importHelper_runs 0 1)) (Flow.seq_out (by decide) (.inl tried)) rfl

end VirtTestTools.Policy
