import VirtTestTools.Policy.BindingTries

/-!
# Statements in the scope builder

The visitors of the other statements and expressions follow the paths of their nodes when the
visits of the parts follow theirs.
-/

namespace VirtTestTools.Policy

open BindingPaths

namespace Watch

variable {ν : Type} {watch : Watch ν} {level : Level} {place : Nat} {builder middle next : ScopeBuilder}

/-- The visitor of a node begins by marking the node. -/
theorem follows_of_marked {node : AST} {count : Nat}
    (rest : (level.own = true ↔ place = 0) → ∀ builder,
      watch.Tracks [(level, place)] (watch.path node level) count (builder.markNode place node)
        (ScopeBuilder.visit node place builder))
    (within : count ≤ watch.tally [node]) (once : watch.tally [node] ≤ 1) :
    watch.Follows level place node := by
  intro builder
  refine .of_fits fun fits => ?_
  have isHere := (fits _ (List.mem_singleton_self _)).own
  exact .before (tracks_markNode place node) ((rest isHere builder).weaken within) once

/-- The builder that stays tracks the pass that does nothing. -/
theorem Tracks.refl {places : List (Level × Nat)} : watch.Tracks places .pass 0 builder builder :=
  .quiet fun good _ => .of_scopes good rfl rfl rfl rfl rfl

/-! ## Names and imports -/

/-- A name is the load or it is not. -/
theorem tally_name (info : Info) (id : String) (ctx : Ctx) :
    watch.tally [.name info id ctx] = if info.id = watch.load then 1 else 0 := by
  by_cases here : info.id = watch.load <;>
    simp [tally, AST.preorderAll, AST.preorder, AST.id, AST.info, here]

/-- A name is recorded, and bound if it is stored. -/
theorem follows_name {info : Info} {id : String} {ctx : Ctx}
    (isLoad : info.id = watch.load → id = watch.name ∧ ctx = .load ∧ level.own = true) :
    watch.Follows level place (.name info id ctx) := by
  have counted : watch.tally [.name info id ctx] = if info.id = watch.load then 1 else 0 :=
    tally_name info id ctx
  refine follows_of_marked (fun isHere builder => ?_) (Nat.le_refl _) (by split at counted <;> omega)
  simp only [path, walk, ScopeBuilder.visit]
  generalize builder.markNode place (.name info id ctx) = marked
  rw [counted]
  by_cases watched : info.id = watch.load
  · obtain ⟨rfl, rfl, own⟩ := isLoad watched
    obtain rfl := isHere.mp own
    rw [if_pos watched, watched]
    simp only [own, and_self, if_true, reduceCtorEq, if_false]
    exact tracks_record _ watched
  · have quiet : watch.Good marked → watch.Quiet marked
        (marked.recordName place (.name info id ctx) id) := fun good =>
      .recordName good place _ id watched
    have recorded : watch.Tracks [(level, place)] .pass 0 marked
        (marked.recordName place (.name info id ctx) id) := .quiet fun good _ => quiet good
    rw [if_neg watched]
    cases ctx with
    | load =>
      simp only [reduceCtorEq, if_false]
      split
      · exact tracks_observe watched quiet
      · exact recorded
    | store =>
      have written : (if level.own = true ∧ id = watch.name then
          Pass.write (some (watch.wrote ⟨none, .name info id .store, none⟩)) else .pass) =
            bindingsIf watch.name watch.wrote level.own [(id, ⟨none, .name info id .store, none⟩)] := by
        cases level.own <;> simp [bindingsIf, bindings, binding]
      simp only [if_true]
      rw [written]
      exact .before recorded (tracks_bind isHere _ _ _ _ _) (by omega)
    | del =>
      simp only [reduceCtorEq, if_false, ite_self]
      exact recorded

/-- `_visit_import`. -/
theorem follows_importStmt {info : Info} {names : List Alias}
    (once : watch.tally [.importStmt info names] ≤ 1) :
    watch.Follows level place (.importStmt info names) := by
  refine follows_of_marked (fun isHere builder => ?_) (Nat.zero_le _) once
  simp only [path, walk, ScopeBuilder.visit]
  refine .behind ?_ (tracks_mark place _) (by omega)
  rw [List.map_eq_flatMap]
  refine tracks_foldl _ _ (fun builder imported => ?_) names _
  unfold importSite ScopeBuilder.bindImport
  cases imported.asname with
  | some asname => exact tracks_bind isHere _ _ _ _ _
  | none => exact tracks_bind isHere _ _ _ _ _

/-- `_visit_importfrom`. -/
theorem follows_importFrom {info : Info} {module : Option String} {names : List Alias} {dots : Nat}
    (once : watch.tally [.importFrom info module names dots] ≤ 1) :
    watch.Follows level place (.importFrom info module names dots) := by
  refine follows_of_marked (fun isHere builder => ?_) (Nat.zero_le _) once
  simp only [path, walk, ScopeBuilder.visit]
  refine .behind ?_ (tracks_mark place _) (by omega)
  intro good
  have named : builder.importPrefix = watch.importPrefix := good.named
  rw [named]
  revert good
  refine tracks_foldl _ _ (fun builder imported => ?_) names _
  unfold importFromSites ScopeBuilder.bindImportFrom
  split
  · split
    · rw [List.map_eq_flatMap]
      exact tracks_foldl _ _ (fun builder exported => tracks_bind isHere _ _ _ _ _) _ builder
    · rw [bindingsIf_nil]
      exact .refl
  · exact tracks_bind isHere _ _ _ _ _

/-! ## Nodes without a visitor of their own -/

/-- Two lists of nodes are visited one behind the other. -/
theorem visitAll_append (nodes more : List AST) (builder : ScopeBuilder) :
    ScopeBuilder.visitAll (nodes ++ more) place builder =
      ScopeBuilder.visitAll more place (ScopeBuilder.visitAll nodes place builder) := by
  induction nodes generalizing builder with
  | nil => rfl
  | cons node rest inductionHypothesis => exact inductionHypothesis _

/-- A node that may be missing is visited as a list. -/
theorem visitOpt_eq (node : Option AST) (builder : ScopeBuilder) :
    ScopeBuilder.visitOpt node place builder = ScopeBuilder.visitAll node.toList place builder := by
  cases node <;> rfl

/-- The passes of two lists of nodes. -/
theorem pathAll_append (nodes more : List AST) :
    watch.pathAll (nodes ++ more) level = (watch.pathAll nodes level).seq (watch.pathAll more level) := by
  induction nodes with
  | nil => simp [walkAll]
  | cons node rest inductionHypothesis => simp [walkAll, inductionHypothesis]

/-- A node that may be missing is scanned as a list. -/
theorem walkOpt_eq (node : Option AST) :
    walkOpt watch.name watch.importPrefix watch.wrote node level = watch.pathAll node.toList level := by
  cases node <;> simp [walkOpt, walkAll]

/-- `generic_visit`: the children of the node in turn. -/
theorem follows_generic {node : AST}
    (visited : ∀ builder, ScopeBuilder.visit node place builder =
      ScopeBuilder.visitAll node.children place (builder.markNode place node))
    (walked : watch.path node level = watch.pathAll node.children level)
    (each : ∀ child ∈ node.children, watch.Follows level place child)
    (once : watch.tally [node] ≤ 1) : watch.Follows level place node := by
  have within : watch.tally node.children ≤ watch.tally [node] := tally_children_le node
  refine follows_of_marked (fun _ builder => ?_) within once
  rw [visited, walked]
  exact tracks_visitAll node.children each (by omega) _

/-! ## Assignments -/

/-- The targets of an assignment. -/
theorem tracks_bindAssigned (isHere : level.own = true ↔ place = 0) (node : AST)
    (value : Option AST) (target : AST) (builder : ScopeBuilder) :
    watch.Tracks [(level, place)]
      (bindingsIf watch.name watch.wrote level.own (targetSites node target value)) 0 builder
      (ScopeBuilder.bindAssigned place node value builder target) :=
  .behind (tracks_bindTargets isHere node none target value builder) (tracks_mark place target)
    (by omega)

/-- `_visit_assign`. -/
theorem follows_assign {info : Info} {targets : List AST} {value : AST}
    (each : watch.Follows level place value) (once : watch.tally [.assign info targets value] ≤ 1) :
    watch.Follows level place (.assign info targets value) := by
  have within : watch.tally (AST.children (.assign info targets value)) ≤ _ := tally_children_le _
  simp only [AST.children, tally_append] at within
  refine follows_of_marked (fun isHere builder => ?_) (Nat.le_trans (Nat.le_add_left _ _) within) once
  simp only [path, walk, ScopeBuilder.visit]
  exact .seq (each _) (tracks_foldl _ _
    (fun builder target => tracks_bindAssigned isHere _ _ target builder) targets _) (by omega)

/-- `_visit_annassign`. -/
theorem follows_annAssign {info : Info} {target annot : AST} {value : Option AST}
    (each : watch.Follows level place annot)
    (eachValue : ∀ inner ∈ value.toList, watch.Follows level place inner)
    (once : watch.tally [.annAssign info target annot value] ≤ 1) :
    watch.Follows level place (.annAssign info target annot value) := by
  have within : watch.tally (AST.children (.annAssign info target annot value)) ≤ _ :=
    tally_children_le _
  simp only [AST.children] at within
  rw [tally_cons, tally_cons annot] at within
  refine follows_of_marked (fun isHere builder => ?_) (Nat.le_trans (Nat.le_add_left _ _) within) once
  simp only [path, walk, ScopeBuilder.visit]
  exact .seq (each _) (.seq (tracks_visitOpt value eachValue _)
    (tracks_bindAssigned isHere _ _ target _) (by omega)) (by omega)

/-- `_visit_augassign`. -/
theorem follows_augAssign {info : Info} {target value : AST}
    (each : watch.Follows level place value)
    (once : watch.tally [.augAssign info target value] ≤ 1) :
    watch.Follows level place (.augAssign info target value) := by
  have within : watch.tally (AST.children (.augAssign info target value)) ≤ _ :=
    tally_children_le _
  simp only [AST.children] at within
  rw [tally_cons] at within
  refine follows_of_marked (fun isHere builder => ?_) (Nat.le_trans (Nat.le_add_left _ _) within) once
  simp only [path, walk, ScopeBuilder.visit]
  refine .behind ?_ (tracks_mark place target) (by omega)
  exact .silent_seq (tracks_bindTargets isHere _ none target none _) (each _) (by omega)

/-- A declaration of other names. -/
theorem follows_declaration {node : AST}
    (visited : ∀ builder, ScopeBuilder.visit node place builder =
      (ScopeBuilder.declareNames place (builder.markNode place node) node).mark place node)
    (walked : watch.path node level = .pass)
    (undeclared : ∀ info names, node = .globalStmt info names → watch.name ∉ names)
    (once : watch.tally [node] ≤ 1) : watch.Follows level place node := by
  refine follows_of_marked (fun _ builder => ?_) (Nat.zero_le _) once
  rw [visited, walked]
  exact .behind (tracks_declareNames place node undeclared) (tracks_mark place node) (by omega)

/-- The target of an assignment expression is bound outside of comprehensions. -/
theorem follows_namedExpr {info : Info} {target value : AST}
    (each : watch.Follows level place value)
    (once : watch.tally [.namedExpr info target value] ≤ 1) :
    watch.Follows level place (.namedExpr info target value) := by
  have within : watch.tally (AST.children (.namedExpr info target value)) ≤ _ :=
    tally_children_le _
  simp only [AST.children] at within
  rw [tally_cons] at within
  intro builder
  refine .of_fits fun fits => ?_
  have isHere := (fits _ (List.mem_singleton_self _)).walrus
  refine .weaken ?_ (Nat.le_trans (Nat.le_add_left _ _) within)
  simp only [path, walk, ScopeBuilder.visit]
  refine .before (tracks_markNode place (.namedExpr info target value)) ?_ (by omega)
  refine .behind ?_ (tracks_mark place target) (by omega)
  exact .seq (each _) (tracks_bindTargets isHere _ none target (some value) _) (by omega)

/-! ## Exits of loops -/

/-- A break is followed. -/
theorem follows_breakStmt {info : Info} (once : watch.tally [.breakStmt info] ≤ 1) :
    watch.Follows level place (.breakStmt info) := by
  refine follows_of_marked (fun _ builder => ?_) (Nat.zero_le _) once
  simp only [path, walk, ScopeBuilder.visit]
  exact tracks_noteExit fun states exits => ⟨[states], [], by simp, .inl ⟨rfl, rfl, rfl⟩⟩

/-- A continue is followed. -/
theorem follows_continueStmt {info : Info} (once : watch.tally [.continueStmt info] ≤ 1) :
    watch.Follows level place (.continueStmt info) := by
  refine follows_of_marked (fun _ builder => ?_) (Nat.zero_le _) once
  simp only [path, walk, ScopeBuilder.visit]
  exact tracks_noteExit fun states exits => ⟨[], [states], by simp, .inr ⟨rfl, rfl, rfl⟩⟩

/-! ## Branches and loops -/

/-- A branch that is not gone through. -/
theorem branching_unvisited (part : Pass (Option ν) × Bool) (skipped : Bool) :
    branching skipped [part, (.pass, false)] = branching skipped [part] := by
  ext exit written
  have early : (exit ≠ .normal ∧ exits [part, (.pass, false)] exit written) ↔
      (exit ≠ .normal ∧ exits [part] exit written) := by
    refine and_congr_right fun early => ?_
    simp [exits, Pass.pass, Flow.pass, early]
  have same : outputs [part, ((.pass : Pass (Option ν)), false)] = outputs [part] := by
    ext written
    simp [outputs]
  simp only [branching, Pass.aside, early, same]

/-- `_visit_if`. -/
theorem follows_ifStmt {info : Info} {test : AST} {body orelse : List AST}
    (each : watch.Follows level place test)
    (eachBody : ∀ statement ∈ body, watch.Follows level place statement)
    (eachElse : ∀ statement ∈ orelse, watch.Follows level place statement)
    (once : watch.tally [.ifStmt info test body orelse] ≤ 1) :
    watch.Follows level place (.ifStmt info test body orelse) := by
  have within : watch.tally (AST.children (.ifStmt info test body orelse)) ≤ _ :=
    tally_children_le _
  simp only [AST.children, List.cons_append] at within
  rw [tally_cons, tally_append] at within
  refine follows_of_marked (fun _ builder => ?_) within once
  simp only [path, walk, ScopeBuilder.visit]
  refine .seq (each _) ?_ (by omega)
  generalize ScopeBuilder.visit test place _ = tested
  intro good fits values shows
  have positive := List.length_pos_of_ne_nil good.scopes_ne_nil
  obtain ⟨nonempty, known, showsIncoming⟩ := good.incoming shows
  have first := (Branched.nil good values).step good.ordered fits (.refl good shows)
    (tracks_visitAll body eachBody (by omega) tested) (by omega) positive (statementsFallThrough body)
  cases orelse with
  | nil =>
    have joined := first.joined (by omega) nonempty known showsIncoming true
    simp only [List.isEmpty_nil, if_true, walkAll, Bool.not_true, Bool.false_and, branching_unvisited,
      ScopeBuilder.branchOutput, tally_nil, Nat.add_zero]
    simpa using joined
  | cons statement rest =>
    have starts := Starts.restored first.trace.good nonempty
      (List.Subset.trans known first.trace.grown) showsIncoming
    have second := first.step good.ordered fits starts
      (tracks_visitAll (statement :: rest) eachElse (by omega) _) (by omega) positive
      (statementsFallThrough (statement :: rest))
    have joined := second.joined (by omega) nonempty known showsIncoming false
    simp only [List.isEmpty_cons, Bool.false_eq_true, if_false, Bool.not_false, Bool.true_and,
      ScopeBuilder.branchOutput]
    simpa using joined

/-- `_visit_for`. -/
theorem follows_forStmt {info : Info} {isAsync : Bool} {target iter : AST} {body orelse : List AST}
    (each : watch.Follows level place iter)
    (eachBody : ∀ statement ∈ body, watch.Follows level place statement)
    (eachElse : ∀ statement ∈ orelse, watch.Follows level place statement)
    (once : watch.tally [.forStmt info isAsync target iter body orelse] ≤ 1) :
    watch.Follows level place (.forStmt info isAsync target iter body orelse) := by
  have within : watch.tally (AST.children (.forStmt info isAsync target iter body orelse)) ≤ _ :=
    tally_children_le _
  simp only [AST.children, List.cons_append] at within
  rw [tally_cons, tally_cons iter, tally_append] at within
  refine follows_of_marked (fun isHere builder => ?_) (Nat.le_trans (Nat.le_add_left _ _) within) once
  simp only [path, walk, ScopeBuilder.visit]
  refine .seq (each _) ?_ (by omega)
  refine tracks_loop ?_ (tracks_visitAll orelse eachElse (by omega) _) (by omega)
  exact .silent_seq (.behind (tracks_bindTargets isHere target none target none _)
    (tracks_mark place target) (by omega)) (tracks_visitAll body eachBody (by omega) _) (by omega)

/-- `_visit_while`. -/
theorem follows_whileStmt {info : Info} {test : AST} {body orelse : List AST}
    (each : watch.Follows level place test)
    (eachBody : ∀ statement ∈ body, watch.Follows level place statement)
    (eachElse : ∀ statement ∈ orelse, watch.Follows level place statement)
    (once : watch.tally [.whileStmt info test body orelse] ≤ 1) :
    watch.Follows level place (.whileStmt info test body orelse) := by
  have within : watch.tally (AST.children (.whileStmt info test body orelse)) ≤ _ :=
    tally_children_le _
  simp only [AST.children, List.cons_append] at within
  rw [tally_cons, tally_append] at within
  refine follows_of_marked (fun _ builder => ?_) within once
  simp only [path, walk, ScopeBuilder.visit]
  refine .seq (each _) ?_ (by omega)
  exact tracks_loop (tracks_visitAll body eachBody (by omega) _)
    (tracks_visitAll orelse eachElse (by omega) _) (by omega)

/-! ## Matches -/

/-- The patterns of cases are visited as their parts. -/
theorem visitPatterns_eq (cases : List AST) (builder : ScopeBuilder) :
    ScopeBuilder.visitPatterns cases place builder =
      ScopeBuilder.visitAll (cases.flatMap patternParts) place builder := by
  induction cases generalizing builder with
  | nil => simp only [ScopeBuilder.visitPatterns, List.flatMap_nil, ScopeBuilder.visitAll]
  | cons first rest inductionHypothesis =>
    rw [ScopeBuilder.visitPatterns, inductionHypothesis, List.flatMap_cons, visitAll_append]
    cases first <;> simp only [ScopeBuilder.visitPattern, patternParts, ScopeBuilder.visitAll, visitOpt_eq]

/-- The patterns of cases are scanned as their parts. -/
theorem walkPatterns_eq (cases : List AST) :
    walkPatterns watch.name watch.importPrefix watch.wrote cases level =
      watch.pathAll (cases.flatMap patternParts) level := by
  induction cases with
  | nil => simp only [walkPatterns, List.flatMap_nil, walkAll]
  | cons first rest inductionHypothesis =>
    rw [walkPatterns, inductionHypothesis, List.flatMap_cons, pathAll_append]
    cases first <;> simp only [walkPattern, patternParts, walkAll, walkOpt_eq]

/-- Patterns and bodies have no more loads than the cases. -/
theorem tally_cases_le (cases : List AST) :
    watch.tally (cases.flatMap patternParts) + watch.tally (cases.flatMap bodyParts) ≤
      watch.tally cases := by
  induction cases with
  | nil => simp [tally_nil]
  | cons first rest inductionHypothesis =>
    have here : watch.tally (patternParts first) + watch.tally (bodyParts first) ≤
        watch.tally [first] := by
      have within : watch.tally first.children ≤ watch.tally [first] := tally_children_le first
      cases first with
      | matchCase info pattern guard body =>
        simpa only [patternParts, bodyParts, AST.children, tally_append] using within
      | _ => simp [patternParts, bodyParts, tally_nil]
    rw [List.flatMap_cons, List.flatMap_cons, tally_append, tally_append, tally_cons]
    omega

/-- The bodies are branches that are gone through from the same bindings. -/
theorem branched_visitCases {cases : List AST} {tracked : Nat}
    (each : ∀ statement ∈ cases.flatMap bodyParts, watch.Follows level place statement)
    (positive : 0 < tracked) {incoming : List Bindings} (nonempty : incoming ≠ [])
    {values : Set (Option ν)} (shows : watch.Shows (front watch.name incoming) values)
    (ordered : Ordered builder.shapes) (fits : Fits builder level place)
    {branches : List (Pass (Option ν) × Bool)} {count : Nat} {states others : List (List Bindings)}
    (branched : watch.Branched values branches count builder middle states others)
    (known : front watch.name incoming ⊆ builder.history watch.name)
    (once : count + watch.tally (cases.flatMap bodyParts) ≤ 1) :
    ∃ left, watch.Branched values
      (branches ++ walkCases watch.name watch.importPrefix watch.wrote cases level)
      (count + watch.tally (cases.flatMap bodyParts)) builder
      (ScopeBuilder.visitCases cases place tracked incoming middle).1
      (states ++ (ScopeBuilder.visitCases cases place tracked incoming middle).2) left := by
  induction cases generalizing branches count states others middle with
  | nil =>
    refine ⟨others, ?_⟩
    simpa [walkCases, ScopeBuilder.visitCases, tally_nil] using branched
  | cons first rest inductionHypothesis =>
    rw [List.flatMap_cons] at each once ⊢
    rw [tally_append] at once ⊢
    have starts := Starts.restored branched.trace.good nonempty
      (List.Subset.trans known branched.trace.grown) shows
    have eachRest : ∀ statement ∈ rest.flatMap bodyParts, watch.Follows level place statement :=
      fun statement inside => each statement (List.mem_append_right _ inside)
    have stepped (part : Pass (Option ν) × Bool) (last : ScopeBuilder)
        (tracks : watch.Tracks [(level, place)] part.1 (watch.tally (bodyParts first))
          (middle.restoreStates incoming) last) :=
      inductionHypothesis eachRest (branched.step ordered (by simpa using fits) starts tracks (by omega) positive part.2)
        (by omega)
    simp only [walkCases, ScopeBuilder.visitCases]
    cases first with
    | matchCase info pattern guard body =>
      have bodyOnce : watch.tally body ≤ 1 := by
        change count + (watch.tally body + watch.tally (rest.flatMap bodyParts)) ≤ 1 at once
        omega
      obtain ⟨left, later⟩ := stepped (watch.pathAll body level, statementsFallThrough body) _
        (tracks_visitAll body (fun statement inside => each statement (List.mem_append_left _ inside))
          bodyOnce _)
      refine ⟨left, ?_⟩
      rw [Nat.add_assoc] at later
      simpa [walkCase, ScopeBuilder.visitCase, bodyParts, ScopeBuilder.branchOutput] using later
    | _ =>
      obtain ⟨left, later⟩ := stepped (.pass, false) _ .refl
      refine ⟨left, ?_⟩
      rw [Nat.add_assoc] at later
      simpa [walkCase, ScopeBuilder.visitCase, bodyParts] using later

/-- `_visit_match`. -/
theorem follows_matchStmt {info : Info} {subject : AST} {cases : List AST}
    (each : watch.Follows level place subject)
    (eachPattern : ∀ part ∈ cases.flatMap patternParts, watch.Follows level place part)
    (eachBody : ∀ statement ∈ cases.flatMap bodyParts, watch.Follows level place statement)
    (once : watch.tally [.matchStmt info subject cases] ≤ 1) :
    watch.Follows level place (.matchStmt info subject cases) := by
  have within : watch.tally (AST.children (.matchStmt info subject cases)) ≤ _ :=
    tally_children_le _
  simp only [AST.children] at within
  rw [tally_cons] at within
  have parted : watch.tally (cases.flatMap patternParts) + watch.tally (cases.flatMap bodyParts) ≤
    watch.tally cases := tally_cases_le cases
  refine follows_of_marked (fun _ builder => ?_)
    (Nat.le_trans (Nat.add_le_add_left parted _) within) once
  simp only [path, walk, ScopeBuilder.visit, visitPatterns_eq, walkPatterns_eq]
  refine .seq (each _) (.seq (tracks_visitAll _ eachPattern (by omega) _) ?_ (by omega)) (by omega)
  generalize ScopeBuilder.visitAll (cases.flatMap patternParts) place _ = matched
  intro good fits values shows
  have positive := List.length_pos_of_ne_nil good.scopes_ne_nil
  obtain ⟨nonempty, known, showsIncoming⟩ := good.incoming shows
  obtain ⟨left, branched⟩ := branched_visitCases eachBody positive nonempty showsIncoming good.ordered
    (fits _ (List.mem_singleton_self _)) (.nil good values) known (by omega)
  have joined := branched.joined (by omega) nonempty known showsIncoming true
  simpa using joined

end Watch

end VirtTestTools.Policy
