import VirtTestTools.Policy.BindingJoins
import VirtTestTools.Positions

/-!
# Exceptions in the scope builder

The visitor of a `try` statement goes through the body and keeps the bindings behind each of
its statements, then through the handlers from all of these, and at last through the `finally`
block, twice if control goes on behind it. It follows the pass of the statement when the
visits of the parts follow theirs.
-/

namespace VirtTestTools.Policy

open BindingPaths

namespace Watch

variable {ν : Type} (watch : Watch ν)

/-- How often the identity of the load stands in some nodes. -/
def tally (nodes : List AST) : Nat :=
  (AST.preorderAll nodes).countP fun node => node.id = watch.load

/-- The paths of a node for the name. -/
abbrev path (node : AST) (level : Level) : Pass (Option ν) :=
  walk watch.name watch.importPrefix watch.wrote node level

/-- The passes of nodes in turn. -/
abbrev pathAll (nodes : List AST) (level : Level) : Pass (Option ν) :=
  walkAll watch.name watch.importPrefix watch.wrote nodes level

/-- A visit of the node in a scope follows the paths of the node. -/
def Follows (level : Level) (place : Nat) (node : AST) : Prop :=
  ∀ builder, watch.Tracks [(level, place)] (watch.path node level) (watch.tally [node]) builder
    (ScopeBuilder.visit node place builder)

variable {watch} {level : Level} {place : Nat} {builder middle next : ScopeBuilder}

/-- No nodes have no loads. -/
theorem tally_nil : watch.tally [] = 0 := rfl

/-- The loads of two lists of nodes. -/
theorem tally_append (nodes more : List AST) :
    watch.tally (nodes ++ more) = watch.tally nodes + watch.tally more := by
  simp [tally, AST.preorderAll_eq]

/-- The loads of the first node and of the rest. -/
theorem tally_cons (node : AST) (rest : List AST) :
    watch.tally (node :: rest) = watch.tally [node] + watch.tally rest :=
  tally_append [node] rest

/-- The children have no more loads than the node. -/
theorem tally_children_le (node : AST) : watch.tally node.children ≤ watch.tally [node] := by
  simp only [tally, AST.preorderAll_eq, List.flatMap_singleton]
  rw [AST.preorder_eq node, List.countP_cons]
  exact Nat.le_add_right _ _

/-- Visits in turn. -/
theorem tracks_visitAll (nodes : List AST) (each : ∀ node ∈ nodes, watch.Follows level place node)
    (once : watch.tally nodes ≤ 1) (builder : ScopeBuilder) :
    watch.Tracks [(level, place)] (watch.pathAll nodes level) (watch.tally nodes) builder
      (ScopeBuilder.visitAll nodes place builder) := by
  induction nodes generalizing builder with
  | nil =>
    simp only [walkAll, ScopeBuilder.visitAll]
    exact .quiet fun good _ => .of_scopes good rfl rfl rfl rfl rfl
  | cons node rest inductionHypothesis =>
    rw [tally_cons] at once ⊢
    simp only [walkAll, ScopeBuilder.visitAll]
    have first := each node (List.mem_cons_self ..) builder
    have others := inductionHypothesis (fun other inside => each other (List.mem_cons_of_mem _ inside))
      (by omega) (ScopeBuilder.visit node place builder)
    exact first.seq others once

/-- A node that may be missing is tracked when it is. -/
theorem tracks_visitOpt (node : Option AST) (each : ∀ inner ∈ node.toList, watch.Follows level place inner)
    (builder : ScopeBuilder) :
    watch.Tracks [(level, place)]
      (walkOpt watch.name watch.importPrefix watch.wrote node level) (watch.tally node.toList) builder
      (ScopeBuilder.visitOpt node place builder) := by
  cases node with
  | none =>
    simp only [walkOpt, ScopeBuilder.visitOpt]
    exact .quiet fun good _ => .of_scopes good rfl rfl rfl rfl rfl
  | some node =>
    simp only [walkOpt, ScopeBuilder.visitOpt]
    exact each node (by simp) builder

/-! ## The statements of a body -/

variable {statements : List AST} {tracked : Nat}

/-- Whether the builder goes on behind a body is whether the body falls through. -/
theorem visitBody_falls (statements : List AST) (place tracked : Nat) (builder : ScopeBuilder) :
    (ScopeBuilder.visitBody statements place tracked builder).2.2 =
      statementsFallThrough statements := by
  induction statements generalizing builder with
  | nil => rfl
  | cons statement rest inductionHypothesis =>
    simp only [ScopeBuilder.visitBody, statementsFallThrough]
    split
    · rename_i falls
      simp [falls, inductionHypothesis]
    · rename_i leaves
      simp [leaves]

/-- The `else` clause comes behind a body that falls through. -/
theorem walkCompleted_eq (statements : List AST) (orelse : Pass (Option ν)) :
    walkCompleted watch.name watch.importPrefix watch.wrote statements orelse level =
      (walkCompleted watch.name watch.importPrefix watch.wrote statements .pass level).seq
        (if statementsFallThrough statements then orelse else .pass) := by
  induction statements with
  | nil => simp [walkCompleted, statementsFallThrough]
  | cons statement rest inductionHypothesis =>
    simp only [walkCompleted, statementsFallThrough, Pass.seq_assoc]
    by_cases falls : statementFallsThrough statement = true
    · rw [if_pos falls, if_pos falls, inductionHypothesis]
      simp [falls]
    · simp [falls]

/-- A body is tracked when its statements are. -/
theorem tracks_visitBody (statements : List AST) (tracked : Nat)
    (each : ∀ statement ∈ statements, watch.Follows level place statement)
    (once : watch.tally statements ≤ 1) (builder : ScopeBuilder) :
    watch.Tracks [(level, place)]
      (walkCompleted watch.name watch.importPrefix watch.wrote statements .pass level)
      (watch.tally statements) builder
      (ScopeBuilder.visitBody statements place tracked builder).1 := by
  induction statements generalizing builder with
  | nil =>
    simp only [walkCompleted, ScopeBuilder.visitBody]
    exact .quiet fun good _ => .of_scopes good rfl rfl rfl rfl rfl
  | cons statement rest inductionHypothesis =>
    rw [tally_cons] at once ⊢
    have first := each statement (List.mem_cons_self ..) builder
    simp only [walkCompleted, ScopeBuilder.visitBody]
    split
    · have others := inductionHypothesis
        (fun other inside => each other (List.mem_cons_of_mem _ inside)) (by omega)
        (ScopeBuilder.visit statement place builder)
      exact first.seq others once
    · rw [Pass.seq_pass]
      exact first.weaken (by omega)

/-- The bindings before the body and behind its statements are those with which an exception
may leave it. -/
theorem noted_visitBody (statements : List AST)
    (each : ∀ statement ∈ statements, watch.Follows level place statement)
    (once : watch.tally statements ≤ 1) (positive : 0 < tracked) {builder : ScopeBuilder}
    (good : watch.Good builder) (fits : Fits builder level place) {values : Set (Option ν)}
    (shows : watch.Shows (builder.active watch.name) values) :
    watch.Noted (ScopeBuilder.visitBody statements place tracked builder).1
      ((walkInterrupted watch.name watch.importPrefix watch.wrote statements level).flow.after .normal
        values) True
      (builder.states tracked :: (ScopeBuilder.visitBody statements place tracked builder).2.1) := by
  induction statements generalizing builder values with
  | nil =>
    simp only [walkInterrupted, ScopeBuilder.visitBody, Pass.after_pass]
    exact .single good shows positive rfl
  | cons statement rest inductionHypothesis =>
    rw [tally_cons] at once
    have eachRest : ∀ other ∈ rest, watch.Follows level place other :=
      fun other inside => each other (List.mem_cons_of_mem _ inside)
    obtain ⟨trace, showsMiddle⟩ := each statement (List.mem_cons_self ..) builder good
      (by simpa using fits) values shows
    have fitsMiddle := fits.extended good.ordered trace.extended
    have before : watch.Noted builder values True [builder.states tracked] :=
      .single good shows positive rfl
    simp only [walkInterrupted, ScopeBuilder.visitBody, Pass.after_anyOf_pass]
    split
    · obtain ⟨traceRest, -⟩ := tracks_visitBody rest tracked eachRest (by omega) _
        trace.good (by simpa using fitsMiddle) _ showsMiddle
      have later := inductionHypothesis eachRest (by omega) trace.good fitsMiddle showsMiddle
      rw [Pass.after_seq_normal]
      exact ((before.mono (List.Subset.trans trace.grown traceRest.grown)).append later).of_met
        or_self_iff
    · rw [Pass.seq_pass]
      exact ((before.mono trace.grown).append (.single trace.good showsMiddle positive rfl)).of_met
        or_self_iff

/-! ## Handlers -/

/-- The name of a handler is bound while it runs. -/
theorem tracks_visitHandler (handler : AST) (tracked : Nat)
    (each : ∀ child ∈ handler.children, watch.Follows level place child)
    (once : watch.tally [handler] ≤ 1) (builder : ScopeBuilder) :
    watch.Tracks [(level, place)]
      (walkHandler watch.name watch.importPrefix watch.wrote handler level).1 (watch.tally [handler])
      builder (ScopeBuilder.visitHandler handler place tracked builder).1 := by
  refine .of_fits fun fits => ?_
  have isHere : level.own = true ↔ place = 0 := (fits _ (List.mem_singleton_self _)).own
  have parts : watch.tally handler.children ≤ watch.tally [handler] := tally_children_le handler
  cases handler with
  | exceptHandler info type bound body =>
    simp only [AST.children, List.mem_append] at each
    simp only [AST.children, tally_append] at parts
    have typed := (tracks_markNode place (.exceptHandler info type bound body)).before
      (tracks_visitOpt type (fun child inside => each child (.inl inside))
        (builder.markNode place (.exceptHandler info type bound body))) (by omega)
    have done := tracks_visitBody body tracked (fun child inside => each child (.inr inside)) (by omega)
    simp only [walkHandler, ScopeBuilder.visitHandler]
    cases bound with
    | none =>
      simp only [Option.toList_none, List.map_nil, bindingsIf_nil, Pass.pass_seq, reduceCtorEq,
        and_false, if_false, Pass.seq_pass]
      exact .weaken (typed.seq (done _) (by omega)) parts
    | some bound =>
      simp only [Option.toList_some, List.map_cons, List.map_nil, Option.some.injEq]
      refine .weaken (typed.seq (.seq (tracks_bind isHere bound none _ none none)
        (.seq (done _) (tracks_unbind isHere bound) ?_) ?_) ?_) ?_
      all_goals omega
  | _ =>
    simp only [walkHandler, ScopeBuilder.visitHandler]
    refine .weaken ?_ (Nat.zero_le _)
    exact .quiet fun good _ => .of_scopes good rfl rfl rfl rfl rfl

variable (watch level place tracked) in
/-- Whether the builder goes on behind a handler is whether the handler falls through. -/
theorem visitHandler_falls (handler : AST) (builder : ScopeBuilder) :
    (ScopeBuilder.visitHandler handler place tracked builder).2 =
      (walkHandler watch.name watch.importPrefix watch.wrote handler level).2 := by
  cases handler with
  | exceptHandler info type bound body =>
    cases bound <;> simp only [ScopeBuilder.visitHandler, walkHandler, visitBody_falls]
  | _ => simp only [ScopeBuilder.visitHandler, walkHandler]

/-- The handlers are branches that are gone through from the same bindings. -/
theorem branched_visitHandlers {handlers : List AST}
    (each : ∀ handler ∈ handlers, ∀ child ∈ handler.children, watch.Follows level place child)
    (positive : 0 < tracked) {entry : List Bindings} (nonempty : entry ≠ [])
    {values : Set (Option ν)} (shows : watch.Shows (front watch.name entry) values)
    (ordered : Ordered builder.shapes) (fits : Fits builder level place)
    {branches : List (Pass (Option ν) × Bool)} {count : Nat} {states others : List (List Bindings)}
    (branched : watch.Branched values branches count builder middle states others)
    (known : front watch.name entry ⊆ builder.history watch.name)
    (once : count + watch.tally handlers ≤ 1) :
    watch.Branched values
      (branches ++ walkHandlers watch.name watch.importPrefix watch.wrote handlers level)
      (count + watch.tally handlers) builder
      (ScopeBuilder.visitHandlers handlers place tracked entry middle).1
      (states ++ (ScopeBuilder.visitHandlers handlers place tracked entry middle).2.1)
      (others ++ (ScopeBuilder.visitHandlers handlers place tracked entry middle).2.2) := by
  induction handlers generalizing branches count states others middle with
  | nil =>
    simpa [walkHandlers, ScopeBuilder.visitHandlers, tally_nil] using branched
  | cons handler rest inductionHypothesis =>
    rw [tally_cons] at once ⊢
    have starts := Starts.restored branched.trace.good nonempty
      (List.Subset.trans known branched.trace.grown) shows
    have followed := tracks_visitHandler handler tracked (each handler (List.mem_cons_self ..)) (by omega)
      (middle.restoreStates entry)
    have goesOn := visitHandler_falls watch level place tracked handler (middle.restoreStates entry)
    simp only [walkHandlers, ScopeBuilder.visitHandlers, goesOn]
    generalize walkHandler watch.name watch.importPrefix watch.wrote handler level = walked at *
    obtain ⟨part, falls⟩ := walked
    have stepped := branched.step ordered (by simpa using fits) starts followed (by omega) positive falls
    have later := inductionHypothesis (fun other inside => each other (List.mem_cons_of_mem _ inside))
      stepped (by omega)
    rw [Nat.add_assoc] at later
    cases falls <;> simpa using later

/-! ## The whole statement -/

variable (watch level) in
/-- The body of a `try` statement with its `else` clause. -/
abbrev completed (body orelse : List AST) : Pass (Option ν) × Bool :=
  (walkCompleted watch.name watch.importPrefix watch.wrote body (watch.pathAll orelse level) level,
    statementsFallThrough body)

variable (watch level) in
/-- The pass of a body that is interrupted. -/
abbrev interrupted (body : List AST) : Pass (Option ν) :=
  walkInterrupted watch.name watch.importPrefix watch.wrote body level

variable (watch level) in
/-- The passes of the handlers. -/
abbrev handling (handlers : List AST) : List (Pass (Option ν) × Bool) :=
  walkHandlers watch.name watch.importPrefix watch.wrote handlers level

variable (watch level) in
/-- The body and the handlers as they are entered. -/
abbrev branches (body handlers orelse : List AST) : List (Pass (Option ν) × Bool) :=
  watch.completed level body orelse ::
    entered (watch.interrupted level body) (watch.handling level handlers)

variable (watch level) in
/-- The writes with which a `finally` block is entered. -/
abbrev entries (body handlers orelse : List AST) : Set (Option (Option ν)) :=
  BindingPaths.entries (watch.interrupted level body) (watch.handling level handlers)
    (watch.completed level body orelse)

variable (watch level) in
/-- The paths of a `try` statement. -/
abbrev attempt (body handlers orelse : List AST) (finalbody : Option (Pass (Option ν))) :
    Pass (Option ν) :=
  trying (watch.completed level body orelse) (watch.interrupted level body)
    (watch.handling level handlers) finalbody

variable (watch level) in
/-- What has been gone through before the `finally` block. -/
structure Tried (values : Set (Option ν)) (body handlers orelse : List AST)
    (builder next : ScopeBuilder) (continuing abrupt raised : List (List Bindings)) : Prop where
  trace : watch.Trace
    (fun exit => (exits (watch.branches level body handlers orelse)).after exit values)
    (exits (watch.branches level body handlers orelse)).Leaves
    (watch.tally body + watch.tally orelse + watch.tally handlers) builder next
  continues : watch.Noted next
    (Flow.spread (outputs (watch.branches level body handlers orelse)) values)
    (outputs (watch.branches level body handlers orelse)).Nonempty continuing
  aborts : watch.Noted next
    (Flow.spread (outputs (flipped (entered (watch.interrupted level body)
      (watch.handling level handlers)))) values)
    (outputs (flipped (entered (watch.interrupted level body)
      (watch.handling level handlers)))).Nonempty abrupt
  raises : watch.Noted next
    (Flow.spread {written | watch.handling level handlers = [] ∧
      (watch.interrupted level body).flow .normal written} values)
    {written | watch.handling level handlers = [] ∧
      (watch.interrupted level body).flow .normal written}.Nonempty raised

/-- The `else` clause. -/
theorem tracks_else {orelse : List AST}
    (each : ∀ statement ∈ orelse, watch.Follows level place statement)
    (once : watch.tally orelse ≤ 1) (falls : Bool) (builder : ScopeBuilder) :
    watch.Tracks [(level, place)] (if falls then watch.pathAll orelse level else .pass)
      (watch.tally orelse) builder
      (if falls then ScopeBuilder.visitAll orelse place builder else builder) := by
  cases falls with
  | true => exact tracks_visitAll orelse each once builder
  | false =>
    refine .weaken ?_ (Nat.zero_le _)
    exact .quiet fun good _ => .of_scopes good rfl rfl rfl rfl rfl

/-- The body, the `else` clause and the handlers. -/
theorem tried {body handlers orelse : List AST}
    (eachBody : ∀ statement ∈ body, watch.Follows level place statement)
    (eachElse : ∀ statement ∈ orelse, watch.Follows level place statement)
    (eachHandler : ∀ handler ∈ handlers, ∀ child ∈ handler.children, watch.Follows level place child)
    (once : watch.tally body + watch.tally orelse + watch.tally handlers ≤ 1)
    (good : watch.Good builder) (fits : Fits builder level place) {values : Set (Option ν)}
    (shows : watch.Shows (builder.active watch.name) values) {tracked : Nat} (positive : 0 < tracked)
    {visited : ScopeBuilder} {outputs : List (List Bindings)}
    (bodyVisited : ScopeBuilder.visitBody body place tracked builder =
      (visited, outputs, statementsFallThrough body))
    {handled abrupt : List (List Bindings)}
    (elseVisited : (if statementsFallThrough body then
        ScopeBuilder.visitAll orelse place visited else visited) = middle)
    (handlersVisited : ScopeBuilder.visitHandlers handlers place tracked
      (mergedScopeStates (builder.states tracked :: outputs)) middle = (next, handled, abrupt)) :
    watch.Tried level values body handlers orelse builder next
      ((if statementsFallThrough body then [middle.states tracked] else []) ++ handled) abrupt
      (if handlers.isEmpty then builder.states tracked :: outputs else []) := by
  have positioned : ∀ entry ∈ [(level, place)], Fits builder entry.1 entry.2 := by simpa using fits
  have followed := tracks_visitBody body tracked eachBody (by omega) builder
  have notedBody := noted_visitBody body eachBody (by omega) positive good fits shows
  rw [bodyVisited] at followed notedBody
  have followedElse := tracks_else eachElse (by omega) (statementsFallThrough body) visited
  rw [elseVisited] at followedElse
  have completes := followed.seq followedElse (by omega)
  rw [← walkCompleted_eq] at completes
  obtain ⟨traceBody, showsBody⟩ := followed good positioned values shows
  obtain ⟨traceElse, -⟩ := followedElse traceBody.good
    (fun entry inside => (positioned entry inside).extended good.ordered traceBody.extended) _ showsBody
  obtain ⟨trace, showsMiddle⟩ := completes good positioned values shows
  -- the handlers are entered from the bindings before and behind the statements of the body
  have notedMiddle := notedBody.mono traceElse.grown
  obtain ⟨nonempty, known, showsEntry⟩ := notedMiddle.merged trace.good trivial
  have branched := branched_visitHandlers eachHandler positive nonempty showsEntry trace.good.ordered
    (fits.extended good.ordered trace.extended) (.nil trace.good _) known (by omega)
  simp only [handlersVisited, List.nil_append, Nat.zero_add] at branched
  have grown := branched.trace.grown
  refine ⟨(trace.trans branched.trace once).congr (fun exit noticed value => ?_)
    fun exit noticed => ?_, ?_, ?_, ?_⟩
  · rw [exits_cons, Flow.after_choice, after_exits_entered _ _ _ noticed.early]
  · rw [exits_cons, Flow.leaves_choice, leaves_exits_entered _ _ noticed.early]
  · have noted := branched.noted.of_met (nonempty_outputs_entered (watch.interrupted level body) _).symm
    rw [← spread_outputs_entered] at noted
    rw [outputs_cons]
    exact ((Noted.output trace.good (watch.completed level body orelse).1.total showsMiddle positive
      (statementsFallThrough body)).mono grown).union noted
  · have noted := branched.aborted.of_met
      (nonempty_outputs_entered (watch.interrupted level body) _).symm
    rw [← spread_outputs_entered] at noted
    rw [flipped_entered]
    exact noted
  · cases handlers with
    | nil =>
      have raised := (notedMiddle.mono grown).of_met
        (iff_of_true trivial (watch.interrupted level body).total)
      simp only [walkHandlers, true_and, List.isEmpty_nil, if_true]
      exact raised
    | cons handler rest =>
      refine .unmet _ ?_ ?_
      · simp [Flow.mem_spread, walkHandlers]
      · simp [walkHandlers]

/-- What was recorded below some statements is put back. -/
theorem get_bindingsBelow (builder : ScopeBuilder) (statements : List AST)
    (nodeBindings : Dict Nat (List Binding)) (point : Nat) :
    (nodeBindings.update (builder.bindingsBelow statements)).get point =
      if point ∈ (AST.preorderAll statements).map AST.id then
        (builder.nodeBindings.get point).or (nodeBindings.get point)
      else nodeBindings.get point := by
  have listed : builder.bindingsBelow statements =
      ((AST.preorderAll statements).map AST.id).filterMap fun other =>
        (builder.nodeBindings.get other).map fun bindings => (other, bindings) := by
    rw [List.filterMap_map]
    rfl
  rw [listed, Dict.get_update_filterMap]

section

variable {values : Set (Option ν)} {body handlers orelse : List AST}
  {continuing abrupt raised : List (List Bindings)}
  (tried : watch.Tried level values body handlers orelse builder next continuing abrupt raised)

include tried

/-- A statement without a `finally` block. -/
theorem Tried.joined (once : watch.tally body + watch.tally orelse + watch.tally handlers ≤ 1)
    {incoming : List Bindings} (nonempty : incoming ≠ [])
    (known : front watch.name incoming ⊆ builder.history watch.name)
    (shows : watch.Shows (front watch.name incoming) values) :
    watch.Trace
        (fun exit => (watch.attempt level body handlers orelse none).flow.after exit values)
        (watch.attempt level body handlers orelse none).flow.Leaves
        (watch.tally body + watch.tally orelse + watch.tally handlers) builder
        (next.joinOutputs incoming continuing) ∧
      watch.Shows ((next.joinOutputs incoming continuing).active watch.name)
        ((watch.attempt level body handlers orelse none).flow.after .normal values) := by
  have starts := Starts.joined tried.trace.good tried.continues nonempty
    (List.Subset.trans known tried.trace.grown) shows
  refine ⟨(tried.trace.starts starts once).congr (fun exit noticed value => ?_)
    fun exit noticed => ?_, ?_⟩
  · rw [attempt, trying, Pass.after_aside_joined _ _ noticed.early]
  · rw [attempt, trying, Pass.leaves_aside_joined _ _ noticed.early]
  · rw [attempt, trying, Pass.after_aside_normal]
    exact starts.shows

/-- The bindings with which a `finally` block is entered. -/
theorem Tried.entering :
    watch.Starts
      ((Pass.joined (watch.entries level body handlers orelse)).flow.after .normal values)
      next (next.restoreStates (mergedScopeStates (continuing ++ abrupt ++ raised))) := by
  have nonempty := nonempty_entries (watch.interrupted level body) (watch.handling level handlers)
    (watch.completed level body orelse)
  rw [Pass.after_joined nonempty]
  exact .merged tried.trace.good ((tried.continues.union tried.aborts).union tried.raises) nonempty

/-- The ways out of a statement with a `finally` block. -/
theorem Tried.trace_finally {finalbody : Pass (Option ν)} {count : Nat} {last : ScopeBuilder}
    (final : watch.Trace (fun exit => finalbody.flow.after exit
        ((Pass.joined (watch.entries level body handlers orelse)).flow.after .normal values))
      finalbody.flow.Leaves count next last)
    (once : watch.tally body + watch.tally orelse + watch.tally handlers + count ≤ 1) :
    watch.Trace
      (fun exit => (watch.attempt level body handlers orelse (some finalbody)).flow.after exit values)
      (watch.attempt level body handlers orelse (some finalbody)).flow.Leaves
      (watch.tally body + watch.tally orelse + watch.tally handlers + count) builder last := by
  refine (tried.trace.trans final once).congr (fun exit noticed value => ?_) fun exit noticed => ?_
  · rw [attempt, trying, Pass.after_aside_joined _ _ noticed.early, Flow.after_choice,
      Pass.after_seq_late _ noticed.early (Pass.not_joined noticed.early)]
  · rw [attempt, trying, Pass.leaves_aside_joined _ _ noticed.early, Flow.leaves_choice,
      Pass.leaves_seq_late _ noticed.early (Pass.not_joined noticed.early)]

/-- A statement with a `finally` block behind which control does not go on. -/
theorem Tried.left {finalbody : List AST}
    (each : ∀ statement ∈ finalbody, watch.Follows level place statement)
    (once : watch.tally body + watch.tally orelse + watch.tally handlers + watch.tally finalbody ≤ 1)
    (good : watch.Good builder) (fits : Fits builder level place) (nothing : continuing = []) :
    watch.Trace
        (fun exit => (watch.attempt level body handlers orelse
          (some (watch.pathAll finalbody level))).flow.after exit values)
        (watch.attempt level body handlers orelse (some (watch.pathAll finalbody level))).flow.Leaves
        (watch.tally body + watch.tally orelse + watch.tally handlers + watch.tally finalbody) builder
        (ScopeBuilder.visitAll finalbody place
          (next.restoreStates (mergedScopeStates (continuing ++ abrupt ++ raised)))) ∧
      watch.Shows
        ((ScopeBuilder.visitAll finalbody place
          (next.restoreStates (mergedScopeStates (continuing ++ abrupt ++ raised)))).active watch.name)
        ((watch.attempt level body handlers orelse
          (some (watch.pathAll finalbody level))).flow.after .normal values) := by
  have starts := tried.entering
  have placed := fits.extended good.ordered (tried.trace.extended.trans starts.trace.extended)
  obtain ⟨trace, shows⟩ := tracks_visitAll finalbody each (by omega) _ starts.trace.good
    (by simpa using placed) _ starts.shows
  have stuck : outputs (watch.branches level body handlers orelse) = ∅ := by
    rw [← Set.not_nonempty_iff_eq_empty]
    exact fun some => tried.continues.met_iff.mpr some nothing
  refine ⟨tried.trace_finally (starts.trace_trans trace (by omega)) once, ?_⟩
  rw [attempt, trying, Pass.after_aside_normal]
  simp only [stuck, Set.not_nonempty_empty, false_and, false_or, true_and]
  rw [Pass.after_joined_normal, Pass.after_seq_normal]
  exact shows

/-- A statement with a `finally` block behind which control goes on: the block is gone through
again from the bindings with which it does, and what was recorded at first is kept. -/
theorem Tried.passed {finalbody : List AST}
    (each : ∀ statement ∈ finalbody, watch.Follows level place statement)
    (once : watch.tally body + watch.tally orelse + watch.tally handlers + watch.tally finalbody ≤ 1)
    (good : watch.Good builder) (fits : Fits builder level place) (going : continuing ≠ [])
    {first second : ScopeBuilder}
    (visited : first = ScopeBuilder.visitAll finalbody place
      (next.restoreStates (mergedScopeStates (continuing ++ abrupt ++ raised))))
    (visitedAgain : second = ScopeBuilder.visitAll finalbody place
      (first.restoreStates (mergedScopeStates continuing))) :
    watch.Trace
        (fun exit => (watch.attempt level body handlers orelse
          (some (watch.pathAll finalbody level))).flow.after exit values)
        (watch.attempt level body handlers orelse (some (watch.pathAll finalbody level))).flow.Leaves
        (watch.tally body + watch.tally orelse + watch.tally handlers + watch.tally finalbody) builder
        { second with
          nodeBindings := second.nodeBindings.update (first.bindingsBelow finalbody) } ∧
      watch.Shows (second.active watch.name)
        ((watch.attempt level body handlers orelse
          (some (watch.pathAll finalbody level))).flow.after .normal values) := by
  have goesOn : (outputs (watch.branches level body handlers orelse)).Nonempty :=
    tried.continues.met_iff.mp going
  have starts := tried.entering
  have placed := fits.extended good.ordered (tried.trace.extended.trans starts.trace.extended)
  obtain ⟨trace, -⟩ := tracks_visitAll finalbody each (by omega) _ starts.trace.good
    (by simpa using placed) _ starts.shows
  rw [← visited] at trace
  have traceFirst := starts.trace_trans trace (by omega)
  have restarts := Starts.merged traceFirst.good (tried.continues.mono traceFirst.grown) goesOn
  rw [← Pass.after_joined goesOn] at restarts
  have placedAgain := fits.extended good.ordered ((tried.trace.extended.trans traceFirst.extended).trans
    restarts.trace.extended)
  obtain ⟨traceAgain, showsAgain⟩ := tracks_visitAll finalbody each (by omega) _ restarts.trace.good
    (by simpa using placedAgain) _ restarts.shows
  rw [← visitedAgain] at traceAgain showsAgain
  have found := get_bindingsBelow first finalbody second.nodeBindings watch.load
  have kept : (second.nodeBindings.update (first.bindingsBelow finalbody)).get watch.load =
        second.nodeBindings.get watch.load ∨
      (second.nodeBindings.update (first.bindingsBelow finalbody)).get watch.load =
        first.nodeBindings.get watch.load := by
    rw [found]
    split
    · cases first.nodeBindings.get watch.load with
      | none => exact .inl rfl
      | some bindings => exact .inr rfl
    · exact .inl rfl
  have recorded (met : watch.tally finalbody ≠ 0) :
      (second.nodeBindings.update (first.bindingsBelow finalbody)).get watch.load =
        (first.nodeBindings.get watch.load).or (second.nodeBindings.get watch.load) := by
    obtain ⟨node, inside, same⟩ := List.countP_pos_iff.mp (Nat.pos_of_ne_zero met)
    have listed : watch.load ∈ (AST.preorderAll finalbody).map AST.id :=
      List.mem_map.mpr ⟨node, inside, by simpa using same⟩
    rw [found, if_pos listed]
  have final := traceFirst.again (restarts.trace_trans traceAgain (by omega))
    (fun exit value inside => Flow.after_mono _ exit
      (Pass.after_joined_mono goesOn (Set.subset_union_left.trans Set.subset_union_left)) inside)
    (fun exit => id) ⟨second.nodeBindings.update (first.bindingsBelow finalbody), rfl⟩ kept recorded
  refine ⟨tried.trace_finally final once, ?_⟩
  rw [attempt, trying, Pass.after_aside_normal]
  simp only [goesOn, goesOn.ne_empty, true_and, false_and, or_false]
  rw [Pass.after_joined_normal, Pass.after_seq_normal]
  exact showsAgain

end

/-- `_visit_try`. -/
theorem follows_tryStmt {info : Info} {isStar : Bool} {body handlers orelse finalbody : List AST}
    (eachBody : ∀ statement ∈ body, watch.Follows level place statement)
    (eachHandler : ∀ handler ∈ handlers, ∀ child ∈ handler.children, watch.Follows level place child)
    (eachElse : ∀ statement ∈ orelse, watch.Follows level place statement)
    (eachFinal : ∀ statement ∈ finalbody, watch.Follows level place statement)
    (once : watch.tally [.tryStmt info isStar body handlers orelse finalbody] ≤ 1) :
    watch.Follows level place (.tryStmt info isStar body handlers orelse finalbody) := by
  intro builder
  have parts : watch.tally (AST.children (.tryStmt info isStar body handlers orelse finalbody)) ≤ _ :=
    tally_children_le _
  simp only [AST.children, tally_append] at parts
  have rearranged : watch.tally body + watch.tally orelse + watch.tally handlers +
      watch.tally finalbody ≤ watch.tally [.tryStmt info isStar body handlers orelse finalbody] := by
    omega
  refine .weaken ?_ rearranged
  simp only [path, walk, ScopeBuilder.visit]
  refine .before (tracks_markNode place (.tryStmt info isStar body handlers orelse finalbody)) ?_
    (by omega)
  generalize builder.markNode place (.tryStmt info isStar body handlers orelse finalbody) = marked
  intro good fits values shows
  have placed := fits _ (List.mem_singleton_self _)
  have positive := List.length_pos_of_ne_nil good.scopes_ne_nil
  obtain ⟨nonempty, known, showsIncoming⟩ := good.incoming shows
  have sameFalls := visitBody_falls body place marked.scopes.length marked
  generalize bodyVisited : ScopeBuilder.visitBody body place marked.scopes.length marked = visit at *
  obtain ⟨visited, outputs, falls⟩ := visit
  obtain rfl : falls = statementsFallThrough body := sameFalls
  generalize elseVisited : (if statementsFallThrough body then
    ScopeBuilder.visitAll orelse place visited else visited) = middle at *
  generalize handlersVisited : ScopeBuilder.visitHandlers handlers place marked.scopes.length
    (mergedScopeStates (marked.states marked.scopes.length :: outputs)) middle = visits at *
  obtain ⟨next, handled, abrupt⟩ := visits
  have tried := tried eachBody eachElse eachHandler (by omega) good placed shows positive bodyVisited
    elseVisited handlersVisited
  generalize (if statementsFallThrough body then [middle.states marked.scopes.length] else []) ++
    handled = continuing at *
  cases finalbody with
  | nil =>
    have joined := tried.joined (by omega) nonempty known showsIncoming
    simpa [tally_nil] using joined
  | cons first rest =>
    simp only [List.isEmpty_cons, Bool.false_eq_true, if_false]
    split
    · rename_i nothing
      exact tried.left eachFinal (by omega) good placed (List.isEmpty_iff.mp nothing)
    · rename_i going
      exact tried.passed eachFinal (by omega) good placed (by simpa using going) rfl rfl

end Watch

end VirtTestTools.Policy
