import VirtTestTools.Policy.BindingSteps

/-!
# Loops, exceptions and functions in the scope builder

The visitors of loops, `try` statements and function bodies put together what the parts of a
statement do. Each is shown to follow the pass of the statement when its parts follow theirs.
-/

namespace VirtTestTools.Policy

open BindingPaths

namespace Watch

variable {ν : Type} {watch : Watch ν} {places : List (Level × Nat)}
  {builder middle next : ScopeBuilder}

variable (watch) in
/-- The next state is the same but for the active bindings, which show the given values. -/
structure Starts (values : Set (Option ν)) (builder next : ScopeBuilder) : Prop where
  trace : watch.Trace (fun _ => ∅) (fun _ => False) 0 builder next
  shows : watch.Shows (next.active watch.name) values

/-- A good builder starts with what it shows. -/
theorem Starts.refl (good : watch.Good builder) {values : Set (Option ν)}
    (shows : watch.Shows (builder.active watch.name) values) : watch.Starts values builder builder :=
  ⟨.empty good ⟨List.prefix_rfl, good.ordered⟩ (List.Subset.refl _) rfl rfl (by simp) (by simp), shows⟩

/-- A builder starts again with restored states. -/
theorem Starts.restored (good : watch.Good builder) {states : List Bindings} (nonempty : states ≠ [])
    (known : front watch.name states ⊆ builder.history watch.name) {values : Set (Option ν)}
    (shows : watch.Shows (front watch.name states) values) :
    watch.Starts values builder (builder.restoreStates states) := by
  refine ⟨good.trace_restored nonempty known (by simp) (by simp), ?_⟩
  rw [ScopeBuilder.active_restoreStates _ _ nonempty good.scopes_ne_nil]
  exact shows

/-- Merged states show what the states show together. -/
theorem Noted.merged {states : List (List Bindings)} {values : Set (Option ν)} {met : Prop}
    (noted : watch.Noted builder values met states) (good : watch.Good builder) (isMet : met) :
    mergedScopeStates states ≠ [] ∧
      front watch.name (mergedScopeStates states) ⊆ builder.history watch.name ∧
        watch.Shows (front watch.name (mergedScopeStates states)) values := by
  have inFront := mem_front_mergedScopeStates watch.name good.keyed noted.nonempty noted.known
  refine ⟨?_, fun binding inside => ?_, fun value => ?_⟩
  · obtain ⟨first, rest, rfl⟩ := List.exists_cons_of_ne_nil (noted.met_iff.mpr isMet)
    simpa [mergedScopeStates] using noted.nonempty first (List.mem_cons_self ..)
  · obtain ⟨state, stateInside, here⟩ := (inFront binding).mp inside
    exact noted.known state stateInside here
  · rw [noted.shown]
    constructor
    · rintro ⟨state, stateInside, binding, here, seen⟩
      exact ⟨binding, (inFront binding).mpr ⟨state, stateInside, here⟩, seen⟩
    · rintro ⟨binding, inside, seen⟩
      obtain ⟨state, stateInside, here⟩ := (inFront binding).mp inside
      exact ⟨state, stateInside, binding, here, seen⟩

/-- A builder starts again with merged states. -/
theorem Starts.merged (good : watch.Good builder) {states : List (List Bindings)}
    {values : Set (Option ν)} {met : Prop} (noted : watch.Noted builder values met states)
    (isMet : met) : watch.Starts values builder (builder.restoreStates (mergedScopeStates states)) := by
  obtain ⟨nonempty, known, shows⟩ := noted.merged good isMet
  exact .restored good nonempty known shows

/-- Control goes on behind branches with their merged outputs, or with the incoming bindings if
there are none. -/
theorem Starts.joined (good : watch.Good builder) {writes : Set (Option (Option ν))}
    {values : Set (Option ν)} {outputs : List (List Bindings)}
    (noted : watch.Noted builder (Flow.spread writes values) writes.Nonempty outputs)
    {incoming : List Bindings} (nonempty : incoming ≠ [])
    (known : front watch.name incoming ⊆ builder.history watch.name)
    (shows : watch.Shows (front watch.name incoming) values) :
    watch.Starts ((Pass.joined writes).flow.after .normal values) builder
      (builder.joinOutputs incoming outputs) := by
  unfold ScopeBuilder.joinOutputs
  by_cases some : writes.Nonempty
  · have listed : outputs ≠ [] := noted.met_iff.mpr some
    rw [if_neg (by simpa using listed), Pass.after_joined some]
    exact .merged good noted some
  · have nothing : outputs = [] := by
      by_contra listed
      exact some (noted.met_iff.mp listed)
    rw [if_pos (by simp [nothing]), Set.not_nonempty_iff_eq_empty.mp some,
      Pass.after_joined_empty]
    exact .restored good nonempty known shows

/-- A stretch after the active bindings were set. -/
theorem Starts.trace_trans {values : Set (Option ν)} {after : Exit → Set (Option ν)}
    {met : Exit → Prop} {count : Nat} (starts : watch.Starts values builder middle)
    (trace : watch.Trace after met count middle next) (once : count ≤ 1) :
    watch.Trace after met count builder next := by
  have both := starts.trace.trans trace (by omega)
  rw [Nat.zero_add] at both
  exact both.congr (by simp) (by simp)

/-- Setting the active bindings behind a stretch. -/
theorem Trace.starts {values : Set (Option ν)} {after : Exit → Set (Option ν)}
    {met : Exit → Prop} {count : Nat} (trace : watch.Trace after met count builder middle)
    (starts : watch.Starts values middle next) (once : count ≤ 1) :
    watch.Trace after met count builder next := by
  have both := trace.trans starts.trace (by omega)
  exact both.congr (by simp) (by simp)

/-- The states behind one more branch, if control goes on there. -/
theorem Noted.outputs_append {values : Set (Option ν)} {branches : List (Pass (Option ν) × Bool)}
    {states : List (List Bindings)}
    (noted : watch.Noted builder (Flow.spread (outputs branches) values) (outputs branches).Nonempty
      states) (good : watch.Good builder) {part : Pass (Option ν)}
    (shows : watch.Shows (builder.active watch.name) (part.flow.after .normal values)) {tracked : Nat}
    (positive : 0 < tracked) (falls : Bool) :
    watch.Noted builder (Flow.spread (outputs (branches ++ [(part, falls)])) values)
      (outputs (branches ++ [(part, falls)])).Nonempty
      (states ++ if falls then [builder.states tracked] else []) := by
  cases falls with
  | false =>
    rw [outputs_append_abrupt]
    simpa using noted
  | true =>
    have appended := noted.append (Noted.single good shows positive rfl)
    refine ⟨?_, ?_, appended.nonempty, appended.known⟩
    · simp [nonempty_outputs]
    · rw [spread_outputs_append]
      exact appended.shown

variable (watch) in
/-- Branches have been gone through, each from the same values. -/
structure Branched (values : Set (Option ν)) (branches : List (Pass (Option ν) × Bool)) (count : Nat)
    (builder next : ScopeBuilder) (states others : List (List Bindings)) : Prop where
  trace : watch.Trace (fun exit => (exits branches).after exit values) (exits branches).Leaves count
    builder next
  noted : watch.Noted next (Flow.spread (outputs branches) values) (outputs branches).Nonempty states
  aborted : watch.Noted next (Flow.spread (outputs (flipped branches)) values)
    (outputs (flipped branches)).Nonempty others

/-- Without branches nothing happens. -/
theorem Branched.nil (good : watch.Good builder) (values : Set (Option ν)) :
    watch.Branched values [] 0 builder builder [] [] where
  trace := .empty good ⟨List.prefix_rfl, good.ordered⟩ (List.Subset.refl _) rfl rfl
    (by simp [Flow.mem_after, exits]) (by simp [Flow.Leaves, exits])
  noted := .unmet _ (by simp [Flow.mem_spread, outputs]) (by simp [outputs])
  aborted := .unmet _ (by simp [Flow.mem_spread, outputs, flipped]) (by simp [outputs, flipped])

/-- One more branch is gone through. -/
theorem Branched.step {values : Set (Option ν)} {branches : List (Pass (Option ν) × Bool)}
    {count more tracked : Nat} {states others : List (List Bindings)} {started : ScopeBuilder}
    {part : Pass (Option ν)}
    (branched : watch.Branched values branches count builder middle states others)
    (ordered : Ordered builder.shapes) (fits : ∀ entry ∈ places, Fits builder entry.1 entry.2)
    (starts : watch.Starts values middle started)
    (tracks : watch.Tracks places part more started next) (once : count + more ≤ 1)
    (positive : 0 < tracked) (falls : Bool) :
    watch.Branched values (branches ++ [(part, falls)]) (count + more) builder next
      (states ++ if falls then [next.states tracked] else [])
      (others ++ if falls then [] else [next.states tracked]) := by
  have extended := branched.trace.extended.trans starts.trace.extended
  obtain ⟨trace, shows⟩ := tracks starts.trace.good
    (fun entry inside => (fits entry inside).extended ordered extended) values starts.shows
  have both := branched.trace.trans (starts.trace_trans trace (by omega)) once
  have grown := List.Subset.trans starts.trace.grown trace.grown
  refine ⟨both.congr (fun exit _ value => ?_) fun exit _ => ?_, ?_, ?_⟩
  · rw [after_exits_append]
  · rw [leaves_exits_append]
  · exact (branched.noted.mono grown).outputs_append trace.good shows positive falls
  · have aborted := (branched.aborted.mono grown).outputs_append trace.good shows positive !falls
    have turned : flipped (branches ++ [(part, falls)]) = flipped branches ++ [(part, !falls)] := by
      simp [flipped]
    rw [turned]
    cases falls <;> exact aborted

/-- The incoming bindings as a further output. -/
theorem Noted.skipping {values : Set (Option ν)} {writes : Set (Option (Option ν))}
    {states : List (List Bindings)} {incoming : List Bindings}
    (noted : watch.Noted builder (Flow.spread writes values) writes.Nonempty states)
    (nonempty : incoming ≠ []) (known : front watch.name incoming ⊆ builder.history watch.name)
    (shows : watch.Shows (front watch.name incoming) values) (skipped : Bool) :
    watch.Noted builder
      (Flow.spread {written | (skipped = true ∧ written = none) ∨ written ∈ writes} values)
      {written | (skipped = true ∧ written = none) ∨ written ∈ writes}.Nonempty
      ((if skipped then [incoming] else []) ++ states) := by
  cases skipped with
  | false => simpa using noted
  | true =>
    refine ⟨?_, fun value => ?_, ?_, ?_⟩
    · simp only [if_true, List.singleton_append, ne_eq, reduceCtorEq, not_false_eq_true, true_iff]
      exact ⟨none, by simp⟩
    · have old := noted.shown value
      rw [Flow.mem_spread] at old ⊢
      simp only [if_true, List.singleton_append, List.mem_cons, exists_eq_or_imp, ← old,
        ← shows value]
      simp only [Set.mem_ofPred_eq, reduceCtorEq, false_or, true_and, true_or, and_true]
      tauto
    · simpa [nonempty] using noted.nonempty
    · simpa [known] using noted.known

/-- Behind the branches control goes on. -/
theorem Branched.joined {values : Set (Option ν)} {branches : List (Pass (Option ν) × Bool)}
    {count : Nat} {states others : List (List Bindings)} {incoming : List Bindings}
    (branched : watch.Branched values branches count builder middle states others)
    (once : count ≤ 1)
    (nonempty : incoming ≠ []) (known : front watch.name incoming ⊆ builder.history watch.name)
    (shows : watch.Shows (front watch.name incoming) values) (skipped : Bool) :
    watch.Trace (fun exit => (branching skipped branches).flow.after exit values)
        (branching skipped branches).flow.Leaves count builder
        (middle.joinOutputs incoming ((if skipped then [incoming] else []) ++ states)) ∧
      watch.Shows
        ((middle.joinOutputs incoming ((if skipped then [incoming] else []) ++ states)).active
          watch.name)
        ((branching skipped branches).flow.after .normal values) := by
  have knownThen := List.Subset.trans known branched.trace.grown
  have starts := Starts.joined branched.trace.good
    (branched.noted.skipping nonempty knownThen shows skipped) nonempty knownThen shows
  refine ⟨(branched.trace.starts starts once).congr (fun exit noticed value => ?_)
    fun exit noticed => ?_, ?_⟩
  · rw [branching, Pass.after_aside_joined _ _ noticed.early]
  · rw [branching, Pass.leaves_aside_joined _ _ noticed.early]
  · rw [branching, Pass.after_aside_normal]
    exact starts.shows

/-- States of two kinds of writes. -/
theorem Noted.union {values : Set (Option ν)} {writes more : Set (Option (Option ν))}
    {states others : List (List Bindings)}
    (noted : watch.Noted builder (Flow.spread writes values) writes.Nonempty states)
    (notedMore : watch.Noted builder (Flow.spread more values) more.Nonempty others) :
    watch.Noted builder (Flow.spread (writes ∪ more) values) (writes ∪ more).Nonempty
      (states ++ others) := by
  rw [Flow.spread_union, Set.union_nonempty]
  exact noted.append notedMore

/-- The states of a way out, by the writes of this way. -/
theorem Noted.of_flow {flow : Flow (Option ν)} {exit : Exit} {values : Set (Option ν)}
    {states : List (List Bindings)}
    (noted : watch.Noted builder (flow.after exit values) (flow.Leaves exit) states) :
    watch.Noted builder (Flow.spread {written | flow exit written} values)
      {written | flow exit written}.Nonempty states :=
  noted

/-- The incoming states. -/
theorem Noted.incoming {values : Set (Option ν)} {states : List Bindings} (nonempty : states ≠ [])
    (known : front watch.name states ⊆ builder.history watch.name)
    (shows : watch.Shows (front watch.name states) values) :
    watch.Noted builder (Flow.spread {none} values) ({none} : Set (Option (Option ν))).Nonempty
      [states] where
  met_iff := by simp
  shown value := by
    rw [Flow.mem_spread]
    simpa using shows value
  nonempty := by simpa using nonempty
  known := by simpa using known

/-- The state behind a part, if control goes on there. -/
theorem Noted.output (good : watch.Good builder) {part : Flow (Option ν)} {values : Set (Option ν)}
    (total : part.Leaves .normal)
    (shows : watch.Shows (builder.active watch.name) (part.after .normal values)) {tracked : Nat}
    (positive : 0 < tracked) (falls : Bool) :
    watch.Noted builder
      (Flow.spread {written | falls = true ∧ part .normal written} values)
      {written | falls = true ∧ part .normal written}.Nonempty
      (if falls then [builder.states tracked] else []) := by
  cases falls with
  | false => exact .unmet _ (by simp [Flow.mem_spread]) (by simp)
  | true =>
    have single := Noted.single good shows positive rfl
    refine ⟨?_, ?_, single.nonempty, single.known⟩
    · obtain ⟨written, on⟩ := total
      simp only [if_true, ne_eq, List.cons_ne_self, not_false_eq_true, true_iff, true_and]
      exact ⟨written, on⟩
    · simpa [Flow.mem_spread, Flow.mem_after] using single.shown

/-! ## Loops -/

/-- A builder in a loop is good. -/
theorem Good.enterLoop (good : watch.Good builder) : watch.Good builder.enterLoop where
  root := good.root
  ordered := good.ordered
  undeclared := good.undeclared
  keyed := good.keyed
  made := good.made
  started := good.started
  known := good.known
  tracked exits inside := by
    obtain rfl | old := List.mem_cons.mp inside
    · exact List.length_pos_of_ne_nil good.scopes_ne_nil
    · exact good.tracked exits old
  named := good.named

/-- Behind the body of a loop: what was noted at the exits of the loop, and the loop is left. -/
theorem Trace.popped {round : Flow (Option ν)} {values : Set (Option ν)} {count : Nat}
    (trace : watch.Trace (fun exit => round.after exit values) round.Leaves count builder.enterLoop
      next) :
    ∃ breaks continues,
      next.loopExits.head?.getD { trackedScopes := builder.scopes.length } =
          { trackedScopes := builder.scopes.length, breakOutputs := breaks
            continueOutputs := continues } ∧
        watch.Noted { next with loopExits := next.loopExits.tail } (round.after .breaks values)
          (round.Leaves .breaks) breaks ∧
        watch.Noted { next with loopExits := next.loopExits.tail } (round.after .continues values)
          (round.Leaves .continues) continues ∧
        watch.Trace (fun exit => (throughLoop round).after exit values) (throughLoop round).Leaves
          count builder { next with loopExits := next.loopExits.tail } := by
  obtain ⟨breaks, continues, left, notedBreaks, notedContinues⟩ :=
    trace.exits { trackedScopes := builder.scopes.length } builder.loopExits rfl
  have good := trace.good
  refine ⟨breaks, continues, by simp [left], ⟨notedBreaks.met_iff, notedBreaks.shown,
    notedBreaks.nonempty, notedBreaks.known⟩, ⟨notedContinues.met_iff, notedContinues.shown,
    notedContinues.nonempty, notedContinues.known⟩, ?_⟩
  have unseen (exit : Exit) (isLoopExit : exit = .breaks ∨ exit = .continues)
      (written : Option (Option ν)) : ¬throughLoop round exit written := by
    rintro ⟨noBreak, noContinue, -⟩
    exact isLoopExit.elim noBreak noContinue
  have observed : (throughLoop round).after (.observed watch.load) values =
      round.after (.observed watch.load) values := by
    ext value
    rw [Flow.mem_after, Flow.mem_after]
    simp [throughLoop]
  refine ⟨?_, trace.extended, trace.grown, trace.unrecorded, ?_, ?_, ?_, ?_⟩
  · refine ⟨good.root, good.ordered, good.undeclared, good.keyed, good.made, good.started, good.known,
      fun exits inside => ?_, good.named⟩
    exact good.tracked exits (List.mem_of_mem_tail inside)
  · rw [observed]
    exact trace.silent
  · rw [observed]
    exact trace.record
  · intro outside
    simp [left, outside]
  · intro head outer listed
    refine ⟨[], [], by simp [left, listed], ?_, ?_⟩
    · exact .unmet _ (fun value inside => inside.elim (unseen _ (.inl rfl) _)
        fun kept => unseen _ (.inl rfl) _ kept.2) fun leaves => leaves.elim (unseen _ (.inl rfl))
    · exact .unmet _ (fun value inside => inside.elim (unseen _ (.inr rfl) _)
        fun kept => unseen _ (.inr rfl) _ kept.2) fun leaves => leaves.elim (unseen _ (.inr rfl))

/-- The bindings that come into a statement. -/
theorem Good.incoming (good : watch.Good builder) {values : Set (Option ν)}
    (shows : watch.Shows (builder.active watch.name) values) :
    builder.states builder.scopes.length ≠ [] ∧
      front watch.name (builder.states builder.scopes.length) ⊆ builder.history watch.name ∧
        watch.Shows (front watch.name (builder.states builder.scopes.length)) values := by
  have positive := List.length_pos_of_ne_nil good.scopes_ne_nil
  rw [builder.front_states watch.name positive]
  exact ⟨builder.states_ne_nil positive good.scopes_ne_nil, good.known, shows⟩

/-- Two lists of noted states describe the writes of a turn. -/
theorem turned_writes (round : Pass (Option ν)) (falls : Bool) :
    {written | written = none ∨ round.flow .continues written ∨
        (falls = true ∧ round.flow .normal written)} =
      {none} ∪ {written | round.flow .continues written} ∪
        {written | falls = true ∧ round.flow .normal written} := by
  ext written
  simp [or_assoc]

/-- The states behind the body of a loop. -/
theorem leaveLoop_eq {visited : ScopeBuilder} {tracked : Nat} {breaks continues : List (List Bindings)}
    (exits : visited.loopExits.head?.getD { trackedScopes := tracked } =
      { trackedScopes := tracked, breakOutputs := breaks, continueOutputs := continues })
    (incoming : List Bindings) (body : List AST) :
    visited.leaveLoop tracked incoming body =
      (({ visited with loopExits := visited.loopExits.tail } : ScopeBuilder).restoreStates
        (mergedScopeStates ([incoming] ++ continues ++
          if statementsFallThrough body then
            [({ visited with loopExits := visited.loopExits.tail } : ScopeBuilder).states tracked]
          else [])), breaks) := by
  simp only [ScopeBuilder.leaveLoop, exits, ScopeBuilder.branchOutput, List.cons_append,
    List.nil_append]

/-- `_visit_loop` follows the pass of the loop. -/
theorem tracks_loop {round orelse : Pass (Option ν)} {count more : Nat} {visited : ScopeBuilder}
    {body orelseBody : List AST}
    (first : watch.Tracks places round count builder.enterLoop visited)
    (rest : watch.Tracks places orelse more
      (visited.leaveLoop builder.scopes.length (builder.states builder.scopes.length) body).1 next)
    (once : count + more ≤ 1) :
    watch.Tracks places
      (looping round (statementsFallThrough body) orelse (statementsFallThrough orelseBody))
      (count + more) builder
      (next.joinOutputs (builder.states builder.scopes.length)
        ((visited.leaveLoop builder.scopes.length (builder.states builder.scopes.length) body).2 ++
          next.branchOutput builder.scopes.length orelseBody)) := by
  intro good fits values shows
  have positive := List.length_pos_of_ne_nil good.scopes_ne_nil
  obtain ⟨nonempty, known, showsIncoming⟩ := good.incoming shows
  obtain ⟨trace, showsVisited⟩ := first good.enterLoop
    (fun entry inside => (fits entry inside).extended good.ordered ⟨List.prefix_rfl, good.ordered⟩)
    values shows
  obtain ⟨breaks, continues, exits, notedBreaks, notedContinues, popped⟩ := trace.popped
  -- no round, a round that is continued, or a whole round
  have turning := ((Noted.incoming nonempty (List.Subset.trans known popped.grown)
    showsIncoming).union notedContinues.of_flow).union
      (Noted.output popped.good round.total showsVisited positive (statementsFallThrough body))
  rw [← turned_writes] at turning
  have turns := Starts.merged popped.good turning ⟨none, .inl rfl⟩
  rw [← Pass.after_joined ⟨none, .inl rfl⟩] at turns
  rw [leaveLoop_eq exits] at rest ⊢
  obtain ⟨traceElse, showsNext⟩ := rest turns.trace.good (fun entry inside =>
    (fits entry inside).extended good.ordered (popped.extended.trans turns.trace.extended)) _ turns.shows
  have both := popped.trans (turns.trace_trans traceElse (by omega)) once
  -- a round that is broken, or the `else` clause
  have whole := @Pass.after_seq_normal _ values (turned round (statementsFallThrough body)) orelse
  have leaving := (notedBreaks.mono (List.Subset.trans turns.trace.grown traceElse.grown)).of_flow.union
    (Noted.output traceElse.good
      ((turned round (statementsFallThrough body)).seq orelse).total (by rw [whole]; exact showsNext)
      positive (statementsFallThrough orelseBody))
  have starts := Starts.joined traceElse.good leaving nonempty
    (List.Subset.trans known both.grown) showsIncoming
  refine ⟨(both.starts starts once).congr (fun exit noticed value => ?_) fun exit noticed => ?_, ?_⟩
  · rw [looping, Pass.after_aside_joined _ _ noticed.early, Flow.after_choice, turned,
      Pass.after_seq_late _ noticed.early (Pass.not_joined noticed.early)]
  · rw [looping, Pass.leaves_aside_joined _ _ noticed.early, Flow.leaves_choice, turned,
      Pass.leaves_seq_late _ noticed.early (Pass.not_joined noticed.early)]
  · rw [looping, Pass.after_aside_normal]
    exact starts.shows

end Watch

end VirtTestTools.Policy
