import VirtTestTools.Scans
import VirtTestTools.UnifiedDiff
import VirtTestTools.Analyzer.Symbols

/-!
# Attribution of diff lines to functions

`_parse_diff_for_functions` names the modified functions of a conftest from the
hunk headings and the definition lines it happens to see. Its lines are reduced
to events; the events of one hunk determine which names it contributes. A
definition line counts when it is changed itself, or when it is context behind a
changed decorator. Other context definitions are passed over, so that a change
below one of them is attributed to the function of the heading, if to any.
-/

namespace VirtTestTools.Analyzer

open Text

/-- What a line of a diff means to the scan. -/
inductive DiffEvent
  | heading (function : Option String)
  | changedDef (function : String)
  | contextDef (function : String)
  | decorator
  | otherChange
  | ignored
deriving DecidableEq

/-- The event of a line. Blank and comment changes are ignored. -/
def eventOf (unicode : Unicode) (line : Text) : DiffEvent :=
  if startsWith "@@".toList line then .heading (headingFunction unicode line)
  else if isChange line then
    let stripped := strip (line.drop 1)
    if stripped.isEmpty || startsWith ['#'] stripped then .ignored
    else
      match matchDef unicode stripped with
      | some name => .changedDef name
      | none => if startsWith ['@'] stripped then .decorator else .otherChange
  else if startsWith [' '] line then
    match matchDef unicode (strip (line.drop 1)) with
    | some name => .contextDef name
    | none => .ignored
  else .ignored

/-- The scan of one event. -/
def FunctionScan.stepEvent (state : FunctionScan) : DiffEvent → FunctionScan
  | .heading function =>
    { modified := state.record (state.hasChangesInFunction || state.pendingDecoratorChange)
      currentFunction := function
      hasChangesInFunction := function.isNone && state.hasChangesInFunction
      pendingDecoratorChange := false }
  | .changedDef function => state.enter function
  | .contextDef function => if state.pendingDecoratorChange then state.enter function else state
  | .decorator => { state with pendingDecoratorChange := true }
  | .otherChange => { state with hasChangesInFunction := true, pendingDecoratorChange := false }
  | .ignored => state

/-- The scan of a line is the scan of its event. -/
theorem FunctionScan.step_eq (unicode : Unicode) (state : FunctionScan) (line : Text) :
    state.step unicode line = state.stepEvent (eventOf unicode line) := by
  unfold FunctionScan.step eventOf
  by_cases heading : startsWith "@@".toList line = true
  · simp only [heading, ↓reduceIte, stepEvent]
    cases headingFunction unicode line <;> simp
  · simp only [heading, Bool.false_eq_true, ↓reduceIte]
    by_cases change : isChange line = true
    · simp only [change, ↓reduceIte]
      split
      · rfl
      · cases matchDef unicode (strip (line.drop 1)) with
        | some name => rfl
        | none =>
          simp only
          split <;> rfl
    · simp only [change, Bool.false_eq_true, ↓reduceIte]
      by_cases context : startsWith [' '] line = true
      · simp only [context, Bool.and_true, ↓reduceIte]
        cases matchDef unicode (strip (line.drop 1)) with
        | some name => rfl
        | none => simp [stepEvent]
      · simp [context, stepEvent]

/-- A decorator change is pending behind these events: only ignored lines and
further decorators follow it. -/
def Pending (events : List DiffEvent) : Prop :=
  ∃ before after, events = before ++ .decorator :: after ∧
    ∀ event ∈ after, event = .ignored ∨ event = .decorator

/-- The events contain a definition of the function that counts. -/
def Anchored (events : List DiffEvent) (function : String) : Prop :=
  (∃ before after, events = before ++ .changedDef function :: after) ∨
    ∃ before after, events = before ++ .contextDef function :: after ∧ Pending before

/-- No definition among the events counts. -/
def Unanchored (events : List DiffEvent) : Prop := ∀ function, ¬ Anchored events function

/-- Some change other than a decorator comes before every definition that
counts. -/
def EarlyChange (events : List DiffEvent) : Prop :=
  ∃ before after, events = before ++ .otherChange :: after ∧ Unanchored before

/-- The events below one heading, with the function that the heading names. -/
structure HunkEvents where
  heading : Option String
  events : List DiffEvent

/-- A hunk contributes the functions whose definition counts, and the function
of its heading if a change comes before these, or if only decorators change. -/
def HunkEvents.Attributes (hunk : HunkEvents) (function : String) : Prop :=
  Anchored hunk.events function ∨
    hunk.heading = some function ∧
      (EarlyChange hunk.events ∨ Unanchored hunk.events ∧ .decorator ∈ hunk.events)

/-- The events by hunk. The first entry holds the lines before every heading. -/
def hunkEventsFrom (heading : Option String) (done : List DiffEvent) :
    List DiffEvent → List HunkEvents
  | [] => [⟨heading, done⟩]
  | .heading function :: rest => ⟨heading, done⟩ :: hunkEventsFrom function [] rest
  | event :: rest => hunkEventsFrom heading (done ++ [event]) rest

section Snoc

variable (events : List DiffEvent) (event : DiffEvent)

/-- At the beginning no decorator is pending. -/
theorem not_pending_nil : ¬ Pending [] := by
  rintro ⟨before, after, shape, -⟩
  simp at shape

/-- At the beginning no function is anchored. -/
theorem not_anchored_nil (function : String) : ¬ Anchored [] function := by
  rintro (⟨before, after, shape⟩ | ⟨before, after, shape, -⟩) <;> simp at shape

/-- A decorator is pending behind itself and behind what is ignored. -/
theorem pending_concat :
    Pending (events ++ [event]) ↔ event = .decorator ∨ event = .ignored ∧ Pending events := by
  unfold Pending
  rw [exists_split_concat]
  constructor
  · rintro (⟨rfl, -⟩ | ⟨before, after, shape, quiet⟩)
    · exact Or.inl rfl
    · rw [List.forall_mem_append] at quiet
      rcases quiet.2 event (by simp) with ignored | decorator
      · exact Or.inr ⟨ignored, before, after, shape, quiet.1⟩
      · exact Or.inl decorator
  · rintro (rfl | ⟨rfl, before, after, shape, quiet⟩)
    · exact Or.inl ⟨rfl, by simp⟩
    · refine Or.inr ⟨before, after, shape, ?_⟩
      rw [List.forall_mem_append]
      exact ⟨quiet, by simp⟩

/-- A function is anchored by its changed line, or by its context line while a decorator is pending.
-/
theorem anchored_concat (function : String) :
    Anchored (events ++ [event]) function ↔
      Anchored events function ∨ event = .changedDef function ∨
        event = .contextDef function ∧ Pending events := by
  have changed := exists_split_concat (.changedDef function) event events fun _ _ => True
  have context := exists_split_concat (.contextDef function) event events
    fun before _ => Pending before
  simp only [and_true] at changed
  unfold Anchored
  rw [changed, context]
  constructor
  · rintro ((last | earlier) | (last | earlier))
    · exact Or.inr (Or.inl last)
    · exact Or.inl (Or.inl earlier)
    · exact Or.inr (Or.inr last)
    · exact Or.inl (Or.inr earlier)
  · rintro ((earlier | earlier) | last | last)
    · exact Or.inl (Or.inr earlier)
    · exact Or.inr (Or.inr earlier)
    · exact Or.inl (Or.inl last)
    · exact Or.inr (Or.inl last)

/-- A change is early when nothing counts before it. -/
theorem earlyChange_concat :
    EarlyChange (events ++ [event]) ↔
      EarlyChange events ∨ event = .otherChange ∧ Unanchored events := by
  unfold EarlyChange
  rw [exists_split_concat .otherChange event events fun before _ => Unanchored before, or_comm]

/-- A definition that counts stays one when more lines are read. -/
theorem unanchored_concat (unanchored : Unanchored (events ++ [event])) : Unanchored events :=
  fun function anchored => unanchored function ((anchored_concat events event function).mpr
    (Or.inl anchored))

end Snoc

/-- Below one heading, a decorator change without other changes and without a
definition that counts is still pending. -/
theorem pending_of_decorator (events : List DiffEvent)
    (unheaded : ∀ function, .heading function ∉ events) (unanchored : Unanchored events)
    (unchanged : .otherChange ∉ events) (decorated : .decorator ∈ events) : Pending events := by
  induction events using List.reverseRecOn with
  | nil => cases decorated
  | append_singleton events event inductionHypothesis =>
    rw [pending_concat]
    simp only [List.mem_append, List.mem_singleton, not_or] at unheaded unchanged decorated
    have earlier : .decorator ∈ events → Pending events :=
      inductionHypothesis (fun function => (unheaded function).1)
        (unanchored_concat events event unanchored) unchanged.1
    cases event with
    | decorator => exact Or.inl rfl
    | ignored => exact Or.inr ⟨rfl, earlier (decorated.resolve_right (by simp))⟩
    | heading function => exact absurd rfl (unheaded function).2
    | otherChange => exact absurd rfl unchanged.2
    | changedDef function =>
      exact absurd ((anchored_concat _ _ function).mpr (Or.inr (Or.inl rfl)))
        (unanchored function)
    | contextDef function =>
      have pending := earlier (decorated.resolve_right (by simp))
      exact absurd ((anchored_concat _ _ function).mpr (Or.inr (Or.inr ⟨rfl, pending⟩)))
        (unanchored function)

/-- Every change before the first definition that counts is an early one. -/
theorem earlyChange_of_mem (events : List DiffEvent) (unanchored : Unanchored events)
    (changed : .otherChange ∈ events) : EarlyChange events := by
  induction events using List.reverseRecOn with
  | nil => cases changed
  | append_singleton events event inductionHypothesis =>
    have before := unanchored_concat events event unanchored
    rw [earlyChange_concat]
    rcases List.mem_append.mp changed with earlier | last
    · exact Or.inl (inductionHypothesis before earlier)
    · exact Or.inr ⟨(List.mem_singleton.mp last).symm, before⟩

/-- What the scan knows behind the events of a hunk: whether a decorator change
is pending, the current function, and the names recorded so far together with
the current function if it has changes. -/
structure ScanInvariant (heading : Option String) (recorded : List String)
    (events : List DiffEvent) (state : FunctionScan) : Prop where
  unheaded : ∀ function, .heading function ∉ events
  pending : state.pendingDecoratorChange = true ↔ Pending events
  current : Unanchored events → state.currentFunction = heading ∧
    (heading.isSome = true → (state.hasChangesInFunction = true ↔ .otherChange ∈ events))
  entered : ¬ Unanchored events → state.hasChangesInFunction = true
  names : ∀ function, function ∈ state.record state.hasChangesInFunction ↔
    function ∈ recorded ∨ Anchored events function ∨
      heading = some function ∧ EarlyChange events

namespace ScanInvariant

/-- The invariant holds right below a heading. -/
theorem start (heading : Option String) (state : FunctionScan)
    (current : state.currentFunction = heading)
    (unchanged : heading.isSome = true → state.hasChangesInFunction = false)
    (settled : state.pendingDecoratorChange = false) :
    ScanInvariant heading state.modified [] state where
  unheaded := by simp
  pending := by simp [settled, not_pending_nil]
  current := by
    intro _
    refine ⟨current, fun named => ?_⟩
    simp [unchanged named]
  entered := by
    intro anchored
    exact absurd (fun function => not_anchored_nil function) anchored
  names := by
    intro function
    have early : ¬ EarlyChange [] := by
      rintro ⟨before, after, shape, -⟩
      simp at shape
    cases heading with
    | none => simp [FunctionScan.record, current, not_anchored_nil]
    | some name =>
      simp [FunctionScan.record, current, unchanged rfl, not_anchored_nil, early]

variable {heading : Option String} {recorded : List String} {events : List DiffEvent}
  {state : FunctionScan}

/-- Entering a function at a definition that counts. -/
theorem enter (invariant : ScanInvariant heading recorded events state) (function : String)
    (event : DiffEvent)
    (counts : ∀ other, Anchored (events ++ [event]) other ↔ Anchored events other ∨ other = function)
    (quiet : event ≠ .decorator ∧ event ≠ .ignored ∧ event ≠ .otherChange)
    (plain : ∀ other, event ≠ .heading other) :
    ScanInvariant heading recorded (events ++ [event]) (state.enter function) where
  unheaded := by
    intro other
    simp [invariant.unheaded other, (plain other).symm]
  pending := by
    rw [pending_concat]
    simp [FunctionScan.enter, quiet]
  current := by
    intro unanchored
    exact absurd ((counts function).mpr (Or.inr rfl)) (unanchored function)
  entered := by
    intro _
    rfl
  names := by
    intro other
    have before := invariant.names other
    have entered : other ∈ (state.enter function).record
        (state.enter function).hasChangesInFunction ↔
        other ∈ state.record state.hasChangesInFunction ∨ other = function := by
      simp [FunctionScan.enter, FunctionScan.record]
    rw [entered, before, counts, earlyChange_concat]
    simp only [quiet.2.2, false_and, or_false]
    constructor
    · rintro ((old | anchored | early) | current)
      · exact Or.inl old
      · exact Or.inr (Or.inl (Or.inl anchored))
      · exact Or.inr (Or.inr early)
      · exact Or.inr (Or.inl (Or.inr current))
    · rintro (old | (anchored | current) | early)
      · exact Or.inl (Or.inl old)
      · exact Or.inl (Or.inr (Or.inl anchored))
      · exact Or.inr current
      · exact Or.inl (Or.inr (Or.inr early))

/-- A line that neither changes the state nor counts as a definition. -/
theorem skip (invariant : ScanInvariant heading recorded events state) (event : DiffEvent)
    (pending : Pending (events ++ [event]) ↔ Pending events)
    (counts : ∀ other, Anchored (events ++ [event]) other ↔ Anchored events other)
    (quiet : event ≠ .otherChange) (plain : ∀ other, event ≠ .heading other) :
    ScanInvariant heading recorded (events ++ [event]) state := by
  have anchors : Unanchored (events ++ [event]) ↔ Unanchored events := by
    simp only [Unanchored, counts]
  refine ⟨?_, ?_, ?_, ?_, ?_⟩
  · intro other
    simp [invariant.unheaded other, (plain other).symm]
  · rw [pending]
    exact invariant.pending
  · rw [anchors]
    simpa [quiet.symm] using invariant.current
  · rw [anchors]
    exact invariant.entered
  · intro function
    rw [invariant.names function, counts, earlyChange_concat]
    simp [quiet]

/-- A changed decorator becomes pending. -/
theorem decorator (invariant : ScanInvariant heading recorded events state) :
    ScanInvariant heading recorded (events ++ [.decorator])
      { state with pendingDecoratorChange := true } := by
  have counts : ∀ other, Anchored (events ++ [.decorator]) other ↔ Anchored events other := by
    intro other
    simp [anchored_concat]
  have anchors : Unanchored (events ++ [.decorator]) ↔ Unanchored events := by
    simp only [Unanchored, counts]
  refine ⟨?_, ?_, ?_, ?_, ?_⟩
  · intro other
    simp [invariant.unheaded other]
  · simp [pending_concat]
  · rw [anchors]
    simpa using invariant.current
  · rw [anchors]
    exact invariant.entered
  · intro function
    have names := invariant.names function
    rw [counts, earlyChange_concat]
    simp only [reduceCtorEq, false_and, or_false]
    exact names

/-- Any other change marks the current function and settles the decorator. -/
theorem otherChange (invariant : ScanInvariant heading recorded events state) :
    ScanInvariant heading recorded (events ++ [.otherChange])
      { state with hasChangesInFunction := true, pendingDecoratorChange := false } := by
  have counts : ∀ other, Anchored (events ++ [.otherChange]) other ↔ Anchored events other := by
    intro other
    simp [anchored_concat]
  have anchors : Unanchored (events ++ [.otherChange]) ↔ Unanchored events := by
    simp only [Unanchored, counts]
  refine ⟨?_, ?_, ?_, ?_, ?_⟩
  · intro other
    simp [invariant.unheaded other]
  · simp [pending_concat]
  · rw [anchors]
    intro unanchored
    simp [(invariant.current unanchored).1]
  · intro _
    rfl
  · intro function
    have before := invariant.names function
    rw [counts, earlyChange_concat]
    by_cases unanchored : Unanchored events
    · -- The current function is still the one of the heading.
      have current := (invariant.current unanchored).1
      have marked : function ∈ FunctionScan.record
          { state with hasChangesInFunction := true, pendingDecoratorChange := false } true ↔
          function ∈ state.record state.hasChangesInFunction ∨ heading = some function := by
        simp only [FunctionScan.record, current]
        cases heading with
        | none => simp
        | some name =>
          cases state.hasChangesInFunction <;> simp [eq_comm (a := function)]
      rw [marked, before]
      simp only [unanchored, and_self, or_true, and_true]
      constructor
      · rintro ((old | anchored | ⟨named, -⟩) | named)
        · exact Or.inl old
        · exact Or.inr (Or.inl anchored)
        · exact Or.inr (Or.inr named)
        · exact Or.inr (Or.inr named)
      · rintro (old | anchored | named)
        · exact Or.inl (Or.inl old)
        · exact Or.inl (Or.inr (Or.inl anchored))
        · exact Or.inr named
    · have changes := invariant.entered unanchored
      rw [changes] at before
      simp only [unanchored, and_false, or_false]
      exact before

/-- One line below a heading. -/
theorem step (invariant : ScanInvariant heading recorded events state) (event : DiffEvent)
    (plain : ∀ function, event ≠ .heading function) :
    ScanInvariant heading recorded (events ++ [event]) (state.stepEvent event) := by
  cases event with
  | heading function => exact absurd rfl (plain function)
  | changedDef function =>
    refine invariant.enter function _ ?_ (by simp) (by simp)
    intro other
    simp [anchored_concat, eq_comm (a := function)]
  | contextDef function =>
    simp only [FunctionScan.stepEvent]
    split
    · rename_i pending
      refine invariant.enter function _ ?_ (by simp) (by simp)
      intro other
      simp [anchored_concat, invariant.pending.mp pending, eq_comm (a := function)]
    · rename_i settled
      have quiet : ¬ Pending events := fun pending => settled (invariant.pending.mpr pending)
      refine invariant.skip _ ?_ ?_ (by simp) (by simp)
      · simp [pending_concat, quiet]
      · intro other
        simp [anchored_concat, quiet]
  | decorator => exact invariant.decorator
  | otherChange => exact invariant.otherChange
  | ignored =>
    refine invariant.skip _ ?_ ?_ (by simp) (by simp)
    · simp [pending_concat]
    · intro other
      simp [anchored_concat]

/-- What is recorded when the hunk ends. -/
theorem finish (invariant : ScanInvariant heading recorded events state) (function : String) :
    function ∈ state.record (state.hasChangesInFunction || state.pendingDecoratorChange) ↔
      function ∈ recorded ∨ HunkEvents.Attributes ⟨heading, events⟩ function := by
  have names := invariant.names function
  unfold HunkEvents.Attributes
  cases changes : state.hasChangesInFunction with
  | true =>
    rw [changes] at names
    rw [Bool.true_or, names]
    constructor
    · rintro (old | anchored | ⟨named, early⟩)
      · exact Or.inl old
      · exact Or.inr (Or.inl anchored)
      · exact Or.inr (Or.inr ⟨named, Or.inl early⟩)
    · rintro (old | anchored | ⟨named, early | ⟨unanchored, -⟩⟩)
      · exact Or.inl old
      · exact Or.inr (Or.inl anchored)
      · exact Or.inr (Or.inr ⟨named, early⟩)
      · have isNamed : heading.isSome = true := Option.isSome_of_eq_some named
        have changed := ((invariant.current unanchored).2 isNamed).mp changes
        exact Or.inr (Or.inr ⟨named, earlyChange_of_mem events unanchored changed⟩)
  | false =>
    have unanchored : Unanchored events := by
      by_contra anchored
      rw [invariant.entered anchored] at changes
      cases changes
    obtain ⟨current, marked⟩ := invariant.current unanchored
    have unmarked : function ∈ state.record false ↔ function ∈ state.modified := by
      unfold FunctionScan.record
      cases state.currentFunction <;> simp
    rw [changes, unmarked] at names
    -- Without changes, a decorator change is pending exactly when there is one.
    have pending : heading = some function →
        (state.pendingDecoratorChange = true ↔ .decorator ∈ events) := by
      intro named
      rw [invariant.pending]
      constructor
      · rintro ⟨before, after, shape, -⟩
        simp [shape]
      · intro decorated
        refine pending_of_decorator events invariant.unheaded unanchored ?_ decorated
        intro changed
        rw [(marked (by simp [named])).mpr changed] at changes
        cases changes
    have recorded_iff : function ∈ state.record (false || state.pendingDecoratorChange) ↔
        function ∈ state.modified ∨
          heading = some function ∧ state.pendingDecoratorChange = true := by
      simp only [Bool.false_or, FunctionScan.record, current]
      cases heading with
      | none => simp
      | some name => cases state.pendingDecoratorChange <;> simp [eq_comm (a := function)]
    rw [recorded_iff, names]
    simp only [unanchored, true_and]
    by_cases named : heading = some function
    · rw [pending named]
      simp only [named, true_and, or_assoc]
    · simp [named]

end ScanInvariant

/-- The scan of the remaining events, from the middle of a hunk: it records what
was recorded before and what the hunks attribute.

Proof: induction on the events; a heading ends the hunk and starts the next. -/
theorem scan_from (heading : Option String) (recorded : List String) (done : List DiffEvent)
    (state : FunctionScan) (events : List DiffEvent)
    (invariant : ScanInvariant heading recorded done state) (function : String) :
    function ∈ (events.foldl FunctionScan.stepEvent state).record
        ((events.foldl FunctionScan.stepEvent state).hasChangesInFunction ||
          (events.foldl FunctionScan.stepEvent state).pendingDecoratorChange) ↔
      function ∈ recorded ∨
        ∃ hunk ∈ hunkEventsFrom heading done events, hunk.Attributes function := by
  induction events generalizing heading recorded done state with
  | nil => simpa [hunkEventsFrom] using invariant.finish function
  | cons event rest inductionHypothesis =>
    by_cases isHeading : ∃ next, event = .heading next
    · obtain ⟨next, rfl⟩ := isHeading
      have fresh := ScanInvariant.start next (state.stepEvent (.heading next)) rfl
        (by intro named; cases next <;> simp_all [FunctionScan.stepEvent]) rfl
      have ended := invariant.finish function
      rw [List.foldl_cons, inductionHypothesis next _ [] _ fresh]
      simp only [hunkEventsFrom, List.exists_mem_cons_iff]
      rw [← or_assoc, ← ended]
      rfl
    · have plain : ∀ next, event ≠ .heading next := fun next same => isHeading ⟨next, same⟩
      have stepped := inductionHypothesis heading recorded (done ++ [event]) _
        (invariant.step event plain)
      rw [List.foldl_cons, stepped]
      cases event with
      | heading next => exact absurd rfl (plain next)
      | _ => rfl

/-- The functions named by `_parse_diff_for_functions` are those the hunks of the
diff attribute. -/
theorem mem_parseDiffForFunctions (unicode : Unicode) (diffContent : Text) (function : String) :
    function ∈ parseDiffForFunctions unicode diffContent ↔
      ∃ hunk ∈ hunkEventsFrom none [] ((splitlines diffContent).map (eventOf unicode)),
        hunk.Attributes function := by
  have scanned : (splitlines diffContent).foldl (FunctionScan.step unicode) {} =
      ((splitlines diffContent).map (eventOf unicode)).foldl FunctionScan.stepEvent {} := by
    rw [List.foldl_map]
    congr 1
    funext state line
    exact state.step_eq unicode line
  have start : ScanInvariant none [] [] {} := ScanInvariant.start none {} rfl (by simp) rfl
  simp only [parseDiffForFunctions, scanned]
  rw [scan_from none [] [] {} _ start function]
  simp

/-- The line ranges of the top-level functions of a file. -/
def functionRanges (tree : List AST) : List SymbolRange :=
  tree.flatMap fun
    | node@(.functionDef ..) => symbolRanges node
    | _ => []

/-- A line that is neither blank nor a comment. -/
def isSignificant (line : Line) : Bool :=
  !(strip line.text).isEmpty && !startsWith ['#'] (strip line.text)

/-- A top-level function of the head version that gains a significant line. -/
def GainsLine (headTree : List AST) (diff : UnifiedDiff) (function : String) : Prop :=
  ∃ range ∈ functionRanges headTree, range.name = function ∧
    ∃ inserted ∈ diff.insertedLines, range.covers inserted.1 = true ∧
      isSignificant inserted.2 = true

/-- Agreement of the function names with the line map. For a diff between two
parseable versions of a conftest, every function of the head version that gains
a significant line is named exactly when some hunk of the written diff attributes
it: its definition line is changed, or is context behind a changed decorator, or
it is the function of a heading below which a change comes before every such
definition, or below which only decorators change and no such definition comes.

Proof: `mem_parseDiffForFunctions`. -/
theorem gaining_functions_named_iff (unicode : Unicode) (preamble : Text) (diff : UnifiedDiff)
    (base head : Source) (baseTree headTree : List AST)
    (_baseText : base.text = diff.oldText) (_baseParsed : base.tree = some baseTree)
    (_headText : head.text = diff.newText) (_headParsed : head.tree = some headTree) :
    (∀ function, GainsLine headTree diff function →
      function ∈ parseDiffForFunctions unicode (diff.render preamble)) ↔
      ∀ function, GainsLine headTree diff function →
        ∃ hunk ∈ hunkEventsFrom none []
          ((splitlines (diff.render preamble)).map (eventOf unicode)),
          hunk.Attributes function := by
  simp only [mem_parseDiffForFunctions]

/-- The part of a line that git shows as function context for Python: a `class`
or `def` line from its first visible character. -/
def pythonContext (line : Text) : Option Text :=
  let body := line.dropWhile (fun character => character == ' ' || character == '\t')
  let keyword := fun opening : String => startsWith (opening.toList ++ [' ']) body
  if keyword "class" || keyword "def" || keyword "async def" then some body else none

/-- The heading of a hunk: the last context line of the old side before it. -/
def gitHeading (before : List Line) : Text :=
  ((before.filterMap (fun line => pythonContext line.text)).getLast?).getD []

/-- The unchanged lines of a conftest before a hunk. -/
def helperLines : List Line :=
  [.ofString "import pytest", .ofString "", .ofString "def helper():", .ofString " pass"]

/-- The statements of the conftest: a helper and a fixture. -/
def vmTree : List AST :=
  [ .functionDef ⟨1, 3, 4⟩ false "helper" (.arguments ⟨2, 3, 3⟩ [] [] none [] [] none [])
      [.other ⟨3, 4, 4⟩ .pass []] [] none,
    .functionDef ⟨4, 7, 9⟩ false "vm" (.arguments ⟨5, 7, 7⟩ [] [] none [] [] none [])
      [.returnStmt ⟨6, 9, 9⟩ none]
      [.attribute ⟨7, 6, 6⟩ (.name ⟨8, 6, 6⟩ "pytest" .load) "fixture"] none ]

/-- The body of the fixture changes. The three context lines before the change
reach the decorator and the definition of the fixture. -/
def vmBodyDiff : UnifiedDiff where
  hunks :=
    [{ skipped := helperLines
       heading := gitHeading helperLines
       body :=
        [ .keep (.ofString ""), .keep (.ofString "@pytest.fixture"), .keep (.ofString "def vm():"),
          .delete (.ofString " a = 1"), .insert (.ofString " a = 2"),
          .keep (.ofString " return") ] }]

/-- The definition line of the fixture changes. -/
def vmHeadDiff : UnifiedDiff where
  hunks :=
    [{ skipped := helperLines.take 3
       heading := gitHeading (helperLines.take 3)
       body :=
        [ .keep (.ofString " pass"), .keep (.ofString ""), .keep (.ofString "@pytest.fixture"),
          .delete (.ofString "def vm(x):"), .insert (.ofString "def vm():"),
          .keep (.ofString " a = 1"), .keep (.ofString " return") ] }]

/-- A changed definition line is attributed. -/
theorem changed_definition_named :
    GainsLine vmTree vmHeadDiff "vm" ∧
      ∀ function, GainsLine vmTree vmHeadDiff function →
        function ∈ parseDiffForFunctions ascii (vmHeadDiff.render []) := by
  refine ⟨⟨⟨6, 9, "vm"⟩, by decide, rfl, (7, .ofString "def vm():"), List.mem_singleton.mpr rfl,
    by decide, by decide⟩, ?_⟩
  refine (gaining_functions_named_iff ascii [] vmHeadDiff ⟨vmHeadDiff.oldText, some vmTree⟩
    ⟨vmHeadDiff.newText, some vmTree⟩ vmTree vmTree rfl rfl rfl rfl).mpr ?_
  rintro function ⟨range, member, rfl, inserted, added, covered, -⟩
  have only : inserted = (7, .ofString "def vm():") := List.mem_singleton.mp added
  subst only
  have ranges : range = ⟨3, 4, "helper"⟩ ∨ range = ⟨6, 9, "vm"⟩ := by
    simpa using show range ∈ [⟨3, 4, "helper"⟩, ⟨6, 9, "vm"⟩] from member
  rcases ranges with rfl | rfl
  · cases covered
  · exact (mem_parseDiffForFunctions ascii (vmHeadDiff.render []) "vm").mp (by decide +kernel)

/-- A change in the body of the fixture is attributed to the helper above it. -/
theorem body_change_misattributed :
    vmBodyDiff.hunks.head?.map Hunk.heading = some "def helper():".toList ∧
      GainsLine vmTree vmBodyDiff "vm" ∧
      parseDiffForFunctions ascii (vmBodyDiff.render []) = ["helper"] := by
  refine ⟨by decide, ?_, by decide +kernel⟩
  exact ⟨⟨6, 9, "vm"⟩, by decide, rfl, (8, .ofString " a = 2"), List.mem_singleton.mpr rfl,
    by decide, by decide⟩

end VirtTestTools.Analyzer
