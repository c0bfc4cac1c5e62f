import Mathlib.Data.List.Perm.Subperm
import VirtTestTools.CodeRabbit.ReviewRetry
import VirtTestTools.KeyedRuns
import VirtTestTools.Substitutions

/-!
# Scans for rate-limited reviews

`main` of `coderabbit_retry.py` searches pull requests and processes those that are not work in
progress with a pool of threads. A thread looks at the comments of its pull request and posts its
request later, when other threads have gone on and somebody may have commented. The scans run one
after another, since the workflow has a concurrency group, and one that takes too long may be ended.

For one pull request the scans are nevertheless a sequence of executions of `process_pr`: a scan has
one thread for it at most, and looking for requests does not depend on the order of the comments.
-/

namespace VirtTestTools.CodeRabbit

open Text

/-! ## Pull requests -/

/-- A pull request of the search. -/
structure PullRequest where
  number : Nat
  title : Text

/-- `\bwip\b|\[wip\]` at the beginning of a text, given the character before it. -/
def wipHead (unicode : Unicode) (previous : Option Char) (text : Text) : Bool :=
  (boundary unicode previous text.head? &&
    (literalIgnoringCase "wip".toList text).any fun rest =>
      boundary unicode (text.drop 2).head? rest.head?) ||
    (literalIgnoringCase "[wip]".toList text).isSome

/-- The search for `WIP_PATTERN` behind a character. -/
def wipFrom (unicode : Unicode) : Option Char → Text → Bool
  | _, [] => false
  | previous, character :: rest =>
    wipHead unicode previous (character :: rest) || wipFrom unicode (some character) rest

/-- `is_wip_title`. -/
def isWipTitle (unicode : Unicode) (title : Text) : Bool := wipFrom unicode none title

/-- `MAX_PRS`. -/
def maxPrs : Nat := 200

/-- What `main` reads: two variables, whether the repository is found, and the result of the search,
unless it fails. -/
structure ScanInput where
  repoName : Option Text
  token : Option Text
  accessible : Bool
  search : Option (List PullRequest)

/-- `list_eligible_prs`. -/
def listEligiblePrs (search : Option (List PullRequest)) : Option (List PullRequest) :=
  search.map (·.take maxPrs)

/-- `to_process`; `none` is an exit with status 1. -/
def toProcess (unicode : Unicode) (input : ScanInput) : Option (List PullRequest) :=
  if !input.repoName.any (· ≠ []) then none
  else if !input.token.any (· ≠ []) then none
  else if !input.accessible then none
  else
    (listEligiblePrs input.search).map (·.filter fun pullRequest =>
      !isWipTitle unicode pullRequest.title)

/-! ## Threads -/

/-- A pull request: its comments, and the execution of a thread that has looked at them and is going
to post its request. -/
structure PullState where
  comments : List Comment
  waiting : Option Execution := none

/-- What happens during a scan: a thread checks the notice and looks at the comments, the thread of
a pull request posts its request or fails to, or somebody comments. -/
inductive ScanEvent
  | starts (number : Nat) (execution : Execution)
  | posts (number : Nat)
  | commented (number : Nat) (comment : Comment)

/-- The number of the pull request of an event. -/
def ScanEvent.number : ScanEvent → Nat
  | starts number _ => number
  | posts number => number
  | commented number _ => number

section Threads

variable (service : Service)

/-- Whether an execution of `process_pr` gets to `trigger_review`. -/
def decides (execution : Execution) (comments : List Comment) : Bool :=
  (processPr service { execution with creates := true } comments).1

/-- An event of a pull request, and whether it triggers a review. -/
def pullStep (state : PullState) : ScanEvent → PullState × Bool
  | .starts _ execution =>
    if decides service execution state.comments then
      ({ state with waiting := some execution }, false)
    else (state, false)
  | .posts _ =>
    match state.waiting with
    | none => (state, false)
    | some execution =>
      if execution.creates then (⟨state.comments ++ [execution.comment service], none⟩, true)
      else (⟨state.comments, none⟩, false)
  | .commented _ comment => ({ state with comments := state.comments ++ [comment] }, false)

/-- The pull requests of the repository. -/
abbrev Board := Nat → PullState

/-- A step of the board, and whether it requests a review. -/
def boardStep (board : Board) (event : ScanEvent) : Board × Bool :=
  (Function.update board event.number (pullStep service (board event.number) event).1,
    (pullStep service (board event.number) event).2)

/-- Threads of different pull requests do not meet. -/
theorem boardStep_keyed :
    KeyedRuns.Keyed (boardStep service) ScanEvent.number (fun board number => board number)
      (pullStep service) := by
  constructor
  · intro board event
    simp only [boardStep, Function.update_self]
  · intro board event other elsewhere
    exact Function.update_of_ne elsewhere _ _

end Threads

/-! ## Scans -/

/-- The pull requests whose threads start. -/
def started (events : List ScanEvent) : List (Nat × Execution) :=
  events.filterMap fun
    | .starts number execution => some (number, execution)
    | _ => none

/-- A scan: what `main` reads, and what happens until it ends or is stopped. Every found pull
request is submitted once, if it is not work in progress; the search lists none twice. -/
structure Scan (unicode : Unicode) where
  input : ScanInput
  events : List ScanEvent
  distinct : ((input.search.getD []).map PullRequest.number).Nodup
  submitted : ((started events).map Prod.fst).Subperm
    (((toProcess unicode input).getD []).map PullRequest.number)

section Scans

variable {unicode : Unicode} (service : Service)

/-- The pull requests behind a scan. A thread that still waits has been stopped. -/
def Scan.board (scan : Scan unicode) (board : Board) : Board := fun number =>
  { (KeyedRuns.run (boardStep service) board scan.events).1 number with waiting := none }

/-- The pull requests for which a scan has triggered a review, in order. -/
def Scan.retried (scan : Scan unicode) (board : Board) : List Nat :=
  (KeyedRuns.run (boardStep service) board scan.events).2.filterMap fun answered =>
    if answered.2 then some answered.1.number else none

/-- The same for a sequence of scans. -/
def retriedBy : List (Scan unicode) → Board → List Nat
  | [], _ => []
  | scan :: scans, board => scan.retried service board ++ retriedBy scans (scan.board service board)

/-- The board behind some scans. -/
def boardAfter : List (Scan unicode) → Board → Board
  | [], board => board
  | scan :: scans, board => boardAfter scans (scan.board service board)

end Scans

/-! ## One pull request -/

section Simulation

variable (service : Service)

/-- The comments behind a sequence of executions and comments. -/
def commentsAfter (events : List Event) (comments : List Comment) : List Comment :=
  events.foldl (fun current event => (event.run service current).2) comments

/-- When an execution gets to its request. -/
theorem decides_iff (execution : Execution) (comments : List Comment) :
    decides service execution comments = true ↔
      ∃ notice waitSeconds updatedAtEpoch,
        checkRateLimit execution.check = some notice ∧
        Announces service notice waitSeconds updatedAtEpoch ∧
        updatedAtEpoch + waitSeconds ≤ execution.now ∧
        hasReviewRequestAfter (getComments updatedAtEpoch execution.fetchFailure comments)
          updatedAtEpoch = some false := by
  unfold decides
  constructor
  · intro decided
    rcases processPr_cases { execution with creates := true } comments with
      idle | ⟨-, notice, wait, epoch, reported, announced, elapsed, unrequested, -⟩
    · rw [idle] at decided
      cases decided
    · exact ⟨notice, wait, epoch, reported, announced, elapsed, unrequested⟩
  · rintro ⟨notice, wait, epoch, reported, announced, elapsed, unrequested⟩
    rw [processPr_posts { execution with creates := true } comments reported announced elapsed
      unrequested rfl]

/-- A request is posted if it is decided on and the comment is created. -/
theorem processPr_eq (execution : Execution) (comments : List Comment) :
    processPr service execution comments =
      if decides service execution comments && execution.creates then
        (true, comments ++ [execution.comment service])
      else (false, comments) := by
  split
  · rename_i posts
    rw [Bool.and_eq_true, decides_iff] at posts
    obtain ⟨⟨notice, wait, epoch, reported, announced, elapsed, unrequested⟩, creates⟩ := posts
    exact processPr_posts execution comments reported announced elapsed unrequested creates
  · rename_i idle
    rcases processPr_cases execution comments with
      same | ⟨-, notice, wait, epoch, reported, announced, elapsed, unrequested, creates⟩
    · exact same
    · rw [Bool.and_eq_true, decides_iff] at idle
      exact absurd ⟨⟨notice, wait, epoch, reported, announced, elapsed, unrequested⟩, creates⟩ idle

/-- The check finds no request when the listing succeeds and no comment is one. -/
theorem hasReviewRequestAfter_eq_false_iff (since : ℚ) (failure : Option Nat)
    (comments : List Comment) :
    hasReviewRequestAfter (getComments since failure comments) since = some false ↔
      failure = none ∧ ∀ comment ∈ comments, since ≤ (comment.updatedAt : ℚ) →
        requestsAfter since comment = false := by
  cases failure with
  | some delivered =>
    simp only [hasReviewRequestAfter, getComments, ↓reduceIte, reduceCtorEq, false_and, iff_false]
    split <;> simp
  | none =>
    simp only [hasReviewRequestAfter, getComments, Bool.false_eq_true, ↓reduceIte, true_and]
    split
    · rename_i found
      obtain ⟨comment, listed, requests⟩ := List.any_eq_true.mp found
      obtain ⟨inside, recent⟩ := List.mem_filter.mp listed
      simp only [Option.some.injEq, Bool.true_eq_false, false_iff]
      intro none
      rw [none comment inside (of_decide_eq_true recent)] at requests
      cases requests
    · rename_i absent
      rw [Bool.not_eq_true, List.any_eq_false] at absent
      simp only [true_iff]
      intro comment inside recent
      exact Bool.eq_false_iff.mpr
        (absent comment (List.mem_filter.mpr ⟨inside, decide_eq_true recent⟩))

/-- The order of the comments does not matter. -/
theorem decides_perm (execution : Execution) {left right : List Comment} (perm : left.Perm right) :
    decides service execution left = decides service execution right := by
  have half {first second : List Comment} (same : first.Perm second)
      (decided : decides service execution first = true) :
      decides service execution second = true := by
    rw [decides_iff] at decided ⊢
    obtain ⟨notice, wait, epoch, reported, announced, elapsed, unrequested⟩ := decided
    rw [hasReviewRequestAfter_eq_false_iff] at unrequested
    refine ⟨notice, wait, epoch, reported, announced, elapsed,
      (hasReviewRequestAfter_eq_false_iff _ _ _).mpr ⟨unrequested.1, ?_⟩⟩
    exact fun comment inside => unrequested.2 comment (same.mem_iff.mpr inside)
  rw [Bool.eq_iff_iff]
  exact ⟨half perm, half perm.symm⟩

/-- The comments that others make. -/
def remarks (events : List ScanEvent) : List Comment :=
  events.filterMap fun
    | .commented _ comment => some comment
    | _ => none

/-- The comments in a sequence. -/
def remarksOf (events : List Event) : List Comment :=
  events.filterMap fun
    | .executed _ => none
    | .commented comment => some comment

/-- An execution that has started: it is as it was going to be, unless it is stopped before its
request. -/
def Completes (ran start : Execution) : Prop := ran = start ∨ ran = { start with creates := false }

/-- How many reviews the events of a pull request trigger. -/
def triggered (answered : List (ScanEvent × Bool)) : Nat := answered.countP Prod.snd

/-- Remarks alone request nothing. -/
theorem remarks_only (said comments : List Comment) :
    executions (said.map Event.commented) = [] ∧ remarksOf (said.map Event.commented) = said ∧
      retries service (said.map Event.commented) comments = 0 ∧
      commentsAfter service (said.map Event.commented) comments = comments ++ said := by
  induction said generalizing comments with
  | nil => exact ⟨rfl, rfl, rfl, (List.append_nil _).symm⟩
  | cons comment rest inductionHypothesis =>
    obtain ⟨idle, listed, none, final⟩ := inductionHypothesis (comments ++ [comment])
    refine ⟨idle, congrArg _ listed, ?_, ?_⟩
    · rw [List.map_cons, retries]
      exact (Nat.zero_add _).trans none
    · rw [List.append_cons]
      exact final

/-- An execution with the comments of others behind it. -/
theorem execution_then_remarks (ran : Execution) (said comments : List Comment)
    (result : Bool × List Comment) (runs : processPr service ran comments = result) :
    executions (.executed ran :: said.map Event.commented) = [ran] ∧
      remarksOf (.executed ran :: said.map Event.commented) = said ∧
      retries service (.executed ran :: said.map Event.commented) comments =
        (if result.1 then 1 else 0) ∧
      commentsAfter service (.executed ran :: said.map Event.commented) comments =
        result.2 ++ said := by
  obtain ⟨nothing, listed, none, final⟩ := remarks_only service said result.2
  have event : Event.run service comments (.executed ran) = result := runs
  refine ⟨congrArg _ nothing, listed, ?_, ?_⟩
  · rw [retries, event, none, Nat.add_zero]
  · exact (congrArg (commentsAfter service _) (congrArg Prod.snd event)).trans final

/-- Without a thread the comments of others are added. -/
theorem run_idle (events : List ScanEvent) (state : PullState) (idle : state.waiting = none)
    (unstarted : started events = []) :
    triggered (KeyedRuns.run (pullStep service) state events).2 = 0 ∧
      (KeyedRuns.run (pullStep service) state events).1.comments =
        state.comments ++ remarks events := by
  induction events generalizing state with
  | nil => exact ⟨rfl, (List.append_nil _).symm⟩
  | cons event rest inductionHypothesis =>
    obtain ⟨comments, waiting⟩ := state
    subst idle
    cases event with
    | starts number execution => cases unstarted
    | posts number => exact inductionHypothesis ⟨comments, none⟩ rfl unstarted
    | commented number comment =>
      obtain ⟨none, final⟩ := inductionHypothesis ⟨comments ++ [comment], none⟩ rfl unstarted
      refine ⟨none, final.trans ?_⟩
      exact (List.append_cons comments comment (remarks rest)).symm

/-- A thread that has looked at the comments posts its request between the comments of others, or
does not. -/
theorem run_waiting (execution : Execution) (events : List ScanEvent) (comments : List Comment)
    (unstarted : started events = []) :
    ∃ posted : Bool, (posted = true → execution.creates = true) ∧
      triggered (KeyedRuns.run (pullStep service) ⟨comments, some execution⟩ events).2 =
        (if posted then 1 else 0) ∧
      (KeyedRuns.run (pullStep service) ⟨comments, some execution⟩ events).1.comments.Perm
        (comments ++ (if posted then [execution.comment service] else []) ++ remarks events) := by
  induction events generalizing comments with
  | nil =>
    refine ⟨false, Bool.noConfusion, rfl, ?_⟩
    simp [remarks]
  | cons event rest inductionHypothesis =>
    cases event with
    | starts number execution => cases unstarted
    | posts number =>
      cases creates : execution.creates with
      | false =>
        obtain ⟨nothing, final⟩ := run_idle service rest ⟨comments, none⟩ rfl unstarted
        have step : pullStep service ⟨comments, some execution⟩ (.posts number) =
            (⟨comments, none⟩, false) := by
          simp [pullStep, creates]
        rw [KeyedRuns.run_cons, step]
        refine ⟨false, Bool.noConfusion, nothing, ?_⟩
        rw [final]
        simp [remarks]
      | true =>
        obtain ⟨nothing, final⟩ :=
          run_idle service rest ⟨comments ++ [execution.comment service], none⟩ rfl unstarted
        have step : pullStep service ⟨comments, some execution⟩ (.posts number) =
            (⟨comments ++ [execution.comment service], none⟩, true) := by
          simp [pullStep, creates]
        rw [KeyedRuns.run_cons, step]
        refine ⟨true, fun _ => rfl, ?_, ?_⟩
        · rw [triggered, List.countP_cons_of_pos rfl]
          exact congrArg (· + 1) nothing
        · rw [final]
          simp [remarks]
    | commented number comment =>
      obtain ⟨posted, creates, once, final⟩ := inductionHypothesis (comments ++ [comment]) unstarted
      refine ⟨posted, creates, once, final.trans ?_⟩
      have said : remarks (.commented number comment :: rest) = comment :: remarks rest := rfl
      rw [said, List.append_assoc, List.append_assoc, List.append_assoc]
      apply List.Perm.append_left
      rw [List.singleton_append]
      exact List.perm_middle.symm

/-- An execution does the same whatever the order of the comments is. -/
theorem processPr_perm (execution : Execution) {left right : List Comment}
    (same : left.Perm right) :
    (processPr service execution left).1 = (processPr service execution right).1 ∧
      (processPr service execution left).2.Perm (processPr service execution right).2 := by
  rw [processPr_eq, processPr_eq, decides_perm service execution same]
  split
  · exact ⟨rfl, same.append_right _⟩
  · exact ⟨rfl, same⟩

/-- A thread that starts does what an execution does on the comments at which it looks; the comments
of others come behind it. -/
theorem run_started (number : Nat) (execution : Execution) (rest : List ScanEvent)
    (present : List Comment) (unstarted : started rest = []) :
    ∃ ran, Completes ran execution ∧
      triggered (KeyedRuns.run (pullStep service) ⟨present, none⟩
        (.starts number execution :: rest)).2 =
          (if (processPr service ran present).1 then 1 else 0) ∧
      (KeyedRuns.run (pullStep service) ⟨present, none⟩
        (.starts number execution :: rest)).1.comments.Perm
          ((processPr service ran present).2 ++ remarks rest) := by
  rw [KeyedRuns.run_cons]
  cases decided : decides service execution present with
  | false =>
    have step : pullStep service ⟨present, none⟩ (.starts number execution) =
        (⟨present, none⟩, false) := by
      simp [pullStep, decided]
    have runs : processPr service execution present = (false, present) := by
      rw [processPr_eq, decided]
      rfl
    obtain ⟨quiet, final⟩ := run_idle service rest ⟨present, none⟩ rfl unstarted
    refine ⟨execution, .inl rfl, ?_, ?_⟩
    · rw [step, runs]
      exact quiet
    · rw [step, runs]
      exact .of_eq final
  | true =>
    have step : pullStep service ⟨present, none⟩ (.starts number execution) =
        (⟨present, some execution⟩, false) := by
      simp [pullStep, decided]
    obtain ⟨posted, creates, once, final⟩ := run_waiting service execution rest present unstarted
    rw [step]
    cases posted with
    | true =>
      have runs : processPr service execution present =
          (true, present ++ [execution.comment service]) := by
        rw [processPr_eq, decided, creates rfl]
        rfl
      refine ⟨execution, .inl rfl, ?_, ?_⟩
      · rw [runs]
        exact once
      · rw [runs]
        exact final
    | false =>
      -- The thread is stopped before its request.
      have runs : processPr service { execution with creates := false } present =
          (false, present) := by
        rw [processPr_eq, Bool.and_false]
        rfl
      refine ⟨_, .inr rfl, ?_, ?_⟩
      · rw [runs]
        exact once
      · rw [runs]
        apply final.trans
        rw [if_neg Bool.false_ne_true, List.append_nil]

/-- A thread of a scan is an execution of `process_pr` at the moment at which it looks at the
comments.

Proof: by induction on the events. The request comes later than in the execution, behind comments of
others, and nothing depends on that order. -/
theorem thread_linearizes (events : List ScanEvent) (state : PullState)
    (idle : state.waiting = none) (once : (started events).length ≤ 1) (comments : List Comment)
    (same : state.comments.Perm comments) :
    ∃ sequence : List Event,
      List.Forall₂ Completes (executions sequence) ((started events).map Prod.snd) ∧
        remarksOf sequence = remarks events ∧
        retries service sequence comments =
          triggered (KeyedRuns.run (pullStep service) state events).2 ∧
        (KeyedRuns.run (pullStep service) state events).1.comments.Perm
          (commentsAfter service sequence comments) := by
  induction events generalizing state comments with
  | nil => exact ⟨[], .nil, rfl, rfl, same⟩
  | cons event rest inductionHypothesis =>
    obtain ⟨present, waiting⟩ := state
    subst idle
    cases event with
    | posts number => exact inductionHypothesis ⟨present, none⟩ rfl once comments same
    | commented number comment =>
      obtain ⟨sequence, runs, said, count, final⟩ := inductionHypothesis
        ⟨present ++ [comment], none⟩ rfl once (comments ++ [comment]) (same.append_right _)
      refine ⟨.commented comment :: sequence, runs, congrArg _ said, ?_, final⟩
      exact (Nat.zero_add _).trans count
    | starts number execution =>
      have alone : started rest = [] := by
        have one : (started rest).length + 1 ≤ 1 := once
        exact List.length_eq_zero_iff.mp (by omega)
      have start : started (.starts number execution :: rest) =
          [(number, execution)] := congrArg _ alone
      obtain ⟨ran, completes, posted, final⟩ :=
        run_started service number execution rest present alone
      obtain ⟨only, said, count, after⟩ :=
        execution_then_remarks service ran (remarks rest) comments _ rfl
      obtain ⟨alike, left⟩ := processPr_perm service ran same
      rw [start]
      refine ⟨_, ?_, said, ?_, ?_⟩
      · rw [only]
        exact .cons completes .nil
      · rw [count, posted, alike]
      · rw [after]
        exact final.trans (left.append_right _)

end Simulation

/-! ## Sequences of scans -/

section Histories

variable {unicode : Unicode} (service : Service)

/-- The events of a pull request. -/
def eventsOn (number : Nat) (events : List ScanEvent) : List ScanEvent :=
  events.filter fun event => decide (event.number = number)

/-- The executions that scans start for a pull request, and what others comment there. -/
def startedOn (number : Nat) (scans : List (Scan unicode)) : List Execution :=
  scans.flatMap fun scan => (started (eventsOn number scan.events)).map Prod.snd

/-- The remarks on a pull request during some scans. -/
def remarksOn (number : Nat) (scans : List (Scan unicode)) : List Comment :=
  scans.flatMap fun scan => remarks (eventsOn number scan.events)

/-- The starts on a pull request are those with its number. -/
theorem started_eventsOn (number : Nat) (events : List ScanEvent) :
    ((started (eventsOn number events)).map Prod.fst) =
      ((started events).map Prod.fst).filter fun other => decide (other = number) := by
  induction events with
  | nil => rfl
  | cons event rest inductionHypothesis =>
    unfold eventsOn at inductionHypothesis ⊢
    rw [List.filter_cons]
    cases event with
    | starts other execution =>
      have more : started (.starts other execution :: rest) =
          (other, execution) :: started rest := rfl
      rw [more, List.map_cons, List.filter_cons]
      by_cases same : other = number
      · simpa [ScanEvent.number, same, started] using inductionHypothesis
      · simpa [ScanEvent.number, same] using inductionHypothesis
    | posts other =>
      have skipped : started (.posts other :: rest) = started rest := rfl
      rw [skipped]
      split
      · exact inductionHypothesis
      · exact inductionHypothesis
    | commented other comment =>
      have skipped : started (.commented other comment :: rest) = started rest := rfl
      rw [skipped]
      split
      · exact inductionHypothesis
      · exact inductionHypothesis

/-- The pull requests that a scan submits are distinct. -/
theorem Scan.submitted_nodup (scan : Scan unicode) :
    (((toProcess unicode scan.input).getD []).map PullRequest.number).Nodup := by
  have part : ((toProcess unicode scan.input).getD []).Sublist (scan.input.search.getD []) := by
    unfold toProcess listEligiblePrs
    split
    · exact List.nil_sublist _
    · split
      · exact List.nil_sublist _
      · split
        · exact List.nil_sublist _
        · cases scan.input.search with
          | none => exact List.Sublist.refl _
          | some found => exact List.filter_sublist.trans (List.take_sublist _ _)
  exact scan.distinct.sublist (part.map _)

/-- A scan starts once on a pull request. -/
theorem Scan.started_once (scan : Scan unicode) (number : Nat) :
    (started (eventsOn number scan.events)).length ≤ 1 := by
  rw [← List.length_map Prod.fst, started_eventsOn, ← List.countP_eq_length_filter]
  apply (scan.submitted.countP_le _).trans
  exact List.nodup_iff_count_le_one.mp scan.submitted_nodup number

/-- The reviews that a scan triggers for a pull request. -/
theorem Scan.count_retried (scan : Scan unicode) (board : Board) (number : Nat) :
    (scan.retried service board).count number =
      triggered (KeyedRuns.run (pullStep service) (board number)
        (eventsOn number scan.events)).2 := by
  have alone := congrArg Prod.snd ((boardStep_keyed service).run_alone number board scan.events)
  simp only at alone
  rw [eventsOn, alone, triggered, Scan.retried]
  generalize (KeyedRuns.run (boardStep service) board scan.events).2 = answered
  induction answered with
  | nil => rfl
  | cons answer rest inductionHypothesis =>
    obtain ⟨event, triggers⟩ := answer
    rw [List.filter_cons, List.filterMap_cons]
    cases triggers with
    | false =>
      refine inductionHypothesis.trans ?_
      split
      · exact (List.countP_cons_of_neg Bool.false_ne_true).symm
      · rfl
    | true =>
      simp only [↓reduceIte]
      by_cases same : event.number = number
      · rw [if_pos (decide_eq_true same), List.countP_cons_of_pos rfl, ← inductionHypothesis, same,
          List.count_cons_self]
      · rw [if_neg (by simpa using same), ← inductionHypothesis, List.count_cons_of_ne same]

/-- The comments behind a scan. -/
theorem Scan.board_comments (scan : Scan unicode) (board : Board) (number : Nat) :
    (scan.board service board number).comments =
      (KeyedRuns.run (pullStep service) (board number)
        (eventsOn number scan.events)).1.comments := by
  have alone := congrArg Prod.fst ((boardStep_keyed service).run_alone number board scan.events)
  simp only at alone
  rw [eventsOn, alone]
  rfl

/-! ### Sequences of executions -/

/-- The comments behind two lists of events. -/
theorem commentsAfter_append (first second : List Event) (comments : List Comment) :
    commentsAfter service (first ++ second) comments =
      commentsAfter service second (commentsAfter service first comments) :=
  List.foldl_append

/-- The requests of two lists of events. -/
theorem retries_append (first second : List Event) (comments : List Comment) :
    retries service (first ++ second) comments =
      retries service first comments +
        retries service second (commentsAfter service first comments) := by
  induction first generalizing comments with
  | nil => exact (Nat.zero_add _).symm
  | cons event rest inductionHypothesis =>
    rw [List.cons_append, retries, inductionHypothesis, retries, Nat.add_assoc]
    rfl

/-- The scans of a pull request as executions, from any order of its comments.

Proof: threads of other pull requests do not matter, and in each scan there is one thread for the
pull request at most. -/
theorem scans_sequence (scans : List (Scan unicode)) (board : Board)
    (idle : ∀ number, (board number).waiting = none) (number : Nat) (comments : List Comment)
    (same : (board number).comments.Perm comments) :
    ∃ sequence : List Event,
      List.Forall₂ Completes (executions sequence) (startedOn number scans) ∧
        remarksOf sequence = remarksOn number scans ∧
        retries service sequence comments = (retriedBy service scans board).count number ∧
        (boardAfter service scans board number).comments.Perm
          (commentsAfter service sequence comments) := by
  induction scans generalizing board comments with
  | nil => exact ⟨[], .nil, rfl, rfl, same⟩
  | cons scan rest inductionHypothesis =>
    obtain ⟨first, firstRuns, firstSaid, firstCount, firstFinal⟩ :=
      thread_linearizes service (eventsOn number scan.events) (board number) (idle number)
        (scan.started_once number) comments same
    rw [← scan.board_comments] at firstFinal
    obtain ⟨second, runs, said, count, final⟩ :=
      inductionHypothesis (scan.board service board) (fun _ => rfl) _ firstFinal
    refine ⟨first ++ second, ?_, ?_, ?_, ?_⟩
    · have both : executions (first ++ second) = executions first ++ executions second :=
        List.filterMap_append
      rw [both]
      exact List.rel_append firstRuns runs
    · have both : remarksOf (first ++ second) = remarksOf first ++ remarksOf second :=
        List.filterMap_append
      rw [both, firstSaid, said]
      rfl
    · rw [retries_append, firstCount, count, retriedBy, List.count_append, scan.count_retried]
    · rw [commentsAfter_append]
      exact final

/-- What the scans do to a pull request is what a sequence of executions of `process_pr` does, with
the comments of others in between: as many reviews are triggered, and the comments behind it are the
same up to their order. -/
theorem scans_linearize (scans : List (Scan unicode)) (board : Board)
    (idle : ∀ number, (board number).waiting = none) (number : Nat) :
    ∃ sequence : List Event,
      List.Forall₂ Completes (executions sequence) (startedOn number scans) ∧
        remarksOf sequence = remarksOn number scans ∧
        retries service sequence (board number).comments =
          (retriedBy service scans board).count number ∧
        (boardAfter service scans board number).comments.Perm
          (commentsAfter service sequence (board number).comments) :=
  scans_sequence service scans board idle number _ (.refl _)

/-- The notice that is checked does not depend on how far a thread gets. -/
theorem Completes.check {ran start : Execution} (completes : Completes ran start) :
    ran.check = start.check := by
  obtain rfl | rfl := completes
  · rfl
  · rfl

/-- An execution that ran has started. -/
theorem exists_start {ran : List Execution} {starts : List Execution}
    (completes : List.Forall₂ Completes ran starts) :
    ∀ execution ∈ ran, ∃ start ∈ starts, execution.check = start.check := by
  induction completes with
  | nil =>
    intro execution inside
    cases inside
  | cons completed _ inductionHypothesis =>
    intro execution inside
    rcases List.mem_cons.mp inside with rfl | later
    · exact ⟨_, List.mem_cons_self, completed.check⟩
    · obtain ⟨start, listed, same⟩ := inductionHypothesis execution later
      exact ⟨start, List.mem_cons_of_mem _ listed, same⟩

/-- There are at most as many requests as executions. -/
theorem retries_le_executions (events : List Event) (comments : List Comment) :
    retries service events comments ≤ (executions events).length := by
  induction events generalizing comments with
  | nil => exact Nat.le_refl 0
  | cons event rest inductionHypothesis =>
    have tail := inductionHypothesis (event.run service comments).2
    rw [retries]
    cases event with
    | commented comment => exact (Nat.zero_add _).trans_le tail
    | executed execution =>
      have more : (executions (.executed execution :: rest)).length =
          (executions rest).length + 1 := rfl
      rw [more]
      split <;> omega

/-- A pull request that is started has been submitted. -/
theorem mem_submitted_of_startedOn (scans : List (Scan unicode)) (number : Nat)
    (starts : startedOn number scans ≠ []) :
    ∃ scan ∈ scans, number ∈ ((toProcess unicode scan.input).getD []).map PullRequest.number := by
  obtain ⟨execution, inside⟩ := List.exists_mem_of_ne_nil _ starts
  obtain ⟨scan, listed, found⟩ := List.mem_flatMap.mp inside
  obtain ⟨entry, startsHere, -⟩ := List.mem_map.mp found
  have numbered : entry.1 ∈ (started (eventsOn number scan.events)).map Prod.fst :=
    List.mem_map_of_mem startsHere
  rw [started_eventsOn, List.mem_filter] at numbered
  refine ⟨scan, listed, ?_⟩
  rw [← of_decide_eq_true numbered.2]
  exact scan.submitted.subset numbered.1

/-- However the threads of each scan and the comments of others are interleaved, one review at most
is triggered for a notice, and only on pull requests that some scan submits. The notice announces a
wait of a second at least, and the scans do not act for the account of the reviewer.

Proof: the scans do what a sequence of executions does. -/
theorem scans_request_once (notice : CheckResult) (whole : WholeSeconds service notice)
    (patient : ∀ waitSeconds updatedAtEpoch,
      Announces service notice waitSeconds updatedAtEpoch →
        service.login ≠ botLogin ∧ 1 ≤ waitSeconds)
    (scans : List (Scan unicode)) (board : Board) (idle : ∀ number, (board number).waiting = none)
    (number : Nat)
    (reports : ∀ execution ∈ startedOn number scans,
      checkRateLimit execution.check = none ∨ checkRateLimit execution.check = some notice) :
    (retriedBy service scans board).count number ≤ 1 ∧
      (number ∈ retriedBy service scans board →
        ∃ scan ∈ scans,
          number ∈ ((toProcess unicode scan.input).getD []).map PullRequest.number) := by
  obtain ⟨sequence, completes, -, count, -⟩ :=
    scans_sequence service scans board idle number _ (.refl _)
  rw [← count]
  constructor
  · apply retries_le_one whole patient
    intro execution inside
    obtain ⟨start, listed, same⟩ := exists_start completes execution inside
    rw [same]
    exact reports start listed
  · intro retried
    apply mem_submitted_of_startedOn
    intro none
    rw [none, List.forall₂_nil_right_iff] at completes
    have most := retries_le_executions service sequence (board number).comments
    rw [count, completes] at most
    exact absurd (List.count_pos_iff.mpr retried) (Nat.not_lt.mpr most)

end Histories

/-! ## A scan of two pull requests -/

/-- Two pull requests, one of them in work. -/
def minuteInput : ScanInput where
  repoName := some "owner/repo".toList
  token := some "token".toList
  accessible := true
  search := some [⟨7, "Fix the network tests".toList⟩, ⟨8, "[WIP] net".toList⟩]

/-- The sample search gives one pull request. -/
theorem minuteInput_toProcess :
    toProcess ascii minuteInput = some [⟨7, "Fix the network tests".toList⟩] := by
  rfl

/-- The sample search lists it once. -/
theorem minuteInput_distinct :
    ((minuteInput.search.getD []).map PullRequest.number).Nodup := by
  decide

/-- Somebody asks for a review while a thread is between its look at the comments and its request.
-/
def minuteScan : Scan ascii where
  input := minuteInput
  events :=
    [.starts 7 (limitExecution 60 60),
      .commented 7 ⟨some "maintainer", reviewRequest, 1735689665, 1735689665⟩, .posts 7]
  distinct := minuteInput_distinct
  submitted := by
    rw [minuteInput_toProcess]
    exact List.Subperm.refl _

/-- The board without comments. -/
def quietBoard : Board := fun _ => ⟨[], none⟩

/-- Two such scans are a sequence of two executions. -/
theorem minute_scans_linearize :
    ∃ sequence : List Event,
      List.Forall₂ Completes (executions sequence) (startedOn 7 [minuteScan, minuteScan]) ∧
        remarksOf sequence = remarksOn 7 [minuteScan, minuteScan] ∧
        retries workflowService sequence (quietBoard 7).comments =
          (retriedBy workflowService [minuteScan, minuteScan] quietBoard).count 7 ∧
        (boardAfter workflowService [minuteScan, minuteScan] quietBoard 7).comments.Perm
          (commentsAfter workflowService sequence (quietBoard 7).comments) :=
  scans_linearize workflowService [minuteScan, minuteScan] quietBoard (fun _ => rfl) 7

/-- They trigger one review. -/
theorem minute_scans_request_once :
    (retriedBy workflowService [minuteScan, minuteScan] quietBoard).count 7 ≤ 1 ∧
      (7 ∈ retriedBy workflowService [minuteScan, minuteScan] quietBoard →
        ∃ scan ∈ [minuteScan, minuteScan],
          7 ∈ ((toProcess ascii scan.input).getD []).map PullRequest.number) := by
  have nonnegative : (0 : ℚ) ≤ 60 := by norm_num
  apply scans_request_once workflowService (limitNotice 60 nonnegative)
  · intro wait epoch announced
    exact ⟨_, (limitNotice_announces 60 nonnegative wait epoch announced).2⟩
  · intro wait epoch announced
    rw [(limitNotice_announces 60 nonnegative wait epoch announced).1]
    exact ⟨by decide, by norm_num⟩
  · exact fun _ => rfl
  · intro execution inside
    have one : startedOn 7 [minuteScan, minuteScan] =
        [limitExecution 60 60, limitExecution 60 60] := rfl
    rw [one, List.mem_cons, List.mem_singleton, or_self] at inside
    subst inside
    right
    simp [limitExecution, limitReport, checkRateLimit, validateRateLimitPayload, payloadGet,
      Dict.update, Dict.get_set, validRateLimited, validWaitSeconds, validUpdatedAt, limitNotice]

end VirtTestTools.CodeRabbit
