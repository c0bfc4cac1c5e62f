import Mathlib.Data.Rat.Floor
import Mathlib.Tactic.Linarith
import VirtTestTools.Dict
import VirtTestTools.Text

/-!
# Retries of rate-limited reviews

`coderabbit_retry.py` asks for another review when a rate-limit notice is older than the wait it
announces, unless a review has been requested since the notice. `process_pr` handles one pull
request: it checks the notice, waits, looks for requests among the comments and posts one.

Times are seconds of one clock. The notice carries a whole second, the clock of the wait check is
not rounded, and a comment is dated to the second in which it was created. Requests are searched
with a strict comparison, so a request of the same second as the notice is not found. The result of
the module is for which notices at most one request is posted, over all sequences of executions.
-/

namespace VirtTestTools.CodeRabbit

open Text

/-! ## The notice -/

/-- A value of the parsed JSON payload. -/
inductive Value
  | null
  | bool (value : Bool)
  | number (value : ℚ)
  | notFinite
  | str (text : String)
  | other

/-- What `process_pr` reads of a validated payload; absent keys and `None` are alike. -/
structure CheckResult where
  rateLimited : Option Bool
  waitSeconds : Option ℚ
  updatedAt : Option String
  nonnegative : ∀ wait ∈ waitSeconds, 0 ≤ wait

/-- `payload.get(key)`. -/
def payloadGet (payload : Dict String Value) (key : String) : Value := (payload.get key).getD .null

/-- The check of `rate_limited`. -/
def validRateLimited : Value → Option (Option Bool)
  | .null => some none
  | .bool value => some (some value)
  | _ => none

/-- The check of `wait_seconds`: a finite number, not a boolean and not negative. -/
def validWaitSeconds : Value → Option { wait : Option ℚ // ∀ value ∈ wait, 0 ≤ value }
  | .null => some ⟨none, by simp⟩
  | .number value =>
    if nonnegative : 0 ≤ value then some ⟨some value, by simpa using nonnegative⟩ else none
  | _ => none

/-- The check of `updated_at`. -/
def validUpdatedAt : Value → Option (Option String)
  | .null => some none
  | .str text => some (some text)
  | _ => none

/-- `_validate_rate_limit_payload`. -/
def validateRateLimitPayload (payload : Dict String Value) : Option CheckResult := do
  let rateLimited ← validRateLimited (payloadGet payload "rate_limited")
  let waitSeconds ← validWaitSeconds (payloadGet payload "wait_seconds")
  let updatedAt ← validUpdatedAt (payloadGet payload "updated_at")
  return ⟨rateLimited, waitSeconds.val, updatedAt, waitSeconds.property⟩

/-- What the standard output of `myk-pi-tools` is parsed as. -/
inductive CliOutput
  | invalid
  | notDict
  | dict (payload : Dict String Value)

/-- How the run of `myk-pi-tools` ends: it cannot be run or times out, or it exits. -/
inductive CliOutcome
  | failed
  | exited (returncode : Int) (stdout : CliOutput)

/-- `check_rate_limit`. -/
def checkRateLimit : CliOutcome → Option CheckResult
  | .exited returncode (.dict payload) =>
    if returncode ≠ 0 then none else validateRateLimitPayload payload
  | _ => none

/-! ## Comments -/

/-- A comment of the pull request, dated to whole seconds. -/
structure Comment where
  user : Option String
  body : Text
  createdAt : Int
  updatedAt : Int

/-- `@coderabbitai\s+(review|resume)`, anchored and without regard to case. -/
def reviewRequestHead (text : Text) : Bool :=
  match literalIgnoringCase "@coderabbitai".toList text with
  | some (character :: rest) =>
    isSpace character &&
      ((literalIgnoringCase "review".toList (lstrip rest)).isSome ||
        (literalIgnoringCase "resume".toList (lstrip rest)).isSome)
  | _ => false

/-- `REVIEW_REQUEST_PATTERN.search`. -/
def isReviewRequest : Text → Bool
  | [] => false
  | character :: rest => reviewRequestHead (character :: rest) || isReviewRequest rest

/-- The account of the reviewer. -/
def botLogin : String := "coderabbitai[bot]"

/-- Whether a comment is a request that was posted after the given time. -/
def requestsAfter (afterEpoch : ℚ) (comment : Comment) : Bool :=
  decide (comment.user ≠ some botLogin) && isReviewRequest comment.body &&
    decide ((comment.createdAt : ℚ) > afterEpoch)

/-- `get_comments(since=...)`: the comments updated since then. A failure comes after the given
number of comments. -/
def getComments (since : ℚ) (failure : Option Nat) (comments : List Comment) :
    List Comment × Bool :=
  let listed := comments.filter fun comment => decide (since ≤ (comment.updatedAt : ℚ))
  match failure with
  | none => (listed, false)
  | some delivered => (listed.take delivered, true)

/-- `has_review_request_after`. -/
def hasReviewRequestAfter (fetched : List Comment × Bool) (afterEpoch : ℚ) : Option Bool :=
  if fetched.1.any (requestsAfter afterEpoch) then some true
  else if fetched.2 then none
  else some false

/-! ## Executions -/

/-- What the executions share: the account whose token they use, and the reading of dates. -/
structure Service where
  login : String
  /-- `datetime.fromisoformat(text).timestamp()`; `none` is a `ValueError`. -/
  fromIsoFormat : String → Option ℚ

/-- What one execution meets: the report of `myk-pi-tools`, the clock, the failures of the calls,
and the time at which a comment of it is created. -/
structure Execution where
  check : CliOutcome
  now : ℚ
  fetchFailure : Option Nat := none
  creates : Bool := true
  createdAt : ℚ
  later : now ≤ createdAt

/-- The body that `trigger_review` posts. -/
def reviewRequest : Text := "@coderabbitai review".toList

/-- The comment of an execution, dated to its second. -/
def Execution.comment (service : Service) (execution : Execution) : Comment where
  user := some service.login
  body := reviewRequest
  createdAt := ⌊execution.createdAt⌋
  updatedAt := ⌊execution.createdAt⌋

/-- `process_pr`: whether a review was triggered, and the comments behind it. -/
def processPr (service : Service) (execution : Execution) (comments : List Comment) :
    Bool × List Comment :=
  match checkRateLimit execution.check with
  | none => (false, comments)
  | some checkResult =>
    if checkResult.rateLimited ≠ some true then (false, comments)
    else
      match checkResult.waitSeconds, checkResult.updatedAt with
      | some waitSeconds, some updatedAt =>
        if updatedAt.isEmpty then (false, comments)
        else
          match service.fromIsoFormat updatedAt with
          | none => (false, comments)
          | some updatedAtEpoch =>
            let elapsed := execution.now - updatedAtEpoch
            if elapsed < waitSeconds then (false, comments)
            else
              match hasReviewRequestAfter
                (getComments updatedAtEpoch execution.fetchFailure comments) updatedAtEpoch with
              | none => (false, comments)
              | some true => (false, comments)
              | some false =>
                if execution.creates then (true, comments ++ [execution.comment service])
                else (false, comments)
      | _, _ => (false, comments)

/-- An event on the pull request: an execution, or somebody's comment. -/
inductive Event
  | executed (execution : Execution)
  | commented (comment : Comment)

/-- What an event does: whether a review was triggered, and the comments behind it. -/
def Event.run (service : Service) (comments : List Comment) : Event → Bool × List Comment
  | .executed execution => processPr service execution comments
  | .commented comment => (false, comments ++ [comment])

/-- How many reviews the executions of a sequence trigger. -/
def retries (service : Service) : List Event → List Comment → Nat
  | [], _ => 0
  | event :: events, comments =>
    (if (event.run service comments).1 then 1 else 0) +
      retries service events (event.run service comments).2

/-- The executions of a sequence. -/
def executions (events : List Event) : List Execution :=
  events.filterMap fun
    | .executed execution => some execution
    | .commented _ => none

/-- Every check that succeeds reports the notice. -/
def Reports (notice : CheckResult) (events : List Event) : Prop :=
  ∀ execution ∈ executions events,
    checkRateLimit execution.check = none ∨ checkRateLimit execution.check = some notice

/-- The executions do not overlap. -/
def Sequential (events : List Event) : Prop :=
  (executions events).Pairwise fun earlier later => earlier.createdAt ≤ later.now

/-- A rate limit is announced with a wait and the time of the notice. -/
def Announces (service : Service) (notice : CheckResult) (waitSeconds updatedAtEpoch : ℚ) : Prop :=
  notice.rateLimited = some true ∧ notice.waitSeconds = some waitSeconds ∧
    ∃ updatedAt, notice.updatedAt = some updatedAt ∧ updatedAt.isEmpty = false ∧
      service.fromIsoFormat updatedAt = some updatedAtEpoch

/-- A request since the notice that every later execution finds. -/
def Requested (updatedAtEpoch : ℚ) (comments : List Comment) : Prop :=
  ∃ comment ∈ comments, requestsAfter updatedAtEpoch comment = true ∧
    updatedAtEpoch ≤ (comment.updatedAt : ℚ)

/-! ## One execution -/

section Steps

variable {service : Service} {notice : CheckResult} {waitSeconds updatedAtEpoch : ℚ}

/-- What an execution does: nothing, or it posts its comment. It posts when a rate limit is
announced whose wait has elapsed, the comments were fetched without a request since the notice,
and the comment is created. -/
theorem processPr_cases (execution : Execution) (comments : List Comment) :
    processPr service execution comments = (false, comments) ∨
      processPr service execution comments = (true, comments ++ [execution.comment service]) ∧
        ∃ notice waitSeconds updatedAtEpoch,
          checkRateLimit execution.check = some notice ∧
          Announces service notice waitSeconds updatedAtEpoch ∧
          updatedAtEpoch + waitSeconds ≤ execution.now ∧
          hasReviewRequestAfter (getComments updatedAtEpoch execution.fetchFailure comments)
            updatedAtEpoch = some false ∧
          execution.creates = true := by
  unfold processPr
  split
  · exact Or.inl rfl
  · rename_i checkResult reported
    split
    · exact Or.inl rfl
    · rename_i limited
      split
      · rename_i wait updatedAt waits dated
        split
        · exact Or.inl rfl
        · rename_i written
          split
          · exact Or.inl rfl
          · rename_i epoch parsed
            dsimp only
            split
            · exact Or.inl rfl
            · rename_i elapsed
              split
              · exact Or.inl rfl
              · exact Or.inl rfl
              · rename_i unrequested
                split
                · rename_i creates
                  refine Or.inr ⟨rfl, checkResult, wait, epoch, reported, ?_, ?_, unrequested,
                    creates⟩
                  · exact ⟨not_not.mp limited, waits, updatedAt, dated,
                      Bool.eq_false_iff.mpr written, parsed⟩
                  · linarith
                · exact Or.inl rfl
      · exact Or.inl rfl

/-- The announced values are determined by the notice. -/
theorem Announces.unique {otherWait otherEpoch : ℚ}
    (first : Announces service notice waitSeconds updatedAtEpoch)
    (second : Announces service notice otherWait otherEpoch) :
    waitSeconds = otherWait ∧ updatedAtEpoch = otherEpoch := by
  obtain ⟨-, waits, updatedAt, dated, -, parsed⟩ := first
  obtain ⟨-, otherWaits, otherUpdatedAt, otherDated, -, otherParsed⟩ := second
  rw [waits, Option.some.injEq] at otherWaits
  rw [dated, Option.some.injEq] at otherDated
  subst otherDated
  rw [parsed, Option.some.injEq] at otherParsed
  exact ⟨otherWaits, otherParsed⟩

/-- A request since the notice is found, unless fetching fails. -/
theorem hasReviewRequestAfter_of_requested (comments : List Comment) (failure : Option Nat)
    (requested : Requested updatedAtEpoch comments) :
    hasReviewRequestAfter (getComments updatedAtEpoch failure comments) updatedAtEpoch ≠
      some false := by
  obtain ⟨comment, member, requests, recent⟩ := requested
  cases failure with
  | none =>
    have found : (comments.filter fun comment =>
        decide (updatedAtEpoch ≤ (comment.updatedAt : ℚ))).any (requestsAfter updatedAtEpoch) =
          true :=
      List.any_eq_true.mpr ⟨comment, List.mem_filter.mpr ⟨member, decide_eq_true recent⟩, requests⟩
    simp [hasReviewRequestAfter, getComments, found]
  | some delivered =>
    simp only [hasReviewRequestAfter, getComments, ↓reduceIte, ne_eq]
    split <;> simp

/-- Comments are never deleted. -/
theorem subset_run (event : Event) (comments : List Comment) :
    comments ⊆ (event.run service comments).2 := by
  cases event with
  | commented comment => exact List.subset_append_left _ _
  | executed execution =>
    rw [Event.run]
    rcases processPr_cases execution comments with idle | ⟨posts, -⟩
    · rw [idle]
      exact List.Subset.refl _
    · rw [posts]
      exact List.subset_append_left _ _

/-- A request stays behind an event. -/
theorem Requested.run {comments : List Comment} (requested : Requested updatedAtEpoch comments)
    (event : Event) :
    Requested updatedAtEpoch (event.run service comments).2 := by
  obtain ⟨comment, member, requests⟩ := requested
  exact ⟨comment, subset_run event comments member, requests⟩

/-- An execution with an announced rate limit whose wait has elapsed posts, if nothing fails and no
request is found. -/
theorem processPr_posts (execution : Execution) (comments : List Comment)
    (reported : checkRateLimit execution.check = some notice)
    (announced : Announces service notice waitSeconds updatedAtEpoch)
    (elapsed : updatedAtEpoch + waitSeconds ≤ execution.now)
    (unrequested : hasReviewRequestAfter
      (getComments updatedAtEpoch execution.fetchFailure comments) updatedAtEpoch = some false)
    (creates : execution.creates = true) :
    processPr service execution comments = (true, comments ++ [execution.comment service]) := by
  obtain ⟨limited, waits, updatedAt, dated, written, parsed⟩ := announced
  have waited : ¬ execution.now - updatedAtEpoch < waitSeconds := by linarith
  simp [processPr, reported, limited, waits, dated, written, parsed, waited, unrequested, creates]

end Steps

/-! ## Sequences of executions -/

section Runs

variable {service : Service} {notice : CheckResult}

/-- The later events report the notice too. -/
theorem Reports.tail {event : Event} {events : List Event} (reports : Reports notice (event :: events)) :
    Reports notice events := by
  intro execution member
  apply reports execution
  obtain ⟨other, inside, same⟩ := List.mem_filterMap.mp member
  exact List.mem_filterMap.mpr ⟨other, List.mem_cons_of_mem _ inside, same⟩

/-- A check that succeeds reports the notice. -/
theorem Reports.check {execution : Execution} {events : List Event}
    (reports : Reports notice (.executed execution :: events)) {reported : CheckResult}
    (checked : checkRateLimit execution.check = some reported) : reported = notice := by
  rcases reports execution (by simp [executions]) with failed | same
  · rw [failed] at checked
    cases checked
  · rw [same, Option.some.injEq] at checked
    exact checked.symm

/-- Behind a request since the notice nothing is posted.

Proof: by induction on the events; comments are never deleted, so every execution finds the
request or fails to fetch the comments. -/
theorem retries_eq_zero (events : List Event) (comments : List Comment)
    (reports : Reports notice events)
    {waitSeconds updatedAtEpoch : ℚ} (announced : Announces service notice waitSeconds updatedAtEpoch)
    (requested : Requested updatedAtEpoch comments) : retries service events comments = 0 := by
  induction events generalizing comments with
  | nil => rfl
  | cons event events inductionHypothesis =>
    have silent : (event.run service comments).1 = false := by
      cases event with
      | commented comment => rfl
      | executed execution =>
        rw [Event.run]
        rcases processPr_cases execution comments with idle | ⟨-, other, wait, epoch, checked,
          otherAnnounced, -, unrequested, -⟩
        · rw [idle]
        · rw [reports.check checked] at otherAnnounced
          rw [← (announced.unique otherAnnounced).2] at unrequested
          exact absurd unrequested (hasReviewRequestAfter_of_requested comments _ requested)
    have kept : Requested updatedAtEpoch (event.run service comments).2 := requested.run event
    have rest := inductionHypothesis _ reports.tail kept
    rw [retries, silent, rest]
    rfl

/-- The comment of an execution a second after the notice is found by the later ones. -/
theorem requested_comment (execution : Execution) (comments : List Comment) (second : Int)
    (account : service.login ≠ botLogin) (late : (second : ℚ) + 1 ≤ execution.createdAt) :
    Requested second (comments ++ [execution.comment service]) := by
  have dated : second + 1 ≤ ⌊execution.createdAt⌋ := by
    rw [Int.le_floor]
    push_cast
    exact late
  have after : (second : ℚ) < (⌊execution.createdAt⌋ : Int) := by
    exact_mod_cast Int.lt_of_add_one_le dated
  refine ⟨execution.comment service, by simp, ?_, le_of_lt after⟩
  have request : isReviewRequest reviewRequest = true := by decide +kernel
  simp [requestsAfter, Execution.comment, account, request, after]

/-- The dates of notices are whole seconds. -/
def WholeSeconds (service : Service) (notice : CheckResult) : Prop :=
  ∀ waitSeconds updatedAtEpoch, Announces service notice waitSeconds updatedAtEpoch →
    ∃ second : Int, updatedAtEpoch = second

/-- With a wait of a second at least one review is triggered at most.

Proof: by induction on the events. The first posted comment is dated to a later second than the
notice, so that nothing is posted behind it. -/
theorem retries_le_one (whole : WholeSeconds service notice)
    (patient : ∀ waitSeconds updatedAtEpoch,
      Announces service notice waitSeconds updatedAtEpoch →
        service.login ≠ botLogin ∧ 1 ≤ waitSeconds)
    (events : List Event) (comments : List Comment) (reports : Reports notice events) :
    retries service events comments ≤ 1 := by
  induction events generalizing comments with
  | nil => exact Nat.zero_le 1
  | cons event events inductionHypothesis =>
    have rest := inductionHypothesis (event.run service comments).2 reports.tail
    rw [retries]
    cases event with
    | commented comment =>
      rw [if_neg (by simp [Event.run]), Nat.zero_add]
      exact rest
    | executed execution =>
      rw [Event.run] at rest ⊢
      rcases processPr_cases execution comments with idle | ⟨posts, other, wait, epoch, checked,
        announced, elapsed, -, -⟩
      · rw [idle] at rest ⊢
        rw [if_neg (by simp), Nat.zero_add]
        exact rest
      · rw [reports.check checked] at announced
        obtain ⟨second, rfl⟩ := whole wait epoch announced
        obtain ⟨account, waits⟩ := patient wait second announced
        have late : (second : ℚ) + 1 ≤ execution.createdAt := by
          have read := execution.later
          linarith
        have none := retries_eq_zero events _ reports.tail announced
          (requested_comment execution comments second account late)
        rw [posts]
        simp only [↓reduceIte, none]
        exact Nat.le_refl 1

/-- Every notice can be reported. -/
theorem exists_check (notice : CheckResult) : ∃ check, checkRateLimit check = some notice := by
  obtain ⟨rateLimited, waitSeconds, updatedAt, nonnegative⟩ := notice
  refine ⟨.exited 0 (.dict ((Dict.empty).update
    [("rate_limited", (rateLimited.map Value.bool).getD .null),
      ("wait_seconds", (waitSeconds.map Value.number).getD .null),
      ("updated_at", (updatedAt.map Value.str).getD .null)])), ?_⟩
  have limited : validRateLimited ((rateLimited.map Value.bool).getD .null) = some rateLimited := by
    cases rateLimited <;> rfl
  have waits : validWaitSeconds ((waitSeconds.map Value.number).getD .null) =
      some ⟨waitSeconds, nonnegative⟩ := by
    cases waitSeconds with
    | none => rfl
    | some wait => simp [validWaitSeconds, nonnegative wait rfl]
  have dated : validUpdatedAt ((updatedAt.map Value.str).getD .null) = some updatedAt := by
    cases updatedAt <;> rfl
  simp only [checkRateLimit, ne_eq, not_true_eq_false, ↓reduceIte, validateRateLimitPayload, payloadGet,
    Dict.update, List.foldl_cons, List.foldl_nil, Dict.get_set, String.reduceEq, Option.getD_some,
    limited, waits, dated]
  rfl

/-- An execution at the end of the wait whose comment the next one does not count is repeated. -/
theorem retries_repeated {waitSeconds updatedAtEpoch : ℚ} (execution : Execution)
    (reported : checkRateLimit execution.check = some notice)
    (announced : Announces service notice waitSeconds updatedAtEpoch)
    (elapsed : updatedAtEpoch + waitSeconds ≤ execution.now)
    (fetches : execution.fetchFailure = none) (creates : execution.creates = true)
    (uncounted : requestsAfter updatedAtEpoch (execution.comment service) = false) :
    retries service [.executed execution, .executed execution] [] = 2 := by
  have unrequested (comments : List Comment)
      (all : ∀ comment ∈ comments, requestsAfter updatedAtEpoch comment = false) :
      hasReviewRequestAfter (getComments updatedAtEpoch execution.fetchFailure comments)
        updatedAtEpoch = some false := by
    have none : (comments.filter fun comment =>
        decide (updatedAtEpoch ≤ (comment.updatedAt : ℚ))).any (requestsAfter updatedAtEpoch) =
          false := by
      rw [List.any_eq_false]
      intro comment member
      rw [all comment (List.mem_of_mem_filter member)]
      exact Bool.false_ne_true
    simp [hasReviewRequestAfter, getComments, fetches, none]
  have first := processPr_posts execution [] reported announced elapsed (unrequested [] (by simp))
    creates
  have second := processPr_posts execution [execution.comment service] reported announced elapsed
    (unrequested _ (by simpa using uncounted)) creates
  simp only [List.nil_append] at first
  simp only [retries, Event.run, first, second, ↓reduceIte]

/-- At most one retry for a notice. For every notice that is dated to a whole second, all sequences
of executions that do not overlap and report the notice trigger one review at most, from whatever
comments they start and whatever is commented in between, exactly when the notice announces no rate
limit or a wait of a second at least, and the executions do not act for the reviewer's account.

Proof: with a shorter wait an execution may post in the second of the notice. Its comment is not
counted by the next execution. -/
theorem at_most_one_retry_iff (service : Service) (notice : CheckResult)
    (whole : WholeSeconds service notice) :
    (∀ events comments, Reports notice events → Sequential events →
      retries service events comments ≤ 1) ↔
      ∀ waitSeconds updatedAtEpoch, Announces service notice waitSeconds updatedAtEpoch →
        service.login ≠ botLogin ∧ 1 ≤ waitSeconds := by
  constructor
  · intro once waitSeconds updatedAtEpoch announced
    obtain ⟨second, rfl⟩ := whole waitSeconds updatedAtEpoch announced
    obtain ⟨check, reported⟩ := exists_check notice
    have nonnegative := notice.nonnegative waitSeconds announced.2.1
    let execution : Execution :=
      { check := check, now := second + waitSeconds, createdAt := second + waitSeconds
        later := le_refl _ }
    have counted : requestsAfter second (execution.comment service) = true := by
      by_contra uncounted
      have twice := retries_repeated execution reported announced (le_refl _) rfl rfl
        (Bool.eq_false_iff.mpr uncounted)
      have atMost := once [.executed execution, .executed execution] [] (by
        intro other member
        have same : other = execution := by simpa [executions] using member
        rw [same]
        exact Or.inr reported) (by simp [Sequential, executions, execution])
      omega
    obtain ⟨others, after⟩ := Bool.and_eq_true_iff.mp counted
    obtain ⟨account, -⟩ := Bool.and_eq_true_iff.mp others
    refine ⟨fun same => of_decide_eq_true account (congrArg some same), ?_⟩
    have later : (second : ℚ) < (⌊(second : ℚ) + waitSeconds⌋ : Int) := of_decide_eq_true after
    have next : second + 1 ≤ ⌊(second : ℚ) + waitSeconds⌋ := by
      exact_mod_cast later
    rw [Int.le_floor] at next
    push_cast at next
    linarith
  · intro patient events comments reports _
    exact retries_le_one whole patient events comments reports

end Runs

/-! ## Short waits -/

/-- The token of the workflow, and the date of one notice. -/
def workflowService : Service where
  login := "github-actions[bot]"
  fromIsoFormat text := if text = "2025-01-01T00:00:00+00:00" then some 1735689600 else none

/-- A notice of that date with a wait. -/
def limitNotice (waitSeconds : ℚ) (nonnegative : 0 ≤ waitSeconds) : CheckResult where
  rateLimited := some true
  waitSeconds := some waitSeconds
  updatedAt := some "2025-01-01T00:00:00+00:00"
  nonnegative := by simpa using nonnegative

/-- The report of the notice. -/
def limitReport (waitSeconds : ℚ) : CliOutcome :=
  .exited 0 (.dict ((Dict.empty).update
    [("rate_limited", .bool true), ("wait_seconds", .number waitSeconds),
      ("updated_at", .str "2025-01-01T00:00:00+00:00")]))

/-- An execution that runs the given time after the notice. -/
def limitExecution (waitSeconds after : ℚ) : Execution where
  check := limitReport waitSeconds
  now := 1735689600 + after
  createdAt := 1735689600 + after
  later := le_refl _

/-- The sample notice announces its wait. -/
theorem limitNotice_announces (waitSeconds : ℚ) (nonnegative : 0 ≤ waitSeconds) (wait epoch : ℚ)
    (announced : Announces workflowService (limitNotice waitSeconds nonnegative) wait epoch) :
    wait = waitSeconds ∧ epoch = (1735689600 : Int) := by
  have own : Announces workflowService (limitNotice waitSeconds nonnegative) waitSeconds
      (1735689600 : Int) :=
    ⟨rfl, rfl, _, rfl, by decide, by simp [workflowService]⟩
  exact announced.unique own

/-- With a wait of a minute two executions post once. -/
theorem minute_wait_retried_once :
    retries workflowService
      [.executed (limitExecution 60 60), .executed (limitExecution 60 90)] [] ≤ 1 := by
  have nonnegative : (0 : ℚ) ≤ 60 := by norm_num
  have reported (after : ℚ) :
      checkRateLimit (limitExecution 60 after).check = some (limitNotice 60 nonnegative) := by
    simp [limitExecution, limitReport, checkRateLimit, validateRateLimitPayload, payloadGet,
      Dict.update, Dict.get_set, validRateLimited, validWaitSeconds, validUpdatedAt, limitNotice]
  refine (at_most_one_retry_iff workflowService (limitNotice 60 nonnegative) ?_).mpr ?_ _ _ ?_ ?_
  · intro wait epoch announced
    exact ⟨_, (limitNotice_announces 60 nonnegative wait epoch announced).2⟩
  · intro wait epoch announced
    rw [(limitNotice_announces 60 nonnegative wait epoch announced).1]
    exact ⟨by decide, by norm_num⟩
  · intro execution member
    simp only [executions, List.filterMap_cons, List.filterMap_nil, List.mem_cons, List.not_mem_nil,
      or_false] at member
    rcases member with rfl | rfl
    · exact Or.inr (reported 60)
    · exact Or.inr (reported 90)
  · simp [Sequential, executions, limitExecution]
    norm_num

/-- Without a wait two executions in the second of the notice post twice. -/
theorem no_wait_retried_twice :
    (limitExecution 0 (1 / 4)).createdAt ≤ (limitExecution 0 (1 / 2)).now ∧
      (checkRateLimit (limitReport 0)).isSome = true ∧
      retries workflowService
        [.executed (limitExecution 0 (1 / 4)), .executed (limitExecution 0 (1 / 2))] [] = 2 := by
  refine ⟨by decide +kernel, by decide +kernel, by decide +kernel⟩

end VirtTestTools.CodeRabbit
