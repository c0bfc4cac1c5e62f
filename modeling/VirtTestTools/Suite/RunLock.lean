import Mathlib.Data.Fintype.Basic
import Mathlib.Logic.Function.Basic
import VirtTestTools.GuardedRuns

/-!
# One run at a time

A session must not run against a cluster on which another one runs. When it starts, it looks for a
config map in a namespace of its own; if there is none, it creates both. When it finishes, it
deletes the config map and then the namespace. Everything in between may be interleaved with the
steps of other sessions, and a session may be killed at any moment. The message that a refused
session leaves asks to delete the config map by hand, after verifying that nobody performs tests.

A session whose start has raised does not finish: the hook is called for sessions that have started.
Of the cluster no more is used than that what exists cannot be created, that nothing can be created
in a namespace that is missing or being deleted, and that a namespace is deleted with all it
contains, some time after it has been asked for. -/

namespace VirtTestTools.Suite

open GuardedRuns

/-! ## The cluster -/

/-- The phase of the namespace. -/
inductive NamespacePhase
  | absent
  | active
  | terminating
deriving DecidableEq

/-- The namespace `cnv-tests-run-in-progress-ns`, and whether it has the config map
`cnv-tests-run-in-progress`. -/
structure Cluster where
  namespacePhase : NamespacePhase
  configMap : Bool
deriving DecidableEq

/-! ## A session -/

/-- What the namespace is deployed for: a config map is created in it, or it is deleted. -/
inductive Purpose
  | create
  | cleanUp
deriving DecidableEq

/-- The next thing a session does. -/
inductive Stage
  /-- `stop_if_run_in_progress`. -/
  | stopIfRunInProgress
  /-- `deploy_run_in_progress_namespace` looks for the namespace. -/
  | findNamespace (purpose : Purpose)
  | deployNamespace (purpose : Purpose)
  /-- It waits for the namespace that it has created, and labels it. -/
  | waitForActive (purpose : Purpose)
  /-- `deploy_run_in_progress_config_map`. -/
  | deployConfigMap
  /-- The tests are run. -/
  | running
  /-- `pytest_sessionfinish` is called. -/
  | cleanUpConfigMap
  | cleanUpNamespace
  | ended
deriving DecidableEq

/-- What is done with the namespace. -/
def Purpose.next : Purpose → Stage
  | create => .deployConfigMap
  | cleanUp => .cleanUpNamespace

/-- One request of a session. What raises ends it. -/
def sessionStep (cluster : Cluster) : Stage → Cluster × Stage
  | .stopIfRunInProgress =>
    if cluster.configMap then (cluster, .ended) else (cluster, .findNamespace .create)
  | .findNamespace purpose =>
    if cluster.namespacePhase = .absent then (cluster, .deployNamespace purpose)
    else (cluster, purpose.next)
  | .deployNamespace purpose =>
    if cluster.namespacePhase = .absent then
      ({ cluster with namespacePhase := .active }, .waitForActive purpose)
    else (cluster, .ended)
  | .waitForActive purpose =>
    if cluster.namespacePhase = .active then (cluster, purpose.next) else (cluster, .ended)
  | .deployConfigMap =>
    if cluster.namespacePhase = .active ∧ cluster.configMap = false then
      ({ cluster with configMap := true }, .running)
    else (cluster, .ended)
  | .running => (cluster, .cleanUpConfigMap)
  | .cleanUpConfigMap => ({ cluster with configMap := false }, .findNamespace .cleanUp)
  | .cleanUpNamespace =>
    if cluster.namespacePhase = .active then
      ({ cluster with namespacePhase := .terminating }, .ended)
    else (cluster, .ended)
  | .ended => (cluster, .ended)

/-- A session runs tests, or has not given up its config map yet. -/
def Stage.Holds (stage : Stage) : Prop := stage = .running ∨ stage = .cleanUpConfigMap

instance (stage : Stage) : Decidable stage.Holds := inferInstanceAs (Decidable (_ ∨ _))

/-- A session has deleted its config map and goes on to the namespace. -/
def Stage.CleansUp (stage : Stage) : Prop :=
  stage = .findNamespace .cleanUp ∨ stage = .deployNamespace .cleanUp ∨
    stage = .waitForActive .cleanUp ∨ stage = .cleanUpNamespace

instance (stage : Stage) : Decidable stage.CleansUp := inferInstanceAs (Decidable (_ ∨ _))

/-! ## All sessions -/

variable {ι : Type} [DecidableEq ι]

/-- A cluster with the sessions that use it. -/
structure LockState (ι : Type) where
  cluster : Cluster
  stage : ι → Stage

/-- What happens to the lock. -/
inductive LockEvent (ι : Type)
  /-- A session goes on. -/
  | goesOn (session : ι)
  | killed (session : ι)
  /-- The cluster completes the deletion of the namespace. -/
  | finalized
  /-- Somebody deletes the config map by hand. -/
  | removed

/-- The state behind an event. -/
def lockStep (state : LockState ι) : LockEvent ι → LockState ι
  | .goesOn session =>
    let (cluster, stage) := sessionStep state.cluster (state.stage session)
    ⟨cluster, Function.update state.stage session stage⟩
  | .killed session => { state with stage := Function.update state.stage session .ended }
  | .finalized =>
    if state.cluster.namespacePhase = .terminating then { state with cluster := ⟨.absent, false⟩ }
    else state
  | .removed => { state with cluster := { state.cluster with configMap := false } }

/-- The config map is deleted by hand as the message asks, and no session creates it while another
one is about to delete the namespace. -/
def Orderly (state : LockState ι) : LockEvent ι → Prop
  | .goesOn session =>
    state.stage session = .deployConfigMap → ∀ other, ¬(state.stage other).CleansUp
  | .removed => ∀ session, ¬(state.stage session).Holds
  | _ => True

instance [Fintype ι] (state : LockState ι) : (event : LockEvent ι) → Decidable (Orderly state event)
  | .goesOn session =>
    inferInstanceAs (Decidable (state.stage session = .deployConfigMap →
      ∀ other, ¬(state.stage other).CleansUp))
  | .removed => inferInstanceAs (Decidable (∀ session, ¬(state.stage session).Holds))
  | .killed _ => inferInstanceAs (Decidable True)
  | .finalized => inferInstanceAs (Decidable True)

/-- Every session is about to start. -/
def LockState.Initial (state : LockState ι) : Prop :=
  ∀ session, state.stage session = .stopIfRunInProgress

/-! ## Exclusion -/

/-- The session that runs is the only one, its config map is there, and the namespace stays. -/
structure Exclusive (state : LockState ι) : Prop where
  alone : ∀ first second, (state.stage first).Holds → (state.stage second).Holds → first = second
  kept : ∀ session, (state.stage session).Holds →
    state.cluster.configMap = true ∧ state.cluster.namespacePhase = .active
  quiet : ∀ session other, (state.stage session).Holds → ¬(state.stage other).CleansUp

/-- What a request can do: take the lock, go on to the finish, give the lock up, or something else
that leaves the config map as it is. -/
theorem sessionStep_cases (cluster : Cluster) (stage : Stage) :
    (stage = .deployConfigMap ∧ cluster.namespacePhase = .active ∧ cluster.configMap = false ∧
        sessionStep cluster stage = ({ cluster with configMap := true }, .running)) ∨
      (stage.Holds ∧ sessionStep cluster stage = (cluster, .cleanUpConfigMap)) ∨
      (stage.Holds ∧ sessionStep cluster stage =
        ({ cluster with configMap := false }, .findNamespace .cleanUp)) ∨
      (¬stage.Holds ∧ ¬(sessionStep cluster stage).2.Holds ∧
        ((sessionStep cluster stage).2.CleansUp → stage.CleansUp) ∧
        (sessionStep cluster stage).1.configMap = cluster.configMap ∧
        ((sessionStep cluster stage).1.namespacePhase = cluster.namespacePhase ∨
          cluster.namespacePhase = .absent ∨ stage.CleansUp)) := by
  cases stage with
  | stopIfRunInProgress =>
    right; right; right
    simp only [sessionStep]
    split <;> simp [Stage.Holds, Stage.CleansUp]
  | findNamespace purpose =>
    right; right; right
    simp only [sessionStep]
    split <;> cases purpose <;> simp [Stage.Holds, Stage.CleansUp, Purpose.next]
  | deployNamespace purpose =>
    right; right; right
    simp only [sessionStep]
    split
    · rename_i absent
      cases purpose <;> simp [Stage.Holds, Stage.CleansUp, absent]
    · simp [Stage.Holds, Stage.CleansUp]
  | waitForActive purpose =>
    right; right; right
    simp only [sessionStep]
    split <;> cases purpose <;> simp [Stage.Holds, Stage.CleansUp, Purpose.next]
  | deployConfigMap =>
    by_cases free : cluster.namespacePhase = .active ∧ cluster.configMap = false
    · exact .inl ⟨rfl, free.1, free.2, if_pos free⟩
    · right; right; right
      simp [sessionStep, free, Stage.Holds, Stage.CleansUp]
  | running => exact .inr (.inl ⟨.inl rfl, rfl⟩)
  | cleanUpConfigMap => exact .inr (.inr (.inl ⟨.inr rfl, rfl⟩))
  | cleanUpNamespace =>
    right; right; right
    simp only [sessionStep]
    split <;> simp [Stage.Holds, Stage.CleansUp]
  | ended => right; right; right; simp [sessionStep, Stage.Holds, Stage.CleansUp]

/-- The stages of the sessions behind a step of one of them. -/
theorem update_stage {state : LockState ι} {session other : ι} {stage : Stage}
    {holds : Stage → Prop}
    (after : holds (Function.update state.stage session stage other)) :
    (other = session ∧ holds stage) ∨ (other ≠ session ∧ holds (state.stage other)) := by
  by_cases same : other = session
  · subst same
    rw [Function.update_self] at after
    exact .inl ⟨rfl, after⟩
  · rw [Function.update_of_ne same] at after
    exact .inr ⟨same, after⟩

/-- What holds of a stage behind a step of a session has held before, unless it holds of the stage
that the session enters. -/
theorem before_update {state : LockState ι} {session other : ι} {stage : Stage}
    {holds : Stage → Prop} (never : ¬holds stage)
    (after : holds (Function.update state.stage session stage other)) :
    holds (state.stage other) := by
  rcases update_stage after with ⟨-, entered⟩ | ⟨-, before⟩
  · exact absurd entered never
  · exact before

/-- An ended session does not hold the lock. -/
theorem ended_not_holds : ¬Stage.Holds .ended := by simp [Stage.Holds]

/-- An ended session does not clean up. -/
theorem ended_not_cleansUp : ¬Stage.CleansUp .ended := by simp [Stage.CleansUp]

omit [DecidableEq ι] in
/-- If no session runs, there is nothing to exclude. -/
theorem exclusive_of_idle (state : LockState ι) (idle : ∀ session, ¬(state.stage session).Holds) :
    Exclusive state :=
  ⟨fun first _ holds => absurd holds (idle first), fun session holds => absurd holds (idle session),
    fun session _ holds => absurd holds (idle session)⟩

omit [DecidableEq ι] in
/-- The lock is exclusive in an initial state. -/
theorem exclusive_initial (state : LockState ι) (initial : state.Initial) : Exclusive state := by
  apply exclusive_of_idle
  intro session
  rw [initial session]
  simp [Stage.Holds]

/-- A session with the lock excludes the others if none of them runs or cleans up. -/
theorem exclusive_of_only (state : LockState ι) (session : ι) (cluster : Cluster) (stage : Stage)
    (locked : cluster.configMap = true) (active : cluster.namespacePhase = .active)
    (own : ¬stage.CleansUp) (only : ∀ other, (state.stage other).Holds → other = session)
    (quiet : ∀ other, ¬(state.stage other).CleansUp) :
    Exclusive ⟨cluster, Function.update state.stage session stage⟩ := by
  have isHolder {other : ι} (holds : (Function.update state.stage session stage other).Holds) :
      other = session := by
    rcases update_stage holds with ⟨same, -⟩ | ⟨-, before⟩
    · exact same
    · exact only other before
  refine ⟨?_, fun _ _ => ⟨locked, active⟩, ?_⟩
  · intro first second firstHolds secondHolds
    exact (isHolder firstHolds).trans (isHolder secondHolds).symm
  · intro _ other _ cleans
    exact quiet other (before_update own cleans)

/-- A session that goes on keeps the lock exclusive. -/
theorem exclusive_goesOn (state : LockState ι) (session : ι) (exclusive : Exclusive state)
    (orderly : Orderly state (.goesOn session)) : Exclusive (lockStep state (.goesOn session)) := by
  rcases sessionStep_cases state.cluster (state.stage session) with
    ⟨atDeploy, active, free, taken⟩ | ⟨held, goes⟩ | ⟨held, gives⟩ |
      ⟨idle, stays, cleaning, sameMap, sameNamespace⟩
  · rw [lockStep, taken]
    apply exclusive_of_only
    · rfl
    · exact active
    · simp [Stage.CleansUp]
    · -- The lock was free, so nobody has held it.
      intro other holds
      rw [(exclusive.kept other holds).1] at free
      cases free
    · exact orderly atDeploy
  · obtain ⟨locked, active⟩ := exclusive.kept session held
    rw [lockStep, goes]
    apply exclusive_of_only
    · exact locked
    · exact active
    · simp [Stage.CleansUp]
    · exact fun other holds => exclusive.alone other session holds held
    · exact fun other => exclusive.quiet session other held
  · rw [lockStep, gives]
    apply exclusive_of_idle
    intro other holds
    rcases update_stage holds with ⟨-, finding⟩ | ⟨apart, before⟩
    · simp [Stage.Holds] at finding
    · exact apart (exclusive.alone other session before held)
  · rw [lockStep]
    refine ⟨?_, ?_, ?_⟩
    · intro first second firstHolds secondHolds
      exact exclusive.alone first second (before_update stays firstHolds)
        (before_update stays secondHolds)
    · intro other holds
      have before := before_update stays holds
      obtain ⟨locked, active⟩ := exclusive.kept other before
      refine ⟨sameMap.trans locked, ?_⟩
      rcases sameNamespace with same | absent | cleans
      · exact same.trans active
      · rw [active] at absent
        cases absent
      · exact absurd cleans (exclusive.quiet other session before)
    · intro holder other holds cleans
      apply exclusive.quiet holder other (before_update stays holds)
      rcases update_stage cleans with ⟨rfl, now⟩ | ⟨-, earlier⟩
      · exact cleaning now
      · exact earlier

/-- Orderly steps keep the exclusion. -/
theorem exclusive_step (state : LockState ι) (event : LockEvent ι) (exclusive : Exclusive state)
    (orderly : Orderly state event) : Exclusive (lockStep state event) := by
  cases event with
  | goesOn session => exact exclusive_goesOn state session exclusive orderly
  | killed session =>
    refine ⟨?_, ?_, ?_⟩
    · intro first second firstHolds secondHolds
      exact exclusive.alone first second (before_update ended_not_holds firstHolds)
        (before_update ended_not_holds secondHolds)
    · exact fun other holds => exclusive.kept other (before_update ended_not_holds holds)
    · intro holder other holds cleans
      exact exclusive.quiet holder other (before_update ended_not_holds holds)
        (before_update ended_not_cleansUp cleans)
  | finalized =>
    by_cases terminating : state.cluster.namespacePhase = .terminating
    · apply exclusive_of_idle
      intro session holds
      rw [lockStep, if_pos terminating] at holds
      rw [(exclusive.kept session holds).2] at terminating
      cases terminating
    · rw [lockStep, if_neg terminating]
      exact exclusive
  | removed => exact exclusive_of_idle _ orderly

/-- However the sessions are interleaved and whenever they are killed, one session at most runs
tests at any time, and its config map is there. This needs that no session creates the config map
while another one, which has deleted its own, is still about to delete the namespace.

Proof: a session that runs has its config map in a namespace that stays, because those that delete
it have given up theirs before. -/
theorem one_session_runs (state : LockState ι) (initial : state.Initial)
    (events : List (LockEvent ι)) (orderly : Guarded lockStep Orderly state events) :
    (∀ first second, ((run lockStep state events).stage first).Holds →
        ((run lockStep state events).stage second).Holds → first = second) ∧
      ∀ session, ((run lockStep state events).stage session).Holds →
        (run lockStep state events).cluster.configMap = true := by
  have exclusive : Exclusive (run lockStep state events) :=
    orderly.keeps exclusive_step (exclusive_initial state initial)
  exact ⟨exclusive.alone, fun session holds => (exclusive.kept session holds).1⟩

/-! ## A lock that is left -/

/-- The config map is there, but no session has it. -/
structure Stale (state : LockState ι) : Prop where
  locked : state.cluster.configMap = true
  active : state.cluster.namespacePhase = .active
  idle : ∀ session, ¬(state.stage session).Holds
  quiet : ∀ session, ¬(state.stage session).CleansUp

/-- A stale lock stays, unless somebody removes it. -/
theorem stale_step (state : LockState ι) (event : LockEvent ι) (stale : Stale state)
    (kept : event ≠ .removed) : Stale (lockStep state event) := by
  cases event with
  | removed => exact absurd rfl kept
  | finalized =>
    have stays : ¬state.cluster.namespacePhase = .terminating := by
      rw [stale.active]
      exact nofun
    rw [lockStep, if_neg stays]
    exact stale
  | killed session =>
    refine ⟨stale.locked, stale.active, ?_, ?_⟩
    · exact fun other holds => stale.idle other (before_update ended_not_holds holds)
    · exact fun other cleans => stale.quiet other (before_update ended_not_cleansUp cleans)
  | goesOn session =>
    rcases sessionStep_cases state.cluster (state.stage session) with
      ⟨-, -, free, -⟩ | ⟨held, -⟩ | ⟨held, -⟩ | ⟨-, stays, cleaning, sameMap, sameNamespace⟩
    · rw [stale.locked] at free
      cases free
    · exact absurd held (stale.idle session)
    · exact absurd held (stale.idle session)
    · refine ⟨sameMap.trans stale.locked, ?_, ?_, ?_⟩
      · rcases sameNamespace with same | absent | cleans
        · exact same.trans stale.active
        · rw [stale.active] at absent
          cases absent
        · exact absurd cleans (stale.quiet session)
      · exact fun other holds => stale.idle other (before_update stays holds)
      · intro other cleans
        rcases update_stage cleans with ⟨-, now⟩ | ⟨-, before⟩
        · exact stale.quiet session (cleaning now)
        · exact stale.quiet other before

/-- A session that is killed while it runs leaves the lock. -/
theorem stale_of_killed (state : LockState ι) (exclusive : Exclusive state) (holder : ι)
    (holds : (state.stage holder).Holds) : Stale (lockStep state (.killed holder)) := by
  obtain ⟨locked, active⟩ := exclusive.kept holder holds
  refine ⟨locked, active, ?_, ?_⟩
  · intro other now
    rcases update_stage now with ⟨-, ended⟩ | ⟨apart, before⟩
    · simp [Stage.Holds] at ended
    · exact apart (exclusive.alone other holder before holds)
  · exact fun other now => exclusive.quiet holder other holds (before_update ended_not_cleansUp now)

/-- Once the lock is removed, a session that starts gets to its tests. -/
theorem runs_after_removal (state : LockState ι) (stale : Stale state) (session : ι)
    (starts : state.stage session = .stopIfRunInProgress) :
    (run lockStep state [.removed, .goesOn session, .goesOn session, .goesOn session]).stage
        session =
      .running := by
  simp [run, lockStep, sessionStep, starts, stale.active, Purpose.next]

/-- If a session is killed while it runs, no session runs tests any more until the config map is
deleted by hand, whatever they do; a session that starts behind that gets to its tests. -/
theorem stale_lock_blocks (state : LockState ι) (initial : state.Initial)
    (before after : List (LockEvent ι)) (orderly : Guarded lockStep Orderly state before)
    (holder : ι)
    (holds : ((run lockStep state before).stage holder).Holds) (untouched : .removed ∉ after) :
    let left := run lockStep state (before ++ .killed holder :: after)
    (∀ session, ¬(left.stage session).Holds) ∧ left.cluster.configMap = true ∧
      ∀ session, left.stage session = .stopIfRunInProgress →
        (run lockStep left [.removed, .goesOn session, .goesOn session, .goesOn session]).stage
          session = .running := by
  have exclusive : Exclusive (run lockStep state before) :=
    orderly.keeps exclusive_step (exclusive_initial state initial)
  have blocked : Guarded lockStep (fun _ event => event ≠ .removed)
      (lockStep (run lockStep state before) (.killed holder)) after := by
    apply guarded_of_forall
    rintro event inside - rfl
    exact untouched inside
  have stale := blocked.keeps stale_step (stale_of_killed _ exclusive holder holds)
  rw [← run_cons, ← run_append] at stale
  exact ⟨stale.idle, stale.locked, runs_after_removal _ stale⟩

/-! ## Three sessions -/

/-- Three sessions are about to start, and the cluster has no namespace for them. -/
def threeSessions : LockState (Fin 3) := ⟨⟨.absent, false⟩, fun _ => .stopIfRunInProgress⟩

/-- One session runs and finishes, another one follows. -/
def oneAfterAnother : List (LockEvent (Fin 3)) :=
  List.replicate 9 (.goesOn 0) ++ [.finalized] ++ List.replicate 5 (.goesOn 1)

/-- A session takes the lock between the deletions of another one, and a third one after these. -/
def tooEarly : List (LockEvent (Fin 3)) :=
  List.replicate 7 (.goesOn 0) ++ List.replicate 3 (.goesOn 1) ++ List.replicate 2 (.goesOn 0) ++
    [.finalized] ++ List.replicate 5 (.goesOn 2)

/-- The second and the third session run at the same time. -/
example : ((run lockStep threeSessions tooEarly).stage 1).Holds ∧
    ((run lockStep threeSessions tooEarly).stage 2).Holds := by
  decide

/-- Two sessions one after the other, by the general theorem. -/
theorem second_session_runs :
    (∀ first second, ((run lockStep threeSessions oneAfterAnother).stage first).Holds →
        ((run lockStep threeSessions oneAfterAnother).stage second).Holds → first = second) ∧
      ∀ session, ((run lockStep threeSessions oneAfterAnother).stage session).Holds →
        (run lockStep threeSessions oneAfterAnother).cluster.configMap = true :=
  one_session_runs threeSessions (fun _ => rfl) oneAfterAnother (by decide)

/-- A session that is killed blocks the next one, by the general theorem. -/
theorem killed_session_blocks :
    let left := run lockStep threeSessions
      (List.replicate 5 (.goesOn 0) ++ .killed 0 :: List.replicate 2 (.goesOn 1))
    (∀ session, ¬(left.stage session).Holds) ∧ left.cluster.configMap = true ∧
      ∀ session, left.stage session = .stopIfRunInProgress →
        (run lockStep left [.removed, .goesOn session, .goesOn session, .goesOn session]).stage
          session = .running := by
  apply stale_lock_blocks threeSessions (fun _ => rfl)
  · decide
  · decide
  · simp

end VirtTestTools.Suite
