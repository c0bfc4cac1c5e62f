import VirtTestTools.Reporter.Main

/-!
# Exactly-once delivery across retries

A session is a first run that pushes, followed by any number of runs that are
given the file saved last. Any request of any run may fail. After every run the
results delivered so far and the results in the file are together the original
results, in order: a retry loses none and delivers none twice.

This holds as long as the first run has nothing to send that raises another exception
than a `RequestException`. Such an exception ends a run in the middle of its push, and
nothing is saved.
-/

namespace VirtTestTools.Reporter

/-- Where a session stands: the server and the files, the file saved by the last
run that pushed, and how that push ended. -/
structure Session where
  world : World
  saved : Option Text
  outcome : PushOutcome

/-- The results in the file of a session; none without a file. -/
def Session.savedResults (conversions : Conversions) (session : Session) : List Result :=
  match (session.saved.bind session.world.files.get).map (loadBatchFile conversions) with
  | some (.ok (results, _)) => results
  | _ => []

/-- The sessions whose first run pushes the given plan to a server. Each run after the
first is given the file saved last and is otherwise arbitrary; a run that stops before its
push leaves the file to the next one. -/
inductive Reports (conversions : Conversions) (plan : Plan) (before : Server) : Session → Prop
  | first (run : Run) (files : Dict Text Yaml) (outcome : PushOutcome) (saved : Option Text)
      (after : World)
      (planned : makePlan conversions run.environment run.options files = .ok plan)
      (ran : main conversions run ⟨before, files⟩ = (.pushed outcome saved, after)) :
      Reports conversions plan before ⟨after, saved, outcome⟩
  | retry (session : Session) (run : Run) (path : Text) (outcome : PushOutcome)
      (saved : Option Text) (after : World)
      (earlier : Reports conversions plan before session)
      (offered : session.saved = some path) (batch : run.options.batchFile = some path)
      (ran : main conversions run session.world = (.pushed outcome saved, after)) :
      Reports conversions plan before ⟨after, saved, outcome⟩
  | stopped (session : Session) (run : Run) (reason : Stop) (after : World)
      (earlier : Reports conversions plan before session)
      (ran : main conversions run session.world = (.stopped reason, after)) :
      Reports conversions plan before { session with world := after }

/-- An accepted plan is the plan. -/
theorem validateRun_eq_ok (options : Options) (plan accepted : Plan)
    (valid : validateRun options plan = .ok accepted) : accepted = plan := by
  unfold validateRun at valid
  split_ifs at valid
  cases valid
  rfl

/-- The results of a batch run are the loaded ones that are not skipped. -/
theorem planBatch_results (conversions : Conversions) (environment : Environment)
    (options : Options) (content : Yaml) (plan : Plan) (results : List Result)
    (metadata : Metadata) (loaded : loadBatchFile conversions content = .ok (results, metadata))
    (planned : planBatch conversions environment options content = .ok plan) :
    plan.results = results.filter (fun result => decide (result.status ≠ .skipped)) := by
  simp only [planBatch, Outcome.bind_eq_ok] at planned
  obtain ⟨initial, -, read, same, restored, -, attributes, -, _, -, valid⟩ := planned
  rw [loaded] at same
  cases same
  rw [validateRun_eq_ok _ _ _ valid]

/-- The results of a session are written by it. -/
theorem askResults_written (tests : List PlaceholderTestDetail) (answers : List Text)
    (results : List Result) (asked : askResults tests answers = .ok results) :
    ∀ result ∈ results, result.IsWritten := by
  unfold askResults at asked
  split at asked
  · cases asked
  · rename_i ran
    cases asked
    exact runInteractiveMode_written tests answers _ _ ran

/-- No run pushes a skipped result. -/
theorem makePlan_not_skipped (conversions : Conversions) (environment : Environment)
    (options : Options) (files : Dict Text Yaml) (plan : Plan)
    (planned : makePlan conversions environment options files = .ok plan) :
    ∀ result ∈ plan.results, result.status ≠ .skipped := by
  unfold makePlan at planned
  split at planned
  · simp only [planInteractive, Outcome.bind_eq_ok] at planned
    obtain ⟨attributes, -, tests, -, _, -, results, asked, valid⟩ := planned
    rw [validateRun_eq_ok _ _ _ valid]
    intro result member
    exact (askResults_written tests environment.answers results asked result member).judged
  · split at planned
    · cases planned
    · rename_i content _
      have unfolded := planned
      simp only [planBatch, Outcome.bind_eq_ok] at unfolded
      obtain ⟨-, -, ⟨results, metadata⟩, loaded, -⟩ := unfolded
      rw [planBatch_results conversions environment options content plan results metadata loaded
        planned]
      intro result member
      simpa using (List.mem_filter.mp member).2

/-- The attributes of a saved file can be sent again. -/
def Metadata.IsSent (metadata : Metadata) : Prop :=
  ∀ entries, metadata.attributes = some entries →
    ∃ saved : List Attribute, entries = saved.map Attribute.toYaml ∧
      ∀ entry ∈ saved, Reporter.IsSent entry.value

/-- A string can be sent. -/
theorem isSent_str (text : Text) : IsSent (.str text) := nofun

/-- A batch run whose file can be sent again has attributes that can be sent. -/
theorem isSent_planBatch (conversions : Conversions) (environment : Environment)
    (options : Options) (content : Yaml) (plan : Plan) (results : List Result)
    (metadata : Metadata) (loaded : loadBatchFile conversions content = .ok (results, metadata))
    (sent : metadata.IsSent)
    (planned : planBatch conversions environment options content = .ok plan) :
    ∀ item ∈ plan.attributes.items, IsSent item.2 := by
  simp only [planBatch, Outcome.bind_eq_ok] at planned
  obtain ⟨initial, -, read, same, restored, restoring, attributes, built, _, -, valid⟩ := planned
  rw [loaded] at same
  cases same
  rw [validateRun_eq_ok _ _ _ valid]
  refine forall_buildLaunchAttributes isSent_str conversions _ _ restored attributes ?_ built
  unfold restoreAttributes at restoring
  split at restoring
  · rename_i entries _ saved
    obtain ⟨written, rfl, all⟩ := sent entries saved
    have back : (written.map Attribute.toYaml).mapM Attribute.ofYaml = .ok written := by
      rw [Outcome.mapM_eq_ok, List.forall₂_map_left_iff, List.forall₂_same]
      intro entry _
      exact Attribute.ofYaml_toYaml entry
    rw [back] at restoring
    cases restoring
    exact all
  · cases restoring
    exact forall_clusterBase isSent_str environment options

/-- A file of a session holds results that are not skipped, and all it holds can be sent. -/
def Holds (conversions : Conversions) (session : Session) (left : List Result) : Prop :=
  match session.saved with
  | none => left = []
  | some path => (∀ result ∈ left, result.status ≠ .skipped ∧ result.IsSent) ∧
      ∃ content metadata, session.world.files.get path = some content ∧
        loadBatchFile conversions content = .ok (left, metadata) ∧ metadata.IsSent

/-- The saved results of a session that holds some are these. -/
theorem savedResults_of_holds (conversions : Conversions) (session : Session) (left : List Result)
    (holds : Holds conversions session left) : session.savedResults conversions = left := by
  unfold Holds at holds
  unfold Session.savedResults
  split at holds
  · rename_i absent
    simp [absent, holds]
  · rename_i path present
    obtain ⟨-, content, metadata, found, loaded, -⟩ := holds
    simp [present, found, loaded]

/-- What a session conserves: what has been delivered since it began, followed by
what its file holds, are the original results. -/
structure Conserves (conversions : Conversions) (original : List Result) (before : Server)
    (session : Session) (delivered left : List Result) : Prop where
  parts : delivered ++ left = original
  deliveries : session.world.server.deliveries = before.deliveries ++ delivered.map Result.delivery
  holds : Holds conversions session left
  complete : session.outcome.Complete → left = []

/-- A run that pushes conserves the results of its plan. -/
theorem main_conserves (conversions : Conversions) (run : Run) (world : World) (plan : Plan)
    (outcome : PushOutcome) (saved : Option Text) (after : World) (sent : plan.IsSent)
    (planned : makePlan conversions run.environment run.options world.files = .ok plan)
    (ran : main conversions run world = (.pushed outcome saved, after)) :
    ∃ delivered left,
      Conserves conversions plan.results world.server ⟨after, saved, outcome⟩ delivered left := by
  have whole := makePlan_not_skipped conversions run.environment run.options world.files plan
    planned
  simp only [main, planned, executePlan] at ran
  cases pushed : pushResultsToRp conversions run.network plan world.server with
  | mk ends server =>
    obtain ⟨delivered, parts, deliveries, complete⟩ :=
      pushResultsToRp_conserves conversions run.network plan world.server ends server sent pushed
    have remains : ∀ result ∈ ends.remaining plan.results,
        result.status ≠ .skipped ∧ result.IsSent := by
      intro result member
      have planned : result ∈ plan.results := by
        rw [← parts]
        exact List.mem_append_right _ member
      exact ⟨whole result planned, sent.results result planned⟩
    have nothingLeft : ends.Complete → ends.remaining plan.results = [] := by
      intro completed
      have all := complete completed
      rw [all] at parts
      exact List.append_right_eq_self.mp parts
    rw [pushed] at ran
    by_cases empty : ends.remaining plan.results = []
    · simp only [saveRemaining, empty, List.isEmpty_nil, if_true] at ran
      cases ran
      refine ⟨delivered, [], ⟨by rw [← empty]; exact parts, deliveries, rfl, fun _ => rfl⟩⟩
    · have nonempty : (ends.remaining plan.results).isEmpty = false := by
        simpa using empty
      have loaded := loadBatchFile_saveResultsForRetry conversions (ends.remaining plan.results)
        plan.teamLabel plan.bundle plan.attributes run.savedAt
      simp only [saveRemaining, nonempty, Bool.false_eq_true, if_false] at ran
      cases ran
      refine ⟨delivered, _, ⟨parts, deliveries, ⟨remains, ?_⟩, nothingLeft⟩⟩
      refine ⟨_, _, ?_, loaded, ?_⟩
      · rw [Dict.get_set, if_pos rfl]
      · intro entries written
        cases written
        refine ⟨plan.attributes.items.map (fun item => ⟨item.1, item.2⟩), ?_, ?_⟩
        · rw [List.map_map]
          rfl
        · exact List.forall_mem_map.mpr sent.attributes

/-- A run that stops before its push changes nothing. -/
theorem main_stopped (conversions : Conversions) (run : Run) (world after : World) (reason : Stop)
    (ran : main conversions run world = (.stopped reason, after)) : after = world := by
  unfold main at ran
  split at ran
  · cases ran
    rfl
  · cases ran

/-- A run that pushes has a plan. -/
theorem main_pushed (conversions : Conversions) (run : Run) (world after : World)
    (outcome : PushOutcome) (saved : Option Text)
    (ran : main conversions run world = (.pushed outcome saved, after)) :
    ∃ plan, makePlan conversions run.environment run.options world.files = .ok plan := by
  unfold main at ran
  split at ran
  · cases ran
  · rename_i plan planned
    exact ⟨plan, planned⟩

/-- A run that is given the file of a session plans to push what it holds. -/
theorem makePlan_of_holds (conversions : Conversions) (session : Session) (left : List Result)
    (holds : Holds conversions session left) (path : Text) (offered : session.saved = some path)
    (environment : Environment) (options : Options) (batch : options.batchFile = some path)
    (plan : Plan)
    (planned : makePlan conversions environment options session.world.files = .ok plan) :
    plan.results = left ∧ plan.IsSent := by
  simp only [Holds, offered] at holds
  obtain ⟨whole, content, metadata, found, loaded, sent⟩ := holds
  simp only [makePlan, batch, found] at planned
  have results : plan.results = left := by
    rw [planBatch_results conversions environment options content plan left metadata loaded
      planned]
    apply List.filter_eq_self.mpr
    intro result member
    exact decide_eq_true (whole result member).1
  refine ⟨results, isSent_planBatch conversions environment options content plan left metadata
    loaded sent planned, ?_⟩
  rw [results]
  exact fun result member => (whole result member).2

/-- Every session conserves its results.

Proof: by induction on the session. The first run conserves the results of its
plan; a retry plans to push what the file holds and conserves that, so what it
delivers continues what was delivered before; a run that stops changes nothing. -/
theorem Reports.conserves {conversions : Conversions} {plan : Plan} {before : Server}
    {session : Session} (sent : plan.IsSent) (reports : Reports conversions plan before session) :
    ∃ delivered left, Conserves conversions plan.results before session delivered left := by
  induction reports with
  | first run files outcome saved after planned ran =>
    exact main_conserves conversions run ⟨before, files⟩ plan outcome saved after sent planned ran
  | retry session run path outcome saved after earlier offered batch ran inductionHypothesis =>
    obtain ⟨delivered, left, conserved⟩ := inductionHypothesis
    obtain ⟨retried, planned⟩ := main_pushed conversions run session.world after outcome saved ran
    obtain ⟨pushes, again⟩ := makePlan_of_holds conversions session left conserved.holds path
      offered run.environment run.options batch retried planned
    obtain ⟨more, rest, continued⟩ :=
      main_conserves conversions run session.world retried outcome saved after again planned ran
    refine ⟨delivered ++ more, rest, ⟨?_, ?_, continued.holds, continued.complete⟩⟩
    · rw [List.append_assoc, continued.parts, pushes, conserved.parts]
    · rw [continued.deliveries, conserved.deliveries, List.map_append, List.append_assoc]
  | stopped session run reason after earlier ran inductionHypothesis =>
    rw [main_stopped conversions run session.world after reason ran]
    exact inductionHypothesis

/-- What a session owes: the results whose item has been finished, followed by the results
in the file saved last, are those of the plan, in order and without repetition. Once a run
succeeds, or fails only when it finishes its launch, every result has been finished exactly
once, with its status, its comment and its issue type. -/
def DeliveredOnce (conversions : Conversions) (plan : Plan) (before : Server)
    (session : Session) : Prop :=
  (∃ delivered, delivered ++ session.savedResults conversions = plan.results ∧
    session.world.server.deliveries = before.deliveries ++ delivered.map Result.delivery) ∧
  (session.outcome.Complete →
    session.world.server.deliveries = before.deliveries ++ plan.results.map Result.delivery)

/-- Exactly-once delivery after every run of a session, if the first run has nothing to send
that JSON refuses for its type and every test is a text. -/
theorem every_result_delivered_once (conversions : Conversions) (plan : Plan) (before : Server)
    (session : Session) (sent : plan.IsSent)
    (reports : Reports conversions plan before session) :
    DeliveredOnce conversions plan before session := by
  obtain ⟨delivered, left, conserved⟩ := reports.conserves sent
  constructor
  · refine ⟨delivered, ?_, conserved.deliveries⟩
    rw [savedResults_of_holds conversions session left conserved.holds, conserved.parts]
  · intro complete
    have all : delivered = plan.results := by
      have parts := conserved.parts
      rwa [conserved.complete complete, List.append_nil] at parts
    rw [conserved.deliveries, all]

/-- A command line that gives every launch attribute and a batch file. -/
def sampleOptions (batchFile : Option Text) : Options where
  launch :=
    { bundle := some "v4.22.0".toList
      cnvVersion := none
      arch := some "amd64".toList
      ocpVersion := some "4.22".toList
      clusterName := some "c1".toList
      clusterDomain := some "example.com".toList
      storageClass := some "ocs".toList
      channel := some "stable".toList
      tier := none }
  team := some "STORAGE".toList
  testsDir := "tests".toList
  marker := none
  keyword := none
  fromCluster := false
  rpUrl := some "https://rp".toList
  rpProject := some "cnv".toList
  rpToken := some "t".toList
  batchFile := batchFile
  dryRun := false

/-- Surroundings without a cluster, in a checkout whose path names no team. -/
def sampleEnvironment (tests : List PlaceholderTestDetail) (answers : List Text) : Environment where
  cluster := ⟨none, none, none, none, none, none, none, none⟩
  resolvedParts path := ["/".toList, "repo".toList, path]
  collectPlaceholderDetails _ _ _ := tests
  answers := answers

/-- A failed test with a comment and an issue. -/
def sampleResult : Result where
  test := .str "tests/storage/test_a.py::test_a".toList
  status := .failed
  comment := .str "CNV-1".toList
  issue := some ⟨.str "pb001".toList, rfl, .str "Product Bug".toList⟩

/-- A run whose request with the given number fails. -/
def sampleRun (batchFile filename : Text) (failing : Nat) : Run where
  environment := sampleEnvironment [] []
  options := sampleOptions (some batchFile)
  network request := if request = failing then some "timeout".toList else none
  filename := filename
  savedAt := "2025-06-12T14:30:22".toList

/-- A directory with one batch file of the given results. -/
def sampleFiles (results : List Result) : Dict Text Yaml :=
  Dict.set ∅ "a.yaml".toList (saveResultsForRetry results "STORAGE".toList none ∅ [])

/-- What the first run on that file pushes. -/
def samplePlan (results : List Result) : Plan where
  results := results
  attributes :=
    match buildLaunchAttributes asciiConversions (some "STORAGE".toList)
        (sampleOptions none).launch [] with
    | .ok attributes => attributes
    | .error _ => ∅
  tests := none
  teamLabel := "STORAGE".toList
  bundle := some "v4.22.0".toList

/-- The world after a run that started the item and failed to finish it. -/
def sampleWorld : World :=
  (main asciiConversions (sampleRun "a.yaml".toList "b.yaml".toList 2)
    ⟨⟨[], []⟩, sampleFiles [sampleResult]⟩).2

/-- The session after a retry without failures. -/
def sampleSession : Session where
  world := (main asciiConversions (sampleRun "b.yaml".toList "c.yaml".toList 9) sampleWorld).2
  saved := none
  outcome := .launched 1

/-- The result of an item that a first run started and could not finish is
delivered once by the retry; the item of the first run stays unfinished. -/
theorem started_item_delivered_by_retry :
    Reports asciiConversions (samplePlan [sampleResult]) ⟨[], []⟩ sampleSession ∧
      sampleSession.world.server.items.length = 2 ∧
      sampleSession.world.server.deliveries = [sampleResult.delivery] := by
  have first : Reports asciiConversions (samplePlan [sampleResult]) ⟨[], []⟩
      ⟨sampleWorld, some "b.yaml".toList,
        .partialPush ⟨.failedAfterPushing 0 1 "timeout".toList, 0, 0⟩⟩ :=
    .first (sampleRun "a.yaml".toList "b.yaml".toList 2) (sampleFiles [sampleResult]) _ _ _ rfl rfl
  have reports : Reports asciiConversions (samplePlan [sampleResult]) ⟨[], []⟩ sampleSession :=
    .retry _ (sampleRun "b.yaml".toList "c.yaml".toList 9) "b.yaml".toList _ _ _ first rfl rfl rfl
  have sent : (samplePlan [sampleResult]).IsSent := by
    refine ⟨forall_buildLaunchAttributes isSent_str asciiConversions (some "STORAGE".toList)
      (sampleOptions none).launch [] _ (List.forall_mem_nil _) rfl, ?_⟩
    intro result member
    cases List.mem_singleton.mp member
    exact ⟨⟨_, rfl⟩, isSent_str _, fun issue chosen => by cases chosen; exact isSent_str _⟩
  refine ⟨reports, rfl, ?_⟩
  exact (every_result_delivered_once asciiConversions (samplePlan [sampleResult]) ⟨[], []⟩
    sampleSession sent reports).2 trivial

/-- A test that passed, with a date for a comment. -/
def datedResult : Result where
  test := .str "tests/storage/test_b.py::test_b".toList
  status := .passed
  comment := .date "2024-05-01".toList
  issue := none

/-- The session after a run on both results in which no request fails. -/
def lostSession : Session where
  world := (main asciiConversions (sampleRun "a.yaml".toList "b.yaml".toList 9)
    ⟨⟨[], []⟩, sampleFiles [sampleResult, datedResult]⟩).2
  saved := none
  outcome := .raised

/-- The date is not written as JSON, after the first result has been delivered. The second
one is neither delivered nor saved. -/
theorem dated_comment_lost :
    Reports asciiConversions (samplePlan [sampleResult, datedResult]) ⟨[], []⟩ lostSession ∧
      lostSession.world.server.deliveries = [sampleResult.delivery] ∧
      ¬ DeliveredOnce asciiConversions (samplePlan [sampleResult, datedResult]) ⟨[], []⟩
        lostSession := by
  refine ⟨.first (sampleRun "a.yaml".toList "b.yaml".toList 9)
    (sampleFiles [sampleResult, datedResult]) _ _ _ rfl rfl, rfl, ?_⟩
  rintro ⟨⟨delivered, all, shown⟩, -⟩
  have saved : lostSession.savedResults asciiConversions = [] := rfl
  rw [saved, List.append_nil] at all
  subst all
  exact absurd (congrArg List.length shown) (by decide)

end VirtTestTools.Reporter
