import VirtTestTools.Reporter.Launch

/-!
# Results, and the file that carries them to a retry

A result is a verdict on one test. The tester gives it at the terminal, or a
batch file supplies it; results that could not be pushed are written to a file
of the same format. The values here are what `yaml.dump` writes and
`yaml.safe_load` reads back.
-/

namespace VirtTestTools.Reporter

/-- The valid statuses. -/
inductive Status where
  | passed
  | failed
  | skipped
  deriving DecidableEq

/-- The text of a status. -/
def Status.text : Status → Text
  | .passed => "PASSED".toList
  | .failed => "FAILED".toList
  | .skipped => "SKIPPED".toList

/-- The status of a text of `_VALID_STATUSES`. -/
def Status.ofText (text : Text) : Option Status :=
  [Status.passed, .failed, .skipped].find? (fun status => decide (status.text = text))

/-- The issue of a result. The key `issue_type` is present only with a true
value. -/
structure Issue where
  issueType : Yaml
  truthy : issueType.truthy = true
  label : Yaml

/-- A result: the node ID of its test, the verdict, the comment and the issue. A batch
file may give any value as the test; one that is no text fails when its item is named. -/
structure Result where
  test : Yaml
  status : Status
  comment : Yaml
  issue : Option Issue

/-- The two keys of an issue. -/
def issueEntries : Option Issue → List (Text × Yaml)
  | none => []
  | some issue => [("issue_type".toList, issue.issueType), ("issue_type_label".toList, issue.label)]

/-- The dictionary of a result. -/
def Result.toYaml (result : Result) : Yaml :=
  .record ([("test".toList, result.test), ("status".toList, .str result.status.text),
    ("comment".toList, result.comment)] ++ issueEntries result.issue)

/-- What the reporter uses of a collected placeholder test. -/
structure PlaceholderTestDetail where
  nodeId : Text
  polarionId : Option Text

/-- The defect types of a failed test: the choice, the issue type, its label. -/
def defectTypes : List (Text × Text × Text) :=
  [("1".toList, "pb001".toList, "Product Bug".toList),
   ("2".toList, "ab001".toList, "Automation Bug".toList),
   ("3".toList, "si001".toList, "System Issue".toList),
   ("4".toList, "ti001".toList, "To Investigate".toList),
   ("5".toList, "nd001".toList, "No Defect".toList)]

/-- The issue of a defect choice, if the choice is valid. -/
def issueOfChoice (choice : Text) : Option Issue :=
  match defectTypes.find? (fun defect => decide (defect.1 = choice)) with
  | none => none
  | some (_, issueType, label) =>
    if truthy : (Yaml.str issueType).truthy = true then some ⟨.str issueType, truthy, .str label⟩
    else none

/-- The loop that asks for the defect type. The answers are what the prompts
return, in order; with none left the run is aborted. -/
def promptDefect : List Text → Option (Issue × List Text)
  | [] => none
  | answer :: answers =>
    match issueOfChoice (Text.strip answer) with
    | some issue => some (issue, answers)
    | none => promptDefect answers

/-- What the tester decides on one test. -/
inductive Verdict where
  | pass
  | fail (issue : Issue) (comment : Text)
  | skip
  | quit

/-- The defect type and the comment of a failed test. -/
def promptFailure (answers : List Text) : Option (Verdict × List Text) :=
  match promptDefect answers with
  | some (issue, comment :: rest) => some (.fail issue comment, rest)
  | _ => none

/-- The loop that asks for a verdict until it gets one. Only an ASCII letter has
one of the four choices as its lower case. -/
def promptVerdict : List Text → Option (Verdict × List Text)
  | [] => none
  | answer :: answers =>
    match (Text.strip answer).map Char.toLower with
    | ['p'] => some (.pass, answers)
    | ['f'] => promptFailure answers
    | ['s'] => some (.skip, answers)
    | ['q'] => some (.quit, answers)
    | _ => promptVerdict answers

/-- Put a result before those of the remaining tests. -/
def addResult (result : Result) (rest : List Result × Nat) : List Result × Nat :=
  (result :: rest.1, rest.2)

/-- `_run_interactive_mode`: the results and the number of skipped tests. -/
def runInteractiveMode : List PlaceholderTestDetail → List Text → Option (List Result × Nat)
  | [], _ => some ([], 0)
  | test :: tests, answers =>
    match promptVerdict answers with
    | none => none
    | some (.pass, rest) =>
      (runInteractiveMode tests rest).map (addResult ⟨.str test.nodeId, .passed, .str [], none⟩)
    | some (.fail issue comment, rest) =>
      (runInteractiveMode tests rest).map
        (addResult ⟨.str test.nodeId, .failed, .str comment, some issue⟩)
    | some (.skip, rest) =>
      (runInteractiveMode tests rest).map (fun outcome => (outcome.1, outcome.2 + 1))
    | some (.quit, _) => some ([], 0)

/-- The issue of a loaded entry, present if its type is true. -/
def loadIssue (entries : List (Yaml × Yaml)) : Option Issue :=
  match Yaml.get entries "issue_type".toList with
  | none => none
  | some issueType =>
    if truthy : issueType.truthy = true then
      some ⟨issueType, truthy, (Yaml.get entries "issue_type_label".toList).getD (.str [])⟩
    else
      none

/-- The status of an entry, in any case. -/
def loadStatus (conversions : Conversions) (entries : List (Yaml × Yaml)) : Except Stop Status :=
  match (Yaml.get entries "status".toList).getD (.str []) with
  | .str text =>
    match Status.ofText (conversions.upper text) with
    | some status => .ok status
    | none => .error (.invalidStatus text)
  | other => .error (.statusNotText other)

/-- The test of an entry, of any type. -/
def loadTest (entries : List (Yaml × Yaml)) : Except Stop Yaml :=
  match Yaml.get entries "test".toList with
  | none => .error (.entryWithoutTest (.map entries))
  | some test => .ok test

/-- One entry of `results`. -/
def loadEntry (conversions : Conversions) : Yaml → Except Stop Result
  | .map entries =>
    loadTest entries >>= fun test =>
    loadStatus conversions entries >>= fun status =>
    .ok ⟨test, status, (Yaml.get entries "comment".toList).getD (.str []), loadIssue entries⟩
  | other => .error (.entryNotMapping other)

/-- The metadata of a batch file. -/
structure Metadata where
  team : Option Text
  bundle : Option Text
  attributes : Option (List Yaml)

/-- A metadata text, dropped if its value is false. -/
def metadataText (conversions : Conversions) (entries : List (Yaml × Yaml)) (key : Text) :
    Option Text :=
  ((Yaml.get entries key).filter Yaml.truthy).map conversions.str

/-- The items of a list. -/
def listItems : Option Yaml → Option (List Yaml)
  | some (.list items) => some items
  | _ => none

/-- The metadata block; a block that is no mapping is ignored. -/
def loadMetadata (conversions : Conversions) : Option Yaml → Metadata
  | some (.map entries) =>
    { team := metadataText conversions entries "team".toList
      bundle := metadataText conversions entries "bundle".toList
      attributes := listItems (Yaml.get entries "attributes".toList) }
  | _ => ⟨none, none, none⟩

/-- `_load_batch_file`, after the file has been read and parsed. -/
def loadBatchFile (conversions : Conversions) : Yaml → Except Stop (List Result × Metadata)
  | .map entries =>
    match Yaml.get entries "results".toList with
    | none => .error .batchNotMapping
    | some (.list items) =>
      (items.mapM (loadEntry conversions)).map (fun results =>
        (results, loadMetadata conversions (Yaml.get entries "metadata".toList)))
    | some other => .error (.resultsNotList other)
  | _ => .error .batchNotMapping

/-- The payload of `_save_results_for_retry`. -/
def saveResultsForRetry (results : List Result) (team : Text) (bundle : Option Text)
    (attributes : Dict Text Yaml) (savedAt : Text) : Yaml :=
  .record
    [("metadata".toList, .record
      [("team".toList, .str team),
       ("bundle".toList, .ofOption bundle),
       ("attributes".toList,
         .list (attributes.items.map (fun item => Attribute.toYaml ⟨item.1, item.2⟩))),
       ("saved_at".toList, .str savedAt)]),
     ("results".toList, .list (results.map Result.toYaml))]

/-- A result as a session at the terminal gives it: of a test that passed or failed, and
all texts. -/
structure Result.IsWritten (result : Result) : Prop where
  judged : result.status ≠ .skipped
  test : ∃ nodeId, result.test = .str nodeId
  comment : ∃ text, result.comment = .str text
  issue : ∀ issue, result.issue = some issue →
    (∃ text, issue.issueType = .str text) ∧ ∃ label, issue.label = .str label

/-- A defect choice gives two texts. -/
theorem issueOfChoice_str (choice : Text) (issue : Issue)
    (chosen : issueOfChoice choice = some issue) :
    (∃ text, issue.issueType = .str text) ∧ ∃ label, issue.label = .str label := by
  unfold issueOfChoice at chosen
  split at chosen
  · cases chosen
  · split at chosen
    · cases chosen
      exact ⟨⟨_, rfl⟩, _, rfl⟩
    · cases chosen

/-- The issue of a prompt has texts. -/
theorem promptDefect_str (answers rest : List Text) (issue : Issue)
    (prompted : promptDefect answers = some (issue, rest)) :
    (∃ text, issue.issueType = .str text) ∧ ∃ label, issue.label = .str label := by
  induction answers with
  | nil => cases prompted
  | cons answer answers inductionHypothesis =>
    rw [promptDefect] at prompted
    split at prompted
    · rename_i chosen
      cases prompted
      exact issueOfChoice_str _ _ chosen
    · exact inductionHypothesis prompted

/-- The issue of a failed verdict has texts. -/
theorem promptVerdict_str (answers rest : List Text) (issue : Issue) (comment : Text)
    (prompted : promptVerdict answers = some (.fail issue comment, rest)) :
    (∃ text, issue.issueType = .str text) ∧ ∃ label, issue.label = .str label := by
  induction answers with
  | nil => cases prompted
  | cons answer answers inductionHypothesis =>
    rw [promptVerdict] at prompted
    split at prompted
    · cases prompted
    · unfold promptFailure at prompted
      split at prompted
      · rename_i defect
        cases prompted
        exact promptDefect_str _ _ _ defect
      · cases prompted
    · cases prompted
    · cases prompted
    · exact inductionHypothesis prompted

/-- A session records passed and failed tests only, and texts. -/
theorem runInteractiveMode_written (tests : List PlaceholderTestDetail) (answers : List Text)
    (results : List Result) (skipped : Nat)
    (ran : runInteractiveMode tests answers = some (results, skipped)) :
    ∀ result ∈ results, result.IsWritten := by
  induction tests generalizing answers results skipped with
  | nil =>
    cases ran
    exact List.forall_mem_nil _
  | cons test tests inductionHypothesis =>
    simp only [runInteractiveMode] at ran
    split at ran
    · cases ran
    · obtain ⟨rest, ranRest, same⟩ := Option.map_eq_some_iff.mp ran
      cases same
      refine List.forall_mem_cons.mpr ⟨⟨by simp, ⟨_, rfl⟩, ⟨_, rfl⟩, fun issue none => ?_⟩, ?_⟩
      · cases none
      · exact inductionHypothesis _ rest.1 rest.2 ranRest
    · rename_i prompted
      obtain ⟨rest, ranRest, same⟩ := Option.map_eq_some_iff.mp ran
      cases same
      refine List.forall_mem_cons.mpr ⟨⟨by simp, ⟨_, rfl⟩, ⟨_, rfl⟩, fun issue chosen => ?_⟩, ?_⟩
      · cases chosen
        exact promptVerdict_str _ _ _ _ prompted
      · exact inductionHypothesis _ rest.1 rest.2 ranRest
    · obtain ⟨rest, ranRest, same⟩ := Option.map_eq_some_iff.mp ran
      cases same
      exact inductionHypothesis _ rest.1 rest.2 ranRest
    · cases ran
      exact List.forall_mem_nil _

/-- A written attribute is read back. -/
theorem Attribute.ofYaml_toYaml (entry : Attribute) : ofYaml entry.toYaml = .ok entry := by
  simp [ofYaml, toYaml, Yaml.record]

/-- A status is written in upper case. -/
theorem upper_status (conversions : Conversions) (status : Status) :
    conversions.upper status.text = status.text := by
  apply conversions.upper_ascii
  apply List.all_eq_true.mp
  cases status with
  | passed => decide
  | failed => decide
  | skipped => decide

/-- A status is loaded back, as upper-casing keeps it. -/
theorem ofText_upper_text (conversions : Conversions) (status : Status) :
    Status.ofText (conversions.upper status.text) = some status := by
  rw [upper_status]
  cases status with
  | passed => decide
  | failed => decide
  | skipped => decide

/-- A written issue is read back. -/
theorem loadIssue_toYaml (test status comment : Yaml) (issue : Option Issue) :
    loadIssue ((([("test".toList, test), ("status".toList, status), ("comment".toList, comment)] ++
      issueEntries issue)).map (fun entry => (Yaml.str entry.1, entry.2))) = issue := by
  cases issue with
  | none => simp [loadIssue, issueEntries]
  | some issue => simp [loadIssue, issueEntries, issue.truthy]

/-- A saved result is loaded back as it was. -/
theorem loadEntry_toYaml (conversions : Conversions) (result : Result) :
    loadEntry conversions result.toYaml = .ok result := by
  obtain ⟨test, status, comment, issue⟩ := result
  have loadedIssue := loadIssue_toYaml test (.str status.text) comment issue
  simp only [Result.toYaml, Yaml.record, loadEntry, loadedIssue]
  simp [loadTest, loadStatus, ofText_upper_text, bind, Except.bind]

/-- Written results are read back. -/
theorem mapM_loadEntry (conversions : Conversions) (results : List Result) :
    (results.map Result.toYaml).mapM (loadEntry conversions) = .ok results := by
  rw [Outcome.mapM_eq_ok, List.forall₂_map_left_iff, List.forall₂_same]
  intro result _
  exact loadEntry_toYaml conversions result

/-- A metadata text is read back unless it is empty or `None`. -/
theorem metadataText_ofOption (conversions : Conversions) (entries : List (Yaml × Yaml))
    (key : Text) (value : Option Text) (found : Yaml.get entries key = some (.ofOption value)) :
    metadataText conversions entries key = value.filter (· ≠ []) := by
  rw [metadataText, found]
  cases value with
  | none => rfl
  | some text =>
    by_cases empty : text = []
    · simp [Yaml.ofOption, Option.filter, empty]
    · simp [Yaml.ofOption, Option.filter, empty, conversions.str_text]

/-- What a retry reads of a saved file: the results as they were, the team, the
bundle unless it is empty, and the attributes. -/
theorem loadBatchFile_saveResultsForRetry (conversions : Conversions) (results : List Result)
    (team : Text) (bundle : Option Text) (attributes : Dict Text Yaml) (savedAt : Text) :
    loadBatchFile conversions (saveResultsForRetry results team bundle attributes savedAt) =
      .ok (results,
        { team := (some team).filter (· ≠ [])
          bundle := bundle.filter (· ≠ [])
          attributes := some (attributes.items.map (fun item =>
            Attribute.toYaml ⟨item.1, item.2⟩)) }) := by
  have loaded := mapM_loadEntry conversions results
  simp only [saveResultsForRetry, Yaml.record, List.map_cons, List.map_nil, loadBatchFile,
    Yaml.get_cons_str]
  rw [if_neg (by decide)]
  simp only [if_true, loaded, Except.map, loadMetadata]
  rw [metadataText_ofOption conversions _ _ (some team) (by simp [Yaml.ofOption]),
    metadataText_ofOption conversions _ _ bundle (by simp)]
  simp [listItems]

end VirtTestTools.Reporter
