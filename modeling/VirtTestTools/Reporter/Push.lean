import VirtTestTools.Reporter.ItemNames
import VirtTestTools.Reporter.Results

/-!
# Pushing results to ReportPortal

A push creates a launch, starts and finishes one item for each result, and
finishes the launch. Any of these requests may fail; a failed request changes
nothing on the server. The server keeps its launches and items in the order of
their creation, and their positions serve as their UUIDs.

The body of a request is written as JSON first. A float that is not finite makes the
request fail like any other; a value of a type that JSON has not raises an exception
that nobody handles, and so does a test that is no text when its item is named.
-/

namespace VirtTestTools.Reporter

/-- The body with which an item is finished. -/
structure ItemOutcome where
  status : Text
  issue : Option (Yaml × Yaml)

/-- An item of a launch, in progress until it has an outcome. -/
structure TestItem where
  launch : Nat
  name : Text
  description : Yaml
  attributes : Option (List Attribute)
  outcome : Option ItemOutcome

/-- A launch as it was created, and whether it has been finished. -/
structure Launch where
  name : Text
  attributes : Dict Text Yaml
  description : Text
  finished : Bool

/-- What ReportPortal stores. -/
structure Server where
  launches : List Launch
  items : List TestItem

namespace Server

/-- `create_launch` on the server. -/
def createLaunch (name : Text) (attributes : Dict Text Yaml) (description : Text)
    (server : Server) : Server :=
  { server with launches := server.launches ++ [⟨name, attributes, description, false⟩] }

/-- `start_test_item` on the server. -/
def startTestItem (launch : Nat) (name : Text) (description : Yaml)
    (attributes : Option (List Attribute)) (server : Server) : Server :=
  { server with items := server.items ++ [⟨launch, name, description, attributes, none⟩] }

/-- `finish_test_item` on the server. -/
def finishTestItem (uuid : Nat) (outcome : ItemOutcome) (server : Server) : Server :=
  { server with items := server.items.modify uuid ({ · with outcome := some outcome }) }

/-- `finish_launch` on the server. -/
def finishLaunch (uuid : Nat) (server : Server) : Server :=
  { server with launches := server.launches.modify uuid ({ · with finished := true }) }

end Server

/-- What a finished item shows: its name, its description, its status and the
issue with the type and the comment. -/
structure Delivery where
  name : Text
  description : Yaml
  status : Text
  issue : Option (Yaml × Yaml)

/-- The delivery of an item that has been finished. -/
def TestItem.delivery (item : TestItem) : Option Delivery :=
  item.outcome.map (fun outcome => ⟨item.name, item.description, outcome.status, outcome.issue⟩)

/-- The finished items, in the order in which they were started. -/
def Server.deliveries (server : Server) : List Delivery := server.items.filterMap TestItem.delivery

/-- The requests of one run by number: `none` if the request succeeds, otherwise
the text of its `RequestException`. -/
abbrev Network := Nat → Option Text

/-- The server and the number of requests the run has sent. -/
structure Connection where
  server : Server
  sent : Nat

/-- Why a push stops: a `RequestException` with its text, or another exception. -/
inductive Failure where
  | requestException (reason : Text)
  | unhandled

/-- The exception of a body that cannot be written: `requests` turns a `ValueError` into
an exception of its own. -/
def failureOf : JsonError → Failure
  | .typeError => .unhandled
  | .valueError printed => .requestException
    ("Out of range float values are not JSON compliant: ".toList ++ printed)

/-- Send a request whose body has the given error. It takes effect unless it fails. -/
def Connection.request (network : Network) (body : Option JsonError) (effect : Server → Server)
    (connection : Connection) : Option Failure × Connection :=
  match body with
  | some error => (some (failureOf error), connection)
  | none =>
    match network connection.sent with
    | none => (none, ⟨effect connection.server, connection.sent + 1⟩)
    | some reason => (some (.requestException reason), ⟨connection.server, connection.sent + 1⟩)

/-- The Polarion IDs of the collected tests that have one. -/
def polarionLookup (tests : List PlaceholderTestDetail) : Dict Text Text :=
  Dict.update ∅ (tests.filterMap (fun test =>
    (test.polarionId.filter (· ≠ [])).map (fun polarionId => (test.nodeId, polarionId))))

/-- The attributes of an item. Only a text is looked up. -/
def itemAttributes (tests : Option (List PlaceholderTestDetail)) :
    Yaml → Option (List Attribute)
  | .str test =>
    (((polarionLookup (tests.getD [])).get test).filter (· ≠ [])).map (fun polarionId =>
      [⟨"polarion-testcase-id".toList, .str polarionId⟩])
  | _ => none

/-- The issue sent with a result. -/
def Result.issueBody (result : Result) : Option (Yaml × Yaml) :=
  result.issue.map (fun issue => (issue.issueType, result.comment))

/-- The error in the issue that is sent. -/
def issueError : Option (Yaml × Yaml) → Option JsonError
  | none => none
  | some (issueType, comment) => issueType.jsonError.or comment.jsonError

/-- The error in the attributes of a launch. Their keys are texts. -/
def attributesError (attributes : Dict Text Yaml) : Option JsonError :=
  Yaml.itemsError (attributes.items.map Prod.snd)

/-- What a run pushes: the arguments of `_push_results_to_rp`, and the team label
and bundle that are saved for a retry. -/
structure Plan where
  results : List Result
  attributes : Dict Text Yaml
  tests : Option (List PlaceholderTestDetail)
  teamLabel : Text
  bundle : Option Text

/-- The name of the launch. -/
def Plan.launchName (plan : Plan) : Text :=
  "Manual - ".toList ++ plan.teamLabel ++
    (match plan.bundle with
    | none | some [] => []
    | some bundle => " - ".toList ++ bundle)

/-- The description of the launch. -/
def Plan.description (plan : Plan) : Text := "Manual test results for ".toList ++ plan.teamLabel

/-- The two messages of a `PartialPushError`. -/
inductive PushMessage where
  | failedAfterPushing (pushed total : Nat) (reason : Text)
  | finishLaunchFailed (total : Nat) (reason : Text)

/-- The texts of the messages. -/
def PushMessage.text : PushMessage → Text
  | .failedAfterPushing pushed total reason =>
    "Failed after pushing ".toList ++ Text.decimal pushed ++ "/".toList ++ Text.decimal total ++
      " items: ".toList ++ reason
  | .finishLaunchFailed total reason =>
    "All ".toList ++ Text.decimal total ++ " items pushed but finish_launch failed: ".toList ++
      reason

/-- `PartialPushError`. -/
structure PartialPushError where
  message : PushMessage
  pushedCount : Nat
  launchUuid : Nat

/-- How a push ends: with the UUID of the launch, with one of the two exceptions that the
caller handles, or with another one. -/
inductive PushOutcome where
  | launched (uuid : Nat)
  | partialPush (error : PartialPushError)
  | requestFailed (reason : Text)
  | raised

/-- Start and finish the item of one result. -/
def pushItem (conversions : Conversions) (network : Network)
    (tests : Option (List PlaceholderTestDetail)) (launch : Nat) (result : Result)
    (connection : Connection) : Option Failure × Connection :=
  match result.test with
  | .str nodeId =>
    match connection.request network result.comment.jsonError
        (Server.startTestItem launch (nodeIdToRpName nodeId) result.comment
          (itemAttributes tests result.test)) with
    | (some failure, stopped) => (some failure, stopped)
    | (none, started) =>
      started.request network (issueError result.issueBody)
        (Server.finishTestItem connection.server.items.length
          ⟨conversions.upper result.status.text, result.issueBody⟩)
  | _ => (some .unhandled, connection)

/-- The loop over the results, with the number of items pushed. -/
def pushItems (conversions : Conversions) (network : Network)
    (tests : Option (List PlaceholderTestDetail)) (launch : Nat) :
    List Result → Nat → Connection → Option Failure × Nat × Connection
  | [], pushedCount, connection => (none, pushedCount, connection)
  | result :: results, pushedCount, connection =>
    match pushItem conversions network tests launch result connection with
    | (some failure, stopped) => (some failure, pushedCount, stopped)
    | (none, pushed) =>
      pushItems conversions network tests launch results (pushedCount + 1) pushed

/-- The outcome when a request of the items fails. -/
def itemsFailed (plan : Plan) (launch pushedCount : Nat) : Failure → PushOutcome
  | .requestException reason => .partialPush
    ⟨.failedAfterPushing pushedCount plan.results.length reason, pushedCount, launch⟩
  | .unhandled => .raised

/-- The outcome when the last request fails. -/
def finishFailed (plan : Plan) (launch : Nat) : Failure → PushOutcome
  | .requestException reason => .partialPush
    ⟨.finishLaunchFailed plan.results.length reason, plan.results.length, launch⟩
  | .unhandled => .raised

/-- The outcome when the first request fails. -/
def launchFailed : Failure → PushOutcome
  | .requestException reason => .requestFailed reason
  | .unhandled => .raised

/-- The last request of a push. -/
def finishPush (network : Network) (plan : Plan) (launch : Nat) (connection : Connection) :
    PushOutcome × Server :=
  match connection.request network none (Server.finishLaunch launch) with
  | (none, finished) => (.launched launch, finished.server)
  | (some failure, stopped) => (finishFailed plan launch failure, stopped.server)

/-- The push of the items into a launch that has been created. -/
def pushIntoLaunch (conversions : Conversions) (network : Network) (plan : Plan) (launch : Nat)
    (connection : Connection) : PushOutcome × Server :=
  match pushItems conversions network plan.tests launch plan.results 0 connection with
  | (some failure, pushedCount, stopped) =>
    (itemsFailed plan launch pushedCount failure, stopped.server)
  | (none, _, pushed) => finishPush network plan launch pushed

/-- `_push_results_to_rp`. -/
def pushResultsToRp (conversions : Conversions) (network : Network) (plan : Plan)
    (server : Server) : PushOutcome × Server :=
  match (Connection.mk server 0).request network (attributesError plan.attributes)
      (Server.createLaunch plan.launchName plan.attributes plan.description) with
  | (some failure, stopped) => (launchFailed failure, stopped.server)
  | (none, created) =>
    pushIntoLaunch conversions network plan server.launches.length created

/-- The name of the item of a result. -/
def Result.itemName (result : Result) : Text :=
  match result.test with
  | .str nodeId => nodeIdToRpName nodeId
  | _ => []

/-- What the finished item of a result shows. -/
def Result.delivery (result : Result) : Delivery :=
  ⟨result.itemName, result.comment, result.status.text, result.issueBody⟩

/-- A value that the encoder does not refuse for its type. -/
def IsSent (value : Yaml) : Prop := value.jsonError ≠ some .typeError

/-- A result whose item raises nothing but request exceptions. -/
structure Result.IsSent (result : Result) : Prop where
  named : ∃ nodeId, result.test = .str nodeId
  comment : Reporter.IsSent result.comment
  issue : ∀ issue, result.issue = some issue → Reporter.IsSent issue.issueType

/-- A plan whose push raises nothing but request exceptions. -/
structure Plan.IsSent (plan : Plan) : Prop where
  attributes : ∀ item ∈ plan.attributes.items, Reporter.IsSent item.2
  results : ∀ result ∈ plan.results, result.IsSent

/-- A started item shows nothing yet. -/
theorem deliveries_startTestItem (server : Server) (launch : Nat) (name : Text)
    (description : Yaml) (attributes : Option (List Attribute)) :
    (server.startTestItem launch name description attributes).deliveries = server.deliveries := by
  simp [Server.deliveries, Server.startTestItem, TestItem.delivery]

/-- Finishing the item started last adds its delivery after the earlier ones. -/
theorem deliveries_finishTestItem (server : Server) (launch : Nat) (name : Text)
    (description : Yaml) (attributes : Option (List Attribute)) (outcome : ItemOutcome) :
    ((server.startTestItem launch name description attributes).finishTestItem
      server.items.length outcome).deliveries =
      server.deliveries ++ [⟨name, description, outcome.status, outcome.issue⟩] := by
  simp [Server.deliveries, Server.startTestItem, Server.finishTestItem,
    List.modify_eq_set_getElem?, TestItem.delivery]

/-- An error of json other than a `TypeError` is caught as a failed request. -/
theorem failureOf_of_ne_typeError (error : JsonError) (sent : error ≠ .typeError) :
    ∃ reason, failureOf error = .requestException reason := by
  cases error with
  | typeError => exact absurd rfl sent
  | valueError printed => exact ⟨_, rfl⟩

/-- A request that fails leaves the server as it was, and one that succeeds has its effect.
With a body that has no part of a strange type, only request exceptions are raised. -/
theorem request_cases (network : Network) (body : Option JsonError) (effect : Server → Server)
    (connection : Connection) (sent : body ≠ some .typeError) :
    (∃ reason stopped, connection.request network body effect =
        (some (.requestException reason), stopped) ∧ stopped.server = connection.server) ∨
    connection.request network body effect =
      (none, ⟨effect connection.server, connection.sent + 1⟩) := by
  unfold Connection.request
  cases body with
  | some error =>
    obtain ⟨reason, failed⟩ := failureOf_of_ne_typeError error
      (fun same => sent (congrArg some same))
    exact Or.inl ⟨reason, connection, by rw [← failed], rfl⟩
  | none =>
    cases network connection.sent with
    | none => exact Or.inr rfl
    | some reason => exact Or.inl ⟨reason, _, rfl, rfl⟩

/-- The first of two errors is no `TypeError` when neither is. -/
theorem or_ne_typeError {first second : Option JsonError} (left : first ≠ some .typeError)
    (right : second ≠ some .typeError) : first.or second ≠ some .typeError := by
  cases first with
  | none => exact right
  | some error => exact left

/-- A result that can be sent has no `TypeError` in its issue. -/
theorem issueError_ne_typeError (result : Result) (sent : result.IsSent) :
    issueError result.issueBody ≠ some .typeError := by
  unfold Result.issueBody
  cases chosen : result.issue with
  | none => exact nofun
  | some issue => exact or_ne_typeError (sent.issue issue chosen) sent.comment

/-- The item of a result is delivered, or a request failed and nothing is. -/
theorem pushItem_cases (conversions : Conversions) (network : Network)
    (tests : Option (List PlaceholderTestDetail)) (launch : Nat) (result : Result)
    (connection : Connection) (sent : result.IsSent) :
    (∃ reason stopped, pushItem conversions network tests launch result connection =
        (some (.requestException reason), stopped) ∧
      stopped.server.deliveries = connection.server.deliveries) ∨
    ∃ pushed, pushItem conversions network tests launch result connection = (none, pushed) ∧
      pushed.server.deliveries = connection.server.deliveries ++ [result.delivery] := by
  obtain ⟨nodeId, named⟩ := sent.named
  have name : result.itemName = nodeIdToRpName nodeId := by rw [Result.itemName, named]
  simp only [pushItem, named]
  rcases request_cases network result.comment.jsonError
      (Server.startTestItem launch (nodeIdToRpName nodeId) result.comment
        (itemAttributes tests (.str nodeId))) connection sent.comment with
    ⟨reason, stopped, failed, same⟩ | started
  · rw [failed]
    exact Or.inl ⟨reason, stopped, rfl, by rw [same]⟩
  · rw [started]
    dsimp only
    rcases request_cases network (issueError result.issueBody)
        (Server.finishTestItem connection.server.items.length
          ⟨conversions.upper result.status.text, result.issueBody⟩)
        ⟨connection.server.startTestItem launch (nodeIdToRpName nodeId) result.comment
          (itemAttributes tests (.str nodeId)), connection.sent + 1⟩
        (issueError_ne_typeError result sent) with ⟨reason, stopped, failed, same⟩ | finished
    · rw [failed]
      refine Or.inl ⟨reason, stopped, rfl, ?_⟩
      rw [same]
      exact deliveries_startTestItem _ _ _ _ _
    · rw [finished]
      refine Or.inr ⟨_, rfl, ?_⟩
      rw [deliveries_finishTestItem, upper_status, Result.delivery, name]

/-- The loop delivers a first part of the results, in order, and counts it. It
stops before the end only on a failed request.

Proof: by induction on the results; each iteration either delivers one more
result or ends the loop. -/
theorem pushItems_delivers (conversions : Conversions) (network : Network)
    (tests : Option (List PlaceholderTestDetail)) (launch : Nat) (results : List Result)
    (pushedCount : Nat) (connection : Connection) (sent : ∀ result ∈ results, result.IsSent) :
    ∃ pushed after, pushed ≤ results.length ∧
      after.server.deliveries =
        connection.server.deliveries ++ (results.take pushed).map Result.delivery ∧
      ((pushed = results.length ∧
          pushItems conversions network tests launch results pushedCount connection =
            (none, pushedCount + pushed, after)) ∨
        ∃ reason, pushItems conversions network tests launch results pushedCount connection =
          (some (.requestException reason), pushedCount + pushed, after)) := by
  induction results generalizing pushedCount connection with
  | nil => exact ⟨0, connection, Nat.le_refl 0, by simp, Or.inl ⟨rfl, rfl⟩⟩
  | cons result results inductionHypothesis =>
    obtain ⟨first, others⟩ := List.forall_mem_cons.mp sent
    simp only [pushItems]
    rcases pushItem_cases conversions network tests launch result connection first with
      ⟨reason, stopped, failed, unchanged⟩ | ⟨delivered, succeeded, extended⟩
    · rw [failed]
      exact ⟨0, stopped, Nat.zero_le _, by simp [unchanged], Or.inr ⟨reason, rfl⟩⟩
    · rw [succeeded]
      obtain ⟨pushed, after, bound, deliveries, ends⟩ :=
        inductionHypothesis (pushedCount + 1) delivered others
      have count : pushedCount + 1 + pushed = pushedCount + (pushed + 1) := by omega
      refine ⟨pushed + 1, after, by simpa using bound, ?_, ?_⟩
      · rw [deliveries, extended]
        simp
      · rw [← count]
        rcases ends with ⟨all, finished⟩ | failed
        · exact Or.inl ⟨by simp [all], finished⟩
        · exact Or.inr failed

/-- The results a push leaves for the next run: those after the ones that were
pushed, or all of them if there was no launch. Another exception leaves none: it ends
the run before anything is saved. -/
def PushOutcome.remaining (results : List Result) : PushOutcome → List Result
  | .launched _ => []
  | .partialPush error => results.drop error.pushedCount
  | .requestFailed _ => results
  | .raised => []

/-- Every item of a push was finished: the push succeeded, or failed only when it
finished the launch. -/
def PushOutcome.Complete : PushOutcome → Prop
  | .launched _ => True
  | .partialPush error => ∃ total reason, error.message = .finishLaunchFailed total reason
  | .requestFailed _ => False
  | .raised => False

/-- The push of the items conserves the results: those delivered and those left
are the results of the plan, in order. -/
theorem pushIntoLaunch_conserves (conversions : Conversions) (network : Network) (plan : Plan)
    (launch : Nat) (connection : Connection) (outcome : PushOutcome) (after : Server)
    (sent : plan.IsSent)
    (pushed : pushIntoLaunch conversions network plan launch connection = (outcome, after)) :
    ∃ delivered, delivered ++ outcome.remaining plan.results = plan.results ∧
      after.deliveries = connection.server.deliveries ++ delivered.map Result.delivery ∧
      (outcome.Complete → delivered = plan.results) := by
  obtain ⟨count, reached, bound, deliveries, ends⟩ :=
    pushItems_delivers conversions network plan.tests launch plan.results 0 connection
      sent.results
  simp only [pushIntoLaunch] at pushed
  rcases ends with ⟨all, finished⟩ | ⟨reason, failed⟩
  · rw [finished] at pushed
    rw [all, List.take_length] at deliveries
    simp only [finishPush] at pushed
    rcases request_cases network none (Server.finishLaunch launch) reached nofun with
      ⟨reason, stopped, failed, same⟩ | succeeded
    · rw [failed] at pushed
      cases pushed
      rw [← same] at deliveries
      exact ⟨plan.results, by simp [finishFailed, PushOutcome.remaining], deliveries, fun _ => rfl⟩
    · rw [succeeded] at pushed
      cases pushed
      exact ⟨plan.results, by simp [PushOutcome.remaining], deliveries, fun _ => rfl⟩
  · rw [failed] at pushed
    cases pushed
    refine ⟨plan.results.take count, ?_, deliveries, ?_⟩
    · simp [itemsFailed, PushOutcome.remaining]
    · rintro ⟨total, cause, impossible⟩
      cases impossible

/-- Values that can be sent raise no `TypeError`. -/
theorem itemsError_ne_typeError (items : List Yaml) (sent : ∀ item ∈ items, IsSent item) :
    Yaml.itemsError items ≠ some .typeError := by
  induction items with
  | nil =>
    rw [Yaml.itemsError]
    exact nofun
  | cons item rest inductionHypothesis =>
    obtain ⟨first, others⟩ := List.forall_mem_cons.mp sent
    rw [Yaml.itemsError]
    exact or_ne_typeError first (inductionHypothesis others)

/-- Attributes that can be sent raise no `TypeError`. -/
theorem attributesError_ne_typeError (attributes : Dict Text Yaml)
    (sent : ∀ item ∈ attributes.items, IsSent item.2) :
    attributesError attributes ≠ some .typeError :=
  itemsError_ne_typeError _ (List.forall_mem_map.mpr sent)

/-- A push conserves the results, whichever request fails. -/
theorem pushResultsToRp_conserves (conversions : Conversions) (network : Network) (plan : Plan)
    (server : Server) (outcome : PushOutcome) (after : Server) (sent : plan.IsSent)
    (pushed : pushResultsToRp conversions network plan server = (outcome, after)) :
    ∃ delivered, delivered ++ outcome.remaining plan.results = plan.results ∧
      after.deliveries = server.deliveries ++ delivered.map Result.delivery ∧
      (outcome.Complete → delivered = plan.results) := by
  simp only [pushResultsToRp] at pushed
  rcases request_cases network (attributesError plan.attributes)
      (Server.createLaunch plan.launchName plan.attributes plan.description) ⟨server, 0⟩
      (attributesError_ne_typeError plan.attributes sent.attributes) with
    ⟨reason, stopped, failed, same⟩ | created
  · rw [failed] at pushed
    cases pushed
    exact ⟨[], rfl, by simp [same], False.elim⟩
  · rw [created] at pushed
    exact pushIntoLaunch_conserves conversions network plan _ _ outcome after sent pushed

/-- A request that succeeds has its effect. -/
theorem request_of_succeeds (network : Network) (effect : Server → Server)
    (connection : Connection) (succeeds : network connection.sent = none) :
    connection.request network none effect =
      (none, ⟨effect connection.server, connection.sent + 1⟩) := by
  simp only [Connection.request, succeeds]

/-- A request that fails has none. -/
theorem request_of_fails (network : Network) (effect : Server → Server) (connection : Connection)
    (reason : Text) (fails : network connection.sent = some reason) :
    connection.request network none effect =
      (some (.requestException reason), ⟨connection.server, connection.sent + 1⟩) := by
  simp only [Connection.request, fails]

/-- Nothing in a result that a session wrote keeps its item from being sent. -/
theorem issueError_of_written (result : Result) (written : result.IsWritten) :
    issueError result.issueBody = none := by
  obtain ⟨comment, text⟩ := written.comment
  unfold Result.issueBody
  cases chosen : result.issue with
  | none => rfl
  | some issue =>
    obtain ⟨⟨issueType, typed⟩, -⟩ := written.issue issue chosen
    simp [issueError, typed, text]

/-- The requests of the item of a result that a session wrote. -/
theorem pushItem_of_written (conversions : Conversions) (network : Network)
    (tests : Option (List PlaceholderTestDetail)) (launch : Nat) (result : Result)
    (connection : Connection) (written : result.IsWritten) :
    pushItem conversions network tests launch result connection =
      match connection.request network none
          (Server.startTestItem launch result.itemName result.comment
            (itemAttributes tests result.test)) with
      | (some failure, stopped) => (some failure, stopped)
      | (none, started) =>
        started.request network none
          (Server.finishTestItem connection.server.items.length
            ⟨conversions.upper result.status.text, result.issueBody⟩) := by
  obtain ⟨nodeId, named⟩ := written.test
  obtain ⟨comment, text⟩ := written.comment
  have name : result.itemName = nodeIdToRpName nodeId := by rw [Result.itemName, named]
  have sendable : result.comment.jsonError = none := by rw [text, Yaml.jsonError_str]
  simp only [pushItem, named, issueError_of_written result written, sendable, name]

/-- An item is pushed by two requests that succeed. -/
theorem pushItem_of_succeeds (conversions : Conversions) (network : Network)
    (tests : Option (List PlaceholderTestDetail)) (launch : Nat) (result : Result)
    (connection : Connection) (written : result.IsWritten)
    (start : network connection.sent = none) (finish : network (connection.sent + 1) = none) :
    ∃ after, pushItem conversions network tests launch result connection = (none, after) ∧
      after.sent = connection.sent + 2 := by
  rw [pushItem_of_written _ _ _ _ _ _ written, request_of_succeeds network _ connection start]
  dsimp only
  rw [request_of_succeeds network _ _ finish]
  exact ⟨_, rfl, rfl⟩

/-- An item is not pushed if either of its requests fails. -/
theorem pushItem_of_fails (conversions : Conversions) (network : Network)
    (tests : Option (List PlaceholderTestDetail)) (launch : Nat) (result : Result)
    (connection : Connection) (reason : Text) (written : result.IsWritten)
    (fails : network connection.sent = some reason ∨
      network connection.sent = none ∧ network (connection.sent + 1) = some reason) :
    ∃ stopped, pushItem conversions network tests launch result connection =
      (some (.requestException reason), stopped) := by
  rw [pushItem_of_written _ _ _ _ _ _ written]
  rcases fails with start | ⟨start, finish⟩
  · rw [request_of_fails network _ connection reason start]
    exact ⟨_, rfl⟩
  · rw [request_of_succeeds network _ connection start]
    dsimp only
    rw [request_of_fails network _ _ reason finish]
    exact ⟨_, rfl⟩

/-- The loop spends two requests on each item, so the number of the first request
that fails tells how many items were pushed.

Proof: by induction on the results. The failing request belongs to the first item
or to a later one. -/
theorem pushItems_at_failure (conversions : Conversions) (network : Network)
    (tests : Option (List PlaceholderTestDetail)) (launch : Nat) (results : List Result)
    (pushedCount : Nat) (connection : Connection) (failing : Nat) (reason : Text)
    (written : ∀ result ∈ results, result.IsWritten) (sent : connection.sent ≤ failing)
    (succeed : ∀ request, connection.sent ≤ request → request < failing → network request = none)
    (fails : network failing = some reason)
    (bound : failing < connection.sent + 2 * results.length) :
    ∃ stopped, pushItems conversions network tests launch results pushedCount connection =
      (some (.requestException reason), pushedCount + (failing - connection.sent) / 2,
        stopped) := by
  induction results generalizing pushedCount connection with
  | nil =>
    simp only [List.length_nil] at bound
    omega
  | cons result results inductionHypothesis =>
    obtain ⟨head, tail⟩ := List.forall_mem_cons.mp written
    simp only [pushItems]
    by_cases later : connection.sent + 2 ≤ failing
    · obtain ⟨after, pushed, spent⟩ := pushItem_of_succeeds conversions network tests launch result
        connection head (succeed _ (by omega) (by omega)) (succeed _ (by omega) (by omega))
      rw [pushed]
      have count : pushedCount + (failing - connection.sent) / 2 =
          pushedCount + 1 + (failing - after.sent) / 2 := by omega
      rw [count]
      apply inductionHypothesis _ _ tail
      · omega
      · intro request lower upper
        exact succeed request (by omega) upper
      · simp only [List.length_cons] at bound
        omega
    · have first : network connection.sent = some reason ∨
          network connection.sent = none ∧ network (connection.sent + 1) = some reason := by
        rcases Nat.eq_or_lt_of_le sent with atStart | atFinish
        · exact Or.inl (by rw [atStart, fails])
        · have same : connection.sent + 1 = failing := by omega
          exact Or.inr ⟨succeed _ (Nat.le_refl _) atFinish, by rw [same, fails]⟩
      obtain ⟨stopped, failed⟩ :=
        pushItem_of_fails conversions network tests launch result connection reason head first
      have none : (failing - connection.sent) / 2 = 0 := by omega
      rw [failed, none]
      exact ⟨stopped, rfl⟩

/-- The results a push leaves when a request before the last one fails. -/
theorem remaining_at_failure (conversions : Conversions) (network : Network) (plan : Plan)
    (server : Server) (failing : Nat) (reason : Text)
    (written : ∀ result ∈ plan.results, result.IsWritten)
    (sendable : attributesError plan.attributes = none)
    (succeed : ∀ request, request < failing → network request = none)
    (fails : network failing = some reason) (bound : failing ≤ 2 * plan.results.length) :
    (pushResultsToRp conversions network plan server).1.remaining plan.results =
      plan.results.drop ((failing - 1) / 2) := by
  simp only [pushResultsToRp, sendable]
  cases failing with
  | zero =>
    rw [request_of_fails network _ ⟨server, 0⟩ reason fails]
    rfl
  | succ failing =>
    rw [request_of_succeeds network _ ⟨server, 0⟩ (succeed 0 (Nat.succ_pos _))]
    dsimp only
    obtain ⟨stopped, failed⟩ := pushItems_at_failure conversions network plan.tests
      server.launches.length plan.results 0
      ⟨server.createLaunch plan.launchName plan.attributes plan.description, 1⟩
      (failing + 1) reason written (by simp) (fun request _ upper => succeed request upper) fails
      (by dsimp only; omega)
    simp only [pushIntoLaunch, failed, itemsFailed, PushOutcome.remaining, Nat.zero_add]

end VirtTestTools.Reporter
