import VirtTestTools.Reporter.Push

/-!
# A run of the manual reporter

`main` first settles what to push: the team, the launch attributes and the
results, from the terminal or from a batch file. Everything that can end a run
without a request happens here. It then pushes, and writes the results that were
not delivered to a file in the current directory.
-/

namespace VirtTestTools.Reporter

/-- The command line. The three connection settings may also come from the
environment. -/
structure Options where
  launch : LaunchOptions
  team : Option Text
  testsDir : Text
  marker : Option Text
  keyword : Option Text
  fromCluster : Bool
  rpUrl : Option Text
  rpProject : Option Text
  rpToken : Option Text
  batchFile : Option Text
  dryRun : Bool

/-- What a run finds around it: the connected cluster, the file system, the
collected placeholder tests and the answers of the tester. -/
structure Environment where
  cluster : ClusterAttributes
  resolvedParts : Text → List Text
  collectPlaceholderDetails :
    Text → Option Text → Option Text → List PlaceholderTestDetail
  answers : List Text

/-- The team named by the directory below the first one called `tests`. -/
def inferTeam (conversions : Conversions) (parts : List Text) : Option Text :=
  match parts.dropWhile (· ≠ "tests".toList) with
  | _ :: name :: _ => some (conversions.upper name)
  | _ => none

/-- The team of the command line, or else the inferred one. -/
def resolveTeam (conversions : Conversions) (environment : Environment) (options : Options) :
    Option Text :=
  (given options.team).or (inferTeam conversions (environment.resolvedParts options.testsDir))

/-- The attributes of the cluster, if they are asked for. -/
def clusterBase (environment : Environment) (options : Options) : List Attribute :=
  if options.fromCluster then clusterAttributesToLaunchAttrs environment.cluster else []

/-- The bundle of the command line, or else the one of the attributes. -/
def resolveBundle (options : Options) (attributes : Dict Text Yaml) : Option Text :=
  match given options.launch.bundle, attributes.get "BUNDLE".toList with
  | some bundle, _ => some bundle
  | none, some (.str bundle) => some bundle
  | none, _ => options.launch.bundle

/-- The keys that a launch needs, in the order in which they are reported. -/
def requiredAttributeKeys : List Text :=
  ["ARCH".toList, "BUNDLE".toList, "CHANNEL".toList, "CLUSTER_DOMAIN".toList,
   "CLUSTER_NAME".toList, "CNV_XY_VER".toList, "OCP".toList, "SC".toList]

/-- The validation of the launch attributes, left out in a dry run. -/
def validateAttributes (options : Options) (attributes : Dict Text Yaml) : Except Stop Unit :=
  let missing := requiredAttributeKeys.filter (fun key => !attributes.has key)
  if options.dryRun || missing.isEmpty then .ok () else .error (.missingAttributes missing)

/-- The label under which the summary counts a failed result. -/
def defectLabel (result : Result) : Option Yaml :=
  if result.status = .failed then
    some (match result.issue with
      | none => .str "Unclassified".toList
      | some issue => issue.label)
  else none

/-- The summary, which counts the failed results by their labels and sorts these, and the
last checks before the push. -/
def validateRun (options : Options) (plan : Plan) : Except Stop Plan :=
  if !Yaml.isSorted (plan.results.filterMap defectLabel) then .error .unsortedLabels
  else if plan.results.isEmpty then .error .noResults
  else if options.dryRun then .error .dryRun
  else if (given options.rpUrl).isNone then .error .missingUrl
  else if (given options.rpProject).isNone then .error .missingProject
  else if (given options.rpToken).isNone then .error .missingToken
  else .ok plan

/-- The label of a team in the launch name and in a saved file. -/
def teamLabel (conversions : Conversions) (team : Option Text) : Text :=
  match given team with
  | none => "ALL".toList
  | some name => conversions.upper name

/-- The attributes of a cluster are texts. -/
theorem forall_clusterBase {holds : Yaml → Prop} (texts : ∀ text, holds (.str text))
    (environment : Environment) (options : Options) :
    ∀ entry ∈ clusterBase environment options, holds entry.value := by
  intro entry member
  unfold clusterBase at member
  split at member
  · obtain ⟨mapped, -, given⟩ := List.mem_filterMap.mp member
    obtain ⟨value, -, rfl⟩ := Option.map_eq_some_iff.mp given
    exact texts value
  · cases member

/-- The attributes restored from a batch file, unless the cluster gave some. -/
def restoreAttributes (base : List Attribute) (saved : Option (List Yaml)) :
    Except Stop (List Attribute) :=
  match base, saved with
  | [], some entries => entries.mapM Attribute.ofYaml
  | _, _ => .ok base

/-- What a run with `--batch-file` pushes. -/
def planBatch (conversions : Conversions) (environment : Environment) (options : Options)
    (content : Yaml) : Except Stop Plan :=
  let team := resolveTeam conversions environment options
  let base := clusterBase environment options
  buildLaunchAttributes conversions team options.launch base >>= fun initial =>
  loadBatchFile conversions content >>= fun loaded =>
  let fullTeam := (given team).or (given loaded.2.team)
  let bundle := resolveBundle options initial
  let fullBundle := ((given bundle).or (given loaded.2.bundle)).or bundle
  restoreAttributes base loaded.2.attributes >>= fun restored =>
  buildLaunchAttributes conversions fullTeam { options.launch with bundle := fullBundle }
    restored >>= fun attributes =>
  validateAttributes options attributes >>= fun _ =>
  validateRun options
    { results := loaded.1.filter (fun result => decide (result.status ≠ .skipped))
      attributes := attributes
      tests := none
      teamLabel := teamLabel conversions fullTeam
      bundle := fullBundle }

/-- The results the tester gives, unless the input ends. -/
def askResults (tests : List PlaceholderTestDetail) (answers : List Text) :
    Except Stop (List Result) :=
  match runInteractiveMode tests answers with
  | none => .error .aborted
  | some (results, _) => .ok results

/-- The collected tests, of which there must be one. -/
def collectTests (environment : Environment) (options : Options) :
    Except Stop (List PlaceholderTestDetail) :=
  match environment.collectPlaceholderDetails options.testsDir options.marker options.keyword with
  | [] => .error .noPlaceholderTests
  | test :: tests => .ok (test :: tests)

/-- What an interactive run pushes. -/
def planInteractive (conversions : Conversions) (environment : Environment) (options : Options) :
    Except Stop Plan :=
  let team := resolveTeam conversions environment options
  buildLaunchAttributes conversions team options.launch (clusterBase environment options) >>=
    fun attributes =>
  collectTests environment options >>= fun tests =>
  validateAttributes options attributes >>= fun _ =>
  askResults tests environment.answers >>= fun results =>
  validateRun options
    { results := results
      attributes := attributes
      tests := some tests
      teamLabel := teamLabel conversions team
      bundle := resolveBundle options attributes }

/-- The part of `main` before the push. -/
def makePlan (conversions : Conversions) (environment : Environment) (options : Options)
    (files : Dict Text Yaml) : Except Stop Plan :=
  match options.batchFile with
  | none => planInteractive conversions environment options
  | some path =>
    match files.get path with
    | none => .error (.unreadableBatchFile path)
    | some content => planBatch conversions environment options content

/-- The server and the files of the current directory. -/
structure World where
  server : Server
  files : Dict Text Yaml

/-- One run: its command line and surroundings, the fate of its requests, and the
name and time of the file it would save. -/
structure Run where
  environment : Environment
  options : Options
  network : Network
  filename : Text
  savedAt : Text

/-- How a run ends: before the push, or after it with the file it saved. -/
inductive RunOutcome where
  | stopped (reason : Stop)
  | pushed (outcome : PushOutcome) (saved : Option Text)

/-- Write the results that are left, if any, and name the file. -/
def saveRemaining (run : Run) (plan : Plan) (remaining : List Result) (world : World) :
    Option Text × World :=
  let payload :=
    saveResultsForRetry remaining plan.teamLabel plan.bundle plan.attributes run.savedAt
  if remaining.isEmpty then (none, world)
  else (some run.filename, { world with files := world.files.set run.filename payload })

/-- The part of `main` from the push on. -/
def executePlan (conversions : Conversions) (run : Run) (plan : Plan) (world : World) :
    RunOutcome × World :=
  let pushed := pushResultsToRp conversions run.network plan world.server
  let saved := saveRemaining run plan (pushed.1.remaining plan.results)
    { world with server := pushed.2 }
  (.pushed pushed.1 saved.1, saved.2)

/-- `main`. -/
def main (conversions : Conversions) (run : Run) (world : World) : RunOutcome × World :=
  match makePlan conversions run.environment run.options world.files with
  | .error reason => (.stopped reason, world)
  | .ok plan => executePlan conversions run plan world

end VirtTestTools.Reporter
