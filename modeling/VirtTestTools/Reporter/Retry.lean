import VirtTestTools.Futures
import VirtTestTools.Reporter.Delivery

/-!
# What a retry pushes

A retry is a run with nothing but the saved file on its command line. It rebuilds
the payload from the metadata of the file: the launch attributes through the same
overrides and derivations as the failed run, the item attributes without the
collected tests. This module says exactly when the two payloads agree.
-/

namespace VirtTestTools.Reporter

/-- A command line that gives a bundle and no other attribute. -/
def onlyBundle (bundle : Option Text) : LaunchOptions :=
  ⟨bundle, none, none, none, none, none, none, none, none⟩

/-- The command line of a retry: the saved file, the default tests directory, and
the connection settings of the environment. -/
def retryOptions (options : Options) (path : Text) : Options where
  launch := onlyBundle none
  team := none
  testsDir := "tests".toList
  marker := none
  keyword := none
  fromCluster := false
  rpUrl := options.rpUrl
  rpProject := options.rpProject
  rpToken := options.rpToken
  batchFile := some path
  dryRun := false

/-- The retry of a failed run pushes the results that were left, creates its
launch with the same attributes, and starts the items with the same attributes. -/
def RetryPushesSame (conversions : Conversions) (run : Run) (plan : Plan) (left : List Result)
    (files : Dict Text Yaml) : Prop :=
  ∃ retry, makePlan conversions run.environment (retryOptions run.options run.filename) files =
      .ok retry ∧
    retry.results = left ∧
    (∀ key, retry.attributes.get key = plan.attributes.get key) ∧
    ∀ result ∈ left,
      itemAttributes retry.tests result.test = itemAttributes plan.tests result.test

/-- No result that was left belongs to a collected test with a Polarion ID. -/
def NoPolarionLeft (tests : List PlaceholderTestDetail) (left : List Result) : Prop :=
  ∀ result ∈ left, ∀ test ∈ tests, .str test.nodeId = result.test →
    given test.polarionId = none

/-- The bundle was given on the command line, or the version in use is the one
that the bundle of the cluster gives. -/
def VersionFollowsBundle (environment : Environment) (options : Options) : Prop :=
  options.launch.bundle.isSome ∨
    ∀ bundle version used, environment.cluster.bundle = some bundle →
      versionOfBundle bundle = some version →
      options.launch.cnvVersion.or environment.cluster.cnvXyVersion = some used → used = version

/-- The run had a team, and the default tests directory names no other one. -/
def TeamKept (conversions : Conversions) (environment : Environment) (options : Options) : Prop :=
  ∃ team, given (resolveTeam conversions environment options) = some team ∧
    ∀ other, given (inferTeam conversions (environment.resolvedParts "tests".toList)) = some other →
      conversions.upper other = conversions.upper team

/-- Every ID of the lookup is a nonempty text. -/
theorem polarionLookup_nonempty (tests : List PlaceholderTestDetail) (key polarionId : Text)
    (found : (polarionLookup tests).get key = some polarionId) : polarionId ≠ [] := by
  rcases Dict.mem_of_get_update _ _ _ _ found with member | absent
  · obtain ⟨test, -, listed⟩ := List.mem_filterMap.mp member
    obtain ⟨listedId, kept, same⟩ := Option.map_eq_some_iff.mp listed
    cases same
    simpa using (Option.filter_eq_some_iff.mp kept).2
  · cases absent

/-- An item has no attributes exactly if no collected test of that name has a
Polarion ID. -/
theorem itemAttributes_eq_none_iff (tests : List PlaceholderTestDetail) (name : Text) :
    itemAttributes (some tests) (.str name) = none ↔
      ∀ test ∈ tests, test.nodeId = name → given test.polarionId = none := by
  have absent : itemAttributes (some tests) (.str name) = none ↔
      (polarionLookup tests).get name = none := by
    simp only [itemAttributes, Option.getD_some, Option.map_eq_none_iff]
    cases found : (polarionLookup tests).get name with
    | none => simp
    | some polarionId => simp [polarionLookup_nonempty tests name polarionId found]
  rw [absent, polarionLookup, Dict.get_update_eq_none]
  constructor
  · rintro ⟨-, others⟩ test member rfl
    cases listed : given test.polarionId with
    | none => rfl
    | some polarionId =>
      have entry : (test.nodeId, polarionId) ∈ tests.filterMap (fun test =>
          (test.polarionId.filter (· ≠ [])).map (fun polarionId => (test.nodeId, polarionId))) :=
        List.mem_filterMap.mpr ⟨test, member, by rw [← given, listed]; rfl⟩
      exact absurd rfl (others _ entry)
  · intro none
    refine ⟨rfl, ?_⟩
    intro entry member same
    obtain ⟨test, collected, listed⟩ := List.mem_filterMap.mp member
    obtain ⟨polarionId, kept, rfl⟩ := Option.map_eq_some_iff.mp listed
    rw [← given, none test collected same] at kept
    cases kept

/-- The same for a test of any type: only a text names a collected test. -/
theorem itemAttributes_some_iff (tests : List PlaceholderTestDetail) (test : Yaml) :
    itemAttributes (some tests) test = none ↔
      ∀ collected ∈ tests, .str collected.nodeId = test → given collected.polarionId = none := by
  cases test with
  | str name =>
    rw [itemAttributes_eq_none_iff]
    simp only [Yaml.str.injEq]
  | _ => simp [itemAttributes]

/-- A retry starts every item without attributes. -/
theorem itemAttributes_none (test : Yaml) : itemAttributes none test = none := by
  cases test with
  | str name => rfl
  | _ => rfl

/-- The value an interactive run has for a key before anything is derived: that of
the command line, or else that of the cluster. -/
def launchValue (environment : Environment) (options : Options) (key : Text) : Option Text :=
  (valueOf options.launch.overrides key).or
    (if options.fromCluster then valueOf environment.cluster.mapping key else none)

/-- An attribute of the cluster, unless the options override it. -/
theorem get_overridden_cluster (environment : Environment) (options : Options) (key : Text) :
    (overridden options.launch (clusterBase environment options)).get key =
      (launchValue environment options key).map Yaml.str := by
  rw [get_overridden, launchValue, Option.map_or]
  cases asked : options.fromCluster with
  | false =>
    have empty : (Dict.update ∅ ((clusterBase environment options).map
        (fun entry => (entry.key, entry.value)))).get key = none := by
      simp only [clusterBase, asked]
      rfl
    rw [empty]
    rfl
  | true => simp only [clusterBase, asked, if_true, get_cluster_base]

/-- The version of an interactive run with the given bundle. -/
def versionUsed (environment : Environment) (options : Options) (bundle : Text) : Option Text :=
  if options.launch.bundle.isSome then
    (versionOfBundle bundle).or (launchValue environment options "CNV_XY_VER".toList)
  else
    (launchValue environment options "CNV_XY_VER".toList).or (versionOfBundle bundle)

/-- The attributes of an interactive run that a retry may change. -/
structure LaunchFacts (conversions : Conversions) (environment : Environment) (options : Options)
    (attributes : Dict Text Yaml) (bundle : Text) : Prop where
  isManual : attributes.get "MANUAL".toList = some (.str "true".toList)
  ofTeam : attributes.get "TEAM".toList =
    ((given (resolveTeam conversions environment options)).map conversions.upper).map Yaml.str
  fromLaunch : launchValue environment options "BUNDLE".toList = some bundle
  ofBundle : attributes.get "BUNDLE".toList = some (.str bundle)
  ofVersion : attributes.get "CNV_XY_VER".toList =
    (versionUsed environment options bundle).map Yaml.str

/-- Keys that the version does not concern. -/
theorem get_derived_other (bundleGiven : Bool) (attributes : Dict Text Yaml) (bundle key : Text)
    (other : key ≠ "CNV_XY_VER".toList) :
    (if bundleGiven || !attributes.has "CNV_XY_VER".toList then setVersion attributes bundle
      else attributes).get key = attributes.get key := by
  split
  · rw [get_setVersion, if_neg other]
  · rfl

/-- The version after the derivation. -/
theorem get_derived_version (bundleGiven : Bool) (attributes : Dict Text Yaml) (bundle : Text) :
    (if bundleGiven || !attributes.has "CNV_XY_VER".toList then setVersion attributes bundle
      else attributes).get "CNV_XY_VER".toList =
      if bundleGiven then
        ((versionOfBundle bundle).map Yaml.str).or (attributes.get "CNV_XY_VER".toList)
      else
        (attributes.get "CNV_XY_VER".toList).or ((versionOfBundle bundle).map Yaml.str) := by
  cases bundleGiven with
  | true => rw [Bool.true_or, if_pos rfl, if_pos rfl, get_setVersion, if_pos rfl]
  | false =>
    cases present : attributes.has "CNV_XY_VER".toList with
    | true =>
      obtain ⟨value, found⟩ := (Dict.has_iff attributes _).mp present
      rw [Bool.not_true, Bool.or_false, if_neg Bool.false_ne_true, if_neg Bool.false_ne_true,
        found]
      rfl
    | false =>
      have absent := (Dict.get_eq_none_iff attributes _).mpr present
      rw [Bool.not_false, Bool.or_true, if_pos rfl, if_neg Bool.false_ne_true, get_setVersion,
        if_pos rfl, absent, Option.or_none, Option.none_or]

/-- A launch that is built has these attributes. -/
theorem launchFacts (conversions : Conversions) (environment : Environment) (options : Options)
    (attributes : Dict Text Yaml)
    (built : buildLaunchAttributes conversions (resolveTeam conversions environment options)
      options.launch (clusterBase environment options) = .ok attributes)
    (present : attributes.has "BUNDLE".toList = true) :
    ∃ bundle, LaunchFacts conversions environment options attributes bundle := by
  have values := get_overridden_cluster environment options
  cases fromLaunch : launchValue environment options "BUNDLE".toList with
  | none =>
    have absent : (overridden options.launch (clusterBase environment options)).get
        "BUNDLE".toList = none := by
      rw [values, fromLaunch]
      rfl
    rw [buildLaunchAttributes, deriveVersion_absent _ _ absent, Except.map] at built
    cases built
    obtain ⟨value, found⟩ := (Dict.has_iff _ _).mp present
    rw [get_setMandatory, if_neg (by decide), if_neg (by decide), if_neg (by decide), absent]
      at found
    cases found
  | some bundle =>
    rw [buildLaunchAttributes, deriveVersion_text _ _ bundle (by rw [values, fromLaunch]; rfl),
      Except.map] at built
    cases built
    refine ⟨bundle, ?_, ?_, fromLaunch, ?_, ?_⟩
    · rw [get_setMandatory, if_neg (by decide), if_pos rfl]
    · rw [get_setMandatory, if_neg (by decide), if_neg (by decide), if_pos rfl,
        get_derived_other _ _ _ _ (by decide), values]
      have noTeam : launchValue environment options "TEAM".toList = none := by
        cases asked : options.fromCluster with
        | false => simp [launchValue, asked]; rfl
        | true => simp [launchValue, asked]; exact ⟨rfl, rfl⟩
      rw [noTeam]
      exact Option.or_none
    · rw [get_setMandatory, if_neg (by decide), if_neg (by decide), if_neg (by decide),
        get_derived_other _ _ _ _ (by decide), values, fromLaunch]
      rfl
    · rw [get_setMandatory, if_neg (by decide), if_neg (by decide), if_neg (by decide),
        get_derived_version, values, versionUsed]
      split
      · rw [Option.map_or]
      · rw [Option.map_or]

/-- The team of a retry: the one its tests directory names, or else the label in
the file. -/
def retryTeam (conversions : Conversions) (environment : Environment) (label : Text) : Text :=
  (given (inferTeam conversions (environment.resolvedParts "tests".toList))).getD label

/-- What a retry makes of the attributes in its file. -/
structure RetryFacts (conversions : Conversions) (environment : Environment) (label bundle : Text)
    (saved attributes : Dict Text Yaml) : Prop where
  ofTeam : attributes.get "TEAM".toList =
    some (.str (conversions.upper (retryTeam conversions environment label)))
  ofVersion : attributes.get "CNV_XY_VER".toList =
    ((versionOfBundle bundle).map Yaml.str).or (saved.get "CNV_XY_VER".toList)
  others : ∀ key, key ≠ "TEAM".toList → key ≠ "CNV_XY_VER".toList →
    attributes.get key = saved.get key

/-- The attributes that a retry starts from are those of the file. -/
theorem get_overridden_saved (saved : Dict Text Yaml) (bundle : Text)
    (ofBundle : saved.get "BUNDLE".toList = some (.str bundle)) (key : Text) :
    (overridden (onlyBundle (given (some bundle)))
      (saved.items.map (fun item => ⟨item.1, item.2⟩))).get key = saved.get key := by
  have base : (Dict.update ∅ ((saved.items.map (fun item => Attribute.mk item.1 item.2)).map
      (fun entry => (entry.key, entry.value)))).get key = saved.get key := by
    rw [List.map_map]
    have pairs : saved.items.map ((fun entry : Attribute => (entry.key, entry.value)) ∘
        fun item => Attribute.mk item.1 item.2) = saved.items := List.map_id _
    rw [pairs, Dict.get_update]
    exact Option.or_none
  rw [get_overridden, base]
  by_cases bundleKey : key = "BUNDLE".toList
  · subst bundleKey
    have value : valueOf (onlyBundle (given (some bundle))).overrides "BUNDLE".toList =
        given (some bundle) := rfl
    rw [value, ofBundle]
    by_cases empty : bundle = []
    · subst empty
      rfl
    · simp [given, Option.filter, empty]
  · have value : valueOf (onlyBundle (given (some bundle))).overrides key = none := by
      apply valueOf_eq_none
      intro entry member same
      simp only [LaunchOptions.overrides, onlyBundle, List.mem_cons, List.not_mem_nil,
        or_false] at member
      rcases member with rfl | rfl | rfl | rfl | rfl | rfl | rfl | rfl
      · exact absurd same.symm bundleKey
      all_goals rfl
    rw [value]
    rfl

/-- A text that is not empty is given. -/
theorem given_some (text : Text) (nonempty : text ≠ []) : given (some text) = some text := by
  simp [given, Option.filter, nonempty]

/-- A value that is given is not empty. -/
theorem ne_nil_of_given (value : Option Text) (text : Text) (known : given value = some text) :
    text ≠ [] := by
  simpa using (Option.filter_eq_some_iff.mp known).2

/-- The team of a retry is not empty. -/
theorem retryTeam_ne_nil (conversions : Conversions) (environment : Environment) (label : Text)
    (labelled : label ≠ []) : retryTeam conversions environment label ≠ [] := by
  unfold retryTeam
  cases known : given (inferTeam conversions (environment.resolvedParts "tests".toList)) with
  | none => exact labelled
  | some team => exact ne_nil_of_given _ team known

/-- The attributes a retry builds from its file. -/
theorem retryFacts (conversions : Conversions) (environment : Environment) (label bundle : Text)
    (saved : Dict Text Yaml) (labelled : label ≠ [])
    (isManual : saved.get "MANUAL".toList = some (.str "true".toList))
    (ofBundle : saved.get "BUNDLE".toList = some (.str bundle)) :
    ∃ attributes,
      buildLaunchAttributes conversions (some (retryTeam conversions environment label))
        (onlyBundle (given (some bundle))) (saved.items.map (fun item => ⟨item.1, item.2⟩)) =
        .ok attributes ∧
      RetryFacts conversions environment label bundle saved attributes := by
  have values := get_overridden_saved saved bundle ofBundle
  have named := given_some _ (retryTeam_ne_nil conversions environment label labelled)
  rw [buildLaunchAttributes, deriveVersion_text _ _ bundle (by rw [values, ofBundle])]
  refine ⟨_, rfl, ⟨?_, ?_, ?_⟩⟩
  · rw [get_setMandatory, if_neg (by decide), if_neg (by decide), if_pos rfl, named]
    rfl
  · rw [get_setMandatory, if_neg (by decide), if_neg (by decide), if_neg (by decide),
      get_derived_version, values]
    by_cases empty : bundle = []
    · subst empty
      exact Option.or_none
    · rw [given_some bundle empty]
      rfl
  · intro key notTeam notVersion
    rw [get_setMandatory, get_derived_other _ _ _ _ notVersion, values, if_neg notTeam]
    by_cases manualKey : key = "MANUAL".toList
    · subst manualKey
      rw [if_neg (by decide), if_pos rfl, isManual]
    · rw [if_neg manualKey]
      exact ite_self _

/-- The connection settings of a command line are complete. -/
def Connected (options : Options) : Prop :=
  (given options.rpUrl).isSome ∧ (given options.rpProject).isSome ∧ (given options.rpToken).isSome

/-- What the last checks before a push establish. -/
theorem validateRun_eq_ok_iff (options : Options) (plan accepted : Plan) :
    validateRun options plan = .ok accepted ↔
      accepted = plan ∧ Yaml.isSorted (plan.results.filterMap defectLabel) = true ∧
        plan.results ≠ [] ∧ options.dryRun = false ∧ Connected options := by
  have isNone_iff (value : Option Text) : value.isNone = false ↔ value.isSome = true := by
    cases value with
    | none => decide
    | some text => simp
  simp only [Connected, ← isNone_iff, ← List.isEmpty_eq_false_iff]
  constructor
  · intro valid
    unfold validateRun at valid
    split_ifs at valid with sorted empty dry url project token
    cases valid
    simp only [Bool.not_eq_true, Bool.not_eq_false'] at sorted empty dry url project token
    exact ⟨rfl, sorted, empty, dry, url, project, token⟩
  · rintro ⟨rfl, sorted, empty, dry, url, project, token⟩
    simp only [validateRun, sorted, empty, dry, url, project, token, Bool.not_true,
      Bool.false_eq_true, if_false]

/-- The attributes are accepted in a dry run, or when all required ones are there. -/
theorem validateAttributes_eq_ok_iff (options : Options) (attributes : Dict Text Yaml) :
    validateAttributes options attributes = .ok () ↔
      options.dryRun = true ∨ ∀ key ∈ requiredAttributeKeys, attributes.has key = true := by
  have complete : (requiredAttributeKeys.filter (fun key => !attributes.has key)).isEmpty = true ↔
      ∀ key ∈ requiredAttributeKeys, attributes.has key = true := by
    rw [List.isEmpty_iff, List.filter_eq_nil_iff]
    simp only [Bool.not_eq_true', Bool.not_eq_false]
  rw [← complete, ← Bool.or_eq_true]
  simp only [validateAttributes]
  split_ifs with valid
  · simp [valid]
  · simp [valid]

/-- The labels that a session wrote are texts, and the summary sorts them. -/
theorem isSorted_of_written (results : List Result)
    (written : ∀ result ∈ results, result.IsWritten) :
    Yaml.isSorted (results.filterMap defectLabel) = true := by
  have texts : ∀ label ∈ results.filterMap defectLabel, label.order = some .text := by
    intro label member
    obtain ⟨result, listed, labelled⟩ := List.mem_filterMap.mp member
    unfold defectLabel at labelled
    split at labelled
    · cases chosen : result.issue with
      | none =>
        rw [chosen] at labelled
        cases labelled
        rfl
      | some issue =>
        obtain ⟨-, text, typed⟩ := (written result listed).issue issue chosen
        rw [chosen] at labelled
        cases labelled
        dsimp only
        rw [typed]
        rfl
    · cases labelled
  simp only [Yaml.isSorted, List.all_eq_true, Bool.and_eq_true]
  intro label member
  refine ⟨by rw [texts label member]; rfl, fun other listed => ?_⟩
  rw [texts label member, texts other listed]
  rfl

/-- The file of a failed run makes its retry push what was left. -/
theorem planBatch_retry (conversions : Conversions) (environment : Environment)
    (options : Options) (path : Text) (left : List Result) (label bundle : Text)
    (saved : Dict Text Yaml) (savedAt : Text) (connected : Connected options)
    (nonempty : left ≠ []) (written : ∀ result ∈ left, result.IsWritten)
    (labelled : label ≠ []) (isManual : saved.get "MANUAL".toList = some (.str "true".toList))
    (ofBundle : saved.get "BUNDLE".toList = some (.str bundle))
    (required : ∀ key ∈ requiredAttributeKeys, saved.has key = true) :
    ∃ retry,
      planBatch conversions environment (retryOptions options path)
        (saveResultsForRetry left label (some bundle) saved savedAt) = .ok retry ∧
      retry.results = left ∧ retry.tests = none ∧
      RetryFacts conversions environment label bundle saved retry.attributes := by
  obtain ⟨attributes, built, facts⟩ :=
    retryFacts conversions environment label bundle saved labelled isManual ofBundle
  have loaded := loadBatchFile_saveResultsForRetry conversions left label (some bundle) saved
    savedAt
  have initial : buildLaunchAttributes conversions
      (resolveTeam conversions environment (retryOptions options path)) (onlyBundle none) [] =
      .ok (setMandatory conversions
        (resolveTeam conversions environment (retryOptions options path)) none
        (overridden (onlyBundle none) [])) := by
    rw [buildLaunchAttributes, deriveVersion_absent _ _ rfl]
    rfl
  have noBundle : resolveBundle (retryOptions options path) (setMandatory conversions
      (resolveTeam conversions environment (retryOptions options path)) none
      (overridden (onlyBundle none) [])) = none := by
    have absent : (setMandatory conversions
        (resolveTeam conversions environment (retryOptions options path)) none
        (overridden (onlyBundle none) [])).get "BUNDLE".toList = none := by
      rw [get_setMandatory, if_neg (by decide), if_neg (by decide), if_neg (by decide)]
      rfl
    rw [resolveBundle, absent]
    rfl
  have restored : restoreAttributes [] (some (saved.items.map (fun item =>
      Attribute.toYaml ⟨item.1, item.2⟩))) =
      .ok (saved.items.map (fun item => ⟨item.1, item.2⟩)) := by
    rw [restoreAttributes, Outcome.mapM_eq_ok, List.forall₂_map_left_iff,
      List.forall₂_map_right_iff, List.forall₂_same]
    intro item _
    exact Attribute.ofYaml_toYaml _
  have fullTeam : (given (resolveTeam conversions environment (retryOptions options path))).or
      (given ((some label).filter (· ≠ []))) =
      some (retryTeam conversions environment label) := by
    have inferred : resolveTeam conversions environment (retryOptions options path) =
        inferTeam conversions (environment.resolvedParts "tests".toList) := rfl
    rw [← given, given_some label labelled, given_some label labelled, retryTeam, inferred]
    cases given (inferTeam conversions (environment.resolvedParts "tests".toList)) with
    | none => rfl
    | some team => rfl
  have fullBundle : (((given none).or (given ((some bundle).filter (· ≠ []))))).or none =
      given (some bundle) := by
    by_cases empty : bundle = []
    · subst empty
      rfl
    · rw [← given, given_some bundle empty, given_some bundle empty]
      rfl
  have unskipped : left.filter (fun result => decide (result.status ≠ .skipped)) = left := by
    apply List.filter_eq_self.mpr
    intro result member
    exact decide_eq_true (written result member).judged
  refine ⟨{ results := left.filter (fun result => decide (result.status ≠ .skipped))
            attributes := attributes
            tests := none
            teamLabel := teamLabel conversions (some (retryTeam conversions environment label))
            bundle := given (some bundle) }, ?_, ?_, rfl, facts⟩
  · simp only [planBatch, Outcome.bind_eq_ok]
    refine ⟨_, initial, _, loaded, _, restored, attributes, ?_, (), ?_, ?_⟩
    · rw [noBundle]
      dsimp only
      rw [fullTeam, fullBundle]
      exact built
    · rw [validateAttributes_eq_ok_iff]
      refine Or.inr fun key member => ?_
      obtain ⟨value, found⟩ := (Dict.has_iff saved key).mp (required key member)
      rw [Dict.has_iff]
      by_cases versionKey : key = "CNV_XY_VER".toList
      · subst versionKey
        rw [facts.ofVersion, found]
        cases versionOfBundle bundle with
        | none => exact ⟨value, rfl⟩
        | some version => exact ⟨.str version, rfl⟩
      · have notTeam : key ≠ "TEAM".toList := by
          rintro rfl
          revert member
          decide
        exact ⟨value, by rw [facts.others key notTeam versionKey, found]⟩
    · rw [noBundle]
      dsimp only
      rw [fullTeam, fullBundle, validateRun_eq_ok_iff]
      dsimp only
      rw [unskipped]
      exact ⟨rfl, isSorted_of_written left written, nonempty, rfl, connected⟩
  · exact unskipped

/-- What is known of the plan of an interactive run. -/
structure InteractiveFacts (conversions : Conversions) (environment : Environment)
    (options : Options) (plan : Plan) (bundle : Text) : Prop where
  launch : LaunchFacts conversions environment options plan.attributes bundle
  required : ∀ key ∈ requiredAttributeKeys, plan.attributes.has key = true
  tests : plan.tests =
    some (environment.collectPlaceholderDetails options.testsDir options.marker options.keyword)
  label : plan.teamLabel = teamLabel conversions (resolveTeam conversions environment options)
  savedBundle : plan.bundle = some bundle
  written : ∀ result ∈ plan.results, result.IsWritten
  sendable : attributesError plan.attributes = none
  nonempty : plan.results ≠ []
  connected : Connected options

/-- Values that can all be written raise no error. -/
theorem itemsError_eq_none (items : List Yaml) (sendable : ∀ item ∈ items, item.jsonError = none) :
    Yaml.itemsError items = none := by
  induction items with
  | nil => rw [Yaml.itemsError]
  | cons item rest inductionHypothesis =>
    obtain ⟨first, others⟩ := List.forall_mem_cons.mp sendable
    rw [Yaml.itemsError, first, inductionHypothesis others]
    rfl

/-- An interactive plan has these attributes. -/
theorem interactiveFacts (conversions : Conversions) (environment : Environment)
    (options : Options) (plan : Plan)
    (planned : planInteractive conversions environment options = .ok plan) :
    ∃ bundle, InteractiveFacts conversions environment options plan bundle := by
  simp only [planInteractive, Outcome.bind_eq_ok] at planned
  obtain ⟨attributes, built, tests, collected, checked, valid, results, asked, accepted⟩ := planned
  obtain ⟨same, -, nonempty, notDry, connected⟩ := (validateRun_eq_ok_iff _ _ _).mp accepted
  subst same
  have required : ∀ key ∈ requiredAttributeKeys, attributes.has key = true := by
    rcases (validateAttributes_eq_ok_iff options attributes).mp valid with dry | all
    · rw [notDry] at dry
      cases dry
    · exact all
  obtain ⟨bundle, facts⟩ := launchFacts conversions environment options attributes built
    (required _ (by decide))
  refine ⟨bundle, facts, required, ?_, rfl, ?_, askResults_written tests _ results asked,
    itemsError_eq_none _ ?_, nonempty, connected⟩
  · unfold collectTests at collected
    split at collected
    · cases collected
    · rename_i collectedTests
      cases collected
      exact congrArg some collectedTests.symm
  · have fromLaunch := facts.fromLaunch
    dsimp only
    rw [resolveBundle, facts.ofBundle]
    cases explicit : given options.launch.bundle with
    | none => rfl
    | some value =>
      obtain ⟨found, -⟩ := Option.filter_eq_some_iff.mp explicit
      have override : valueOf options.launch.overrides "BUNDLE".toList = some value := found
      rw [launchValue, override] at fromLaunch
      exact fromLaunch
  · have based := @forall_clusterBase (·.jsonError = none) Yaml.jsonError_str environment options
    exact List.forall_mem_map.mpr (@forall_buildLaunchAttributes (·.jsonError = none)
      Yaml.jsonError_str conversions _ _ _ attributes based built)

/-- The file that a failed run leaves. -/
theorem saved_at_failure (conversions : Conversions) (run : Run) (world : World) (plan : Plan)
    (planned : makePlan conversions run.environment run.options world.files = .ok plan)
    (written : ∀ result ∈ plan.results, result.IsWritten)
    (sendable : attributesError plan.attributes = none) (failing : Nat) (reason : Text)
    (succeed : ∀ request, request < failing → run.network request = none)
    (fails : run.network failing = some reason) (bound : failing ≤ 2 * plan.results.length)
    (left : plan.results.drop ((failing - 1) / 2) ≠ []) :
    (main conversions run world).2.files.get run.filename =
      some (saveResultsForRetry (plan.results.drop ((failing - 1) / 2)) plan.teamLabel plan.bundle
        plan.attributes run.savedAt) := by
  have remaining := remaining_at_failure conversions run.network plan world.server failing reason
    written sendable succeed fails bound
  have nonempty : (plan.results.drop ((failing - 1) / 2)).isEmpty = false := by simpa using left
  simp only [main, planned, executePlan, saveRemaining, remaining, nonempty, Bool.false_eq_true,
    if_false]
  rw [Dict.get_set, if_pos rfl]

/-- The team attribute survives exactly if the run had a team and the default
tests directory names no other one. -/
theorem team_kept_iff (conversions : Conversions) (environment : Environment) (options : Options) :
    some (Yaml.str (conversions.upper (retryTeam conversions environment
      (teamLabel conversions (resolveTeam conversions environment options))))) =
      ((given (resolveTeam conversions environment options)).map conversions.upper).map Yaml.str ↔
    TeamKept conversions environment options := by
  simp only [TeamKept, retryTeam, teamLabel]
  cases given (resolveTeam conversions environment options) with
  | none => simp
  | some team =>
    cases given (inferTeam conversions (environment.resolvedParts "tests".toList)) with
    | none => simp [conversions.upper_upper]
    | some other => simp

/-- The version attribute survives exactly if it follows the bundle. -/
theorem version_kept_iff (environment : Environment) (options : Options) (bundle : Text)
    (fromLaunch : launchValue environment options "BUNDLE".toList = some bundle) :
    (versionOfBundle bundle).or (versionUsed environment options bundle) =
      versionUsed environment options bundle ↔
    VersionFollowsBundle environment options := by
  have override : valueOf options.launch.overrides "BUNDLE".toList = options.launch.bundle := rfl
  cases explicit : options.launch.bundle with
  | some value =>
    have kept : VersionFollowsBundle environment options := Or.inl (by rw [explicit]; rfl)
    simp only [versionUsed, explicit, kept, Option.isSome_some, if_true, iff_true]
    rw [← Option.or_assoc, Option.or_self]
  | none =>
    -- without the option, bundle and version come from the cluster
    rw [launchValue, override, explicit, Option.none_or] at fromLaunch
    have asked : options.fromCluster = true := by
      by_contra notAsked
      rw [if_neg notAsked] at fromLaunch
      cases fromLaunch
    rw [if_pos asked] at fromLaunch
    have cluster : environment.cluster.bundle = some bundle := fromLaunch
    have used : launchValue environment options "CNV_XY_VER".toList =
        options.launch.cnvVersion.or environment.cluster.cnvXyVersion := by
      rw [launchValue, if_pos asked]
      rfl
    simp only [VersionFollowsBundle, versionUsed, explicit, cluster, used, Option.isSome_none,
      Bool.false_eq_true, if_false, false_or, Option.some.injEq]
    cases options.launch.cnvVersion.or environment.cluster.cnvXyVersion with
    | none =>
      cases known : versionOfBundle bundle with
      | none => simp
      | some version => simp
    | some value =>
      cases known : versionOfBundle bundle with
      | none =>
        simp only [Option.none_or, true_iff]
        rintro other version _ rfl versionKnown
        rw [known] at versionKnown
        cases versionKnown
      | some version =>
        simp only [Option.some_or, Option.some.injEq]
        constructor
        · rintro rfl other derived chosen rfl versionKnown rfl
          rw [known] at versionKnown
          exact Option.some.inj versionKnown
        · intro follows
          exact (follows bundle version value rfl known rfl).symm

/-- The launch attributes of a retry are those of the failed run exactly if the
version follows the bundle and the team is kept. -/
theorem attributes_kept_iff (conversions : Conversions) (environment : Environment)
    (options : Options) (saved attributes : Dict Text Yaml) (label bundle : Text)
    (labelled : label = teamLabel conversions (resolveTeam conversions environment options))
    (launch : LaunchFacts conversions environment options saved bundle)
    (retried : RetryFacts conversions environment label bundle saved attributes) :
    (∀ key, attributes.get key = saved.get key) ↔
      VersionFollowsBundle environment options ∧ TeamKept conversions environment options := by
  have injective : Function.Injective (Option.map Yaml.str) :=
    Option.map_injective fun _ _ same => Yaml.str.inj same
  have version : attributes.get "CNV_XY_VER".toList = saved.get "CNV_XY_VER".toList ↔
      VersionFollowsBundle environment options := by
    rw [← version_kept_iff environment options bundle launch.fromLaunch, retried.ofVersion,
      launch.ofVersion, ← Option.map_or]
    exact injective.eq_iff
  have team : attributes.get "TEAM".toList = saved.get "TEAM".toList ↔
      TeamKept conversions environment options := by
    rw [← team_kept_iff, retried.ofTeam, launch.ofTeam, labelled]
  rw [← version, ← team]
  constructor
  · intro same
    exact ⟨same _, same _⟩
  · rintro ⟨sameVersion, sameTeam⟩ key
    by_cases versionKey : key = "CNV_XY_VER".toList
    · rw [versionKey, sameVersion]
    · by_cases teamKey : key = "TEAM".toList
      · rw [teamKey, sameTeam]
      · exact retried.others key teamKey versionKey

/-- When the retry of an interactive session pushes the same payload. The session
has a request that fails before the launch is finished, so that a file is saved.
The retry agrees exactly if none of the results that were left has a Polarion ID,
the version follows the bundle, and the team is kept.

Proof: the retry always finds a plan for the results in its file. Its items have
no attributes; its attributes differ from those of the file at most in the team,
which is inferred again or read from the label, and in the version, which is
derived again from the bundle. -/
theorem retry_pushes_same_iff (conversions : Conversions) (run : Run) (world : World) (plan : Plan)
    (interactive : run.options.batchFile = none)
    (planned : makePlan conversions run.environment run.options world.files = .ok plan)
    (failing : Nat) (reason : Text)
    (succeed : ∀ request, request < failing → run.network request = none)
    (fails : run.network failing = some reason) (bound : failing ≤ 2 * plan.results.length) :
    RetryPushesSame conversions run plan (plan.results.drop ((failing - 1) / 2))
        (main conversions run world).2.files ↔
      NoPolarionLeft (run.environment.collectPlaceholderDetails run.options.testsDir
          run.options.marker run.options.keyword) (plan.results.drop ((failing - 1) / 2)) ∧
        VersionFollowsBundle run.environment run.options ∧
        TeamKept conversions run.environment run.options := by
  have interactivePlan : planInteractive conversions run.environment run.options = .ok plan := by
    simpa only [makePlan, interactive] using planned
  obtain ⟨bundle, facts⟩ := interactiveFacts conversions run.environment run.options plan
    interactivePlan
  have left : plan.results.drop ((failing - 1) / 2) ≠ [] := by
    have positive := List.length_pos_iff.mpr facts.nonempty
    rw [← List.length_pos_iff, List.length_drop]
    omega
  have file := saved_at_failure conversions run world plan planned facts.written facts.sendable
    failing reason succeed fails bound left
  have labelled : plan.teamLabel ≠ [] := by
    rw [facts.label, teamLabel]
    cases known : given (resolveTeam conversions run.environment run.options) with
    | none => exact List.cons_ne_nil _ _
    | some team => exact conversions.upper_ne_nil team (ne_nil_of_given _ team known)
  obtain ⟨retry, made, results, tests, retried⟩ := planBatch_retry conversions run.environment
    run.options run.filename (plan.results.drop ((failing - 1) / 2)) plan.teamLabel bundle
    plan.attributes run.savedAt facts.connected left
    (fun result member => facts.written result (List.mem_of_mem_drop member)) labelled
    facts.launch.isManual facts.launch.ofBundle facts.required
  have again : makePlan conversions run.environment (retryOptions run.options run.filename)
      (main conversions run world).2.files = .ok retry := by
    rw [makePlan]
    simp only [retryOptions, file, facts.savedBundle]
    exact made
  have attributesIff := attributes_kept_iff conversions run.environment run.options
    plan.attributes retry.attributes plan.teamLabel bundle facts.label facts.launch retried
  have items : (∀ result ∈ plan.results.drop ((failing - 1) / 2),
      itemAttributes retry.tests result.test = itemAttributes plan.tests result.test) ↔
      NoPolarionLeft (run.environment.collectPlaceholderDetails run.options.testsDir
        run.options.marker run.options.keyword) (plan.results.drop ((failing - 1) / 2)) := by
    simp only [tests, facts.tests, itemAttributes_none, NoPolarionLeft, eq_comm (a := none),
      itemAttributes_some_iff]
  rw [← items, ← attributesIff]
  constructor
  · rintro ⟨other, planned, -, attributes, sameItems⟩
    rw [again] at planned
    cases planned
    exact ⟨sameItems, attributes⟩
  · rintro ⟨sameItems, attributes⟩
    exact ⟨retry, again, results, attributes, sameItems⟩

/-- An interactive session on one collected test, which passes; the first request
fails. -/
def sampleInteractiveRun (polarionId team : Option Text) : Run where
  environment := sampleEnvironment
    [⟨"tests/storage/test_a.py::test_a".toList, polarionId⟩] ["p".toList]
  options := { sampleOptions none with team := team }
  network request := if request = 0 then some "timeout".toList else none
  filename := "b.yaml".toList
  savedAt := "2025-06-12T14:30:22".toList

/-- The result of that session. -/
def samplePassed : Result where
  test := .str "tests/storage/test_a.py::test_a".toList
  status := .passed
  comment := .str []
  issue := none

/-- The plan of that session. -/
def sampleInteractivePlan (polarionId team : Option Text) : Plan where
  results := [samplePassed]
  attributes :=
    match buildLaunchAttributes asciiConversions team (sampleOptions none).launch [] with
    | .ok attributes => attributes
    | .error _ => ∅
  tests := some [⟨"tests/storage/test_a.py::test_a".toList, polarionId⟩]
  teamLabel := teamLabel asciiConversions team
  bundle := some "v4.22.0".toList

/-- The retry keeps the payload of a session with a team, on a test without a
Polarion ID. -/
theorem retry_keeps_team_payload :
    RetryPushesSame asciiConversions (sampleInteractiveRun none (some "STORAGE".toList))
      (sampleInteractivePlan none (some "STORAGE".toList)) [samplePassed]
      (main asciiConversions (sampleInteractiveRun none (some "STORAGE".toList))
        ⟨⟨[], []⟩, ∅⟩).2.files := by
  refine (retry_pushes_same_iff asciiConversions
    (sampleInteractiveRun none (some "STORAGE".toList)) ⟨⟨[], []⟩, ∅⟩
    (sampleInteractivePlan none (some "STORAGE".toList)) rfl rfl 0 "timeout".toList
    (fun request below => absurd below (Nat.not_lt_zero request)) rfl (Nat.zero_le _)).mpr
    ⟨?_, Or.inl rfl, "STORAGE".toList, rfl, ?_⟩
  · intro result _ test member _
    cases List.mem_singleton.mp member
    rfl
  · intro other inferred
    cases inferred

/-- The plan of a session's retry. -/
def sampleRetry (run : Run) : Except Stop Plan :=
  makePlan asciiConversions run.environment (retryOptions run.options run.filename)
    (main asciiConversions run ⟨⟨[], []⟩, ∅⟩).2.files

/-- The session on a test with a Polarion ID. -/
def polarionRun : Run := sampleInteractiveRun (some "CNV-1".toList) (some "STORAGE".toList)

/-- The session without a team. -/
def teamlessRun : Run := sampleInteractiveRun none none

/-- Two sessions whose retry changes the payload. In the first the test has a
Polarion ID, and the retry starts its item without it. In the second no team was
known, and the retry creates its launch for the team `ALL`. -/
theorem retry_changes_payload :
    (makePlan asciiConversions polarionRun.environment polarionRun.options ∅ =
        .ok (sampleInteractivePlan (some "CNV-1".toList) (some "STORAGE".toList)) ∧
      ¬ RetryPushesSame asciiConversions polarionRun
        (sampleInteractivePlan (some "CNV-1".toList) (some "STORAGE".toList)) [samplePassed]
        (main asciiConversions polarionRun ⟨⟨[], []⟩, ∅⟩).2.files) ∧
    makePlan asciiConversions teamlessRun.environment teamlessRun.options ∅ =
        .ok (sampleInteractivePlan none none) ∧
      ¬ RetryPushesSame asciiConversions teamlessRun (sampleInteractivePlan none none)
        [samplePassed] (main asciiConversions teamlessRun ⟨⟨[], []⟩, ∅⟩).2.files := by
  refine ⟨⟨rfl, ?_⟩, rfl, ?_⟩
  · rintro ⟨retry, made, -, -, items⟩
    have evaluated : (sampleRetry polarionRun).toOption.map Plan.tests = some none := rfl
    have retried : sampleRetry polarionRun = .ok retry := made
    rw [retried] at evaluated
    have tests : retry.tests = none := Option.some.inj evaluated
    have same := items samplePassed (List.mem_singleton.mpr rfl)
    rw [tests] at same
    exact Bool.false_ne_true (congrArg Option.isSome same)
  · rintro ⟨retry, made, -, attributes, -⟩
    have evaluated : (sampleRetry teamlessRun).toOption.map
        (fun plan => (plan.attributes.get "TEAM".toList).isSome) = some true := rfl
    have retried : sampleRetry teamlessRun = .ok retry := made
    rw [retried] at evaluated
    have team : (retry.attributes.get "TEAM".toList).isSome = true := Option.some.inj evaluated
    rw [attributes] at team
    exact Bool.false_ne_true team

end VirtTestTools.Reporter
