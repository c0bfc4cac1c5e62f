import VirtTestTools.Yaml
import VirtTestTools.Dict
import VirtTestTools.Outcome

/-!
# Launch attributes

The attributes of a ReportPortal launch are a mapping. It starts from the
attributes of the cluster or of a saved file, is overridden by the command line,
and receives the version derived from the bundle, the team, the tier and the
mark of a manual launch.
-/

namespace VirtTestTools.Reporter

/-- The conversions of Python whose tables are not spelled out here: `str.upper`
and `str` of a loaded value. Upper-casing is idempotent, keeps upper-case ASCII
texts and gives no empty text for a nonempty one; `str` of a text is the text. -/
structure Conversions where
  upper : Text → Text
  str : Yaml → Text
  upper_upper : ∀ text, upper (upper text) = upper text
  upper_ascii : ∀ text : Text, (∀ character ∈ text, character.isUpper = true) → upper text = text
  upper_ne_nil : ∀ text, text ≠ [] → upper text ≠ []
  str_text : ∀ text, str (.str text) = text

/-- No small letter is left in capitals. -/
theorem isLower_toUpper (character : Char) : character.toUpper.isLower = false := by
  cases lower : character.isLower with
  | false => rw [Text.toUpper_of_not_isLower character lower, lower]
  | true =>
    have raised := Text.toNat_toUpper character lower
    rw [Text.isLower_eq, Bool.and_eq_true_iff, decide_eq_true_iff, decide_eq_true_iff] at lower
    rw [Text.isLower_eq, Bool.and_eq_false_iff]
    exact .inl (decide_eq_false (by omega))

/-- A capital is no small letter. -/
theorem isLower_of_isUpper (character : Char) (upper : character.isUpper = true) :
    character.isLower = false := by
  rw [Text.isUpper_eq, decide_eq_true_iff] at upper
  rw [Text.isLower_eq, Bool.and_eq_false_iff]
  exact .inl (decide_eq_false (by omega))

/-- The conversions on ASCII texts. -/
def asciiConversions : Conversions where
  upper text := text.map Char.toUpper
  str
    | .str text => text
    | _ => []
  upper_upper text := by
    rw [List.map_map]
    apply List.map_congr_left
    intro character _
    exact Text.toUpper_of_not_isLower _ (isLower_toUpper character)
  upper_ascii text upper := by
    calc text.map Char.toUpper = text.map id := by
          apply List.map_congr_left
          intro character member
          exact Text.toUpper_of_not_isLower _ (isLower_of_isUpper _ (upper character member))
      _ = text := List.map_id text
  upper_ne_nil text nonempty := by
    simpa using nonempty
  str_text _ := rfl

/-- One `{"key": …, "value": …}` entry. -/
structure Attribute where
  key : Text
  value : Yaml

/-- Why a run ends before its first request: an exception that is not caught, a
`click.ClickException` with the data of its message, or `sys.exit(0)`. -/
inductive Stop where
  | malformedAttribute (entry : Yaml)
  | bundleNotText (value : Yaml)
  | batchNotMapping
  | resultsNotList (value : Yaml)
  | entryNotMapping (value : Yaml)
  | entryWithoutTest (entry : Yaml)
  | statusNotText (value : Yaml)
  | invalidStatus (status : Text)
  | unreadableBatchFile (path : Text)
  | noPlaceholderTests
  | missingAttributes (keys : List Text)
  | aborted
  | unsortedLabels
  | noResults
  | dryRun
  | missingUrl
  | missingProject
  | missingToken

/-- An attribute as a saved file holds it. -/
def Attribute.toYaml (entry : Attribute) : Yaml :=
  .record [("key".toList, .str entry.key), ("value".toList, entry.value)]

/-- `attr["key"]` and `attr["value"]` of a restored attribute. -/
def Attribute.ofYaml : Yaml → Except Stop Attribute
  | .map entries =>
    match Yaml.get entries "key".toList, Yaml.get entries "value".toList with
    | some (.str key), some value => .ok ⟨key, value⟩
    | _, _ => .error (.malformedAttribute (.map entries))
  | other => .error (.malformedAttribute other)

/-- A text that is neither `None` nor empty. -/
def given (value : Option Text) : Option Text := value.filter (· ≠ [])

/-- The command-line options that name launch attributes. -/
structure LaunchOptions where
  bundle : Option Text
  cnvVersion : Option Text
  arch : Option Text
  ocpVersion : Option Text
  clusterName : Option Text
  clusterDomain : Option Text
  storageClass : Option Text
  channel : Option Text
  tier : Option Text

/-- The overrides of `_build_launch_attributes`, in the order of the source. -/
def LaunchOptions.overrides (options : LaunchOptions) : List (Text × Option Text) :=
  [("BUNDLE".toList, options.bundle),
   ("CNV_XY_VER".toList, options.cnvVersion),
   ("ARCH".toList, options.arch),
   ("OCP".toList, options.ocpVersion),
   ("CLUSTER_NAME".toList, options.clusterName),
   ("CLUSTER_DOMAIN".toList, options.clusterDomain),
   ("SC".toList, options.storageClass),
   ("CHANNEL".toList, options.channel)]

/-- `attrs_by_key[key] = value`, unless the value is `None`. -/
def setIfGiven (attributes : Dict Text Yaml) (entry : Text × Option Text) : Dict Text Yaml :=
  match entry.2 with
  | none => attributes
  | some value => attributes.set entry.1 (.str value)

/-- The attributes before the version, the team and the tier: the values of the
command line, or else those of the base. -/
def overridden (options : LaunchOptions) (base : List Attribute) : Dict Text Yaml :=
  options.overrides.foldl setIfGiven
    (Dict.update ∅ (base.map (fun entry => (entry.key, entry.value))))

/-- The first two dotted parts of a bundle, without its leading letters `v`. -/
def versionOfBundle (bundle : Text) : Option Text :=
  match Text.split ".".toList (bundle.dropWhile (· == 'v')) with
  | major :: minor :: _ => some (major ++ ".".toList ++ minor)
  | _ => none

/-- Overwrite the version when the bundle has one. -/
def setVersion (attributes : Dict Text Yaml) (bundle : Text) : Dict Text Yaml :=
  match versionOfBundle bundle with
  | none => attributes
  | some version => attributes.set "CNV_XY_VER".toList (.str version)

/-- The version is derived when the bundle is given explicitly, or when there is
no version yet. Only a text has a version. -/
def deriveVersion (bundleGiven : Bool) (attributes : Dict Text Yaml) :
    Except Stop (Dict Text Yaml) :=
  match attributes.get "BUNDLE".toList with
  | none => .ok attributes
  | some value =>
    if bundleGiven || !attributes.has "CNV_XY_VER".toList then
      match value with
      | .str bundle => .ok (setVersion attributes bundle)
      | other => .error (.bundleNotText other)
    else
      .ok attributes

/-- The attributes set last: the team if there is one, the mark of a manual
launch, and the tier. -/
def setMandatory (conversions : Conversions) (team tier : Option Text)
    (attributes : Dict Text Yaml) : Dict Text Yaml :=
  let withTeam := setIfGiven attributes ("TEAM".toList, (given team).map conversions.upper)
  setIfGiven (withTeam.set "MANUAL".toList (.str "true".toList))
    ("TIER".toList, tier.map conversions.upper)

/-- `_build_launch_attributes`. The base is the list of the cluster's attributes
or of the attributes restored from a file, empty where the source has `None`. -/
def buildLaunchAttributes (conversions : Conversions) (team : Option Text)
    (options : LaunchOptions) (base : List Attribute) : Except Stop (Dict Text Yaml) :=
  (deriveVersion options.bundle.isSome (overridden options base)).map
    (setMandatory conversions team options.tier)

/-- What `--from-cluster` reads from the connected cluster. -/
structure ClusterAttributes where
  arch : Option Text
  ocpVersion : Option Text
  cnvXyVersion : Option Text
  bundle : Option Text
  clusterName : Option Text
  clusterDomain : Option Text
  storageClass : Option Text
  channel : Option Text

/-- The mapping of `cluster_attributes_to_launch_attrs`. -/
def ClusterAttributes.mapping (cluster : ClusterAttributes) : List (Text × Option Text) :=
  [("ARCH".toList, cluster.arch),
   ("OCP".toList, cluster.ocpVersion),
   ("CNV_XY_VER".toList, cluster.cnvXyVersion),
   ("BUNDLE".toList, cluster.bundle),
   ("CLUSTER_NAME".toList, cluster.clusterName),
   ("CLUSTER_DOMAIN".toList, cluster.clusterDomain),
   ("SC".toList, cluster.storageClass),
   ("CHANNEL".toList, cluster.channel)]

/-- `cluster_attributes_to_launch_attrs`. -/
def clusterAttributesToLaunchAttrs (cluster : ClusterAttributes) : List Attribute :=
  cluster.mapping.filterMap (fun entry => entry.2.map (fun value => ⟨entry.1, .str value⟩))

/-- A given value replaces the one that is there. -/
theorem get_setIfGiven (attributes : Dict Text Yaml) (entry : Text × Option Text) (key : Text) :
    (setIfGiven attributes entry).get key =
      if entry.1 = key then (entry.2.map Yaml.str).or (attributes.get key)
      else attributes.get key := by
  obtain ⟨name, value⟩ := entry
  cases value with
  | none => simp [setIfGiven]
  | some value => simp [setIfGiven, Dict.get_set, eq_comm]

/-- The value that a list of entries gives to a key. -/
def valueOf (entries : List (Text × Option Text)) (key : Text) : Option Text :=
  (entries.find? (fun entry => decide (entry.1 = key))).bind Prod.snd

/-- Without a given entry there is no value. -/
theorem valueOf_eq_none (entries : List (Text × Option Text)) (key : Text)
    (silent : ∀ entry ∈ entries, entry.1 = key → entry.2 = none) : valueOf entries key = none := by
  rw [valueOf, Option.bind_eq_none_iff]
  intro entry found
  exact silent entry (List.mem_of_find?_eq_some found)
    (of_decide_eq_true (List.find?_some found :))

/-- Lookup after entries with distinct keys have been set: the value given for
the key, or else the earlier one. -/
theorem get_foldl_setIfGiven (entries : List (Text × Option Text))
    (distinct : (entries.map Prod.fst).Nodup) (attributes : Dict Text Yaml) (key : Text) :
    (entries.foldl setIfGiven attributes).get key =
      ((valueOf entries key).map Yaml.str).or (attributes.get key) := by
  induction entries generalizing attributes with
  | nil => rfl
  | cons entry rest inductionHypothesis =>
    obtain ⟨fresh, tail⟩ := List.nodup_cons.mp distinct
    rw [List.foldl_cons, inductionHypothesis tail, get_setIfGiven]
    by_cases same : entry.1 = key
    · have absent : valueOf rest key = none := by
        have missing : rest.find? (fun entry => decide (entry.1 = key)) = none := by
          rw [List.find?_eq_none]
          intro other member found
          apply fresh
          rw [same, ← of_decide_eq_true found]
          exact List.mem_map_of_mem member
        rw [valueOf, missing]
        rfl
      rw [absent]
      simp [valueOf, same]
    · simp [valueOf, same]

/-- The base attributes of a cluster are those its mapping gives. -/
theorem get_cluster_base (cluster : ClusterAttributes) (key : Text) :
    (Dict.update ∅ ((clusterAttributesToLaunchAttrs cluster).map
      (fun entry => (entry.key, entry.value)))).get key =
      (valueOf cluster.mapping key).map Yaml.str := by
  have folded (entries : List (Text × Option Text)) (attributes : Dict Text Yaml) :
      Dict.update attributes ((entries.filterMap (fun entry =>
        entry.2.map (fun value => Attribute.mk entry.1 (.str value)))).map
          (fun entry => (entry.key, entry.value))) = entries.foldl setIfGiven attributes := by
    induction entries generalizing attributes with
    | nil => rfl
    | cons entry rest inductionHypothesis =>
      obtain ⟨name, value⟩ := entry
      cases value with
      | none => exact inductionHypothesis attributes
      | some value => exact inductionHypothesis (attributes.set name (.str value))
  have distinct : (cluster.mapping.map Prod.fst).Nodup := by
    simp only [ClusterAttributes.mapping, List.map]
    decide
  rw [clusterAttributesToLaunchAttrs, folded, get_foldl_setIfGiven _ distinct ∅ key]
  exact Option.or_none

/-- Lookup after the last attributes have been set. -/
theorem get_setMandatory (conversions : Conversions) (team tier : Option Text)
    (attributes : Dict Text Yaml) (key : Text) :
    (setMandatory conversions team tier attributes).get key =
      if key = "TIER".toList then
        ((tier.map conversions.upper).map Yaml.str).or (attributes.get key)
      else if key = "MANUAL".toList then some (.str "true".toList)
      else if key = "TEAM".toList then
        (((given team).map conversions.upper).map Yaml.str).or (attributes.get key)
      else attributes.get key := by
  simp only [setMandatory, get_setIfGiven, Dict.get_set]
  by_cases tierKey : key = "TIER".toList
  · subst tierKey
    rw [if_pos rfl, if_pos rfl, if_neg (by decide), if_neg (by decide)]
  · rw [if_neg (Ne.symm tierKey), if_neg tierKey]
    by_cases teamKey : key = "TEAM".toList
    · subst teamKey
      simp
    · rw [if_neg (Ne.symm teamKey), if_neg teamKey]

/-- Lookup after the version of a bundle has been set. -/
theorem get_setVersion (attributes : Dict Text Yaml) (bundle key : Text) :
    (setVersion attributes bundle).get key =
      if key = "CNV_XY_VER".toList then
        ((versionOfBundle bundle).map Yaml.str).or (attributes.get key)
      else attributes.get key := by
  simp only [setVersion]
  cases versionOfBundle bundle with
  | none => rw [Option.map_none, Option.none_or, ite_self]
  | some version => exact Dict.get_set _ _ _ _

/-- An override counts before the base. -/
theorem get_overridden (options : LaunchOptions) (base : List Attribute) (key : Text) :
    (overridden options base).get key =
      ((valueOf options.overrides key).map Yaml.str).or
        ((Dict.update ∅ (base.map (fun entry => (entry.key, entry.value)))).get key) := by
  have distinct : (options.overrides.map Prod.fst).Nodup := by
    simp only [LaunchOptions.overrides, List.map]
    decide
  exact get_foldl_setIfGiven _ distinct _ key

/-- Without a bundle there is nothing to derive. -/
theorem deriveVersion_absent (bundleGiven : Bool) (attributes : Dict Text Yaml)
    (absent : attributes.get "BUNDLE".toList = none) :
    deriveVersion bundleGiven attributes = .ok attributes := by
  rw [deriveVersion, absent]

/-- The version of a bundle replaces an earlier one if the bundle is given, and
otherwise only fills a gap. -/
theorem deriveVersion_text (bundleGiven : Bool) (attributes : Dict Text Yaml) (bundle : Text)
    (present : attributes.get "BUNDLE".toList = some (.str bundle)) :
    deriveVersion bundleGiven attributes =
      .ok (if bundleGiven || !attributes.has "CNV_XY_VER".toList then
        setVersion attributes bundle else attributes) := by
  rw [deriveVersion, present]
  dsimp only
  split
  · rfl
  · rfl

section values

variable {holds : Yaml → Prop} (texts : ∀ text, holds (.str text))

include texts

/-- A text from the command line joins attributes of which all values have a property that
texts have. -/
theorem forall_setIfGiven (attributes : Dict Text Yaml) (entry : Text × Option Text)
    (all : ∀ item ∈ attributes.items, holds item.2) :
    ∀ item ∈ (setIfGiven attributes entry).items, holds item.2 := by
  obtain ⟨name, value⟩ := entry
  cases value with
  | none => exact all
  | some value => exact Dict.forall_items_set attributes name (.str value) all (texts value)

/-- What holds of all values of the base holds of the overridden ones. -/
theorem forall_overridden (options : LaunchOptions) (base : List Attribute)
    (all : ∀ entry ∈ base, holds entry.value) :
    ∀ item ∈ (overridden options base).items, holds item.2 := by
  have restored : ∀ item ∈ (Dict.update ∅ (base.map (fun entry =>
      (entry.key, entry.value)))).items, holds item.2 := by
    intro item member
    rcases Dict.mem_of_get_update _ _ _ _ ((Dict.get_eq_some_iff _ _ _).mpr member) with
      listed | absent
    · obtain ⟨entry, based, same⟩ := List.mem_map.mp listed
      rw [← congrArg Prod.snd same]
      exact all entry based
    · cases absent
  exact List.foldlRecOn options.overrides setIfGiven restored
    (fun attributes kept entry _ => forall_setIfGiven texts attributes entry kept)

/-- The attributes built from a base have a property that its values and texts have. -/
theorem forall_buildLaunchAttributes (conversions : Conversions) (team : Option Text)
    (options : LaunchOptions) (base : List Attribute) (attributes : Dict Text Yaml)
    (all : ∀ entry ∈ base, holds entry.value)
    (built : buildLaunchAttributes conversions team options base = .ok attributes) :
    ∀ item ∈ attributes.items, holds item.2 := by
  have initial := forall_overridden texts options base all
  have mandatory (derived : Dict Text Yaml) (kept : ∀ item ∈ derived.items, holds item.2) :
      ∀ item ∈ (setMandatory conversions team options.tier derived).items, holds item.2 :=
    forall_setIfGiven texts _ _
      (Dict.forall_items_set _ _ _ (forall_setIfGiven texts _ _ kept) (texts _))
  have versioned (bundle : Text) :
      ∀ item ∈ (setVersion (overridden options base) bundle).items, holds item.2 := by
    unfold setVersion
    split
    · exact initial
    · exact Dict.forall_items_set _ _ _ initial (texts _)
  cases derived : deriveVersion options.bundle.isSome (overridden options base) with
  | error reason =>
    rw [buildLaunchAttributes, derived] at built
    cases built
  | ok values =>
    rw [buildLaunchAttributes, derived] at built
    cases built
    refine mandatory values ?_
    unfold deriveVersion at derived
    split at derived
    · cases derived
      exact initial
    · split at derived
      · split at derived
        · cases derived
          exact versioned _
        · cases derived
      · cases derived
        exact initial

end values

end VirtTestTools.Reporter
