import VirtTestTools.Reporter.Launch

/-!
# Precedence of launch attributes

Cluster attributes, command-line values and the version derived from a bundle
write one mapping after each other. The version of an explicit bundle comes last:
it also replaces an explicit version. Otherwise explicit values win.
-/

namespace VirtTestTools.Reporter

/-- Attributes as `cluster_attributes_to_launch_attrs` gives them: keys and values
are texts. -/
def textAttributes (attributes : List (Text × Text)) : List Attribute :=
  attributes.map (fun entry => ⟨entry.1, .str entry.2⟩)

/-- The last value that a list of attributes has for a key. -/
def lastValue (attributes : List (Text × Text)) (key : Text) : Option Text :=
  ((attributes.filter (fun entry => decide (entry.1 = key))).getLast?).map Prod.snd

/-- The version derived from an explicit bundle. -/
def LaunchOptions.derivedVersion (options : LaunchOptions) : Option Text :=
  options.bundle.bind versionOfBundle

/-- The keys for which there is a value on the command line. An empty team is no
value. -/
def explicitKeys (team : Option Text) (options : LaunchOptions) : List Text :=
  (options.overrides ++ [("TEAM".toList, given team), ("TIER".toList, options.tier)]).filterMap
    (fun entry => entry.2.map (fun _ => entry.1))

/-- What the mapping of launch attributes owes to its options. -/
structure OptionsKept (conversions : Conversions) (team : Option Text) (options : LaunchOptions)
    (base : List (Text × Text)) (attributes : Dict Text Yaml) : Prop where
  distinct : attributes.keys.Nodup
  explicit : ∀ entry ∈ options.overrides, ∀ value, entry.2 = some value →
    (entry.1 = "CNV_XY_VER".toList → options.derivedVersion = none) →
    attributes.get entry.1 = some (.str value)
  version : ∀ version, options.derivedVersion = some version →
    attributes.get "CNV_XY_VER".toList = some (.str version)
  teamUpper : ∀ name, given team = some name →
    attributes.get "TEAM".toList = some (.str (conversions.upper name))
  tierUpper : ∀ name, options.tier = some name →
    attributes.get "TIER".toList = some (.str (conversions.upper name))
  manual : attributes.get "MANUAL".toList = some (.str "true".toList)
  kept : ∀ key value, lastValue base key = some value → key ∉ explicitKeys team options →
    key ≠ "MANUAL".toList → (key = "CNV_XY_VER".toList → options.derivedVersion = none) →
    attributes.get key = some (.str value)

/-- A text attribute has its last value. -/
theorem get_textAttributes (base : List (Text × Text)) (key : Text) :
    (Dict.update ∅ ((textAttributes base).map (fun entry => (entry.key, entry.value)))).get key =
      (lastValue base key).map Yaml.str := by
  rw [Dict.get_update_eq_getLast, textAttributes, List.map_map, List.filter_map,
    List.getLast?_map, lastValue]
  simp only [Option.map_map]
  exact Option.or_none

/-- An entry whose key comes once has its value. -/
theorem valueOf_of_mem (entries : List (Text × Option Text))
    (distinct : (entries.map Prod.fst).Nodup) (entry : Text × Option Text)
    (member : entry ∈ entries) : valueOf entries entry.1 = entry.2 := by
  induction entries with
  | nil => cases member
  | cons first rest inductionHypothesis =>
    obtain ⟨fresh, tail⟩ := List.nodup_cons.mp distinct
    rcases List.mem_cons.mp member with rfl | later
    · simp [valueOf]
    · have other : first.1 ≠ entry.1 := by
        intro same
        exact fresh (same ▸ List.mem_map_of_mem later)
      have found := inductionHypothesis tail later
      rw [valueOf] at found
      rw [valueOf, List.find?_cons_of_neg (by simpa using other), found]

/-- No override comes twice. -/
theorem overrides_distinct (options : LaunchOptions) :
    (options.overrides.map Prod.fst).Nodup := by
  simp only [LaunchOptions.overrides, List.map]
  decide

/-- No override is one of the attributes set last. -/
theorem override_keys (options : LaunchOptions) :
    ∀ key ∈ options.overrides.map Prod.fst,
      key ≠ "TIER".toList ∧ key ≠ "MANUAL".toList ∧ key ≠ "TEAM".toList := by
  simp only [LaunchOptions.overrides, List.map]
  decide

/-- An entry of the command line without an explicit key has no value. -/
theorem value_none_of_not_explicit (team : Option Text) (options : LaunchOptions) (key : Text)
    (implicit : key ∉ explicitKeys team options) (entry : Text × Option Text)
    (member : entry ∈ options.overrides ++
      [("TEAM".toList, given team), ("TIER".toList, options.tier)])
    (same : entry.1 = key) : entry.2 = none := by
  cases value : entry.2 with
  | none => rfl
  | some text =>
    refine absurd ?_ implicit
    rw [explicitKeys, List.mem_filterMap]
    exact ⟨entry, member, by rw [value, Option.map_some, same]⟩

/-- The version step changes nothing but the version: it becomes the one of an
explicit bundle, and a version that is there stays otherwise. -/
theorem derive_spec (options : LaunchOptions) (base : List (Text × Text)) :
    ∃ attributes, deriveVersion options.bundle.isSome (overridden options (textAttributes base)) =
        .ok attributes ∧
      (∀ key, key ≠ "CNV_XY_VER".toList →
        attributes.get key = (overridden options (textAttributes base)).get key) ∧
      (∀ version, options.derivedVersion = some version →
        attributes.get "CNV_XY_VER".toList = some (.str version)) ∧
      (options.derivedVersion = none → ∀ value,
        (overridden options (textAttributes base)).get "CNV_XY_VER".toList = some value →
        attributes.get "CNV_XY_VER".toList = some value) := by
  have bundleText : (overridden options (textAttributes base)).get "BUNDLE".toList =
      (options.bundle.or (lastValue base "BUNDLE".toList)).map Yaml.str := by
    have explicit : valueOf options.overrides "BUNDLE".toList = options.bundle := rfl
    rw [get_overridden, get_textAttributes, explicit, ← Option.map_or]
  cases present : options.bundle.or (lastValue base "BUNDLE".toList) with
  | none =>
    rw [present] at bundleText
    have noBundle : options.bundle = none := (Option.or_eq_none_iff.mp present).1
    refine ⟨_, deriveVersion_absent _ _ bundleText, fun _ _ => rfl, ?_, fun _ _ found => found⟩
    intro version derived
    rw [LaunchOptions.derivedVersion, noBundle] at derived
    cases derived
  | some bundle =>
    rw [present] at bundleText
    refine ⟨_, deriveVersion_text _ _ bundle bundleText, ?_, ?_, ?_⟩
    · intro key other
      split
      · rw [get_setVersion, if_neg other]
      · rfl
    · intro version derived
      obtain ⟨explicit, isExplicit, ofExplicit⟩ := Option.bind_eq_some_iff.mp derived
      have same : bundle = explicit := by
        rw [isExplicit, Option.some_or] at present
        exact (Option.some.inj present).symm
      rw [isExplicit, Option.isSome_some, Bool.true_or, if_pos rfl, get_setVersion, if_pos rfl,
        same, ofExplicit]
      rfl
    · intro underived value found
      have has : (overridden options (textAttributes base)).has "CNV_XY_VER".toList = true :=
        (Dict.has_iff _ _).mpr ⟨value, found⟩
      rw [has, Bool.not_true, Bool.or_false]
      cases explicit : options.bundle with
      | none => exact found
      | some given =>
        rw [explicit, Option.some_or] at present
        rw [LaunchOptions.derivedVersion, explicit, Option.some.inj present] at underived
        rw [Option.isSome_some, if_pos rfl, get_setVersion, if_pos rfl,
          show versionOfBundle bundle = none from underived]
        exact found

/-- Explicit options win, the version of an explicit bundle over an explicit
version as well, and the other attributes of the cluster are kept. -/
theorem explicit_options_win (conversions : Conversions) (team : Option Text)
    (options : LaunchOptions) (base : List (Text × Text)) :
    ∃ attributes, buildLaunchAttributes conversions team options (textAttributes base) =
        .ok attributes ∧ OptionsKept conversions team options base attributes := by
  obtain ⟨derived, derives, others, version, settled⟩ := derive_spec options base
  refine ⟨setMandatory conversions team options.tier derived, ?_, ?_⟩
  · rw [buildLaunchAttributes, derives]
    rfl
  have explicitValue : ∀ entry ∈ options.overrides, ∀ value, entry.2 = some value →
      (overridden options (textAttributes base)).get entry.1 = some (.str value) := by
    intro entry member value isGiven
    rw [get_overridden, valueOf_of_mem _ (overrides_distinct options) entry member, isGiven]
    rfl
  -- A key that the derivation leaves alone has the value from before it.
  have before : ∀ key value,
      (overridden options (textAttributes base)).get key = some value →
      (key = "CNV_XY_VER".toList → options.derivedVersion = none) →
      derived.get key = some value := by
    intro key value found underived
    by_cases isVersion : key = "CNV_XY_VER".toList
    · subst isVersion
      exact settled (underived rfl) value found
    · rw [others key isVersion, found]
  constructor
  case distinct => exact Dict.distinct _
  case manual => rw [get_setMandatory, if_neg (by decide), if_pos rfl]
  case explicit =>
    intro entry member value isGiven underived
    have plain := override_keys options entry.1 (List.mem_map_of_mem member)
    rw [get_setMandatory, if_neg plain.1, if_neg plain.2.1, if_neg plain.2.2]
    exact before _ _ (explicitValue entry member value isGiven) underived
  case version =>
    intro text isDerived
    rw [get_setMandatory, if_neg (by decide), if_neg (by decide), if_neg (by decide)]
    exact version text isDerived
  case teamUpper =>
    intro name isGiven
    rw [get_setMandatory, if_neg (by decide), if_neg (by decide), if_pos rfl, isGiven]
    rfl
  case tierUpper =>
    intro name isGiven
    rw [get_setMandatory, if_pos rfl, isGiven]
    rfl
  case kept =>
    intro key value last implicit notManual underived
    have silent := value_none_of_not_explicit team options key implicit
    have fromBase : (overridden options (textAttributes base)).get key = some (.str value) := by
      rw [get_overridden, get_textAttributes, last, valueOf_eq_none]
      · rfl
      · intro entry member same
        exact silent entry (List.mem_append_left _ member) same
    have kept := before key _ fromBase underived
    rw [get_setMandatory, if_neg notManual]
    split
    · rename_i isTier
      have noTier : options.tier = none :=
        silent ("TIER".toList, options.tier) (by simp) isTier.symm
      rw [noTier]
      exact kept
    · split
      · rename_i isTeam
        have noTeam : given team = none :=
          silent ("TEAM".toList, given team) (by simp) isTeam.symm
        rw [noTeam]
        exact kept
      · exact kept

/-- Both a bundle and a version. -/
def bundleAndVersion : LaunchOptions where
  bundle := some "v4.22.0".toList
  cnvVersion := some "4.21".toList
  arch := none
  ocpVersion := none
  clusterName := none
  clusterDomain := none
  storageClass := none
  channel := none
  tier := none

/-- The version of the bundle replaces the explicit one; an empty team sets no
attribute; of two cluster attributes with one key the last is left, and none of a
key that marks manual launches. -/
theorem explicit_version_replaced :
    ∃ attributes, buildLaunchAttributes asciiConversions (some []) bundleAndVersion
        (textAttributes [("MANUAL".toList, "false".toList), ("ARCH".toList, "amd64".toList),
          ("ARCH".toList, "arm64".toList)]) = .ok attributes ∧
      attributes.get "CNV_XY_VER".toList = some (.str "4.22".toList) ∧
      attributes.get "TEAM".toList = none ∧
      attributes.get "ARCH".toList = some (.str "arm64".toList) ∧
      attributes.get "MANUAL".toList = some (.str "true".toList) :=
  ⟨_, rfl, rfl, rfl, rfl, rfl⟩

end VirtTestTools.Reporter
