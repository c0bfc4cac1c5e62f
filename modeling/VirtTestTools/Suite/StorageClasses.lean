import Mathlib.Data.List.Dedup
import Mathlib.Data.List.Lex
import VirtTestTools.Dict
import VirtTestTools.Joins
import VirtTestTools.KeySort
import VirtTestTools.Outcome
import VirtTestTools.Suite.Incremental

/-!
# The storage classes of a session

The configuration lists storage classes with their volume and access modes, and one of them is the
default. A session may run with some of them, with another default, or, in a conformance run, with
one class of its own. Four places work on that: the configuration file, `pytest_configure`, the loop
of `pytest_sessionstart` over the matrix options of the command line, and
`config_default_storage_class`.
-/

namespace VirtTestTools.Suite

open Text

/-! ## The configuration -/

/-- The values of a storage class. -/
structure StorageClassValues where
  volumeMode : Text
  accessMode : Text
  isDefault : Bool := false
deriving DecidableEq

/-- A storage class by name; a matrix lists such items, each a dictionary with one key. -/
abbrev StorageClass := Text × StorageClassValues

/-- What is configured for storage; of other matrices only the names of their items are kept. -/
structure PyConfig where
  storageClassMatrix : List StorageClass
  systemStorageClassMatrix : List StorageClass := []
  otherMatrices : Dict Text (List Text)
  defaultStorageClass : Text
  defaultVolumeMode : Text
  defaultAccessMode : Text

/-- `_get_default_storage_class`; `none` is the failing assertion. -/
def getDefaultStorageClass (matrix : List StorageClass) : Option StorageClass :=
  matrix.find? fun storageClass => storageClass.2.isDefault

/-- The configuration of the file. -/
def globalConfig (matrix : List StorageClass) (otherMatrices : Dict Text (List Text)) :
    Option PyConfig :=
  (getDefaultStorageClass matrix).map fun default =>
    { storageClassMatrix := matrix
      otherMatrices
      defaultStorageClass := default.1
      defaultVolumeMode := default.2.volumeMode
      defaultAccessMode := default.2.accessMode }

/-- The configuration of a file that loads another one and lists storage classes of its own, as
`global_config_nfs.py` does. The default and its modes stay those of the file that is loaded, even if
an own class is marked as the default. -/
def derivedConfig (matrix : List StorageClass) (loaded : PyConfig) : PyConfig :=
  { loaded with storageClassMatrix := matrix }

/-- The part of `pytest_configure` for conformance runs, with the values that are constructed for
`--conformance-storage-class`. -/
def configureConformance (conformance : Option StorageClass) (config : PyConfig) : PyConfig :=
  match conformance with
  | none => config
  | some storageClass =>
    { config with
      storageClassMatrix := [storageClass]
      defaultStorageClass := storageClass.1 }

/-! ## The command line -/

/-- What the start of a session reads: the arguments of the invocation, and two options as they are
parsed. -/
structure SessionInput where
  args : List Text
  storageClassMatrix : Option Text
  defaultStorageClass : Option Text

/-- How the start of a session fails: Python raises, or `pytest.exit` is called with a reason and
the code 4. -/
inductive StartFailure
  | valueError
  | keyError (key : Text)
  | indexError
  | exit (reason : Text)
deriving DecidableEq

/-- The arguments that select items of a matrix. -/
def isMatrixAddoption (arg : Text) : Bool := contains "-matrix=".toList arg

/-- The key of the storage class matrix. -/
def storageClassMatrixKey : Text := "storage_class_matrix".toList

/-- `key.strip("--").replace("-", "_")`. -/
def matrixKey (option : Text) : Text :=
  (((option.dropWhile (· = '-')).reverse.dropWhile (· = '-')).reverse).map fun character =>
    if character = '-' then '_' else character

/-- The items whose names are asked for, in the order of the names. -/
def selectItems {α : Type} (name : α → Text) (vals : List Text) (items : List α) : List α :=
  vals.flatMap fun val => items.filter fun item => decide (name item = val)

/-- One pass of the loop over the matrix options. -/
def applyMatrixAddoption (config : PyConfig) (arg : Text) : Except StartFailure PyConfig :=
  match split "=".toList arg with
  | [option, vals] =>
    let key := matrixKey option
    let vals := split ",".toList vals
    if key = storageClassMatrixKey then
      .ok { config with
        storageClassMatrix := selectItems Prod.fst vals config.storageClassMatrix }
    else
      match config.otherMatrices.get key with
      | none => .error (.keyError key)
      | some items =>
        .ok { config with
          otherMatrices := config.otherMatrices.set key (selectItems id vals items) }
  | _ => .error .valueError

/-- A default that is asked for is looked up among some names. -/
def checkDefault (names : List Text) (cmdDefaultStorageClass : Option Text)
    (failure : Text → Text) : Except Text Unit :=
  match cmdDefaultStorageClass.filter (· ≠ []) with
  | some default => if default ∈ names then .ok () else .error (failure default)
  | none => .ok ()

/-- `_validate_storage_class_options`; the error has the text of its `ValueError`. -/
def validateStorageClassOptions (availableScNames : List Text)
    (cmdDefaultStorageClass : Option Text)
    (cmdlineStorageClassMatrix : Option (List Text)) : Except Text Unit :=
  match cmdlineStorageClassMatrix.filter (· ≠ []) with
  | some names =>
    let invalidScNames := sortedBy (List.map Char.toNat) (names.filter (· ∉ availableScNames)).dedup
    if invalidScNames ≠ [] then
      .error ("Storage class(es) ".toList ++ namesText invalidScNames ++
        " from --storage-class-matrix not found. Available storage classes: ".toList ++
          namesText availableScNames)
    else
      checkDefault names cmdDefaultStorageClass fun default =>
        "Default storage class '".toList ++ default ++
          "' not in --storage-class-matrix. Matrix storage classes: ".toList ++ namesText names
  | none =>
    checkDefault availableScNames cmdDefaultStorageClass fun default =>
      "Default storage class '".toList ++ default ++
        "' not found in system storage class matrix. Available storage classes: ".toList ++
          namesText availableScNames

/-- `updated_default_sc`. -/
def updatedDefaultSc (globalConfigDefaultSc : Text) (cmdDefaultStorageClass : Option Text)
    (parsedCmdlineMatrix : Option (List Text)) : Option Text :=
  match cmdDefaultStorageClass.filter (· ≠ []) with
  | some default => some default
  | none =>
    parsedCmdlineMatrix.bind fun names =>
      if globalConfigDefaultSc ∈ names then some globalConfigDefaultSc else names.head?

/-- `parsed_cmdline_matrix`: an option that is given without classes counts as none. -/
def SessionInput.parsedCmdlineMatrix (input : SessionInput) : Option (List Text) :=
  (input.storageClassMatrix.filter (· ≠ [])).map (split ",".toList)

/-- `config_default_storage_class`. -/
def configDefaultStorageClass (input : SessionInput) (config : PyConfig) :
    Except StartFailure PyConfig :=
  match validateStorageClassOptions (config.systemStorageClassMatrix.map Prod.fst)
      input.defaultStorageClass input.parsedCmdlineMatrix with
  | .error reason => .error (.exit reason)
  | .ok () =>
    match (updatedDefaultSc config.defaultStorageClass input.defaultStorageClass
        input.parsedCmdlineMatrix).filter fun updated => decide (updated ≠ []) &&
          decide (updated ≠ config.defaultStorageClass) with
    | none => .ok config
    | some updated =>
      match config.systemStorageClassMatrix.find? fun storageClass =>
          decide (storageClass.1 = updated) with
      | none => .error .indexError
      | some storageClass =>
        .ok { config with
          defaultStorageClass := updated
          defaultVolumeMode := storageClass.2.volumeMode
          defaultAccessMode := storageClass.2.accessMode }

/-- The part of `pytest_sessionstart` for the matrices. -/
def configureMatrices (input : SessionInput) (config : PyConfig) :
    Except StartFailure PyConfig := do
  let system := { config with systemStorageClassMatrix := config.storageClassMatrix }
  let selected ← (input.args.filter isMatrixAddoption).foldlM applyMatrixAddoption system
  configDefaultStorageClass input selected

/-! ## What the loop selects -/

/-- An argument that selects storage classes. -/
def isStorageAddoption (arg : Text) : Bool :=
  match split "=".toList arg with
  | [option, _] => matrixKey option = storageClassMatrixKey
  | _ => false

/-- The names in an argument. -/
def optionVals (arg : Text) : List Text :=
  match split "=".toList arg with
  | [_, vals] => split ",".toList vals
  | _ => []

/-- The option is given at most once, as one argument, and is parsed as it is given. -/
structure GivenOnce (input : SessionInput) : Prop where
  once : (input.args.filter isMatrixAddoption).filter isStorageAddoption =
    (input.storageClassMatrix.map fun vals => "--storage-class-matrix=".toList ++ vals).toList

/-- One pass selects storage classes or leaves them as they are. -/
theorem applyMatrixAddoption_storage (config next : PyConfig) (arg : Text)
    (applied : applyMatrixAddoption config arg = .ok next) :
    next.storageClassMatrix =
        (if isStorageAddoption arg then
          selectItems Prod.fst (optionVals arg) config.storageClassMatrix
        else config.storageClassMatrix) ∧
      next.systemStorageClassMatrix = config.systemStorageClassMatrix ∧
      next.defaultStorageClass = config.defaultStorageClass ∧
      next.defaultVolumeMode = config.defaultVolumeMode ∧
      next.defaultAccessMode = config.defaultAccessMode := by
  unfold applyMatrixAddoption at applied
  unfold isStorageAddoption optionVals
  split at applied
  · rename_i option vals parts
    dsimp only at applied
    by_cases isStorage : matrixKey option = storageClassMatrixKey
    · rw [if_pos isStorage] at applied
      cases applied
      simp only [isStorage, decide_true, ↓reduceIte, and_self]
    · rw [if_neg isStorage] at applied
      simp only [isStorage, decide_false, Bool.false_eq_true, ↓reduceIte]
      split at applied
      · cases applied
      · cases applied
        exact ⟨rfl, rfl, rfl, rfl, rfl⟩
  · cases applied

/-- What the loop changes. -/
theorem foldlM_applyMatrixAddoption (args : List Text) (config selected : PyConfig)
    (ran : args.foldlM applyMatrixAddoption config = .ok selected) :
    selected.storageClassMatrix = (args.filter isStorageAddoption).foldl
        (fun classes arg => selectItems Prod.fst (optionVals arg) classes)
        config.storageClassMatrix ∧
      selected.systemStorageClassMatrix = config.systemStorageClassMatrix ∧
      selected.defaultStorageClass = config.defaultStorageClass ∧
      selected.defaultVolumeMode = config.defaultVolumeMode ∧
      selected.defaultAccessMode = config.defaultAccessMode := by
  induction args generalizing config with
  | nil =>
    cases ran
    exact ⟨rfl, rfl, rfl, rfl, rfl⟩
  | cons arg rest inductionHypothesis =>
    rw [List.foldlM_cons, Outcome.bind_eq_ok] at ran
    obtain ⟨next, applied, later⟩ := ran
    obtain ⟨classes, system, default, volume, access⟩ := inductionHypothesis next later
    obtain ⟨oneClasses, oneSystem, oneDefault, oneVolume, oneAccess⟩ :=
      applyMatrixAddoption_storage config next arg applied
    refine ⟨?_, system.trans oneSystem, default.trans oneDefault, volume.trans oneVolume,
      access.trans oneAccess⟩
    rw [classes, oneClasses, List.filter_cons]
    split <;> rfl

/-- The names of a single argument. -/
theorem optionVals_of_storage (vals : Text)
    (isStorage : isStorageAddoption ("--storage-class-matrix=".toList ++ vals) = true) :
    optionVals ("--storage-class-matrix=".toList ++ vals) = split ",".toList vals := by
  have sign : "=".toList = ['='] := by decide +kernel
  have prefixed : "--storage-class-matrix=".toList = "--storage-class-matrix".toList ++ ['='] := by
    decide +kernel
  have fresh : '=' ∉ "--storage-class-matrix".toList := by decide +kernel
  have parts : split "=".toList ("--storage-class-matrix=".toList ++ vals) =
      "--storage-class-matrix".toList :: split "=".toList vals := by
    rw [prefixed, List.append_assoc, sign]
    exact split_char '=' _ vals fresh
  unfold isStorageAddoption at isStorage
  unfold optionVals
  rw [parts] at isStorage ⊢
  by_cases again : '=' ∈ vals
  · -- A second sign makes the argument a third part.
    obtain ⟨first, rest, rfl, fresh⟩ := List.eq_append_cons_of_mem again
    have more : split "=".toList (first ++ '=' :: rest) = first :: split "=".toList rest :=
      split_char '=' first rest fresh
    obtain ⟨second, others, shape⟩ := List.exists_cons_of_ne_nil (split_ne_nil "=".toList rest)
    rw [more, shape] at isStorage
    cases isStorage
  · have single : split "=".toList vals = [vals] := by
      apply split_absent
      rw [Bool.eq_false_iff, ne_eq, contains_iff]
      rintro ⟨before, after, rfl⟩
      exact again (by simp)
    rw [single]

/-- With different names a name selects the one item that has it. -/
theorem names_selectItems {α : Type} (name : α → Text) (vals : List Text) (items : List α)
    (distinct : (items.map name).Nodup) (known : ∀ val ∈ vals, val ∈ items.map name) :
    (selectItems name vals items).map name = vals := by
  have one : ∀ val ∈ vals,
      (items.filter fun item => decide (name item = val)).map name = [val] := by
    intro val inside
    have mapped : (items.filter fun item => decide (name item = val)).map name =
        (items.map name).filter fun other => decide (other = val) := by
      rw [List.filter_map]
      rfl
    rw [mapped, List.filter_eq, List.count_eq_one_of_mem distinct (known val inside)]
    rfl
  rw [selectItems, List.map_flatMap, List.flatMap_congr one, List.flatMap_singleton']

/-- What is selected is one of the items. -/
theorem mem_selectItems {α : Type} (name : α → Text) (vals : List Text) (items : List α) (item : α)
    (selected : item ∈ selectItems name vals items) : item ∈ items := by
  obtain ⟨val, -, inside⟩ := List.mem_flatMap.mp selected
  exact List.mem_of_mem_filter inside

/-! ## What is configured -/

/-- The names the options ask for are configured, and the default is among those asked for, or among
all if no classes are. -/
structure ValidOptions (classes : List StorageClass) (input : SessionInput) : Prop where
  known : ∀ names, input.parsedCmdlineMatrix = some names → ∀ name ∈ names,
    name ∈ classes.map Prod.fst
  default : ∀ name, input.defaultStorageClass = some name → name ≠ [] →
    name ∈ input.parsedCmdlineMatrix.getD (classes.map Prod.fst)

/-- A default that is given has to be one of the names. -/
theorem checkDefault_ok_iff (names : List Text) (given : Option Text) (failure : Text → Text) :
    checkDefault names given failure = .ok () ↔
      ∀ name, given = some name → name ≠ [] → name ∈ names := by
  unfold checkDefault
  cases given with
  | none => simp
  | some name =>
    by_cases empty : name = []
    · simp [Option.filter, empty]
    · by_cases inside : name ∈ names <;> simp [Option.filter, empty, inside]

/-- Without classes that are asked for, all are available to the default. -/
theorem validOptions_of_none {classes : List StorageClass} {input : SessionInput}
    (given : input.parsedCmdlineMatrix = none) :
    ValidOptions classes input ↔ ∀ name, input.defaultStorageClass = some name → name ≠ [] →
      name ∈ classes.map Prod.fst := by
  constructor
  · intro valid
    have default := valid.default
    rwa [given] at default
  · intro default
    constructor
    · intro names impossible
      rw [given] at impossible
      cases impossible
    · rw [given]
      exact default

/-- The classes that are asked for are configured, and the default is one of them. -/
theorem validOptions_of_some {classes : List StorageClass} {input : SessionInput}
    {names : List Text} (given : input.parsedCmdlineMatrix = some names) :
    ValidOptions classes input ↔
      (∀ name ∈ names, name ∈ classes.map Prod.fst) ∧
        ∀ name, input.defaultStorageClass = some name → name ≠ [] → name ∈ names := by
  constructor
  · intro valid
    have default := valid.default
    rw [given] at default
    exact ⟨valid.known names given, default⟩
  · rintro ⟨known, default⟩
    constructor
    · intro other same
      rw [given, Option.some.injEq] at same
      subst same
      exact known
    · rw [given]
      exact default

/-- Nothing is reported as not found if everything is known. -/
theorem invalidScNames_eq_nil_iff (names known : List Text) :
    sortedBy (List.map Char.toNat) (names.filter (· ∉ known)).dedup = [] ↔
      ∀ name ∈ names, name ∈ known := by
  simp only [List.eq_nil_iff_forall_not_mem, mem_sortedBy, List.mem_dedup, List.mem_filter,
    decide_eq_true_eq, not_and, not_not]

/-- An option that is given with classes has names in it. -/
theorem parsedCmdlineMatrix_ne_nil {input : SessionInput} {names : List Text}
    (given : input.parsedCmdlineMatrix = some names) : names ≠ [] := by
  obtain ⟨vals, -, rfl⟩ := Option.map_eq_some_iff.mp given
  exact split_ne_nil ",".toList vals

/-- The options are accepted if they are valid. -/
theorem validateStorageClassOptions_ok_iff (classes : List StorageClass) (input : SessionInput) :
    validateStorageClassOptions (classes.map Prod.fst) input.defaultStorageClass
        input.parsedCmdlineMatrix = .ok () ↔ ValidOptions classes input := by
  rw [validateStorageClassOptions]
  cases given : input.parsedCmdlineMatrix with
  | none =>
    rw [validOptions_of_none given]
    exact checkDefault_ok_iff (classes.map Prod.fst) input.defaultStorageClass _
  | some names =>
    have present : (some names).filter (fun names => decide (names ≠ [])) = some names := by
      simp [Option.filter, parsedCmdlineMatrix_ne_nil given]
    rw [validOptions_of_some given, present]
    dsimp only
    split
    · rename_i unknown
      constructor
      · intro impossible
        cases impossible
      · intro both
        exact absurd ((invalidScNames_eq_nil_iff _ _).mpr both.1) unknown
    · rename_i known
      rw [not_not, invalidScNames_eq_nil_iff] at known
      rw [checkDefault_ok_iff]
      exact ⟨fun default => ⟨known, default⟩, fun both => both.2⟩

/-- The default of the file is one of its classes, with its modes. -/
theorem exists_default {matrix : List StorageClass} {otherMatrices : Dict Text (List Text)}
    {config : PyConfig} (isGlobal : globalConfig matrix otherMatrices = some config) :
    ∃ default ∈ config.storageClassMatrix,
      default.1 = config.defaultStorageClass ∧ default.2.volumeMode = config.defaultVolumeMode ∧
        default.2.accessMode = config.defaultAccessMode := by
  obtain ⟨default, found, rfl⟩ := Option.map_eq_some_iff.mp isGlobal
  exact ⟨default, List.mem_of_find?_eq_some found, rfl, rfl, rfl⟩

/-- A class is found by its name. -/
theorem find_of_distinct {classes : List StorageClass} (distinct : (classes.map Prod.fst).Nodup)
    {storageClass : StorageClass} (inside : storageClass ∈ classes) :
    classes.find? (fun other => decide (other.1 = storageClass.1)) = some storageClass := by
  induction classes with
  | nil => cases inside
  | cons first rest inductionHypothesis =>
    rw [List.map_cons, List.nodup_cons] at distinct
    by_cases same : first.1 = storageClass.1
    · rw [List.find?_cons_of_pos (by simpa using same)]
      rcases List.mem_cons.mp inside with rfl | later
      · rfl
      · exact absurd (same ▸ List.mem_map_of_mem later) distinct.1
    · rw [List.find?_cons_of_neg (by simpa using same)]
      rcases List.mem_cons.mp inside with rfl | later
      · exact absurd rfl same
      · exact inductionHypothesis distinct.2 later

/-- The names of the classes that a session runs with, given those of all classes. An option without
classes selects none. -/
def requestedNames (input : SessionInput) (names : List Text) : List Text :=
  match input.storageClassMatrix with
  | none => names
  | some _ => input.parsedCmdlineMatrix.getD []

/-- The default that is updated is one of the classes that are asked for, or of all. -/
theorem updatedDefaultSc_mem {input : SessionInput} {classes : List StorageClass}
    (valid : ValidOptions classes input) {default updated : Text}
    (isUpdated : updatedDefaultSc default input.defaultStorageClass input.parsedCmdlineMatrix =
      some updated) :
    updated ∈ input.parsedCmdlineMatrix.getD (classes.map Prod.fst) := by
  have ofMatrix (names : List Text) (given : input.parsedCmdlineMatrix = some names)
      (first : (if default ∈ names then some default else names.head?) = some updated) :
      updated ∈ input.parsedCmdlineMatrix.getD (classes.map Prod.fst) := by
    rw [given, Option.getD_some]
    split at first
    · cases first
      assumption
    · exact List.mem_of_mem_head? first
  unfold updatedDefaultSc at isUpdated
  split at isUpdated
  · rename_i given
    cases isUpdated
    obtain ⟨asked, nonempty⟩ := Option.filter_eq_some_iff.mp given
    exact valid.default updated asked (of_decide_eq_true nonempty)
  · obtain ⟨names, given, first⟩ := Option.bind_eq_some_iff.mp isUpdated
    exact ofMatrix names given first

/-- What is asked for is configured. -/
theorem known_of_asked {input : SessionInput} {classes : List StorageClass}
    (valid : ValidOptions classes input) {name : Text}
    (asked : name ∈ input.parsedCmdlineMatrix.getD (classes.map Prod.fst)) :
    name ∈ classes.map Prod.fst := by
  cases given : input.parsedCmdlineMatrix with
  | none => rwa [given] at asked
  | some names =>
    rw [given] at asked
    exact valid.known names given name asked

/-- The default is asked for, by its name or by classes. -/
def AsksForDefault (input : SessionInput) : Prop :=
  (∃ name, input.defaultStorageClass = some name ∧ name ≠ []) ∨ input.parsedCmdlineMatrix ≠ none

/-- The default is not replaced exactly when no other one is asked for. -/
theorem updatedDefaultSc_eq_none_iff (input : SessionInput) (default : Text) :
    updatedDefaultSc default input.defaultStorageClass input.parsedCmdlineMatrix = none ↔
      ¬ AsksForDefault input := by
  unfold updatedDefaultSc AsksForDefault
  have asked : (∃ name, input.defaultStorageClass = some name ∧ name ≠ []) ↔
      input.defaultStorageClass.filter (fun name => decide (name ≠ [])) ≠ none := by
    rw [Option.ne_none_iff_exists']
    simp only [Option.filter_eq_some_iff, decide_eq_true_eq]
  rw [asked]
  cases input.defaultStorageClass.filter (fun name => decide (name ≠ [])) with
  | some name => simp
  | none =>
    cases given : input.parsedCmdlineMatrix with
    | none => simp
    | some names =>
      obtain ⟨first, rest, rfl⟩ :=
        List.exists_cons_of_ne_nil (parsedCmdlineMatrix_ne_nil given)
      by_cases inside : default ∈ first :: rest <;> simp [inside]

/-- What `config_default_storage_class` makes of a configuration: the default is left alone, or it is
one that is asked for. If it changes it comes with the modes of its class. -/
structure DefaultConfigured (input : SessionInput) (config configured : PyConfig) : Prop where
  classes : configured.storageClassMatrix = config.storageClassMatrix
  kept : ¬ AsksForDefault input → configured.defaultStorageClass = config.defaultStorageClass
  asked : AsksForDefault input → configured.defaultStorageClass ∈
    input.parsedCmdlineMatrix.getD (config.systemStorageClassMatrix.map Prod.fst)
  unchanged : configured.defaultStorageClass = config.defaultStorageClass →
    configured.defaultVolumeMode = config.defaultVolumeMode ∧
      configured.defaultAccessMode = config.defaultAccessMode
  changed : configured.defaultStorageClass ≠ config.defaultStorageClass →
    ∃ storageClass ∈ config.systemStorageClassMatrix,
      storageClass.1 = configured.defaultStorageClass ∧
        configured.defaultVolumeMode = storageClass.2.volumeMode ∧
        configured.defaultAccessMode = storageClass.2.accessMode

/-- `config_default_storage_class` with valid options. -/
theorem configDefaultStorageClass_of_valid (input : SessionInput) (config : PyConfig)
    (distinct : (config.systemStorageClassMatrix.map Prod.fst).Nodup)
    (named : ∀ storageClass ∈ config.systemStorageClassMatrix, storageClass.1 ≠ [])
    (valid : ValidOptions config.systemStorageClassMatrix input) :
    ∃ configured, configDefaultStorageClass input config = .ok configured ∧
      DefaultConfigured input config configured := by
  have accepted := (validateStorageClassOptions_ok_iff _ input).mpr valid
  have asks := updatedDefaultSc_eq_none_iff input config.defaultStorageClass
  unfold configDefaultStorageClass
  rw [accepted]
  dsimp only
  cases updated : updatedDefaultSc config.defaultStorageClass input.defaultStorageClass
      input.parsedCmdlineMatrix with
  | none =>
    exact ⟨config, rfl, rfl, fun _ => rfl, fun asked => absurd asked (asks.mp updated),
      fun _ => ⟨rfl, rfl⟩, fun other => absurd rfl other⟩
  | some name =>
    have asked := updatedDefaultSc_mem valid updated
    have isAsked : ¬ ¬ AsksForDefault input := fun none => by
      rw [asks.mpr none] at updated
      cases updated
    obtain ⟨storageClass, inside, isUpdated⟩ := List.mem_map.mp (known_of_asked valid asked)
    have present : name ≠ [] := isUpdated ▸ named storageClass inside
    by_cases same : name = config.defaultStorageClass
    · subst same
      have unchanged : (some config.defaultStorageClass).filter (fun other =>
          decide (other ≠ []) && decide (other ≠ config.defaultStorageClass)) = none := by
        simp [Option.filter]
      rw [unchanged]
      exact ⟨config, rfl, rfl, fun _ => rfl, fun _ => asked, fun _ => ⟨rfl, rfl⟩,
        fun other => absurd rfl other⟩
    · have found := find_of_distinct distinct inside
      rw [isUpdated] at found
      have kept : (some name).filter (fun other => decide (other ≠ []) &&
          decide (other ≠ config.defaultStorageClass)) = some name := by
        simp [Option.filter, present, same]
      rw [kept]
      dsimp only
      rw [found]
      exact ⟨_, rfl, rfl, fun none => absurd none isAsked, fun _ => asked,
        fun equal => absurd equal same, fun _ => ⟨storageClass, inside, isUpdated, rfl, rfl⟩⟩

/-- The classes of a session are those of the configuration that are asked for, or all of them. -/
theorem selected_classes (input : SessionInput) (given : GivenOnce input)
    (start selected : PyConfig)
    (distinct : (start.storageClassMatrix.map Prod.fst).Nodup)
    (named : ∀ storageClass ∈ start.storageClassMatrix, storageClass.1 ≠ [])
    (loop : (input.args.filter isMatrixAddoption).foldlM applyMatrixAddoption start = .ok selected)
    (valid : ValidOptions start.storageClassMatrix input) :
    selected.storageClassMatrix.map Prod.fst =
        requestedNames input (start.storageClassMatrix.map Prod.fst) ∧
      ∀ storageClass ∈ selected.storageClassMatrix, storageClass ∈ start.storageClassMatrix := by
  obtain ⟨classes, -⟩ := foldlM_applyMatrixAddoption _ _ _ loop
  have once := given.once
  have known := valid.known
  unfold requestedNames
  unfold SessionInput.parsedCmdlineMatrix at known ⊢
  cases option : input.storageClassMatrix with
  | none =>
    rw [option] at once
    have unchanged : selected.storageClassMatrix = start.storageClassMatrix := by
      rw [classes, once]
      rfl
    rw [unchanged]
    exact ⟨rfl, fun _ inside => inside⟩
  | some vals =>
    rw [option] at once known
    have single : (input.args.filter isMatrixAddoption).filter isStorageAddoption =
        ["--storage-class-matrix=".toList ++ vals] := once
    have isStorage : isStorageAddoption ("--storage-class-matrix=".toList ++ vals) = true := by
      have inside : "--storage-class-matrix=".toList ++ vals ∈
          (input.args.filter isMatrixAddoption).filter isStorageAddoption := by
        rw [single]
        exact List.mem_singleton_self _
      exact (List.mem_filter.mp inside).2
    have chosen : selected.storageClassMatrix =
        selectItems Prod.fst (split ",".toList vals) start.storageClassMatrix := by
      rw [classes, single, ← optionVals_of_storage vals isStorage]
      rfl
    rw [chosen]
    refine ⟨?_, fun storageClass inside => mem_selectItems Prod.fst _ _ storageClass inside⟩
    by_cases empty : vals = []
    · -- No class has the empty name, which is all there is between the commas.
      subst empty
      have nothing : selectItems Prod.fst (split ",".toList []) start.storageClassMatrix = [] := by
        rw [selectItems, split, splitFrom, List.reverse_nil, List.flatMap_singleton,
          List.filter_eq_nil_iff]
        intro storageClass inside isEmpty
        exact named storageClass inside (of_decide_eq_true isEmpty)
      rw [nothing]
      simp [Option.filter]
    · have parsed : (some vals).filter (fun value => decide (value ≠ [])) = some vals := by
        simp [Option.filter, empty]
      rw [parsed] at known ⊢
      exact names_selectItems Prod.fst _ _ distinct (known _ rfl)

/-- What is accepted has been validated. -/
theorem valid_of_configured (input : SessionInput) (config configured : PyConfig)
    (accepted : configDefaultStorageClass input config = .ok configured) :
    ValidOptions config.systemStorageClassMatrix input := by
  rw [← validateStorageClassOptions_ok_iff _ input]
  unfold configDefaultStorageClass at accepted
  split at accepted
  · cases accepted
  · rename_i validated
    exact validated

/-- Behind the loop the default is configured. -/
theorem configureMatrices_eq {input : SessionInput} {start selected : PyConfig}
    (ran : (input.args.filter isMatrixAddoption).foldlM applyMatrixAddoption
      { start with systemStorageClassMatrix := start.storageClassMatrix } = .ok selected) :
    configureMatrices input start = configDefaultStorageClass input selected := by
  rw [configureMatrices, ran]
  rfl

section Session

variable {input : SessionInput} {start selected : PyConfig}
  (ran : (input.args.filter isMatrixAddoption).foldlM applyMatrixAddoption
    { start with systemStorageClassMatrix := start.storageClassMatrix } = .ok selected)

include ran

/-- A session that starts has valid options. -/
theorem valid_of_configureMatrices {configured : PyConfig}
    (accepted : configureMatrices input start = .ok configured) :
    ValidOptions start.storageClassMatrix input := by
  obtain ⟨-, system, -⟩ := foldlM_applyMatrixAddoption _ _ _ ran
  rw [configureMatrices_eq ran] at accepted
  have valid := valid_of_configured input selected configured accepted
  rwa [system] at valid

/-- With valid options a session starts with the selected classes, and the default is configured for
all classes. -/
theorem configureMatrices_of_valid (distinct : (start.storageClassMatrix.map Prod.fst).Nodup)
    (named : ∀ storageClass ∈ start.storageClassMatrix, storageClass.1 ≠ [])
    (valid : ValidOptions start.storageClassMatrix input) :
    ∃ configured, configureMatrices input start = .ok configured ∧
      DefaultConfigured input { start with
        storageClassMatrix := selected.storageClassMatrix
        systemStorageClassMatrix := start.storageClassMatrix } configured := by
  obtain ⟨-, system, sameDefault, sameVolume, sameAccess⟩ := foldlM_applyMatrixAddoption _ _ _ ran
  obtain ⟨configured, accepted, isConfigured⟩ :=
    configDefaultStorageClass_of_valid input selected (by rw [system]; exact distinct)
      (by rw [system]; exact named) (by rw [system]; exact valid)
  obtain ⟨classes, kept, asked, unchanged, changed⟩ := isConfigured
  rw [system] at asked changed
  rw [sameDefault] at kept unchanged changed
  rw [sameVolume, sameAccess] at unchanged
  exact ⟨configured, (configureMatrices_eq ran).trans accepted, classes, kept, asked, unchanged,
    changed⟩

/-- A session that starts runs with the requested classes, and the default is configured for all. -/
theorem configured_session (given : GivenOnce input)
    (distinct : (start.storageClassMatrix.map Prod.fst).Nodup)
    (named : ∀ storageClass ∈ start.storageClassMatrix, storageClass.1 ≠ [])
    {configured : PyConfig} (accepted : configureMatrices input start = .ok configured) :
    (configured.storageClassMatrix.map Prod.fst =
        requestedNames input (start.storageClassMatrix.map Prod.fst) ∧
      ∀ storageClass ∈ configured.storageClassMatrix, storageClass ∈ start.storageClassMatrix) ∧
      DefaultConfigured input { start with
        storageClassMatrix := selected.storageClassMatrix
        systemStorageClassMatrix := start.storageClassMatrix } configured := by
  have valid := valid_of_configureMatrices ran accepted
  obtain ⟨other, returned, isConfigured⟩ := configureMatrices_of_valid ran distinct named valid
  rw [returned, Except.ok.injEq] at accepted
  subst accepted
  rw [isConfigured.classes]
  exact ⟨selected_classes input given { start with
    systemStorageClassMatrix := start.storageClassMatrix } selected distinct named ran valid,
    isConfigured⟩

end Session

/-- How a session starts with a configuration. -/
structure StartsAsConfigured (config : PyConfig) (conformance : Option StorageClass)
    (input : SessionInput) : Prop where
  starts : (∃ configured,
      configureMatrices input (configureConformance conformance config) = .ok configured) ↔
    ValidOptions (configureConformance conformance config).storageClassMatrix input
  /-- It runs with the classes that it asks for. -/
  classes : ∀ configured,
    configureMatrices input (configureConformance conformance config) = .ok configured →
      configured.storageClassMatrix.map Prod.fst = requestedNames input
          ((configureConformance conformance config).storageClassMatrix.map Prod.fst) ∧
        ∀ storageClass ∈ configured.storageClassMatrix,
          storageClass ∈ (configureConformance conformance config).storageClassMatrix
  /-- Its default is one of them if it is asked for, or listed by the configuration. -/
  default : ∀ configured,
    configureMatrices input (configureConformance conformance config) = .ok configured →
      (configured.defaultStorageClass ∈ configured.storageClassMatrix.map Prod.fst ↔
        input.storageClassMatrix ≠ some [] ∧ (AsksForDefault input ∨
          (configureConformance conformance config).defaultStorageClass ∈
            (configureConformance conformance config).storageClassMatrix.map Prod.fst))
  /-- The modes are those of the default if it has been changed, or if they agree. -/
  modes : ∀ configured,
    configureMatrices input (configureConformance conformance config) = .ok configured →
      ∀ default ∈ configured.storageClassMatrix, default.1 = configured.defaultStorageClass →
        ((configured.defaultVolumeMode = default.2.volumeMode ∧
            configured.defaultAccessMode = default.2.accessMode) ↔
          configured.defaultStorageClass ≠
              (configureConformance conformance config).defaultStorageClass ∨
            config.defaultVolumeMode = default.2.volumeMode ∧
              config.defaultAccessMode = default.2.accessMode)
  /-- A file that takes the default from its own classes has the right modes. -/
  global : ∀ matrix otherMatrices, globalConfig matrix otherMatrices = some config →
    conformance = none → input.storageClassMatrix ≠ some [] → ∀ configured,
      configureMatrices input config = .ok configured →
        ∃ default ∈ configured.storageClassMatrix, default.1 = configured.defaultStorageClass ∧
          configured.defaultVolumeMode = default.2.volumeMode ∧
            configured.defaultAccessMode = default.2.accessMode

/-- The default of a conformance run is the one class, but the modes are left alone. -/
theorem configureConformance_modes (conformance : Option StorageClass) (config : PyConfig) :
    (configureConformance conformance config).defaultVolumeMode = config.defaultVolumeMode ∧
      (configureConformance conformance config).defaultAccessMode = config.defaultAccessMode := by
  cases conformance <;> exact ⟨rfl, rfl⟩

/-- Where the default is one of the classes that a session runs with. -/
theorem default_mem_iff {input : SessionInput} {start configured : PyConfig} {classes : List Text}
    (requested : classes = requestedNames input (start.storageClassMatrix.map Prod.fst))
    (kept : ¬ AsksForDefault input → configured.defaultStorageClass = start.defaultStorageClass)
    (asked : AsksForDefault input → configured.defaultStorageClass ∈
      input.parsedCmdlineMatrix.getD (start.storageClassMatrix.map Prod.fst)) :
    configured.defaultStorageClass ∈ classes ↔
      input.storageClassMatrix ≠ some [] ∧ (AsksForDefault input ∨
        start.defaultStorageClass ∈ start.storageClassMatrix.map Prod.fst) := by
  rw [requested, requestedNames]
  cases option : input.storageClassMatrix with
  | none =>
    have none : input.parsedCmdlineMatrix = none := by
      rw [SessionInput.parsedCmdlineMatrix, option]
      rfl
    rw [none, Option.getD_none] at asked
    by_cases asks : AsksForDefault input
    · simp only [asked asks, asks, true_or, and_true, ne_eq, reduceCtorEq, not_false_eq_true]
    · simp only [kept asks, asks, false_or, ne_eq, reduceCtorEq, not_false_eq_true, true_and]
  | some vals =>
    by_cases empty : vals = []
    · have none : input.parsedCmdlineMatrix = none := by
        rw [SessionInput.parsedCmdlineMatrix, option, empty]
        rfl
      simp only [none, empty, Option.getD_none, List.not_mem_nil, ne_eq, not_true_eq_false,
        false_and]
    · have names : input.parsedCmdlineMatrix = some (split ",".toList vals) := by
        rw [SessionInput.parsedCmdlineMatrix, option]
        simp [Option.filter, empty]
      have asks : AsksForDefault input := Or.inr (by rw [names]; exact Option.some_ne_none _)
      have inside := asked asks
      rw [names, Option.getD_some] at inside
      simp only [names, Option.getD_some, inside, asks, true_or, and_true, ne_eq,
        Option.some.injEq, empty, not_false_eq_true]

/-- Two classes, the first of them the default. -/
def twoClasses : List StorageClass :=
  [("ceph-rbd".toList, ⟨"Block".toList, "ReadWriteMany".toList, true⟩),
    ("hostpath".toList, ⟨"Filesystem".toList, "ReadWriteOnce".toList, false⟩)]

/-- A configuration with two storage classes. -/
def twoClassesConfig : PyConfig where
  storageClassMatrix := twoClasses
  otherMatrices := ∅
  defaultStorageClass := "ceph-rbd".toList
  defaultVolumeMode := "Block".toList
  defaultAccessMode := "ReadWriteMany".toList

/-- A file that lists one class of its own, and marks it as the default. -/
def nfsConfig : PyConfig :=
  derivedConfig [("nfs".toList, ⟨"Filesystem".toList, "ReadWriteMany".toList, true⟩)]
    twoClassesConfig

/-- An option that selects one of them. -/
def hostpathOption : Text := "--storage-class-matrix=hostpath".toList

/-- A session with the option. -/
def hostpathInput : SessionInput where
  args := [hostpathOption]
  storageClassMatrix := some "hostpath".toList
  defaultStorageClass := none

/-- The option is the only one that adds a matrix. -/
theorem hostpath_args : hostpathInput.args.filter isMatrixAddoption = [hostpathOption] := by
  decide +kernel

/-- The option is given once. -/
theorem hostpath_givenOnce : GivenOnce hostpathInput where
  once := by
    rw [hostpath_args]
    decide +kernel

/-- The loop over the options selects the class. -/
theorem hostpath_loop : ∃ selected, (hostpathInput.args.filter isMatrixAddoption).foldlM
    applyMatrixAddoption { configureConformance none twoClassesConfig with
      systemStorageClassMatrix :=
        (configureConformance none twoClassesConfig).storageClassMatrix } = .ok selected := by
  have parts : split "=".toList hostpathOption =
      ["--storage-class-matrix".toList, "hostpath".toList] := by
    decide +kernel
  have key : matrixKey "--storage-class-matrix".toList = storageClassMatrixKey := by
    decide +kernel
  have applied (config : PyConfig) : applyMatrixAddoption config hostpathOption =
      .ok { config with
        storageClassMatrix :=
          selectItems Prod.fst (split ",".toList "hostpath".toList)
            config.storageClassMatrix } := by
    rw [applyMatrixAddoption, parts]
    exact if_pos key
  rw [hostpath_args, List.foldlM_cons, applied]
  exact ⟨_, rfl⟩

/-- A session without options. -/
def plainInput : SessionInput := ⟨[], none, none⟩

end VirtTestTools.Suite
