import Mathlib.Algebra.GroupWithZero.Nat
import Mathlib.Order.Bounds.Basic
import VirtTestTools.Closure
import VirtTestTools.Visits
import VirtTestTools.Policy.ResourceRecords

/-!
# Discovery of resource classes

`discover_resource_classes` collects class records, those of the installed
`ocp_resources` and those of the project, and closes the base classes under them. The
records of the project come from a scan of all files, or, when modules and a reader of
their sources are given, from these modules and what they import or derive from.

Both loops run over sets. The search through modules is stated for every order in which
the imported modules of a module are iterated.
-/

namespace VirtTestTools.Policy

/-- `_RESOURCE_BASES`. -/
def resourceBases : List (List String) :=
  [["ocp_resources", "resource", "Resource"], ["ocp_resources", "resource", "NamespacedResource"]]

/-- `_LOCAL_ROOTS`. -/
def localRoots : List String := ["libs", "tests", "utilities"]

/-- `name and name[0] in _LOCAL_ROOTS`. -/
def isLocal : List String → Bool
  | [] => false
  | root :: _ => decide (root ∈ localRoots)

/-! ## The closure -/

/-- One record in a turn of the loop of `_resource_closure`. -/
def addResource (resources : List (List String)) (record : ClassRecord) : List (List String) :=
  if record.qualifiedName ∉ resources ∧ ∃ base ∈ record.bases, base ∈ resources then
    resources ++ [record.qualifiedName]
  else resources

/-- `_resource_closure`. Each turn but the last adds a name of a record. -/
def resourceClosure (records : List ClassRecord) : List (List String) :=
  Closure.close (fun resources => records.foldl addResource resources) (records.length + 1)
    resourceBases

/-- A chain of records leads from the name to a resource base. -/
inductive Derived (available : ClassRecord → Prop) : List String → Prop
  | resource {name : List String} (isBase : name ∈ resourceBases) : Derived available name
  | record {record : ClassRecord} {base : List String} (inside : available record)
      (isBase : base ∈ record.bases) (derived : Derived available base) :
      Derived available record.qualifiedName

/-- With more records more classes are derived. -/
theorem Derived.mono {available wider : ClassRecord → Prop}
    (within : ∀ record, available record → wider record) {name : List String}
    (derived : Derived available name) : Derived wider name := by
  induction derived with
  | resource isBase => exact .resource isBase
  | record inside isBase _ inductionHypothesis =>
    exact .record (within _ inside) isBase inductionHypothesis

/-- What is collected are the bases and different derived names of records. -/
def Collected (records : List ClassRecord) (resources : List (List String)) : Prop :=
  resources.Nodup ∧ resources ⊆ resourceBases ++ records.map ClassRecord.qualifiedName ∧
    ∀ name ∈ resources, Derived (· ∈ records) name

/-- A resource is added behind those that are known. -/
theorem prefix_addResource (resources : List (List String)) (record : ClassRecord) :
    resources <+: addResource resources record := by
  unfold addResource
  split
  · exact List.prefix_append ..
  · exact List.prefix_rfl

/-- An added resource is collected from a record. -/
theorem collected_addResource {records : List ClassRecord} {resources : List (List String)}
    (collected : Collected records resources) {record : ClassRecord} (inside : record ∈ records) :
    Collected records (addResource resources record) := by
  unfold addResource
  split
  next adds =>
    obtain ⟨new, base, isBase, known⟩ := adds
    obtain ⟨distinct, within, derived⟩ := collected
    refine ⟨?_, ?_, ?_⟩
    · rw [← List.concat_eq_append]
      exact distinct.concat new
    · intro name here
      obtain before | added := List.mem_append.mp here
      · exact within before
      · rw [List.mem_singleton.mp added]
        exact List.mem_append_right _ (List.mem_map_of_mem inside)
    · intro name here
      obtain before | added := List.mem_append.mp here
      · exact derived name before
      · rw [List.mem_singleton.mp added]
        exact .record inside isBase (derived base known)
  next => exact collected

/-- A turn keeps what is collected and adds to it. -/
theorem foldl_addResource (records : List ClassRecord) {resources : List (List String)}
    (collected : Collected records resources) :
    Collected records (records.foldl addResource resources) ∧
      resources <+: records.foldl addResource resources := by
  apply List.foldlRecOn
    (motive := fun current => Collected records current ∧ resources <+: current)
  · exact ⟨collected, List.prefix_rfl⟩
  · rintro current ⟨kept, grown⟩ record inside
    exact ⟨collected_addResource kept inside, grown.trans (prefix_addResource current record)⟩

/-- The bases are collected at the beginning. -/
theorem collected_resourceBases (records : List ClassRecord) :
    Collected records resourceBases :=
  ⟨by decide, List.subset_append_left .., fun _ isBase => .resource isBase⟩

/-- The loop ends with names that another turn does not add to. -/
theorem resourceClosure_fixed (records : List ClassRecord) :
    records.foldl addResource (resourceClosure records) = resourceClosure records := by
  have turn : ∀ resources, Collected records resources → _ :=
    fun resources => foldl_addResource records
  apply Closure.pass_close (fun resources holds => (turn resources holds).1)
    (fun resources holds => (turn resources holds).2)
  · rintro resources ⟨distinct, within, _⟩
    exact (List.subperm_of_subset distinct within).length_le
  · exact collected_resourceBases records
  · simp [resourceBases]

/-- The passes lose nothing and collect only derived names. -/
theorem collected_resourceClosure (records : List ClassRecord) :
    Collected records (resourceClosure records) ∧ resourceBases <+: resourceClosure records := by
  rw [resourceClosure, Closure.close_eq_iterate]
  generalize records.length + 1 = turns
  induction turns with
  | zero => exact ⟨collected_resourceBases records, List.prefix_rfl⟩
  | succ turns inductionHypothesis =>
    rw [Function.iterate_succ_apply']
    have turn := foldl_addResource records inductionHypothesis.1
    exact ⟨turn.1, inductionHypothesis.2.trans turn.2⟩

/-- A turn that changes nothing finds every record with a known base known. -/
theorem qualifiedName_mem_of_fixed (records : List ClassRecord) (resources : List (List String))
    (fixed : records.foldl addResource resources = resources) {record : ClassRecord}
    (inside : record ∈ records) {base : List String} (isBase : base ∈ record.bases)
    (known : base ∈ resources) : record.qualifiedName ∈ resources := by
  induction records with
  | nil => cases inside
  | cons first rest inductionHypothesis =>
    rw [List.foldl_cons] at fixed
    have firstPrefix := prefix_addResource resources first
    have restPrefix : addResource resources first <+:
        rest.foldl addResource (addResource resources first) :=
      List.foldlRecOn (motive := fun current => addResource resources first <+: current) _ _
        List.prefix_rfl fun current grown record _ => grown.trans (prefix_addResource current record)
    rw [fixed] at restPrefix
    -- nothing is added, so neither the first record nor the others add anything
    have unchanged : addResource resources first = resources :=
      restPrefix.eq_of_length_le firstPrefix.length_le
    obtain rfl | later := List.mem_cons.mp inside
    · by_contra new
      rw [addResource, if_pos ⟨new, base, isBase, known⟩] at unchanged
      simp at unchanged
    · rw [unchanged] at fixed
      exact inductionHypothesis fixed later

/-- The closure holds exactly the names from which records lead to a resource base. -/
theorem mem_resourceClosure (records : List ClassRecord) (name : List String) :
    name ∈ resourceClosure records ↔ Derived (· ∈ records) name := by
  obtain ⟨⟨_, _, derived⟩, bases⟩ := collected_resourceClosure records
  constructor
  · exact derived name
  · intro chain
    induction chain with
    | resource isBase => exact bases.subset isBase
    | record inside isBase _ inductionHypothesis =>
      exact qualifiedName_mem_of_fixed records _ (resourceClosure_fixed records) inside isBase
        inductionHypothesis

/-! ## The search through modules -/

/-- A reader of sources: finitely many modules have one. -/
abbrev SourceReader := Dict (List String) Source

namespace SourceReader

variable (reader : SourceReader)

/-- The parsed source of a module. -/
def tree (moduleName : List String) : Option (List AST) := (reader.get moduleName).bind Source.tree

/-- The module has a source that does not parse. -/
def fails (moduleName : List String) : Bool :=
  match reader.get moduleName with
  | none => false
  | some source => source.tree.isNone

/-- The records of a module; one without source has none. -/
def records (moduleName : List String) : List ClassRecord :=
  ((reader.tree moduleName).map (classRecords moduleName)).getD []

/-- The modules to which the bases of records belong: `base[:-1]` of the local bases. -/
def baseModules (moduleName : List String) : List (List String) :=
  (reader.records moduleName).flatMap fun record =>
    (record.bases.filter fun base => decide (1 < base.length) && isLocal base).map List.dropLast

/-- An import edge, or an edge to the module of a record base, between local modules. -/
def Leads (source target : List String) : Prop :=
  (∃ tree, reader.tree source = some tree ∧ target ∈ importedModuleNames source tree ∧
      isLocal target = true) ∨
    target ∈ reader.baseModules source

/-- A module to which edges lead from one of the given local modules. -/
def Reaches (moduleNames : List (List String)) (moduleName : List String) : Prop :=
  ∃ root ∈ moduleNames, isLocal root = true ∧ Relation.ReflTransGen reader.Leads root moduleName

end SourceReader

/-- An order in which the imported modules of each module are iterated. -/
structure ImportOrder (reader : SourceReader) where
  imported : List String → List (List String)
  lists : ∀ moduleName tree, reader.tree moduleName = some tree →
    (imported moduleName).Perm (importedModuleNames moduleName tree)

section

variable {reader : SourceReader} (order : ImportOrder reader)

/-- The modules pushed when a module is visited, before those already visited are left out. -/
def pushedModules (moduleName : List String) : List (List String) :=
  match reader.tree moduleName with
  | none => []
  | some _ => (order.imported moduleName).filter isLocal ++ reader.baseModules moduleName

/-- A bound on the turns of the loop: one for each module that is pushed. -/
def turnBound (moduleNames : List (List String)) : Nat :=
  moduleNames.length + (reader.keys.map fun moduleName => (pushedModules order moduleName).length).sum

/-- The loop of `_targeted_local_records`; `none` when a source does not parse. -/
def targetedScan (moduleNames : List (List String)) : Option (Visits (List String)) :=
  Visits.run reader.fails (pushedModules order) (turnBound order moduleNames)
    { pending := (moduleNames.filter isLocal).reverse }

/-- `_targeted_local_records`: the records of the visited modules, in the order of visits. -/
def targetedLocalRecords (moduleNames : List (List String)) : Option (List ClassRecord) :=
  (targetedScan order moduleNames).map fun scan => scan.visited.flatMap reader.records

/-- What is pushed are the ends of the edges. -/
theorem mem_pushedModules (source target : List String) :
    target ∈ pushedModules order source ↔ reader.Leads source target := by
  unfold pushedModules SourceReader.Leads
  cases parsed : reader.tree source with
  | none => simp [SourceReader.baseModules, SourceReader.records, parsed]
  | some tree =>
    rw [List.mem_append, List.mem_filter, (order.lists source tree parsed).mem_iff]
    simp

/-- The turns are enough. -/
theorem debt_le_turnBound (moduleNames : List (List String)) :
    Visits.debt (pushedModules order) reader.keys.toFinset
      { pending := (moduleNames.filter isLocal).reverse } ≤ turnBound order moduleNames := by
  unfold Visits.debt turnBound
  have roots := List.length_filter_le isLocal moduleNames
  have sources : ∑ source ∈ reader.keys.toFinset.filter (· ∉ ([] : List (List String))),
      (pushedModules order source).length =
        (reader.keys.map fun source => (pushedModules order source).length).sum := by
    rw [Finset.filter_true_of_mem (fun _ _ => List.not_mem_nil)]
    exact List.sum_toFinset _ reader.distinct
  rw [List.length_reverse]
  exact Nat.add_le_add roots sources.le

/-- A module without source has nothing to push. -/
theorem pushedModules_of_unread (moduleName : List String)
    (unread : moduleName ∉ reader.keys.toFinset) : pushedModules order moduleName = [] := by
  have missing : reader.get moduleName = none := by
    rw [Dict.get_eq_none_iff, Dict.has, decide_eq_false_iff_not]
    exact fun present => unread (List.mem_toFinset.mpr present)
  rw [pushedModules, SourceReader.tree, missing]
  rfl

/-- What the search can reach is what the imports reach. -/
theorem reachable_iff_reaches (moduleNames : List (List String)) (moduleName : List String) :
    Visits.Reachable (pushedModules order) (moduleNames.filter isLocal) moduleName ↔
      reader.Reaches moduleNames moduleName := by
  have edges : (fun source target => target ∈ pushedModules order source) = reader.Leads := by
    funext source target
    exact propext (mem_pushedModules order source target)
  unfold Visits.Reachable SourceReader.Reaches
  rw [edges]
  simp only [List.mem_filter, and_assoc]

/-- The search fails at a reachable module whose source does not parse, or it empties its
stack having visited each reachable module once. -/
theorem targetedScan_spec (moduleNames : List (List String)) :
    (targetedScan order moduleNames = none ∧
        ∃ moduleName, reader.Reaches moduleNames moduleName ∧ reader.fails moduleName = true) ∨
      ∃ scan, targetedScan order moduleNames = some scan ∧ scan.pending = [] ∧
        scan.visited.Nodup ∧ (∀ moduleName ∈ scan.visited, reader.fails moduleName = false) ∧
          ∀ moduleName, moduleName ∈ scan.visited ↔ reader.Reaches moduleNames moduleName := by
  obtain ⟨failed, moduleName, reached, fails⟩ | ⟨scan, ended, empty, invariant⟩ :=
    Visits.run_spec reader.keys.toFinset (pushedModules_of_unread order)
      (moduleNames.filter isLocal) (turnBound order moduleNames) _ (Visits.invariant_start _)
      (debt_le_turnBound order moduleNames)
  · exact .inl ⟨failed, moduleName, (reachable_iff_reaches order _ _).mp reached, fails⟩
  · refine .inr ⟨scan, ended, empty, invariant.once, invariant.passes, fun moduleName => ?_⟩
    rw [invariant.mem_visited_iff empty, reachable_iff_reaches]

/-- Both parts of the discovery are exact. The closure is the least set with the bases that
has every record name one of whose bases it has. The search through modules ends: it fails
at a source that does not parse, or it has visited exactly the modules to which imports
and record bases lead, each once, and returns their records. -/
theorem resource_discovery_exact :
    (∀ records : List ClassRecord,
      IsLeast {names : Set (List String) | (∀ base ∈ resourceBases, base ∈ names) ∧
          ∀ record ∈ records, (∃ base ∈ record.bases, base ∈ names) → record.qualifiedName ∈ names}
        {name | name ∈ resourceClosure records}) ∧
      ∀ (reader : SourceReader) (order : ImportOrder reader) (moduleNames : List (List String)),
        (targetedLocalRecords order moduleNames = none ∧
            ∃ moduleName, reader.Reaches moduleNames moduleName ∧ reader.fails moduleName = true) ∨
          ∃ scan, targetedScan order moduleNames = some scan ∧ scan.pending = [] ∧
            scan.visited.Nodup ∧
            (∀ moduleName, moduleName ∈ scan.visited ↔ reader.Reaches moduleNames moduleName) ∧
            (∀ moduleName ∈ scan.visited, reader.fails moduleName = false) ∧
            targetedLocalRecords order moduleNames = some (scan.visited.flatMap reader.records) := by
  refine ⟨fun records => ⟨⟨?_, ?_⟩, ?_⟩, fun reader order moduleNames => ?_⟩
  · exact fun base isBase => (mem_resourceClosure records base).mpr (.resource isBase)
  · rintro record inside ⟨base, isBase, known⟩
    exact (mem_resourceClosure records _).mpr
      (.record inside isBase ((mem_resourceClosure records base).mp known))
  · rintro names ⟨bases, closed⟩ name known
    induction (mem_resourceClosure records name).mp known with
    | resource isBase => exact bases _ isBase
    | record inside isBase derived inductionHypothesis =>
      exact closed _ inside ⟨_, isBase, inductionHypothesis
        ((mem_resourceClosure records _).mpr derived)⟩
  · obtain ⟨failed, unparsed⟩ | ⟨scan, ended, empty, once, passes, visited⟩ :=
      targetedScan_spec order moduleNames
    · exact .inl ⟨by rw [targetedLocalRecords, failed, Option.map_none], unparsed⟩
    · exact .inr ⟨scan, ended, empty, once, visited, passes,
        by rw [targetedLocalRecords, ended, Option.map_some]⟩

end

end VirtTestTools.Policy
