import VirtTestTools.Policy.ResourceDiscovery

/-!
# The two discoveries

The full scan reads every file below the local roots whose text contains `class `; the
targeted one reads, through the index, the modules that the given ones lead to. They
select different files: a file that only imports or assigns names has records too but need
not contain the text, and of a module file and a package of the same name the index
reader keeps one, as it keeps no symbolic link.

A chain of records never leaves the modules that the search reads, so apart from sources
that do not parse the two discoveries differ only through this selection.
-/

namespace VirtTestTools.Policy

/-- A Python file below a local root: the parts of its path without the suffix, whether it
is a symbolic link, and the source that is read through it. -/
structure RepositoryFile where
  parts : List String
  isSymlink : Bool
  source : Source

/-- `_module_name`; the index reader names modules in the same way. -/
def RepositoryFile.moduleName (file : RepositoryFile) : List String :=
  if file.parts.getLast? = some "__init__" then file.parts.dropLast else file.parts

/-- A repository whose worktree equals its index: the Python files below the local roots,
in the order of the index. -/
structure Repository where
  files : List RepositoryFile
  below : ∀ file ∈ files, isLocal file.parts = true ∧ 1 < file.parts.length

/-- The records of the installed `ocp_resources`. They are about names of that package,
which does not derive from classes of the project. -/
structure Dependency where
  records : List ClassRecord
  owned : ∀ record ∈ records, record.qualifiedName.head? = some "ocp_resources"
  external : ∀ record ∈ records, ∀ base ∈ record.bases, isLocal base = false

namespace Repository

variable (repository : Repository)

/-- `_index_source_reader`: a later file replaces an earlier one of the same module. -/
def indexSourceReader : SourceReader :=
  (Dict.empty).update ((repository.files.filter (!·.isSymlink)).map fun file =>
    (file.moduleName, file.source))

end Repository

/-- `"class " in source`. -/
def RepositoryFile.mentionsClass (file : RepositoryFile) : Bool :=
  Text.contains "class ".toList file.source.text

/-- The class records of a file. -/
def RepositoryFile.records (file : RepositoryFile) : List ClassRecord :=
  (file.source.tree.map (classRecords file.moduleName)).getD []

/-- `_records_under`, for the files in the order in which they are found; `none` when a
source does not parse. -/
def recordsUnder (files : List RepositoryFile) : Option (List ClassRecord) :=
  let scanned := files.filter RepositoryFile.mentionsClass
  if scanned.any (fun file => file.source.tree.isNone) then none
  else some (scanned.flatMap RepositoryFile.records)

/-- The order in which the full scan finds the files of a repository. -/
structure ScanOrder (repository : Repository) where
  found : List RepositoryFile
  lists : found.Perm repository.files

section

variable (dependency : Dependency)

/-- `discover_resource_classes` with a reader and modules. -/
def discoverTargeted {reader : SourceReader} (order : ImportOrder reader)
    (moduleNames : List (List String)) : Option (List (List String)) :=
  (targetedLocalRecords order moduleNames).map fun records =>
    resourceClosure (dependency.records ++ records)

/-- `discover_resource_classes` without them. -/
def discoverAll {repository : Repository} (scan : ScanOrder repository) :
    Option (List (List String)) :=
  (recordsUnder scan.found).map fun records => resourceClosure (dependency.records ++ records)

/-- Both discoveries return and find the same names of the given local modules. -/
def DiscoveriesAgree {repository : Repository} (order : ImportOrder repository.indexSourceReader)
    (scan : ScanOrder repository) (moduleNames : List (List String)) : Prop :=
  ∃ targeted all, discoverTargeted dependency order moduleNames = some targeted ∧
    discoverAll dependency scan = some all ∧
      ∀ moduleName ∈ moduleNames, isLocal moduleName = true → ∀ name,
        moduleName ++ [name] ∈ targeted ↔ moduleName ++ [name] ∈ all

end

/-- A record of the dependency, or of a file that the index reader keeps for its module. -/
def ReadRecord (dependency : Dependency) (reader : SourceReader) (record : ClassRecord) : Prop :=
  record ∈ dependency.records ∨ ∃ moduleName, record ∈ reader.records moduleName

/-- A record of the dependency, or of a file that contains `class `. -/
def ScannedRecord (dependency : Dependency) (repository : Repository) (record : ClassRecord) :
    Prop :=
  record ∈ dependency.records ∨
    ∃ file ∈ repository.files, file.mentionsClass = true ∧ record ∈ file.records

/-! ## Records of the project are about names of the project -/

/-- A member of a local module is local. -/
theorem isLocal_append {name suffix : List String} (isHere : isLocal name = true) :
    isLocal (name ++ suffix) = true := by
  cases name with
  | nil => cases isHere
  | cons root rest => exact isHere

/-- A file below a local root has a local module name. -/
theorem isLocal_moduleName {repository : Repository} {file : RepositoryFile}
    (inside : file ∈ repository.files) : isLocal file.moduleName = true := by
  obtain ⟨isHere, long⟩ := repository.below file inside
  unfold RepositoryFile.moduleName
  split
  · match parts : file.parts with
    | [] => simp [parts] at long
    | [_] => simp [parts] at long
    | root :: second :: rest =>
      rw [parts] at isHere
      exact isHere
  · exact isHere

/-- The modules that the index reader reads are local. -/
theorem isLocal_of_read {repository : Repository} {moduleName : List String} {record : ClassRecord}
    (read : record ∈ repository.indexSourceReader.records moduleName) :
    isLocal moduleName = true := by
  unfold SourceReader.records SourceReader.tree at read
  cases found : repository.indexSourceReader.get moduleName with
  | none => simp [found] at read
  | some source =>
    obtain item | impossible := Dict.mem_of_get_update _ _ _ _ found
    · obtain ⟨file, inside, pair⟩ := List.mem_map.mp item
      obtain ⟨rfl, -⟩ := Prod.mk.inj pair
      exact isLocal_moduleName (List.mem_of_mem_filter inside)
    · cases impossible

/-- A record that is read is a member of its module. -/
theorem qualifiedName_of_read {reader : SourceReader} {moduleName : List String}
    {record : ClassRecord} (read : record ∈ reader.records moduleName) :
    ∃ name, record.qualifiedName = moduleName ++ [name] := by
  unfold SourceReader.records at read
  cases parsed : reader.tree moduleName with
  | none => simp [parsed] at read
  | some tree =>
    rw [parsed] at read
    exact qualifiedName_of_mem_classRecords moduleName read

section

variable (dependency : Dependency) {repository : Repository}

/-- No record of the dependency is about a local name. -/
theorem not_isLocal_of_dependency {record : ClassRecord} (inside : record ∈ dependency.records) :
    isLocal record.qualifiedName = false := by
  have owned := dependency.owned record inside
  cases named : record.qualifiedName with
  | nil => rfl
  | cons root rest =>
    rw [named, List.head?_cons, Option.some.injEq] at owned
    subst owned
    change decide ("ocp_resources" ∈ localRoots) = false
    decide

/-- A derived local name has a module part. -/
theorem one_lt_length_of_derived {name : List String}
    (derived : Derived (ReadRecord dependency repository.indexSourceReader) name)
    (isHere : isLocal name = true) : 1 < name.length := by
  cases derived with
  | resource isBase =>
    have notHere : ∀ base ∈ resourceBases, isLocal base = false := by decide
    exact absurd isHere (by rw [notHere name isBase]; exact Bool.false_ne_true)
  | record inside isBase =>
    obtain external | ⟨moduleName, read⟩ := inside
    · rw [not_isLocal_of_dependency dependency external] at isHere
      cases isHere
    · obtain ⟨own, named⟩ := qualifiedName_of_read read
      have isRead := isLocal_of_read read
      rw [named, List.length_append, List.length_singleton]
      cases moduleName with
      | nil => cases isRead
      | cons => simp

variable (moduleNames : List (List String))

/-- A record of the dependency, or of a module that the given ones lead to. -/
def ReachedRecord (reader : SourceReader) (record : ClassRecord) : Prop :=
  record ∈ dependency.records ∨
    ∃ moduleName, reader.Reaches moduleNames moduleName ∧ record ∈ reader.records moduleName

/-- A chain of records that starts at a name of a reached module stays within the reached
modules: each base that is a local name belongs to a module that the search goes to. -/
theorem derived_reached {name : List String}
    (derived : Derived (ReadRecord dependency repository.indexSourceReader) name)
    (reached : isLocal name = true →
      repository.indexSourceReader.Reaches moduleNames name.dropLast) :
    Derived (ReachedRecord dependency moduleNames repository.indexSourceReader) name := by
  induction derived with
  | resource isBase => exact .resource isBase
  | @record record base inside isBase derived inductionHypothesis =>
    obtain external | ⟨moduleName, read⟩ := inside
    · refine .record (.inl external) isBase (inductionHypothesis fun isHere => ?_)
      rw [dependency.external record external base isBase] at isHere
      cases isHere
    · obtain ⟨own, named⟩ := qualifiedName_of_read read
      have here : repository.indexSourceReader.Reaches moduleNames moduleName := by
        have whole := reached (named ▸ isLocal_append (isLocal_of_read read))
        rwa [named, List.dropLast_concat] at whole
      refine .record (.inr ⟨moduleName, here, read⟩) isBase (inductionHypothesis fun isHere => ?_)
      obtain ⟨root, rootInside, rootLocal, path⟩ := here
      refine ⟨root, rootInside, rootLocal, path.tail (.inr ?_)⟩
      apply List.mem_flatMap.mpr
      refine ⟨record, read, List.mem_map_of_mem (List.mem_filter.mpr ⟨isBase, ?_⟩)⟩
      rw [isHere, decide_eq_true (one_lt_length_of_derived dependency derived isHere)]
      rfl

/-- What the search through modules derives for a given module is what all files that the
reader keeps derive. -/
theorem derived_reached_iff {moduleName : List String} (inside : moduleName ∈ moduleNames)
    (isHere : isLocal moduleName = true) (name : String) :
    Derived (ReachedRecord dependency moduleNames repository.indexSourceReader)
        (moduleName ++ [name]) ↔
      Derived (ReadRecord dependency repository.indexSourceReader) (moduleName ++ [name]) := by
  constructor
  · apply Derived.mono
    rintro record (external | ⟨other, -, read⟩)
    · exact .inl external
    · exact .inr ⟨other, read⟩
  · intro derived
    apply derived_reached dependency moduleNames derived
    intro _
    rw [List.dropLast_concat]
    exact ⟨moduleName, inside, isHere, .refl⟩

/-! ## When the two discoveries agree -/

/-- The full scan returns exactly when the files it selects parse, -/
theorem recordsUnder_eq_some_iff (files : List RepositoryFile) (records : List ClassRecord) :
    recordsUnder files = some records ↔
      (∀ file ∈ files, file.mentionsClass = true → file.source.tree.isSome = true) ∧
        records = (files.filter RepositoryFile.mentionsClass).flatMap RepositoryFile.records := by
  have parses : (files.filter RepositoryFile.mentionsClass).any
      (fun file => file.source.tree.isNone) = false ↔
        ∀ file ∈ files, file.mentionsClass = true → file.source.tree.isSome = true := by
    simp [List.any_eq_false, Option.isSome_iff_ne_none]
  rw [← parses, recordsUnder]
  split
  next unparsed => simp [unparsed]
  next parsed => simp [parsed, eq_comm]

/-- and then finds what the records of these files derive. -/
theorem discoverAll_spec (scan : ScanOrder repository) (all : List (List String))
    (returned : discoverAll dependency scan = some all) :
    (∀ file ∈ repository.files, file.mentionsClass = true → file.source.tree.isSome = true) ∧
      ∀ name, name ∈ all ↔ Derived (ScannedRecord dependency repository) name := by
  obtain ⟨records, collected, rfl⟩ := Option.map_eq_some_iff.mp returned
  obtain ⟨parses, rfl⟩ := (recordsUnder_eq_some_iff _ _).mp collected
  refine ⟨fun file inside => parses file (scan.lists.mem_iff.mpr inside), fun name => ?_⟩
  have same : (fun record => record ∈ dependency.records ++
      (scan.found.filter RepositoryFile.mentionsClass).flatMap RepositoryFile.records) =
        ScannedRecord dependency repository := by
    funext record
    simp only [ScannedRecord, List.mem_append, List.mem_flatMap, List.mem_filter,
      scan.lists.mem_iff, and_assoc]
  rw [mem_resourceClosure, same]

/-- The targeted discovery returns exactly when the sources it reads parse, and then finds
what the records of the reached modules derive. -/
theorem discoverTargeted_spec {reader : SourceReader} (order : ImportOrder reader)
    (targeted : List (List String))
    (returned : discoverTargeted dependency order moduleNames = some targeted) :
    (∀ moduleName, reader.Reaches moduleNames moduleName → reader.fails moduleName = false) ∧
      ∀ name, name ∈ targeted ↔ Derived (ReachedRecord dependency moduleNames reader) name := by
  obtain ⟨records, collected, rfl⟩ := Option.map_eq_some_iff.mp returned
  obtain ⟨scan, ended, rfl⟩ := Option.map_eq_some_iff.mp collected
  obtain ⟨failed, _⟩ | ⟨other, endedToo, _, _, passes, visited⟩ := targetedScan_spec order moduleNames
  · rw [ended] at failed
    cases failed
  · obtain rfl := Option.some.inj (ended.symm.trans endedToo)
    refine ⟨fun moduleName reached => passes moduleName ((visited moduleName).mpr reached),
      fun name => ?_⟩
    have same : (fun record => record ∈ dependency.records ++ scan.visited.flatMap reader.records) =
        ReachedRecord dependency moduleNames reader := by
      funext record
      simp only [ReachedRecord, List.mem_append, List.mem_flatMap, visited]
    rw [mem_resourceClosure, same]

/-- The two discoveries agree about the given modules exactly when the sources that either
reads parse, and a name of one of the modules is derived from a resource base by records of
the files that the index reader keeps exactly when it is by records of the files that
contain `class `. -/
theorem discoveries_agree_iff (order : ImportOrder repository.indexSourceReader)
    (scan : ScanOrder repository) :
    DiscoveriesAgree dependency order scan moduleNames ↔
      (∀ file ∈ repository.files, file.mentionsClass = true → file.source.tree.isSome = true) ∧
      (∀ moduleName, repository.indexSourceReader.Reaches moduleNames moduleName →
        repository.indexSourceReader.fails moduleName = false) ∧
      ∀ moduleName ∈ moduleNames, isLocal moduleName = true → ∀ name,
        Derived (ReadRecord dependency repository.indexSourceReader) (moduleName ++ [name]) ↔
          Derived (ScannedRecord dependency repository) (moduleName ++ [name]) := by
  constructor
  · rintro ⟨targeted, all, targetedReturned, allReturned, agree⟩
    obtain ⟨scanParses, inAll⟩ := discoverAll_spec dependency scan all allReturned
    obtain ⟨readParses, inTargeted⟩ :=
      discoverTargeted_spec dependency moduleNames order targeted targetedReturned
    refine ⟨scanParses, readParses, fun moduleName inside isHere name => ?_⟩
    rw [← derived_reached_iff dependency moduleNames inside isHere, ← inTargeted, ← inAll]
    exact agree moduleName inside isHere name
  · rintro ⟨scanParses, readParses, same⟩
    obtain ⟨records, collected⟩ : ∃ records, recordsUnder scan.found = some records :=
      ⟨_, (recordsUnder_eq_some_iff _ _).mpr
        ⟨fun file inside => scanParses file (scan.lists.mem_iff.mp inside), rfl⟩⟩
    obtain ⟨all, allReturned⟩ : ∃ all, discoverAll dependency scan = some all :=
      ⟨_, by rw [discoverAll, collected, Option.map_some]⟩
    obtain ⟨_, moduleName, reached, fails⟩ | ⟨visits, ended, _⟩ :=
      targetedScan_spec order moduleNames
    · rw [readParses moduleName reached] at fails
      cases fails
    · obtain ⟨targeted, targetedReturned⟩ :
          ∃ targeted, discoverTargeted dependency order moduleNames = some targeted :=
        ⟨_, by rw [discoverTargeted, targetedLocalRecords, ended, Option.map_some, Option.map_some]⟩
      obtain ⟨_, inAll⟩ := discoverAll_spec dependency scan all allReturned
      obtain ⟨_, inTargeted⟩ :=
        discoverTargeted_spec dependency moduleNames order targeted targetedReturned
      refine ⟨targeted, all, targetedReturned, allReturned, fun moduleName inside isHere name => ?_⟩
      rw [inTargeted, inAll, derived_reached_iff dependency moduleNames inside isHere]
      exact same moduleName inside isHere name

end

/-! ## A module of aliases -/

/-- `libs/base.py` with the one line `from ocp_resources.resource import Resource as Base`. -/
def aliasFile : RepositoryFile where
  parts := ["libs", "base"]
  isSymlink := false
  source :=
    ⟨"from ocp_resources.resource import Resource as Base".toList,
      some [.importFrom ⟨1, 1, 1⟩ (some "ocp_resources.resource") [⟨"Resource", some "Base"⟩] 0]⟩

/-- A repository with one file. -/
def aliasRepository : Repository := ⟨[aliasFile], by decide⟩

/-- A dependency without modules. -/
def noDependency : Dependency := ⟨[], by decide, by decide⟩

/-- The imported modules of `libs.base`, as the statement lists them. -/
def aliasOrder : ImportOrder aliasRepository.indexSourceReader where
  imported moduleName :=
    ((aliasRepository.indexSourceReader.tree moduleName).map (importedModuleNames moduleName)).getD []
  lists moduleName tree parsed := by rw [parsed]; exact .refl _

/-- The alias is found when its module is given and missed by the scan of all files. -/
theorem alias_module_not_scanned :
    ¬ DiscoveriesAgree noDependency aliasOrder ⟨[aliasFile], .refl _⟩ [["libs", "base"]] := by
  rintro ⟨targeted, all, targetedReturned, allReturned, agree⟩
  have missed : discoverAll noDependency ⟨[aliasFile], .refl aliasRepository.files⟩ =
      some resourceBases := by decide
  have found : (discoverTargeted noDependency aliasOrder [["libs", "base"]]).all
      (·.contains ["libs", "base", "Base"]) = true := by decide
  obtain rfl := Option.some.inj (missed.symm.trans allReturned)
  rw [targetedReturned] at found
  have absent : ["libs", "base"] ++ ["Base"] ∉ resourceBases := by decide
  exact absent ((agree ["libs", "base"] (List.mem_singleton_self _) (by decide) "Base").mp
    (List.contains_iff_mem.mp found))

end VirtTestTools.Policy
