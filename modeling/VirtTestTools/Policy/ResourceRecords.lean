import VirtTestTools.Dict
import VirtTestTools.Policy.Resolution
import VirtTestTools.Policy.ScopeStatements

/-!
# Class records

To find the subclasses of `Resource` without importing anything,
`check_resource_clients.py` reads from the tree of a module which names it defines as
classes, imports by name or assigns, and for which dotted names the bases, the imported
names and the assigned values stand. A relative import has two readings, depending on
whether the module is a package, and both are kept.
-/

namespace VirtTestTools.Policy

/-- `_ClassRecord`: a qualified name with the names it may be derived from. -/
structure ClassRecord where
  qualifiedName : List String
  bases : List (List String)
deriving DecidableEq

/-! ## Names of a module -/

/-- `node.module`, unless it is empty. -/
def namedModule (module : Option String) : Option String := module.filter (· ≠ "")

/-- The prefixes that an import by name may have. -/
def importPrefixes (moduleName : List String) (module : Option String) (level : Nat) :
    List (List String) :=
  match level, namedModule module with
  | 0, some module => [nameParts module]
  | _, module => relativeImportPrefixes moduleName module level

/-- One name of an import statement: the name it binds and what that stands for. -/
def importBinding (imported : Alias) : String × List String :=
  match imported.asname with
  | some asname => (asname, nameParts imported.name)
  | none =>
    let localName := (nameParts imported.name).headD ""
    (localName, [localName])

/-- `imported.asname or imported.name`. -/
def boundName (imported : Alias) : String := imported.asname.getD imported.name

/-- The bindings one statement contributes to `import_bindings`. -/
def importBindingsOf : AST → List (String × List String)
  | .importStmt _ names => names.map importBinding
  | .importFrom _ module names 0 =>
    match namedModule module with
    | none => []
    | some module =>
      (names.filter (·.name ≠ "*")).map fun imported =>
        (boundName imported, nameParts module ++ [imported.name])
  | _ => []

/-- `import_bindings`. -/
def importBindings (tree : List AST) : Dict String (List String) :=
  (Dict.empty).update (tree.flatMap importBindingsOf)

/-- `resolve_syntax`. -/
def resolveSyntax (bindings : Dict String (List String)) (node : AST) : Option (List String) :=
  match dottedName node with
  | none => none
  | some [] => none
  | some (root :: suffix) => some ((bindings.get root).getD [root] ++ suffix)

/-- What `_class_records` keeps while it goes through the statements. -/
structure RecordScan where
  bindings : Dict String (List String)
  bindingCandidates : Dict String (List (List String))
  records : List ClassRecord := []

/-- `_resolved_candidates`. Of the bindings that begin the resolved name the first one in
the order of the dictionary has its candidates put in its place. -/
def resolvedCandidates (scan : RecordScan) (node : AST) : List (List String) :=
  match resolveSyntax scan.bindings node with
  | none => []
  | some resolved =>
    let matching := scan.bindingCandidates.items.findSome? fun (name, candidates) =>
      match scan.bindings.get name with
      | none | some [] => none
      | some binding =>
        if resolved.take binding.length = binding then
          some (candidates.map (· ++ resolved.drop binding.length))
        else none
    matching.getD [resolved]

/-- Bind a name to what it may stand for, the first one being the usual reading. -/
def RecordScan.bind (scan : RecordScan) (name : String) (candidates : List (List String)) :
    RecordScan :=
  match candidates with
  | [] => scan
  | binding :: _ =>
    { scan with
      bindings := scan.bindings.set name binding
      bindingCandidates := scan.bindingCandidates.set name candidates }

/-- Add a record for a name of the module. -/
def RecordScan.add (scan : RecordScan) (moduleName : List String) (name : String)
    (bases : List (List String)) : RecordScan :=
  { scan with records := scan.records ++ [⟨moduleName ++ [name], bases⟩] }

section

variable (moduleName : List String)

/-- One name of an import by name. -/
def addImported (prefixes : List (List String)) (scan : RecordScan) (imported : Alias) :
    RecordScan :=
  if imported.name = "*" then scan
  else
    let importedBases := prefixes.map (· ++ [imported.name])
    (scan.add moduleName (boundName imported) importedBases).bind (boundName imported) importedBases

/-- One target of an assignment of a value that may stand for the given names. -/
def addTarget (resolved : List (List String)) (scan : RecordScan) (target : AST) : RecordScan :=
  match target with
  | .name _ id _ =>
    if resolved = [] then scan else (scan.bind id resolved).add moduleName id resolved
  | _ => scan

/-- The names one base of a class may stand for. A single name of a class of the module
is a name in the module. -/
def baseCandidates (localClasses : List String) (scan : RecordScan) (base : AST) :
    List (List String) :=
  (resolvedCandidates scan base).map fun candidate =>
    match candidate with
    | [name] => if name ∈ localClasses then moduleName ++ [name] else candidate
    | _ => candidate

/-- One statement of the loop of `_class_records`. -/
def addStatement (localClasses : List String) (scan : RecordScan) (node : AST) : RecordScan :=
  match node with
  | .importStmt _ names =>
    names.foldl (fun scan imported =>
      let (name, binding) := importBinding imported
      scan.bind name [binding]) scan
  | .importFrom _ module names level =>
    names.foldl (addImported moduleName (importPrefixes moduleName module level)) scan
  | .assign _ targets value =>
    targets.foldl (addTarget moduleName (resolvedCandidates scan value)) scan
  | .annAssign _ target _ value =>
    addTarget moduleName ((value.map (resolvedCandidates scan)).getD []) scan target
  | .classDef _ name bases _ _ _ =>
    (scan.add moduleName name (bases.flatMap (baseCandidates moduleName localClasses scan))).bind name
      [moduleName ++ [name]]
  | _ => scan

/-- The name of a class statement. -/
def className : AST → Option String
  | .classDef _ name .. => some name
  | _ => none

/-- `_class_records`, for the tree of the source. -/
def classRecords (tree : List AST) : List ClassRecord :=
  let statements := AST.scopeStatements tree
  let bindings := importBindings tree
  (statements.foldl (addStatement moduleName (statements.filterMap className))
    { bindings := bindings
      bindingCandidates := (Dict.empty).update
        (bindings.items.map fun (name, binding) => (name, [binding])) }).records

/-- The modules one statement imports. -/
def importedModulesOf : AST → List (List String)
  | .importStmt _ names => names.map fun imported => nameParts imported.name
  | .importFrom _ module names level =>
    (importPrefixes moduleName module level).flatMap fun importedPrefix =>
      importedPrefix :: (names.filter (·.name ≠ "*")).map fun imported =>
        importedPrefix ++ [imported.name]
  | _ => []

/-- `imported_module_names`. The source returns a set; the order here is that of the
statements. -/
def importedModuleNames (tree : List AST) : List (List String) :=
  ((AST.scopeStatements tree).flatMap (importedModulesOf moduleName)).dedup

/-! ## Where the records of a module belong -/

/-- All records are about names of the module. -/
def OwnRecords (scan : RecordScan) : Prop :=
  ∀ record ∈ scan.records, ∃ name, record.qualifiedName = moduleName ++ [name]

variable {moduleName}

/-- A binding adds no record. -/
theorem ownRecords_bind {scan : RecordScan} (own : OwnRecords moduleName scan) (name : String)
    (candidates : List (List String)) : OwnRecords moduleName (scan.bind name candidates) := by
  cases candidates with
  | nil => exact own
  | cons binding rest => exact own

/-- A record of the module is added. -/
theorem ownRecords_add {scan : RecordScan} (own : OwnRecords moduleName scan) (name : String)
    (bases : List (List String)) : OwnRecords moduleName (scan.add moduleName name bases) := by
  intro record inside
  obtain before | here := List.mem_append.mp inside
  · exact own record before
  · rw [List.mem_singleton.mp here]
    exact ⟨name, rfl⟩

/-- An import adds records of the module only. -/
theorem ownRecords_addImported {scan : RecordScan} (own : OwnRecords moduleName scan)
    (prefixes : List (List String)) (imported : Alias) :
    OwnRecords moduleName (addImported moduleName prefixes scan imported) := by
  unfold addImported
  split
  · exact own
  · exact ownRecords_bind (ownRecords_add own _ _) _ _

/-- An assignment adds records of the module only. -/
theorem ownRecords_addTarget {scan : RecordScan} (own : OwnRecords moduleName scan)
    (resolved : List (List String)) (target : AST) :
    OwnRecords moduleName (addTarget moduleName resolved scan target) := by
  unfold addTarget
  split
  · split
    · exact own
    · exact ownRecords_add (ownRecords_bind own _ _) _ _
  · exact own

/-- A statement adds records of the module only. -/
theorem ownRecords_addStatement {scan : RecordScan} (own : OwnRecords moduleName scan)
    (localClasses : List String) (node : AST) :
    OwnRecords moduleName (addStatement moduleName localClasses scan node) := by
  unfold addStatement
  split
  · exact List.foldlRecOn _ _ own fun _ kept _ _ => ownRecords_bind kept _ _
  · exact List.foldlRecOn _ _ own fun _ kept _ _ => ownRecords_addImported kept _ _
  · exact List.foldlRecOn _ _ own fun _ kept _ _ => ownRecords_addTarget kept _ _
  · exact ownRecords_addTarget own _ _
  · exact ownRecords_bind (ownRecords_add own _ _) _ _
  · exact own

variable (moduleName)

/-- The records of a module are about names of the module. -/
theorem qualifiedName_of_mem_classRecords {tree : List AST} {record : ClassRecord}
    (inside : record ∈ classRecords moduleName tree) :
    ∃ name, record.qualifiedName = moduleName ++ [name] := by
  refine List.foldlRecOn (motive := OwnRecords moduleName) _ _ ?_ ?_ record inside
  · exact fun _ impossible => absurd impossible List.not_mem_nil
  · exact fun _ kept node _ => ownRecords_addStatement kept _ node

end

end VirtTestTools.Policy
