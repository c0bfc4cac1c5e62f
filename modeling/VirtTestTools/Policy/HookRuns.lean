import VirtTestTools.Policy.Hook

/-!
# Runs of the policy hook

Results about `main` as a whole: the five hooks report together what one run over
all families reports, the order of the supplied file names does not show in the
report, and what is accepted with some files is accepted with fewer of them.

For the last two the resource classes matter, because they are collected from all
supplied files. They are given by reachability between modules, so a list of files
with the same members gives the same classes, and more files give more of them;
with more classes a source is reported at the same calls and possibly at others.
-/

namespace VirtTestTools.Policy

open Text

/-! ## Arguments -/

/-- The arguments of the hook that is installed for a family. -/
def CheckFamily.arguments (family : CheckFamily) (fileNames : List Text) : List Text :=
  checkOption :: family.name :: fileNames

/-- Arguments without the option are file names. -/
theorem splitArguments_plain (fileNames : List Text) (plain : checkOption ∉ fileNames) :
    splitArguments fileNames = some (fileNames, []) := by
  induction fileNames with
  | nil => rfl
  | cons fileName rest inductionHypothesis =>
    rw [List.mem_cons, not_or] at plain
    rw [splitArguments.eq_def]
    simp only [Ne.symm plain.1, ↓reduceIte, inductionHypothesis plain.2, Option.map_some]

section Arguments

variable (repr : FsText → FsText) (fileNames : List Text) (plain : checkOption ∉ fileNames)

include plain

/-- Without a selection every family is selected. -/
theorem parseCheckArguments_plain (checkFamilies : List Text) :
    parseCheckArguments repr "check_policy" checkFamilies fileNames =
      .ok (fileNames, checkFamilies) := by
  rw [parseCheckArguments, splitArguments_plain fileNames plain]
  rfl

/-- The arguments of a hook select its family. -/
theorem parseCheckArguments_hook (family : CheckFamily) :
    parseCheckArguments repr "check_policy" (CheckFamily.all.map CheckFamily.name)
        (family.arguments fileNames) = .ok (fileNames, [family.name]) := by
  have split : splitArguments (family.arguments fileNames) = some (fileNames, [family.name]) := by
    rw [CheckFamily.arguments, splitArguments, if_pos rfl]
    simp only [splitArguments_plain fileNames plain, Option.map_some]
  have known : ([family.name].filter (· ∉ CheckFamily.all.map CheckFamily.name)).dedup = [] := by
    cases family <;> decide
  rw [parseCheckArguments, split]
  simp only [known, List.isEmpty_nil, ↓reduceIte, List.isEmpty_cons, Bool.false_eq_true]

end Arguments

/-! ## Reports -/

/-- No character has the code of a surrogate. -/
theorem FsChar.code_char_ne (character : Char) (byte : UInt8) :
    (FsChar.char character).code ≠ (FsChar.escaped byte).code := by
  have small : byte.toNat < 256 := byte.toNat_lt
  have valid : character.val.toNat < 0xD800 ∨
      0xDFFF < character.val.toNat ∧ character.val.toNat < 0x110000 := character.valid
  have value : character.toNat = character.val.toNat := rfl
  simp only [FsChar.code]
  omega

/-- Different characters sort differently. -/
theorem FsChar.code_injective : Function.Injective FsChar.code := by
  intro left right same
  cases left with
  | char left =>
    cases right with
    | char right => exact congrArg _ (Char.toNat_inj.mp same)
    | escaped right => exact absurd same (FsChar.code_char_ne left right)
  | escaped left =>
    cases right with
    | char right => exact absurd same.symm (FsChar.code_char_ne right left)
    | escaped right => exact congrArg _ (UInt8.toNat_inj.mp (Nat.add_left_cancel same))

/-- Different texts sort differently. -/
theorem FsText.codes_injective : Function.Injective FsText.codes :=
  List.map_injective_iff.mpr FsChar.code_injective

/-- The key decides what is printed. -/
theorem PolicyViolation.text_of_key {left right : PolicyViolation} (same : left.key = right.key) :
    left.text = right.text := by
  have parts := Prod.ext_iff.mp (toLex_inj.mp same)
  have lines := Prod.ext_iff.mp (toLex_inj.mp parts.2)
  have rest := Prod.ext_iff.mp (toLex_inj.mp lines.2)
  have path := FsText.codes_injective parts.1
  have message := FsText.codes_injective rest.2
  have missing : left.lineNumber.isNone = right.lineNumber.isNone := lines.1
  have number : left.lineNumber.getD 0 = right.lineNumber.getD 0 := rest.1
  have line : left.lineNumber = right.lineNumber := by
    cases leftLine : left.lineNumber <;> cases rightLine : right.lineNumber <;>
      simp_all
  rw [PolicyViolation.text, PolicyViolation.text, path, message, line]

/-- What is printed depends on the violations only, not on the order in which they are found. -/
theorem printed_reportViolations_of_perm {left right : List PolicyViolation}
    (perm : left.Perm right) :
    (reportViolations left).printed = (reportViolations right).printed :=
  map_sortedBy_of_perm PolicyViolation.key PolicyViolation.text
    (fun _ _ same => PolicyViolation.text_of_key same) perm

/-- The printed lines are the texts of the violations, in some order. -/
theorem printed_reportViolations_perm (violations : List PolicyViolation) :
    (reportViolations violations).printed.Perm (violations.map PolicyViolation.text) :=
  (sortedBy_perm _ violations).map _

/-- The status is zero exactly without violations. -/
theorem status_reportViolations (violations : List PolicyViolation) :
    (reportViolations violations).status = 0 ↔ violations = [] := by
  have empty : (sortedBy PolicyViolation.key violations).isEmpty = true ↔ violations = [] := by
    rw [List.isEmpty_iff_length_eq_zero, length_sortedBy, List.length_eq_zero_iff]
  simp only [Report.status, reportViolations]
  rw [← empty]
  by_cases nothing : (sortedBy PolicyViolation.key violations).isEmpty = true <;> simp [nothing]

/-! ## Resource classes -/

section ResourceClasses

variable {fewer more : List (List String)}

/-- A larger list contains what a smaller one does. -/
theorem contains_of_subset (within : fewer ⊆ more) {name : List String}
    (inside : fewer.contains name = true) : more.contains name = true :=
  List.contains_iff_mem.mpr (within (List.contains_iff_mem.mp inside))

/-- A call that passes with more resource classes passes with fewer. -/
theorem resourceCallMessage_eq_none (within : fewer ⊆ more) (keywords : List AST)
    (resolved : List (List String)) (passes : resourceCallMessage keywords resolved more = none) :
    resourceCallMessage keywords resolved fewer = none := by
  unfold resourceCallMessage at passes ⊢
  by_cases explicit : hasExplicitClient keywords = true
  · simp [explicit]
  · simp only [explicit, Bool.not_false, Bool.and_true] at passes ⊢
    have constructs : ¬ resolved.any (more.contains ·) = true := by
      intro found
      rw [if_pos found] at passes
      cases passes
    have gets : ¬ (resolved.any fun name =>
        name.getLast? = some "get" && more.contains name.dropLast) = true := by
      intro found
      rw [if_neg constructs, if_pos found] at passes
      cases passes
    rw [if_neg, if_neg]
    · intro found
      obtain ⟨name, inside, named⟩ := List.any_eq_true.mp found
      rw [Bool.and_eq_true] at named
      apply gets
      apply List.any_eq_true.mpr ⟨name, inside, _⟩
      rw [Bool.and_eq_true]
      exact ⟨named.1, contains_of_subset within named.2⟩
    · intro found
      obtain ⟨name, inside, named⟩ := List.any_eq_true.mp found
      exact constructs (List.any_eq_true.mpr ⟨name, inside, contains_of_subset within named⟩)

/-- A statement only adds classes. -/
theorem subset_addLocal (resolve : AST → List (List String)) (classes known : List (List String))
    (statement : AST) : known ⊆ addLocal resolve classes known statement := by
  unfold addLocal
  split
  · split
    · exact List.Subset.refl _
    · split
      · exact List.subset_append_left _ _
      · exact List.Subset.refl _
  · exact List.Subset.refl _

/-- The class that a statement adds is there with more resource classes too. -/
theorem addLocal_subset (within : fewer ⊆ more) (resolve : AST → List (List String))
    {known found : List (List String)} (grown : known ⊆ found) (statement : AST) :
    addLocal resolve fewer known statement ⊆ addLocal resolve more found statement := by
  have kept := List.Subset.trans grown (subset_addLocal resolve more found statement)
  rw [addLocal.eq_def resolve fewer]
  split
  · rename_i info name bases _ _ _
    have together : fewer ++ known ⊆ more ++ found := by
      apply List.append_subset.mpr
      constructor
      · exact List.subset_append_of_subset_left _ within
      · exact List.subset_append_of_subset_right _ grown
    split
    · exact kept
    · split
      · rename_i derives
        apply List.append_subset.mpr ⟨kept, _⟩
        rw [List.cons_subset, addLocal]
        refine ⟨?_, List.nil_subset _⟩
        split
        · rename_i present
          exact List.contains_iff_mem.mp present
        · rw [if_pos]
          · exact List.mem_append_right _ (List.mem_singleton_self _)
          · obtain ⟨base, inside, named⟩ := List.any_eq_true.mp derives
            obtain ⟨candidate, resolved, isClass⟩ := List.any_eq_true.mp named
            apply List.any_eq_true.mpr ⟨base, inside, _⟩
            exact List.any_eq_true.mpr ⟨candidate, resolved, contains_of_subset together isClass⟩
      · exact kept
  · exact kept

/-- More resource classes make more classes of a module resource classes. -/
theorem localResourceClasses_subset (within : fewer ⊆ more) (resolve : AST → List (List String))
    (tree : List AST) :
    localResourceClasses resolve tree fewer ⊆ localResourceClasses resolve tree more := by
  apply Closure.close_subset _ _ (List.nil_subset _)
  intro known found grown
  unfold localPass
  induction AST.scopeStatements tree generalizing known found with
  | nil => exact grown
  | cons statement rest inductionHypothesis =>
    exact inductionHypothesis _ _ (addLocal_subset within resolve grown statement)

/-- With fewer resources nothing more is reported. -/
theorem checkResourceCalls_eq_nil_of_subset (within : fewer ⊆ more) (filePath : Path)
    (source : ParsedSource) (scopes : ScopeBuilder) (added : AddedLines)
    (identities : List (AST × CacheIdentity)) (legacy : Counter CacheIdentity) (nodes : List AST)
    (clean : checkResourceCalls filePath source scopes added more identities legacy nodes = []) :
    checkResourceCalls filePath source scopes added fewer identities legacy nodes = [] := by
  induction nodes generalizing legacy with
  | nil => rfl
  | cons node rest inductionHypothesis =>
    unfold checkResourceCalls at clean ⊢
    split at clean
    · rename_i info func args keywords
      obtain ⟨resourceClean, cacheClean⟩ := List.append_eq_nil_iff.mp clean
      have resourceFewer : checkResourceCall filePath scopes added fewer
          (AST.call info func args keywords) func keywords = [] := by
        unfold checkResourceCall at resourceClean ⊢
        split
        · rename_i hit
          rw [if_pos hit, List.map_eq_nil_iff, Option.toList_eq_nil_iff] at resourceClean
          rw [resourceCallMessage_eq_none within keywords _ resourceClean]
          rfl
        · rfl
      rw [resourceFewer, List.nil_append]
      dsimp only at cacheClean ⊢
      split
      · rename_i undocumented
        rw [if_pos undocumented] at cacheClean
        split
        · rename_i allowed
          rw [if_pos allowed] at cacheClean
          exact inductionHypothesis _ cacheClean
        · rename_i forbidden
          rw [if_neg forbidden] at cacheClean
          cases cacheClean
      · rename_i documented
        rw [if_neg documented] at cacheClean
        exact inductionHypothesis _ cacheClean
    · exact inductionHypothesis _ clean

/-- A source that passes with more resource classes passes with fewer. -/
theorem checkPythonSource_eq_nil_of_subset (within : fewer ⊆ more) (filePath : Path)
    (source : ParsedSource) (added : AddedLines) (head : Option ParsedSource)
    (clean : checkPythonSource filePath source added head more = []) :
    checkPythonSource filePath source added head fewer = [] := by
  rw [checkPythonSource_eq_nil_iff] at clean ⊢
  obtain ⟨assignments, nodes, clients, basics⟩ := clean
  refine ⟨assignments, nodes, ?_, basics⟩
  unfold checkResourceClients at clients ⊢
  rw [mergeSort_eq_nil_iff] at clients ⊢
  apply checkResourceCalls_eq_nil_of_subset _ _ _ _ _ _ _ _ clients
  exact List.append_subset.mpr ⟨List.subset_append_of_subset_left _ within,
    List.subset_append_of_subset_right _ (localResourceClasses_subset within _ _)⟩

/-- Only which names are resource classes matters. -/
theorem checkPythonSource_congr (same : ∀ name, name ∈ fewer ↔ name ∈ more) (filePath : Path)
    (source : ParsedSource) (added : AddedLines) (head : Option ParsedSource) :
    checkPythonSource filePath source added head fewer =
      checkPythonSource filePath source added head more := by
  have contained (known : List (List String)) :
      (fewer ++ known).contains = (more ++ known).contains := by
    funext name
    rw [Bool.eq_iff_iff, List.contains_iff_mem, List.contains_iff_mem, List.mem_append,
      List.mem_append, same]
  have localClasses (resolve : AST → List (List String)) :
      localResourceClasses resolve source.tree fewer =
        localResourceClasses resolve source.tree more := by
    have statements : addLocal resolve fewer = addLocal resolve more := by
      funext known node
      unfold addLocal
      rw [contained]
    unfold localResourceClasses localPass
    rw [statements]
  have calls (scopes : ScopeBuilder) (identities : List (AST × CacheIdentity))
      (legacy : Counter CacheIdentity) (known : List (List String)) (nodes : List AST) :
      checkResourceCalls filePath source scopes added (fewer ++ known) identities legacy nodes =
        checkResourceCalls filePath source scopes added (more ++ known) identities legacy
          nodes := by
    have messages (keywords : List AST) (resolved : List (List String)) :
        resourceCallMessage keywords resolved (fewer ++ known) =
          resourceCallMessage keywords resolved (more ++ known) := by
      unfold resourceCallMessage
      rw [contained]
    induction nodes generalizing legacy with
    | nil => rfl
    | cons node rest inductionHypothesis =>
      unfold checkResourceCalls
      simp only [checkResourceCall, messages, inductionHypothesis]
  unfold checkPythonSource checkResourceClients
  simp only [localClasses, calls]

end ResourceClasses

/-- If the discovery returns for some modules, it returns for some of them and finds no more. -/
theorem discoverTargeted_subset (dependency : Dependency) {reader : SourceReader}
    (order : ImportOrder reader) {moduleNames wider : List (List String)}
    (within : moduleNames ⊆ wider) (classes : List (List String))
    (found : discoverTargeted dependency order wider = some classes) :
    ∃ fewer, discoverTargeted dependency order moduleNames = some fewer ∧ fewer ⊆ classes := by
  have reaches (name : List String) (reached : reader.Reaches moduleNames name) :
      reader.Reaches wider name := by
    obtain ⟨root, inside, isRoot⟩ := reached
    exact ⟨root, within inside, isRoot⟩
  unfold discoverTargeted targetedLocalRecords at found ⊢
  obtain ⟨failed, -⟩ | ⟨scan, returned, -, -, passes, visited⟩ := targetedScan_spec order wider
  · rw [failed] at found
    cases found
  · rw [returned] at found
    cases found
    obtain ⟨-, name, reached, fails⟩ | ⟨narrow, narrowReturned, -, -, -, narrowVisited⟩ :=
      targetedScan_spec order moduleNames
    · rw [passes name ((visited name).mpr (reaches name reached))] at fails
      cases fails
    · rw [narrowReturned]
      refine ⟨_, rfl, fun name inside => ?_⟩
      rw [mem_resourceClosure] at inside ⊢
      apply inside.mono
      intro record available
      rw [List.mem_append] at available ⊢
      refine available.imp_right fun read => ?_
      obtain ⟨moduleName, here, own⟩ := List.mem_flatMap.mp read
      apply List.mem_flatMap.mpr ⟨moduleName, _, own⟩
      exact (visited moduleName).mpr (reaches moduleName ((narrowVisited moduleName).mp here))

/-- A computation with another error returns the same values. -/
theorem mapError_eq_ok {ε δ α : Type} (convert : ε → δ) (computation : Except ε α) (value : α) :
    computation.mapError convert = .ok value ↔ computation = .ok value := by
  cases computation <;> simp [Except.mapError]

namespace Checkout

variable (checkout : Checkout)

/-- What a run does once its arguments are read. -/
theorem main_eq_ok_iff (arguments fileNames selected : List Text)
    (read : parseCheckArguments checkout.library.repr "check_policy"
      (CheckFamily.all.map CheckFamily.name) arguments = .ok (fileNames, selected))
    (report : Report) :
    checkout.main arguments = .ok report ↔
      ∃ staged violations, stagedChanges checkout.git = .ok staged ∧
        Outcome.collect (checkout.familyViolations staged (fileNames.map Path.ofText))
          (CheckFamily.all.filter (·.name ∈ selected)) = .ok violations ∧
        report = reportViolations violations := by
  rw [main, read]
  simp only [Outcome.bind_eq_ok, mapError_eq_ok, Except.ok.injEq]
  constructor
  · rintro ⟨_, rfl, staged, snapshot, violations, collected, rfl⟩
    exact ⟨staged, violations, snapshot, collected, rfl⟩
  · rintro ⟨staged, violations, snapshot, collected, rfl⟩
    exact ⟨_, rfl, staged, snapshot, violations, collected, rfl⟩

section Hooks

variable (fileNames : List Text) (plain : checkOption ∉ fileNames)

include plain

/-- A run of all families returns what they report together. -/
theorem main_plain_eq_ok_iff (report : Report) :
    checkout.main fileNames = .ok report ↔
      ∃ staged violations, stagedChanges checkout.git = .ok staged ∧
        Outcome.collect (checkout.familyViolations staged (fileNames.map Path.ofText))
          CheckFamily.all = .ok violations ∧
        report = reportViolations violations := by
  have every : CheckFamily.all.filter (·.name ∈ CheckFamily.all.map CheckFamily.name) =
      CheckFamily.all := by
    decide
  rw [checkout.main_eq_ok_iff fileNames fileNames _
    (parseCheckArguments_plain checkout.library.repr fileNames plain _), every]

/-- A run of one family returns what it reports. -/
theorem main_hook_eq_ok_iff (family : CheckFamily) (report : Report) :
    checkout.main (family.arguments fileNames) = .ok report ↔
      ∃ staged violations, stagedChanges checkout.git = .ok staged ∧
        checkout.familyViolations staged (fileNames.map Path.ofText) family = .ok violations ∧
        report = reportViolations violations := by
  have own : CheckFamily.all.filter (·.name ∈ [family.name]) = [family] := by
    cases family <;> decide
  rw [checkout.main_eq_ok_iff (family.arguments fileNames) fileNames _
    (parseCheckArguments_hook checkout.library.repr fileNames plain family), own]
  simp only [Outcome.collect_singleton]

/-- The hooks that are installed for the families do together what one run over all families does.
They all return if it returns; then they print the same lines, and all of them pass if it passes.

Proof: the run collects the families, and a hook collects the one it selects. -/
theorem hooks_run_apart :
    ((∃ report, checkout.main fileNames = .ok report) ↔
        ∀ family : CheckFamily, ∃ report,
          checkout.main (family.arguments fileNames) = .ok report) ∧
      ∀ report, checkout.main fileNames = .ok report →
        ∀ reports : CheckFamily → Report,
          (∀ family, checkout.main (family.arguments fileNames) = .ok (reports family)) →
          report.printed.Perm (CheckFamily.all.flatMap fun family => (reports family).printed) ∧
            (report.status = 0 ↔ ∀ family, (reports family).status = 0) := by
  have listed : ∀ family : CheckFamily, family ∈ CheckFamily.all := by
    intro family
    cases family <;> decide
  simp only [checkout.main_plain_eq_ok_iff fileNames plain,
    checkout.main_hook_eq_ok_iff fileNames plain]
  constructor
  · constructor
    · rintro ⟨_, staged, violations, snapshot, collected, -⟩ family
      obtain ⟨found, reported⟩ := (Outcome.collect_eq_ok _ _ _ collected).1 family (listed family)
      exact ⟨_, staged, found, snapshot, reported, rfl⟩
    · intro returns
      obtain ⟨-, staged, -, snapshot, -, -⟩ := returns .pathPolicy
      have each : ∀ family ∈ CheckFamily.all, ∃ found,
          checkout.familyViolations staged (fileNames.map Path.ofText) family = .ok found := by
        intro family _
        obtain ⟨-, own, found, ownSnapshot, reported, -⟩ := returns family
        rw [snapshot] at ownSnapshot
        cases ownSnapshot
        exact ⟨found, reported⟩
      exact ⟨_, staged, _, snapshot, Outcome.collect_eq _ _ each, rfl⟩
  · rintro report ⟨staged, violations, snapshot, collected, rfl⟩ reports returned
    have own : ∀ family, reports family = reportViolations
        (Outcome.yielded
          (checkout.familyViolations staged (fileNames.map Path.ofText) family)) := by
      intro family
      obtain ⟨other, found, otherSnapshot, reported, same⟩ := returned family
      rw [snapshot] at otherSnapshot
      cases otherSnapshot
      rw [same, reported, Outcome.yielded_ok]
    obtain ⟨-, rfl⟩ := Outcome.collect_eq_ok _ _ _ collected
    constructor
    · apply (printed_reportViolations_perm _).trans
      rw [List.map_flatMap]
      apply List.Perm.flatMap_left
      intro family _
      rw [own family]
      exact (printed_reportViolations_perm _).symm
    · rw [status_reportViolations, List.flatMap_eq_nil_iff]
      constructor
      · intro clean family
        rw [own family, status_reportViolations]
        exact clean family (listed family)
      · intro clean family _
        have passes := clean family
        rwa [own family, status_reportViolations] at passes

end Hooks

/-! ## The supplied files -/

section Files

variable (staged : StagedChanges)

/-- The resource classes for fewer files are fewer. -/
theorem resourceClasses_subset {fewer more : List Path} (within : fewer ⊆ more)
    (classes : List (List String)) (found : checkout.resourceClasses staged more = .ok classes) :
    ∃ narrow, checkout.resourceClasses staged fewer = .ok narrow ∧ narrow ⊆ classes := by
  unfold resourceClasses at found ⊢
  obtain ⟨modules, collected, discovered⟩ := (Outcome.bind_eq_ok _ _ _).mp found
  obtain ⟨returns, rfl⟩ := Outcome.collect_eq_ok _ _ _ collected
  rw [Outcome.collect_eq _ fewer fun path inside => returns path (within inside)]
  simp only [Outcome.bind_eq_ok, Except.ok.injEq, exists_eq_left']
  have modulesWithin : (fewer.flatMap fun path =>
      Outcome.yielded (checkout.relevantModules staged path)) ⊆
        more.flatMap fun path => Outcome.yielded (checkout.relevantModules staged path) := by
    intro name inside
    obtain ⟨path, here, imported⟩ := List.mem_flatMap.mp inside
    exact List.mem_flatMap.mpr ⟨path, within here, imported⟩
  split
  · exact ⟨[], rfl, List.nil_subset _⟩
  · rename_i nonempty
    rw [if_neg] at discovered
    · cases returned : discoverTargeted checkout.dependency checkout.order
          (more.flatMap fun path => Outcome.yielded (checkout.relevantModules staged path)) with
      | none =>
        rw [returned] at discovered
        cases discovered
      | some wide =>
        rw [returned] at discovered
        cases discovered
        obtain ⟨narrow, narrowReturned, narrowWithin⟩ :=
          discoverTargeted_subset _ _ modulesWithin _ returned
        rw [narrowReturned]
        exact ⟨narrow, rfl, narrowWithin⟩
    · intro empty
      rw [List.isEmpty_iff] at empty nonempty
      exact nonempty (List.eq_nil_of_subset_nil (empty ▸ modulesWithin))

/-- The check of a file depends on which names are resource classes only. -/
theorem sourceViolations_congr {classes others : List (List String)}
    (same : ∀ name, name ∈ classes ↔ name ∈ others) (filePath : Path) :
    checkout.sourceViolations staged classes filePath =
      checkout.sourceViolations staged others filePath := by
  unfold sourceViolations checkFile checkPythonFile
  simp only [checkPythonSource_congr same]

/-- A file that passes with more resource classes passes with fewer. -/
theorem sourceViolations_eq_nil_of_subset {fewer more : List (List String)} (within : fewer ⊆ more)
    (filePath : Path) (clean : checkout.sourceViolations staged more filePath = .ok []) :
    checkout.sourceViolations staged fewer filePath = .ok [] := by
  unfold sourceViolations checkFile checkPythonFile at clean ⊢
  split
  · rfl
  · rename_i present
    rw [if_neg present] at clean
    simp only [Bool.false_eq_true, false_and, ↓reduceIte, List.nil_append, Outcome.bind_eq_ok,
      Except.ok.injEq, exists_eq_right] at clean ⊢
    split
    · rename_i python
      rw [if_pos python] at clean
      cases stored : (staged.sources.get filePath).or (checkout.worktree filePath) with
      | none => rfl
      | some source =>
        rw [stored] at clean
        dsimp only at clean ⊢
        split
        · rfl
        · rename_i checked
          rw [if_neg checked] at clean
          simp only [Outcome.bind_eq_ok, Except.ok.injEq] at clean ⊢
          obtain ⟨parsed, parses, head, headParses, passes⟩ := clean
          exact ⟨parsed, parses, head, headParses,
            checkPythonSource_eq_nil_of_subset within _ _ _ _ passes⟩
    · rfl

/-- The staged files in another order. -/
theorem stagedPythonPaths_perm {left right : List Path} (perm : left.Perm right) :
    (stagedPythonPaths staged left).Perm (stagedPythonPaths staged right) :=
  perm.filter _

/-- Fewer file names give fewer staged files. -/
theorem stagedPythonPaths_subset {fewer more : List Path} (within : fewer ⊆ more) :
    stagedPythonPaths staged fewer ⊆ stagedPythonPaths staged more := by
  intro path inside
  obtain ⟨here, known⟩ := List.mem_filter.mp inside
  exact List.mem_filter.mpr ⟨within here, known⟩

/-- The references of a file are listed when the file is supplied. -/
theorem mem_fileReferences (filePaths : List Path) (item : Path × Dict Text Nat) :
    item ∈ (fileReferences staged filePaths).items ↔
      item.1 ∈ filePaths ∧ referencesOf staged item.1 = some item.2 := by
  have nothing : (Dict.empty : Dict Path (Dict Text Nat)).get item.1 = none := rfl
  rw [← Dict.get_eq_some_iff, fileReferences, Dict.get_update_filterMap, nothing, Option.or_none]
  by_cases inside : item.1 ∈ filePaths <;> simp [inside]

/-- Files with references are looked up in any order. -/
theorem fileReferences_perm {left right : List Path} (perm : left.Perm right) :
    (fileReferences staged left).items.Perm (fileReferences staged right).items := by
  apply (List.perm_ext_iff_of_nodup _ _).mpr
  · intro item
    rw [mem_fileReferences, mem_fileReferences, perm.mem_iff]
  · exact List.Nodup.of_map Prod.fst (fileReferences staged left).distinct
  · exact List.Nodup.of_map Prod.fst (fileReferences staged right).distinct

/-- The order of the file names does not change what is reported of links. -/
theorem stpLinksViolations_perm {left right : List Path} (perm : left.Perm right) :
    (checkout.stpLinksViolations staged left).Perm (checkout.stpLinksViolations staged right) := by
  have items := fileReferences_perm staged perm
  have sameEmpty : (fileReferences staged left).items.isEmpty =
      (fileReferences staged right).items.isEmpty := by
    rw [Bool.eq_iff_iff, List.isEmpty_iff_length_eq_zero, List.isEmpty_iff_length_eq_zero,
      items.length_eq]
  simp only [stpLinksViolations, sameEmpty]
  split
  · exact .refl _
  · cases mergedStpPaths checkout.designDocs with
    | error error => exact (items.map Prod.fst).map _
    | ok mergedPaths => exact items.flatMap_right _

/-- Fewer files have fewer references to check. -/
theorem stpLinksViolations_eq_nil_of_subset {fewer more : List Path} (within : fewer ⊆ more)
    (clean : checkout.stpLinksViolations staged more = []) :
    checkout.stpLinksViolations staged fewer = [] := by
  have items : (fileReferences staged fewer).items ⊆ (fileReferences staged more).items := by
    intro item inside
    rw [mem_fileReferences] at inside ⊢
    exact ⟨within inside.1, inside.2⟩
  unfold stpLinksViolations at clean ⊢
  split
  · rfl
  · rename_i some
    have present : ¬ (fileReferences staged more).items.isEmpty = true := by
      intro none
      rw [List.isEmpty_iff] at none some
      exact some (List.eq_nil_of_subset_nil (none ▸ items))
    rw [if_neg present] at clean
    cases merged : mergedStpPaths checkout.designDocs with
    | error error =>
      rw [merged] at clean
      rw [List.isEmpty_iff] at present
      exact absurd (List.map_eq_nil_iff.mp (List.map_eq_nil_iff.mp clean)) present
    | ok mergedPaths =>
      rw [merged] at clean
      rw [List.flatMap_eq_nil_iff] at clean ⊢
      exact fun item inside => clean item (items inside)

/-! ## Other orders and fewer files -/

/-- A family finds the same for every order of the supplied files. -/
theorem familyViolations_perm {left right : List Path} (perm : left.Perm right)
    (family : CheckFamily) (violations : List PolicyViolation)
    (found : checkout.familyViolations staged left family = .ok violations) :
    ∃ others, checkout.familyViolations staged right family = .ok others ∧
      violations.Perm others := by
  have python := stagedPythonPaths_perm staged perm
  cases family with
  | pathPolicy => exact ⟨violations, found, .refl _⟩
  | linterDirectives =>
    simp only [familyViolations, mapError_eq_ok, linterDirectivesViolations, Outcome.bind_eq_ok,
      Except.ok.injEq] at found ⊢
    obtain ⟨phase, validated, reports, checked, rfl⟩ := found
    obtain ⟨others, collected, same⟩ := Outcome.collect_perm python (fun _ _ => rfl) reports.flatten
      (by rw [Outcome.collect, checked]; rfl)
    obtain ⟨otherReports, otherChecked, flat⟩ := (Outcome.bind_eq_ok _ _ _).mp collected
    cases flat
    exact ⟨_, ⟨phase, validated, otherReports, otherChecked, rfl⟩, same.append_left _⟩
  | pythonSource =>
    simp only [familyViolations, pythonSourceViolations, Outcome.bind_eq_ok] at found ⊢
    obtain ⟨classes, discovered, checked⟩ := found
    obtain ⟨others, otherDiscovered, fewer⟩ :=
      checkout.resourceClasses_subset staged python.symm.subset classes discovered
    obtain ⟨again, rediscovered, more⟩ :=
      checkout.resourceClasses_subset staged python.subset others otherDiscovered
    rw [discovered] at rediscovered
    cases rediscovered
    obtain ⟨reordered, collected, same⟩ := Outcome.collect_perm perm
      (fun path _ => (checkout.sourceViolations_congr staged
        (fun name => ⟨fun inside => more inside, fun inside => fewer inside⟩) path).symm)
      violations checked
    exact ⟨reordered, ⟨others, otherDiscovered, collected⟩, same⟩
  | testStd => exact Outcome.collect_perm python (fun _ _ => rfl) violations found
  | stpLinks =>
    cases found
    exact ⟨_, rfl, checkout.stpLinksViolations_perm staged python⟩

/-- A family that accepts files accepts fewer of them. -/
theorem familyViolations_eq_nil_of_subset {fewer more : List Path} (within : fewer ⊆ more)
    (family : CheckFamily) (clean : checkout.familyViolations staged more family = .ok []) :
    checkout.familyViolations staged fewer family = .ok [] := by
  have python := stagedPythonPaths_subset staged within
  cases family with
  | pathPolicy => exact clean
  | linterDirectives =>
    simp only [familyViolations, mapError_eq_ok, linterDirectivesViolations, Outcome.bind_eq_ok,
      Except.ok.injEq, List.append_eq_nil_iff] at clean ⊢
    obtain ⟨phase, validated, reports, checked, manifest, files⟩ := clean
    have collected : Outcome.collect (fileViolations checkout.library staged phase.2)
        (stagedPythonPaths staged more) = .ok [] := by
      rw [Outcome.collect, checked, ← files]
      rfl
    rw [Outcome.collect_eq_nil_iff] at collected
    have narrow := (Outcome.collect_eq_nil_iff _ _).mpr fun path inside =>
      collected path (python inside)
    obtain ⟨narrowReports, narrowChecked, flat⟩ := (Outcome.bind_eq_ok _ _ _).mp narrow
    exact ⟨phase, validated, narrowReports, narrowChecked, manifest, Except.ok.inj flat⟩
  | pythonSource =>
    simp only [familyViolations, pythonSourceViolations, Outcome.bind_eq_ok] at clean ⊢
    obtain ⟨classes, discovered, checked⟩ := clean
    obtain ⟨narrow, narrowDiscovered, smaller⟩ :=
      checkout.resourceClasses_subset staged python classes discovered
    rw [Outcome.collect_eq_nil_iff] at checked
    refine ⟨narrow, narrowDiscovered, (Outcome.collect_eq_nil_iff _ _).mpr ?_⟩
    intro path inside
    exact checkout.sourceViolations_eq_nil_of_subset staged smaller path
      (checked path (within inside))
  | testStd =>
    simp only [familyViolations, testStdViolations, Outcome.collect_eq_nil_iff] at clean ⊢
    exact fun path inside => clean path (python inside)
  | stpLinks =>
    simp only [familyViolations, Except.ok.injEq] at clean ⊢
    exact checkout.stpLinksViolations_eq_nil_of_subset staged python clean

end Files

/-- The order in which the file names are supplied does not show: a run that returns for one order
returns for every other one, and prints the same lines.

Proof: every family finds the same up to order, and what is printed does not depend on the order in
which it was found. The resource classes are the same because files with the same members reach the
same modules. -/
theorem main_perm (left right : List Text) (plain : checkOption ∉ left) (perm : left.Perm right)
    (report : Report) (returned : checkout.main left = .ok report) :
    ∃ other, checkout.main right = .ok other ∧ other.printed = report.printed := by
  have otherPlain : checkOption ∉ right := fun inside => plain (perm.mem_iff.mpr inside)
  rw [checkout.main_plain_eq_ok_iff left plain] at returned
  simp only [checkout.main_plain_eq_ok_iff right otherPlain]
  obtain ⟨staged, violations, snapshot, collected, rfl⟩ := returned
  obtain ⟨returns, rfl⟩ := Outcome.collect_eq_ok _ _ _ collected
  have paths := perm.map Path.ofText
  have each : ∀ family ∈ CheckFamily.all, ∃ others,
      checkout.familyViolations staged (right.map Path.ofText) family = .ok others ∧
        (Outcome.yielded (checkout.familyViolations staged (left.map Path.ofText) family)).Perm
          others := by
    intro family listed
    obtain ⟨found, reported⟩ := returns family listed
    rw [reported]
    exact checkout.familyViolations_perm staged paths family found reported
  refine ⟨_, ⟨staged, _, snapshot, Outcome.collect_eq _ _ fun family listed => ?_, rfl⟩, ?_⟩
  · obtain ⟨others, reported, -⟩ := each family listed
    exact ⟨others, reported⟩
  · apply printed_reportViolations_of_perm
    apply List.Perm.flatMap_left
    intro family listed
    obtain ⟨others, reported, same⟩ := each family listed
    rw [reported]
    exact same.symm

/-- What is accepted with some files is accepted with fewer of them, whatever their order. A list of
files that passes may therefore be checked in parts. -/
theorem main_accepts_fewer (fewer more : List Text) (plain : checkOption ∉ more)
    (within : fewer ⊆ more) (report : Report) (returned : checkout.main more = .ok report)
    (accepted : report.status = 0) :
    ∃ narrow, checkout.main fewer = .ok narrow ∧ narrow.status = 0 := by
  have fewerPlain : checkOption ∉ fewer := fun inside => plain (within inside)
  rw [checkout.main_plain_eq_ok_iff more plain] at returned
  simp only [checkout.main_plain_eq_ok_iff fewer fewerPlain]
  obtain ⟨staged, violations, snapshot, collected, rfl⟩ := returned
  rw [status_reportViolations] at accepted
  subst accepted
  rw [Outcome.collect_eq_nil_iff] at collected
  have clean := (Outcome.collect_eq_nil_iff _ _).mpr fun family listed =>
    checkout.familyViolations_eq_nil_of_subset staged (List.map_subset Path.ofText within) family
      (collected family listed)
  exact ⟨_, ⟨staged, [], snapshot, clean, rfl⟩, (status_reportViolations []).mpr rfl⟩

end Checkout

/-! ## Two added modules -/

/-- A module that is added with one import. -/
def addedClock : FileChange where
  kind := .added
  path := { parts := ["libs".toList, "clock.py".toList] }
  extended := { lines := ["new file mode 100644".toList, "index 0000000..8d3f1c0".toList] }
  diff := { hunks := [{ skipped := [], body := [.insert (.ofString "import time")] }] }

/-- A test that is added at the top of `tests/`. -/
def addedTest : FileChange where
  kind := .added
  path := { parts := ["tests".toList, "test_new.py".toList] }
  extended := { lines := ["new file mode 100644".toList, "index 0000000..5b7e2a9".toList] }
  diff := { hunks := [{ skipped := [], body := [.insert (.ofString "import os")] }] }

/-- The module is added, and the test too or not. -/
def additionChanges (withTest : Bool) : List FileChange :=
  addedClock :: if withTest then [addedTest] else []

/-- The texts of both in the index. -/
def additionTexts (path : Path) : Option Text :=
  if path = addedClock.path.path then some addedClock.diff.newText
  else if path = addedTest.path.path then some addedTest.diff.newText
  else none

/-- No path is staged twice. -/
theorem additionChanges_distinct (withTest : Bool) :
    ((additionChanges withTest).map fun change => change.path.path).Nodup := by
  cases withTest <;> decide +kernel

/-- None of them has a version in `HEAD`. -/
theorem additionChanges_new (withTest : Bool) : ∀ change ∈ additionChanges withTest, ∀ path,
    change.headPath = some path → none = some change.diff.oldText := by
  cases withTest <;> simp [additionChanges, addedClock, addedTest, FileChange.headPath]

/-- The index has their texts. -/
theorem additionChanges_texts (withTest : Bool) : ∀ change ∈ additionChanges withTest,
    change.kind.letter ≠ 'D' → additionTexts change.path.path = some change.diff.newText := by
  cases withTest <;> decide +kernel

/-- The additions as the staged changes. -/
def additions (withTest : Bool) : Snapshot where
  changes := additionChanges withTest
  tracked := [{ mode := .regular, object := "8d3f1c0".toList, path := addedClock.path },
    { mode := .regular, object := "5b7e2a9".toList, path := addedTest.path }]
  head := fun _ => none
  index := additionTexts
  distinct := additionChanges_distinct withTest
  head_old := additionChanges_new withTest
  index_new := additionChanges_texts withTest

/-- The name in the text of an import. -/
def importedText (source : Text) : Text := source.dropLast.drop "import ".length

/-- The library, as it answers for the two modules, for the empty text and for a manifest without
records. -/
def additionsLibrary : Library where
  unicode := ascii
  parse source :=
    if source.isEmpty then some ⟨[], []⟩
    else some ⟨[⟨1, some 1, 0,
      "Import(names=[alias(name='".toList ++ importedText source ++ "')])".toList⟩], []⟩
  loads _ := .ok [("exceptions".toList, .array [])]
  urlparse _ := none
  hexdigest _ := []
  repr text := text

/-- The two modules in a checkout with a manifest without records. -/
def additionsCheckout (withTest : Bool) : Checkout where
  git := (additions withTest).git
  showIndex := .content "exceptions = []\n".toList
  showHead := .content "exceptions = []\n".toList
  library := additionsLibrary
  parse source :=
    if source = addedClock.diff.newText ∨ source = addedTest.diff.newText then
      some { tree := [.importStmt ⟨0, 1, 1⟩ [⟨String.ofList (importedText source), none⟩]]
             tokens := [], colOffset := fun _ => 0, dump := fun _ => [] }
    else none
  isDecimal := Char.isDigit
  dump _ := []
  worktree _ := none
  repository := aliasRepository
  dependency := noDependency
  order := aliasOrder
  designDocs := .listed [] false

/-- The staged changes of the checkout. -/
def stagedAdditions (withTest : Bool) : StagedChanges where
  changedPaths := addedClock.path.path :: if withTest then [addedTest.path.path] else []
  deletedPaths := []
  renamedPaths := []
  renamedAwayPaths := []
  symlinkedPaths := []
  addedLines :=
    if withTest then (Dict.empty.set addedClock.path.path [1]).set addedTest.path.path [1]
    else Dict.empty.set addedClock.path.path [1]
  sources :=
    let clock : Dict Path Text := Dict.empty.set addedClock.path.path addedClock.diff.newText
    if withTest then clock.set addedTest.path.path addedTest.diff.newText else clock
  headSources := ∅
  copiedPaths := []

/-- The hook reads the staged changes from the outputs of git. -/
theorem additions_staged (withTest : Bool) :
    stagedChanges (additionsCheckout withTest).git = .ok (stagedAdditions withTest) := by
  cases withTest <;> decide +kernel

/-- The files that are supplied. -/
def additionNames : List Text := ["libs/clock.py".toList, "tests/test_new.py".toList]

/-- The test belongs in a directory of its feature. -/
def placedViolation : PolicyViolation :=
  ⟨addedTest.path.path, none,
    FsText.ofString "test files must be placed in a feature subdirectory under tests/"⟩

/-- The line that is printed for it. -/
def placedLine : FsText :=
  FsText.ofString "tests/test_new.py: test files must be placed in a feature subdirectory under tests/"

/-- Of the changed paths that of the test is reported, if it is staged. -/
theorem additions_paths (withTest : Bool) :
    pathPolicyViolations (stagedAdditions withTest) = if withTest then [placedViolation] else [] := by
  have changed : (sortedPaths ((stagedAdditions withTest).changedPaths ++
      (stagedAdditions withTest).deletedPaths)).flatMap (fun path =>
        (checkSitePath path).toList ++ (checkTopLevelTestPath path).toList) =
      if withTest then [placedViolation] else [] := by
    have sorted := (sortedBy_perm Path.codes ((stagedAdditions withTest).changedPaths ++
      (stagedAdditions withTest).deletedPaths).dedup).flatMap_right fun path =>
        (checkSitePath path).toList ++ (checkTopLevelTestPath path).toList
    cases withTest with
    | false =>
      refine List.perm_nil.mp (sorted.trans (.of_eq ?_))
      decide +kernel
    | true =>
      refine List.perm_singleton.mp (sorted.trans (.of_eq ?_))
      decide +kernel
  have unlinked : (stagedAdditions withTest).symlinkedPaths = [] := rfl
  have kept : exceptionsPath ∉ (stagedAdditions withTest).deletedPaths := List.not_mem_nil
  rw [pathPolicyViolations, changed, unlinked, if_neg kept, List.append_nil]
  simp [sortedPaths, sortedBy]

/-- What a family reports: the misplaced test, if it is staged. -/
def reportedBy (withTest : Bool) (family : CheckFamily) : List PolicyViolation :=
  if withTest ∧ family = .pathPolicy then [placedViolation] else []

/-- Both modules pass the checks of their sources. -/
theorem additions_families (withTest : Bool) (family : CheckFamily) :
    (additionsCheckout withTest).familyViolations (stagedAdditions withTest)
      (additionNames.map Path.ofText) family = .ok (reportedBy withTest family) := by
  cases family with
  | pathPolicy =>
    rw [Checkout.familyViolations, additions_paths]
    cases withTest <;> rfl
  | linterDirectives => cases withTest <;> decide +kernel
  | pythonSource => cases withTest <;> decide +kernel
  | testStd => cases withTest <;> decide +kernel
  | stpLinks => cases withTest <;> decide +kernel

/-- No family is selected. -/
theorem additions_plain : checkOption ∉ additionNames := by decide +kernel

/-- A run over both files. -/
theorem additions_main (withTest : Bool) :
    (additionsCheckout withTest).main additionNames =
      .ok (reportViolations (reportedBy withTest .pathPolicy)) := by
  apply ((additionsCheckout withTest).main_plain_eq_ok_iff additionNames additions_plain _).mpr
  refine ⟨stagedAdditions withTest, _, additions_staged withTest,
    (Outcome.collect_eq _ _ fun family _ => ⟨_, additions_families withTest family⟩).trans ?_, rfl⟩
  simp only [additions_families, Outcome.yielded_ok]
  cases withTest <;> rfl

/-- The hook of one family. -/
theorem additions_hook (withTest : Bool) (family : CheckFamily) :
    (additionsCheckout withTest).main (family.arguments additionNames) =
      .ok (reportViolations (reportedBy withTest family)) :=
  ((additionsCheckout withTest).main_hook_eq_ok_iff additionNames additions_plain family _).mpr
    ⟨stagedAdditions withTest, _, additions_staged withTest, additions_families withTest family, rfl⟩

/-- What is printed for the misplaced test. -/
theorem additions_printed :
    (reportViolations (reportedBy true .pathPolicy)).printed =
      [placedLine] := by
  have alone : sortedBy PolicyViolation.key [placedViolation] = [placedViolation] :=
    List.perm_singleton.mp (sortedBy_perm _ _)
  have text : placedViolation.text = placedLine := by decide +kernel
  change (sortedBy PolicyViolation.key [placedViolation]).map PolicyViolation.text = _
  rw [alone, List.map_singleton, text]

/-- The five hooks print together the line of the one run. -/
theorem additions_hooks_run_apart :
    ((∃ report, (additionsCheckout true).main additionNames = .ok report) ↔
        ∀ family : CheckFamily, ∃ report,
          (additionsCheckout true).main (family.arguments additionNames) = .ok report) ∧
      [placedLine].Perm (CheckFamily.all.flatMap fun family =>
          (reportViolations (reportedBy true family)).printed) ∧
        ((reportViolations (reportedBy true .pathPolicy)).status = 0 ↔
          ∀ family, (reportViolations (reportedBy true family)).status = 0) := by
  obtain ⟨returns, apart⟩ :=
    Checkout.hooks_run_apart (additionsCheckout true) additionNames additions_plain
  refine ⟨returns, ?_⟩
  rw [← additions_printed]
  exact apart _ (additions_main true) _ (additions_hook true)

/-- The two files in the other order. -/
theorem additions_main_perm :
    ∃ other, (additionsCheckout true).main additionNames.reverse = .ok other ∧
      other.printed = [placedLine] := by
  obtain ⟨other, returned, printed⟩ := Checkout.main_perm (additionsCheckout true) additionNames _
    additions_plain (List.reverse_perm _).symm _ (additions_main true)
  exact ⟨other, returned, printed.trans additions_printed⟩

/-- Without the test the run over both files passes, and so does one over the staged module. -/
theorem additions_main_accepts_fewer :
    ∃ narrow, (additionsCheckout false).main ["libs/clock.py".toList] = .ok narrow ∧
      narrow.status = 0 :=
  Checkout.main_accepts_fewer (additionsCheckout false) _ _ additions_plain
    (List.cons_subset_cons _ (List.nil_subset _)) _ (additions_main false)
    ((status_reportViolations []).mpr rfl)

end VirtTestTools.Policy
