import VirtTestTools.Policy.ManifestUpdate

/-!
# The linter-directive hook

`_linter_directives_violations` of `check_policy.py`: it finds the manifest of the
index, which may be staged, unstaged, symlinked, deleted or missing, validates
it, and then checks every staged file against the records.

When the manifest is rejected, the local variable that the last loop reads is
never assigned. The hook therefore returns for every manifest it accepts, and
for a rejected one only if there is no file to check.
-/

namespace VirtTestTools.Policy

open Text

/-- The outcome of `git show` for the manifest. A path is `missing` if the error
text says that it does not exist or is not in the index. -/
inductive Shown
  | content (text : Text)
  | missing
  | failed

/-- The versions of a staged Python file. -/
def pythonVersions (staged : StagedChanges) (path : Path) : Option (Text × Option Text) :=
  if path.suffix = pythonSuffix then
    (staged.sources.get path).map fun source => (source, staged.headSources.get path)
  else none

/-- The staged Python sources that `main` passes on. -/
def stagedPythonSources (staged : StagedChanges) : StagedSources :=
  (Dict.empty).update (staged.sources.keys.filterMap fun path =>
    (pythonVersions staged path).map fun versions => (path, versions))

/-- The supplied paths that are staged Python files. -/
def stagedPythonPaths (staged : StagedChanges) (filePaths : List Path) : List Path :=
  filePaths.filter (stagedPythonSources staged).has

section Hook

variable (library : Library) (showIndex showHead : Shown) (staged : StagedChanges)
  (pythonSources : StagedSources) (pythonPaths : List Path)

/-- Whether the manifest is staged. -/
def manifestChanged : Bool := staged.sources.has exceptionsPath

/-- Whether the manifest of the index is read with `git show`. -/
def consultsIndex : Bool :=
  decide (exceptionsPath ∉ staged.symlinkedPaths) &&
    (!pythonSources.items.isEmpty || manifestChanged staged) &&
    (staged.sources.get exceptionsPath).isNone && decide (exceptionsPath ∉ staged.deletedPaths)

/-- Whether the manifest of HEAD is read with `git show`. -/
def consultsHead : Bool := !manifestChanged staged && !pythonSources.items.isEmpty

/-- The manifest of the index, as far as the hook sees it. -/
def indexedManifest : Option Text :=
  if consultsIndex staged pythonSources then
    match showIndex with
    | .content text => some text
    | _ => none
  else staged.sources.get exceptionsPath

/-- The manifest of HEAD, as far as the hook sees it. -/
def headManifest : Option Text :=
  if consultsHead staged pythonSources then
    match showHead with
    | .content text => some text
    | _ => staged.headSources.get exceptionsPath
  else staged.headSources.get exceptionsPath

/-- A failure of `git show` other than a missing path is raised. -/
def raiseFailure (consulted : Bool) (shown : Shown) : Except HookError Unit :=
  match consulted, shown with
  | true, .failed => .error .runtimeError
  | _, _ => .ok ()

/-- The violation for a manifest that the index does not have. -/
def missingViolations : List PolicyViolation :=
  match consultsIndex staged pythonSources, showIndex with
  | true, .missing =>
    [manifestViolation exceptionsPath
      (FsText.ofString "the exception manifest must exist in the Git index")]
  | _, _ => []

/-- The violations of the manifest update, when it is checked. -/
def updateViolations (source : Text) : Except HookError (List PolicyViolation) :=
  if manifestChanged staged || !pythonSources.items.isEmpty then
    checkManifestUpdate library source (headManifest showHead staged pythonSources) exceptionsPath
      pythonSources staged.renamedAwayPaths
  else .ok []

/-- The last `try` block. A rejected manifest is reported unless a violation of
the manifest is already there; `exceptions` is then not assigned. -/
def loadReported (source : Text) (violations : List PolicyViolation) :
    Except HookError (List PolicyViolation × Option (List DirectiveException)) :=
  match loadExceptions library source with
  | .ok exceptions => .ok (violations, some exceptions)
  | .error (.manifest message) =>
    if violations.any (fun violation => decide (violation.filePath = exceptionsPath)) then
      .ok (violations, none)
    else
      .ok (violations ++ [manifestViolation exceptionsPath
        (FsText.ofString "fix malformed exception manifest: " ++ message)], none)
  | .error error => .error error

/-- The validation of the manifest: the violations so far and the local variable
`exceptions`. -/
def manifestPhase : Except HookError (List PolicyViolation × Option (List DirectiveException)) :=
  raiseFailure (consultsIndex staged pythonSources) showIndex >>= fun _ =>
    match indexedManifest showIndex staged pythonSources with
    | none => .ok (missingViolations showIndex staged pythonSources, some [])
    | some source =>
      raiseFailure (consultsHead staged pythonSources) showHead >>= fun _ =>
        updateViolations library showHead staged pythonSources source >>= fun updates =>
          loadReported library source (missingViolations showIndex staged pythonSources ++ updates)

/-- The check of one file; the local variable may not be assigned. -/
def fileViolations (exceptions : Option (List DirectiveException)) (path : Path) :
    Except HookError (List PolicyViolation) :=
  match staged.sources.get path, exceptions with
  | none, _ => .error .keyError
  | some _, none => .error .unboundLocal
  | some source, some exceptions =>
    checkLinterDirectives library path source (staged.headSources.get path) exceptions

/-- `_linter_directives_violations`. -/
def linterDirectivesViolations : Except HookError (List PolicyViolation) :=
  manifestPhase library showIndex showHead staged pythonSources >>= fun phase =>
    pythonPaths.mapM (fileViolations library staged phase.2) >>= fun reports =>
      .ok (phase.1 ++ reports.flatten)

end Hook

section Outcomes

variable (library : Library)

/-- Reading the directives of a source that parses raises for an invalid
directive only. -/
theorem raised_of_directives (source : Text) (error : HookError)
    (parses : (library.parse source).isSome = true)
    (raised : directives library source = .error error) :
    ∃ lineNumber directive, error = .invalidDirective lineNumber directive := by
  obtain ⟨module, parsed⟩ := Option.isSome_iff_exists.mp parses
  simp only [directives, parsed] at raised
  rcases (Outcome.bind_eq_error _ _ _).mp raised with early | ⟨found, -, impossible⟩
  · obtain ⟨comment, -, same⟩ := Outcome.raised_of_mapM _ _ _ early
    simp only [commentDirective] at same
    split at same
    · cases same
    · cases same
    · cases same
      exact ⟨_, _, rfl⟩
  · cases impossible

/-- When the check of one file returns: the version in HEAD parses, or an invalid
directive of the index is reported before it is looked at. -/
theorem checkLinterDirectives_returns (path : Path) (source : Text) (headSource : Option Text)
    (exceptions : List DirectiveException) (parses : (library.parse source).isSome = true) :
    (∃ violations, checkLinterDirectives library path source headSource exceptions =
      .ok violations) ↔
      (∃ lineNumber directive,
        directives library source = .error (.invalidDirective lineNumber directive)) ∨
      (library.parse (headSource.getD [])).isSome = true := by
  unfold checkLinterDirectives
  cases inIndex : directives library source with
  | error error =>
    obtain ⟨lineNumber, directive, rfl⟩ := raised_of_directives library source error parses inIndex
    have both : bothDirectives library source headSource =
        .error (.invalidDirective lineNumber directive) := by
      rw [bothDirectives, inIndex]
      rfl
    simp [both]
  | ok indexed =>
    cases inHead : directives library (headSource.getD []) with
    | error error =>
      have both : bothDirectives library source headSource = .error error := by
        rw [bothDirectives, inIndex, inHead]
        rfl
      cases parsed : library.parse (headSource.getD []) with
      | none =>
        have same : error = .syntaxError := by
          simp only [directives, parsed] at inHead
          exact (Except.error.inj inHead).symm
        simp [both, same]
      | some module =>
        obtain ⟨lineNumber, directive, rfl⟩ := raised_of_directives library _ error
          (by rw [parsed]; rfl) inHead
        simp [both]
    | ok head =>
      have both : bothDirectives library source headSource = .ok (indexed, head) := by
        rw [bothDirectives, inIndex, inHead]
        rfl
      have parsed : (library.parse (headSource.getD [])).isSome = true := by
        cases parsed : library.parse (headSource.getD []) with
        | none =>
          simp only [directives, parsed] at inHead
          cases inHead
        | some module => rfl
      simp [both, parsed]

/-- When the check of the update returns: no manifest that is loaded makes a library
raise. -/
theorem checkManifestUpdate_returns (indexedSource : Text) (headSource : Option Text)
    (filePath : Path) (stagedSources : StagedSources) (renamedAwayPaths : List Path) :
    (∃ violations, checkManifestUpdate library indexedSource headSource filePath stagedSources
      renamedAwayPaths = .ok violations) ↔
      loadExceptions library indexedSource ≠ .error .libraryError ∧
        ((∃ records, loadExceptions library indexedSource = .ok records) →
          loadOptional library headSource ≠ .error .libraryError) := by
  have headRaises : RaisesManifest (loadOptional library headSource) := by
    cases headSource with
    | none => exact raisesManifest_ok _
    | some source => exact raisesManifest_loadExceptions library source
  unfold checkManifestUpdate
  cases first : loadExceptions library indexedSource with
  | error error =>
    have both : loadManifests library indexedSource headSource = .error error := by
      rw [loadManifests, first]
      rfl
    rcases raisesManifest_loadExceptions library indexedSource error first with
      rfl | ⟨message, rfl⟩
    · simp [both]
    · simp [both]
  | ok indexed =>
    cases second : loadOptional library headSource with
    | error error =>
      have both : loadManifests library indexedSource headSource = .error error := by
        rw [loadManifests, first, second]
        rfl
      rcases headRaises error second with rfl | ⟨message, rfl⟩
      · simp [both]
      · simp [both]
    | ok head =>
      have both : loadManifests library indexedSource headSource = .ok (indexed, head) := by
        rw [loadManifests, first, second]
        rfl
      simp [both]

/-- A failure is raised when the blob is consulted and cannot be shown. -/
theorem raiseFailure_returns (consulted : Bool) (shown : Shown) :
    raiseFailure consulted shown = .ok () ↔ ¬ (consulted = true ∧ shown = .failed) := by
  cases consulted <;> cases shown <;> simp [raiseFailure]

end Outcomes

section Returning

variable (library : Library) (showIndex showHead : Shown) (staged : StagedChanges)
  (pythonSources : StagedSources) (pythonPaths : List Path)

/-- The condition under which the hook returns. No consulted `git show` fails for
another reason than a missing path; no library raises for a manifest that is loaded; the
manifest of the index is accepted, unless there is no file to check; and the
version in HEAD of each file parses, unless the index version has an invalid
directive. -/
structure ManifestUsable : Prop where
  shown : ¬ (consultsIndex staged pythonSources = true ∧ showIndex = .failed)
  headShown : ∀ source, indexedManifest showIndex staged pythonSources = some source →
    ¬ (consultsHead staged pythonSources = true ∧ showHead = .failed)
  libraries : ∀ source, indexedManifest showIndex staged pythonSources = some source →
    loadExceptions library source ≠ .error .libraryError
  headLibraries : ∀ source, indexedManifest showIndex staged pythonSources = some source →
    (∃ records, loadExceptions library source = .ok records) →
      loadOptional library (headManifest showHead staged pythonSources) ≠ .error .libraryError
  accepted : ∀ source, indexedManifest showIndex staged pythonSources = some source →
    (∃ message, loadExceptions library source = .error (.manifest message)) → pythonPaths = []
  headParses : ∀ path ∈ pythonPaths, ∀ source, staged.sources.get path = some source →
    (∃ lineNumber directive,
      directives library source = .error (.invalidDirective lineNumber directive)) ∨
    (library.parse ((staged.headSources.get path).getD [])).isSome = true

/-- Every file to check is staged, and its index version parses. -/
def StagedParseable : Prop :=
  ∀ path ∈ pythonPaths, ∃ source, staged.sources.get path = some source ∧
    (library.parse source).isSome = true

/-- A manifest that is seen is also checked against its version in HEAD. -/
theorem update_checked (source : Text)
    (seen : indexedManifest showIndex staged pythonSources = some source) :
    updateViolations library showHead staged pythonSources source =
      checkManifestUpdate library source (headManifest showHead staged pythonSources)
        exceptionsPath pythonSources staged.renamedAwayPaths := by
  have checked : (manifestChanged staged || !pythonSources.items.isEmpty) = true := by
    unfold indexedManifest at seen
    split at seen
    · rename_i consulted
      simp only [consultsIndex, Bool.and_eq_true] at consulted
      rw [Bool.or_comm]
      exact consulted.1.1.2
    · rw [manifestChanged, (Dict.has_iff _ _).mpr ⟨source, seen⟩]
      rfl
  rw [updateViolations, if_pos checked]

/-- The check of one file with the local variable assigned. -/
theorem fileViolations_returns (exceptions : List DirectiveException) (path : Path)
    (source : Text) (stored : staged.sources.get path = some source)
    (parses : (library.parse source).isSome = true) :
    (∃ violations, fileViolations library staged (some exceptions) path = .ok violations) ↔
      (∃ lineNumber directive,
        directives library source = .error (.invalidDirective lineNumber directive)) ∨
      (library.parse ((staged.headSources.get path).getD [])).isSome = true := by
  simp only [fileViolations, stored]
  exact checkLinterDirectives_returns library path source _ exceptions parses

/-- Without an assigned variable the loop over files returns only if it is
empty. -/
theorem files_return_iff (exceptions : Option (List DirectiveException))
    (parseable : StagedParseable library staged pythonPaths) :
    (∃ reports, pythonPaths.mapM (fileViolations library staged exceptions) = .ok reports) ↔
      (exceptions = none → pythonPaths = []) ∧
        ∀ path ∈ pythonPaths, ∀ source, staged.sources.get path = some source →
          (∃ lineNumber directive,
            directives library source = .error (.invalidDirective lineNumber directive)) ∨
          (library.parse ((staged.headSources.get path).getD [])).isSome = true := by
  rw [Outcome.mapM_returns]
  cases exceptions with
  | none =>
    constructor
    · intro all
      have empty : pythonPaths = [] := by
        rw [List.eq_nil_iff_forall_not_mem]
        intro path member
        obtain ⟨source, stored, -⟩ := parseable path member
        obtain ⟨violations, returned⟩ := all path member
        simp only [fileViolations, stored] at returned
        cases returned
      subst empty
      simp
    · rintro ⟨empty, -⟩
      simp [empty rfl]
  | some exceptions =>
    simp only [reduceCtorEq, false_implies, true_and]
    refine forall_congr' fun path => forall_congr' fun member => ?_
    obtain ⟨source, stored, parses⟩ := parseable path member
    rw [fileViolations_returns library staged exceptions path source stored parses]
    simp only [stored, Option.some.injEq, forall_eq']

/-- When the last `try` block returns, and whether it assigns the variable. -/
theorem loadReported_eq_ok (source : Text) (violations : List PolicyViolation)
    (phase : List PolicyViolation × Option (List DirectiveException)) :
    loadReported library source violations = .ok phase →
      (phase.2 = none ↔ ∃ message, loadExceptions library source = .error (.manifest message)) ∧
      ((∃ message, loadExceptions library source = .error (.manifest message)) →
        ∃ violation ∈ phase.1, violation.filePath = exceptionsPath) := by
  unfold loadReported
  cases loaded : loadExceptions library source with
  | ok exceptions =>
    intro same
    cases same
    simp
  | error error =>
    rcases raisesManifest_loadExceptions library source error loaded with rfl | ⟨message, rfl⟩
    · intro same
      cases same
    · intro same
      simp only [] at same
      split at same
      · rename_i reported
        cases same
        simp only [List.any_eq_true, decide_eq_true_eq] at reported
        simpa using reported
      · cases same
        refine ⟨by simp, fun _ => ⟨_, List.mem_append_right _ (List.mem_singleton.mpr rfl), rfl⟩⟩

/-- A manifest is loaded or reported, unless the library fails. -/
theorem loadReported_returns (source : Text) (violations : List PolicyViolation) :
    (∃ phase, loadReported library source violations = .ok phase) ↔
      loadExceptions library source ≠ .error .libraryError := by
  unfold loadReported
  cases loaded : loadExceptions library source with
  | ok exceptions => simp
  | error error =>
    rcases raisesManifest_loadExceptions library source error loaded with rfl | ⟨message, rfl⟩
    · simp
    · simp only [ne_eq, Except.error.injEq, reduceCtorEq, not_false_eq_true, iff_true]
      split
      · exact ⟨_, rfl⟩
      · exact ⟨_, rfl⟩

/-- A manifest that is not seen leaves nothing to load. -/
theorem manifestPhase_unseen (unseen : indexedManifest showIndex staged pythonSources = none)
    (phase : List PolicyViolation × Option (List DirectiveException)) :
    manifestPhase library showIndex showHead staged pythonSources = .ok phase ↔
      raiseFailure (consultsIndex staged pythonSources) showIndex = .ok () ∧
        phase = (missingViolations showIndex staged pythonSources, some []) := by
  rw [manifestPhase, Outcome.bind_eq_ok]
  simp only [unseen, Except.ok.injEq]
  constructor
  · rintro ⟨_, shown, rfl⟩
    exact ⟨shown, rfl⟩
  · rintro ⟨shown, rfl⟩
    exact ⟨_, shown, rfl⟩

/-- A manifest that is seen is compared with its version in HEAD and loaded. -/
theorem manifestPhase_seen (source : Text)
    (seen : indexedManifest showIndex staged pythonSources = some source)
    (phase : List PolicyViolation × Option (List DirectiveException)) :
    manifestPhase library showIndex showHead staged pythonSources = .ok phase ↔
      raiseFailure (consultsIndex staged pythonSources) showIndex = .ok () ∧
        raiseFailure (consultsHead staged pythonSources) showHead = .ok () ∧
        ∃ updates, checkManifestUpdate library source
            (headManifest showHead staged pythonSources) exceptionsPath pythonSources
            staged.renamedAwayPaths = .ok updates ∧
          loadReported library source
            (missingViolations showIndex staged pythonSources ++ updates) = .ok phase := by
  rw [manifestPhase, Outcome.bind_eq_ok]
  simp only [seen, Outcome.bind_eq_ok, update_checked library showIndex showHead staged
    pythonSources source seen]
  constructor
  · rintro ⟨_, shown, _, headShown, rest⟩
    exact ⟨shown, headShown, rest⟩
  · rintro ⟨shown, headShown, rest⟩
    exact ⟨_, shown, _, headShown, rest⟩

/-- The hook returns exactly under the condition.

Proof: the manifest is seen or not; in the first case it is accepted, rejected or
its loading raises. -/
theorem hook_returns_iff (parseable : StagedParseable library staged pythonPaths) :
    (∃ violations, linterDirectivesViolations library showIndex showHead staged pythonSources
      pythonPaths = .ok violations) ↔
      ManifestUsable library showIndex showHead staged pythonSources pythonPaths := by
  have files := fun exceptions => files_return_iff library staged pythonPaths exceptions parseable
  have parts : (∃ violations, linterDirectivesViolations library showIndex showHead staged
      pythonSources pythonPaths = .ok violations) ↔
      ∃ phase, manifestPhase library showIndex showHead staged pythonSources = .ok phase ∧
        ∃ reports, pythonPaths.mapM (fileViolations library staged phase.2) = .ok reports := by
    simp only [linterDirectivesViolations, Outcome.bind_eq_ok]
    constructor
    · rintro ⟨violations, phase, returned, reports, checked, -⟩
      exact ⟨phase, returned, reports, checked⟩
    · rintro ⟨phase, returned, reports, checked⟩
      exact ⟨_, phase, returned, reports, checked, rfl⟩
  simp only [parts, files]
  cases seen : indexedManifest showIndex staged pythonSources with
  | none =>
    simp only [manifestPhase_unseen library showIndex showHead staged pythonSources seen,
      raiseFailure_returns]
    constructor
    · rintro ⟨_, ⟨shown, rfl⟩, -, headParses⟩
      exact ⟨shown, by simp [seen], by simp [seen], by simp [seen], by simp [seen], headParses⟩
    · intro usable
      exact ⟨_, ⟨usable.shown, rfl⟩, by simp, usable.headParses⟩
  | some source =>
    simp only [manifestPhase_seen library showIndex showHead staged pythonSources source seen,
      raiseFailure_returns]
    have updated := checkManifestUpdate_returns library source
      (headManifest showHead staged pythonSources) exceptionsPath pythonSources
      staged.renamedAwayPaths
    have only : ∀ statement : Text → Prop,
        (∀ other, indexedManifest showIndex staged pythonSources = some other →
          statement other) ↔ statement source := by
      intro statement
      simp only [seen, Option.some.injEq, forall_eq']
    constructor
    · rintro ⟨phase, ⟨shown, headShown, updates, checked, loaded⟩, assigned, headParses⟩
      have outcome := loadReported_eq_ok library source _ phase loaded
      have urls := updated.mp ⟨updates, checked⟩
      refine ⟨shown, (only _).mpr headShown, (only _).mpr urls.1, (only _).mpr urls.2,
        (only _).mpr ?_, headParses⟩
      intro rejected
      exact assigned (outcome.1.mpr rejected)
    · intro usable
      have urls := (only _).mp usable.libraries
      obtain ⟨updates, checked⟩ := updated.mpr ⟨urls, (only _).mp usable.headLibraries⟩
      obtain ⟨phase, loaded⟩ := (loadReported_returns library source
        (missingViolations showIndex staged pythonSources ++ updates)).mpr urls
      have outcome := loadReported_eq_ok library source _ phase loaded
      refine ⟨phase, ⟨usable.shown, (only _).mp usable.headShown, updates, checked, loaded⟩, ?_,
        usable.headParses⟩
      intro unassigned
      exact (only _).mp usable.accepted (outcome.1.mp unassigned)

/-- The hook returns a list. If the manifest of the index is rejected, the list
has a violation of the manifest and every violation that each file has without
exceptions. -/
def ManifestReported : Prop :=
  ∃ violations, linterDirectivesViolations library showIndex showHead staged pythonSources
      pythonPaths = .ok violations ∧
    ∀ source, indexedManifest showIndex staged pythonSources = some source →
      (∃ message, loadExceptions library source = .error (.manifest message)) →
        (∃ violation ∈ violations, violation.filePath = exceptionsPath) ∧
          ∀ path ∈ pythonPaths, ∀ source, staged.sources.get path = some source →
            ∀ reported, checkLinterDirectives library path source
              (staged.headSources.get path) [] = .ok reported → reported ⊆ violations

/-- A rejected manifest is reported when the hook returns. -/
theorem rejected_reported (source : Text)
    (seen : indexedManifest showIndex staged pythonSources = some source)
    (rejected : ∃ message, loadExceptions library source = .error (.manifest message))
    (violations : List PolicyViolation)
    (returned : linterDirectivesViolations library showIndex showHead staged pythonSources
      pythonPaths = .ok violations) :
    ∃ violation ∈ violations, violation.filePath = exceptionsPath := by
  obtain ⟨phase, phaseReturned, rest⟩ := (Outcome.bind_eq_ok _ _ _).mp returned
  obtain ⟨reports, -, same⟩ := (Outcome.bind_eq_ok _ _ _).mp rest
  obtain ⟨-, -, updates, -, loaded⟩ := (manifestPhase_seen library showIndex showHead staged
    pythonSources source seen phase).mp phaseReturned
  obtain ⟨violation, member, own⟩ := (loadReported_eq_ok library source _ phase loaded).2 rejected
  cases same
  exact ⟨violation, List.mem_append_left _ member, own⟩

end Returning

/-- The supplied staged files are staged. -/
theorem stored_of_stagedPythonPaths (staged : StagedChanges) (filePaths : List Path) (path : Path)
    (member : path ∈ stagedPythonPaths staged filePaths) :
    ∃ source, staged.sources.get path = some source := by
  obtain ⟨-, known⟩ := List.mem_filter.mp member
  obtain ⟨versions, stored⟩ := (Dict.has_iff _ _).mp known
  rw [stagedPythonSources, Dict.get_update_filterMap] at stored
  split at stored
  · rename_i key
    exact (Dict.has_iff _ _).mp (decide_eq_true key)
  · cases stored

/-- Malformed manifests. For all staged changes, all answers of git and all
supplied paths whose staged versions parse, the hook returns normally, with a
rejected manifest reported beside the violations of every file, exactly under the
condition `ManifestUsable`. In particular a rejected manifest with a file to check
always ends the hook with an unassigned variable.

Proof: by `hook_returns_iff`; a rejected manifest leaves no file to report. -/
theorem malformed_manifest_reported_iff (library : Library) (showIndex showHead : Shown)
    (staged : StagedChanges) (filePaths : List Path)
    (parseable : ∀ path ∈ stagedPythonPaths staged filePaths, ∀ source,
      staged.sources.get path = some source → (library.parse source).isSome = true) :
    ManifestReported library showIndex showHead staged (stagedPythonSources staged)
        (stagedPythonPaths staged filePaths) ↔
      ManifestUsable library showIndex showHead staged (stagedPythonSources staged)
        (stagedPythonPaths staged filePaths) := by
  have staged_parseable : StagedParseable library staged (stagedPythonPaths staged filePaths) := by
    intro path member
    obtain ⟨source, stored⟩ := stored_of_stagedPythonPaths staged filePaths path member
    exact ⟨source, stored, parseable path member source stored⟩
  have returns := hook_returns_iff library showIndex showHead staged (stagedPythonSources staged)
    (stagedPythonPaths staged filePaths) staged_parseable
  constructor
  · rintro ⟨violations, returned, -⟩
    exact returns.mp ⟨violations, returned⟩
  · intro usable
    obtain ⟨violations, returned⟩ := returns.mpr usable
    refine ⟨violations, returned, ?_⟩
    intro source seen rejected
    refine ⟨rejected_reported library showIndex showHead staged _ _ source seen rejected
      violations returned, ?_⟩
    intro path member
    rw [usable.accepted source seen rejected] at member
    cases member

/-- The module `utilities/virt.py` and the manifest are staged as new files. -/
def manifestStaged (manifest : Text) : StagedChanges where
  changedPaths := [exceptionsPath, Path.ofText "utilities/virt.py".toList]
  deletedPaths := []
  renamedPaths := []
  renamedAwayPaths := []
  symlinkedPaths := []
  addedLines := ∅
  sources := (Dict.empty.set exceptionsPath manifest).set
    (Path.ofText "utilities/virt.py".toList) importSource
  headSources := ∅
  copiedPaths := []

/-- The library on a manifest that is not TOML. -/
def brokenLibrary : Library :=
  { importLibrary with
    loads := fun _ =>
      .error (.decodeError
        "Expected ']]' at the end of an array declaration (at end of document)".toList) }

/-- A manifest that loads. -/
theorem accepted_manifest_reported :
    ManifestReported importLibrary .missing .missing (manifestStaged importManifest)
      (stagedPythonSources (manifestStaged importManifest))
      (stagedPythonPaths (manifestStaged importManifest)
        [Path.ofText "utilities/virt.py".toList]) := by
  have parses : ∀ source : Text, (importLibrary.parse source).isSome = true := by
    intro source
    simp only [importLibrary]
    split <;> rfl
  have seen : indexedManifest .missing (manifestStaged importManifest)
      (stagedPythonSources (manifestStaged importManifest)) = some importManifest := by
    decide +kernel
  have loaded : loadExceptions importLibrary importManifest = .ok [importRecord] := by
    decide +kernel
  refine (malformed_manifest_reported_iff importLibrary .missing .missing
    (manifestStaged importManifest) [Path.ofText "utilities/virt.py".toList]
    (fun _ _ source _ => parses source)).mpr ?_
  refine ⟨by simp, by simp, ?_, ?_, ?_, fun _ _ _ _ => Or.inr (parses _)⟩
  · intro source same
    rw [seen] at same
    cases same
    rw [loaded]
    simp
  · intro source same _
    have absent : headManifest .missing (manifestStaged importManifest)
        (stagedPythonSources (manifestStaged importManifest)) = none := by
      decide +kernel
    rw [absent]
    simp [loadOptional]
  · rintro source same ⟨message, rejected⟩
    rw [seen] at same
    cases same
    rw [loaded] at rejected
    cases rejected

/-- A manifest that is not TOML and one staged file: the variable is read before
it is assigned. -/
theorem malformed_manifest_crashes :
    loadExceptions brokenLibrary "[[exceptions".toList =
        .error (.manifest (FsText.ofString
          "invalid TOML: Expected ']]' at the end of an array declaration (at end of document)")) ∧
      linterDirectivesViolations brokenLibrary .missing .missing
          (manifestStaged "[[exceptions".toList)
          (stagedPythonSources (manifestStaged "[[exceptions".toList))
          (stagedPythonPaths (manifestStaged "[[exceptions".toList)
            [Path.ofText "utilities/virt.py".toList]) = .error .unboundLocal ∧
      ¬ ManifestReported brokenLibrary .missing .missing (manifestStaged "[[exceptions".toList)
          (stagedPythonSources (manifestStaged "[[exceptions".toList))
          (stagedPythonPaths (manifestStaged "[[exceptions".toList)
            [Path.ofText "utilities/virt.py".toList]) := by
  have crashes : linterDirectivesViolations brokenLibrary .missing .missing
      (manifestStaged "[[exceptions".toList)
      (stagedPythonSources (manifestStaged "[[exceptions".toList))
      (stagedPythonPaths (manifestStaged "[[exceptions".toList)
        [Path.ofText "utilities/virt.py".toList]) = .error .unboundLocal := by
    decide +kernel
  refine ⟨by decide +kernel, crashes, ?_⟩
  rintro ⟨violations, returned, -⟩
  rw [crashes] at returned
  cases returned

end VirtTestTools.Policy
