import VirtTestTools.Counter
import VirtTestTools.Policy.ExceptionManifest
import VirtTestTools.Policy.StagedChanges
import Mathlib.Algebra.Order.BigOperators.Group.List
import Mathlib.Data.Multiset.OrderedMonoid
import Mathlib.Data.Finset.Dedup
import Mathlib.Data.Finset.SDiff
import Mathlib.Data.List.Lex

/-!
# Manifest updates

The second half of `check_linter_directives.py`. A directive occurrence of a
staged file is new if the version in HEAD has no occurrence left to account for
it. `check_manifest_update` matches new occurrences with new records of the
manifest, one for one; `check_linter_directives` matches the new occurrences of
one file with all records.

Both are loops that consume counters. An update is accepted exactly when the new
occurrences and the new records are the same multiset, and then every file of
the update passes.
-/

namespace VirtTestTools.Policy

open Text

/-- The order in which identities are reported. -/
def Identity.codes (identity : Identity) : List (List Nat) :=
  [identity.1.name.map Char.toNat, identity.2.1.codes, identity.2.2.1.map Char.toNat,
    identity.2.2.2.map Char.toNat]

/-- `sorted(identities)`. -/
def sortIdentities (identities : List Identity) : List Identity :=
  identities.mergeSort fun left right => decide (left.codes ≤ right.codes)

/-- The order of paths: by the parts of their texts. -/
def Path.codes (path : Path) : List (List Nat) :=
  (path.asPosix.splitOn Path.slash).map FsText.codes

section Library

variable (library : Library)

/-- The directives of a file in the index and in HEAD, where a missing version
has none. -/
def bothDirectives (indexedSource : Text) (headSource : Option Text) :
    Except HookError (List Directive × List Directive) := do
  let indexed ← directives library indexedSource
  let head ← directives library (headSource.getD [])
  return (indexed, head)

/-- `_new_directive_identities`. -/
def newDirectiveIdentities (filePath : Path) (indexedSource : Text) (headSource : Option Text) :
    Except HookError (List Identity) := do
  let (indexed, head) ← bothDirectives library indexedSource headSource
  return sortIdentities ((Counter.unmatched Directive.identity
    (Counter.ofList (head.map Directive.identity)) indexed).map (·.identityAt filePath))

/-- A dictionary of staged Python sources, each with its version in HEAD. -/
abbrev StagedSources := Dict Path (Text × Option Text)

/-- The new occurrences of all staged files. A file that does not parse or whose
directives are invalid is skipped. -/
def stagedDirectives (stagedSources : StagedSources) : Counter Identity :=
  stagedSources.items.foldl (fun counter item =>
    match newDirectiveIdentities library item.1 item.2.1 item.2.2 with
    | .ok identities => counter.addAll identities
    | .error _ => counter) ∅

/-- The records of a manifest that may be missing. -/
def loadOptional : Option Text → Except HookError (List DirectiveException)
  | none => .ok []
  | some source => loadExceptions library source

/-- The records of both manifests. -/
def loadManifests (indexedSource : Text) (headSource : Option Text) :
    Except HookError (List DirectiveException × List DirectiveException) := do
  let indexed ← loadExceptions library indexedSource
  let head ← loadOptional library headSource
  return (indexed, head)

/-- A violation of the manifest itself. -/
def manifestViolation (filePath : Path) (message : FsText) : PolicyViolation where
  filePath := filePath
  lineNumber := none
  message := FsText.ofString "linter-directives: " ++ message

/-- Whether the update changes the approval of a record that HEAD has. -/
def editsApproval (indexed : List DirectiveException) (old : DirectiveException) : Bool :=
  match indexed.find? (fun record => decide (record.identity = old.identity)) with
  | none => false
  | some record => decide ((record.reason, record.approvalUrl) ≠ (old.reason, old.approvalUrl))

/-- `sorted(indexed_by_identity.keys() - head_identities)`. -/
def newRecordIdentities (indexed head : List DirectiveException) : List Identity :=
  sortIdentities ((indexed.map DirectiveException.identity).filter fun identity =>
    decide (identity ∉ head.map DirectiveException.identity))

/-- A path and a directive at the end of a message. -/
def describeIdentity (identity : Identity) : FsText :=
  identity.2.1 ++ FsText.ofString " " ++ library.repr (FsText.ofText identity.2.2.1)

/-- The violations for the records that match no new occurrence. -/
def orphanViolations (filePath : Path) (staged : Counter Identity) (records : List Identity) :
    List PolicyViolation :=
  (Counter.unmatched id staged records).map fun identity =>
    manifestViolation filePath (FsText.ofString ("each new exception record must match one newly " ++
      "staged suppression directive occurrence in the same index snapshot: ") ++
      describeIdentity library identity)

/-- The violations for the new occurrences that match no record. -/
def unrecordedViolations (filePath : Path) (indexed : List DirectiveException)
    (remaining : Counter Identity) : List PolicyViolation :=
  (remaining.items.mergeSort fun left right => decide (left.1.codes ≤ right.1.codes)).flatMap
    fun item =>
      let guidance :=
        if item.1 ∈ indexed.map DirectiveException.identity then
          "additional identical suppression occurrences cannot be authorized because duplicate " ++
            "exception records are forbidden; remove the additional suppression"
        else "add one new exact exception record for this newly staged suppression"
      List.replicate item.2 (manifestViolation filePath (FsText.ofString guidance ++
        FsText.ofString ": " ++ describeIdentity library item.1))

/-- The violations for records of paths that were renamed away. -/
def retainedViolations (filePath : Path) (indexed : List DirectiveException)
    (renamedAwayPaths : List Path) : List PolicyViolation :=
  let retained := ((indexed.map fun record => Path.ofText record.path).dedup).filter
    fun path => decide (path ∈ renamedAwayPaths)
  (retained.mergeSort fun left right => decide (left.codes ≤ right.codes)).map fun path =>
    manifestViolation filePath (FsText.ofString
      "this path was renamed; remove the obsolete exception record for " ++ path.asPosix)

/-- `check_manifest_update` for manifests that load. -/
def manifestViolations (filePath : Path) (stagedSources : StagedSources)
    (renamedAwayPaths : List Path) (indexed head : List DirectiveException) :
    List PolicyViolation :=
  if head.any (editsApproval indexed) then
    [manifestViolation filePath (FsText.ofString
      ("do not modify existing reason/approval_url fields; " ++
        "add a separately reviewed exception record"))]
  else
    let staged := stagedDirectives library stagedSources
    let records := newRecordIdentities indexed head
    orphanViolations library filePath staged records ++
      unrecordedViolations library filePath indexed (Counter.leftOver id staged records) ++
      retainedViolations filePath indexed renamedAwayPaths

/-- `check_manifest_update`. -/
def checkManifestUpdate (indexedSource : Text) (headSource : Option Text) (filePath : Path)
    (stagedSources : StagedSources) (renamedAwayPaths : List Path) :
    Except HookError (List PolicyViolation) :=
  match loadManifests library indexedSource headSource with
  | .error (.manifest message) =>
    .ok [manifestViolation filePath (FsText.ofString "fix malformed exception manifest: " ++
      message)]
  | .error error => .error error
  | .ok (indexed, head) =>
    .ok (manifestViolations library filePath stagedSources renamedAwayPaths indexed head)

/-- The loop of `check_linter_directives`: the directives that neither HEAD nor a
record accounts for. -/
def unapproved (filePath : Path) :
    Counter (Rule × Text × Text) → Counter Identity → List Directive → List Directive
  | _, _, [] => []
  | head, allowed, directive :: rest =>
    if head.count directive.identity ≠ 0 then
      unapproved filePath (head.take directive.identity) allowed rest
    else if allowed.count (directive.identityAt filePath) ≠ 0 then
      unapproved filePath head (allowed.take (directive.identityAt filePath)) rest
    else directive :: unapproved filePath head allowed rest

/-- The violation for a directive without approval. -/
def unapprovedViolation (filePath : Path) (directive : Directive) : PolicyViolation where
  filePath := filePath
  lineNumber := some directive.lineNumber
  message := FsText.ofString "linter-directives/" ++ FsText.ofText directive.rule.name ++
    FsText.ofString ": remove " ++ library.repr (FsText.ofText directive.text) ++
    FsText.ofString " or add an exact, reviewed exceptions.toml record"

/-- `check_linter_directives`. -/
def checkLinterDirectives (filePath : Path) (indexedSource : Text) (headSource : Option Text)
    (exceptions : List DirectiveException) : Except HookError (List PolicyViolation) :=
  match bothDirectives library indexedSource headSource with
  | .error (.invalidDirective lineNumber directive) =>
    .ok [{ filePath := filePath
           lineNumber := some lineNumber
           message := FsText.ofString ("linter-directives: line " ++ toString lineNumber ++
             " must contain exactly one supported suppression: ") ++
             library.repr (FsText.ofText directive) }]
  | .error error => .error error
  | .ok (indexed, head) =>
    .ok ((unapproved filePath (Counter.ofList (head.map Directive.identity))
      (Counter.ofList (exceptions.map DirectiveException.identity)) indexed).map
        (unapprovedViolation library filePath))

end Library

/-- The loop over two counters is a loop over the first, followed by one over the
second. -/
theorem unapproved_eq (filePath : Path) (head : Counter (Rule × Text × Text))
    (allowed : Counter Identity) (indexed : List Directive) :
    unapproved filePath head allowed indexed =
      Counter.unmatched (·.identityAt filePath) allowed
        (Counter.unmatched Directive.identity head indexed) := by
  induction indexed generalizing head allowed with
  | nil => rfl
  | cons directive rest inductionHypothesis =>
    simp only [unapproved, Counter.unmatched]
    split
    · exact inductionHypothesis _ _
    · rw [Counter.unmatched]
      split
      · exact inductionHypothesis _ _
      · rw [inductionHypothesis]

/-- Binding a directive to a file keeps identities apart. -/
theorem identityAt_injective (filePath : Path) :
    Function.Injective fun identity : Rule × Text × Text =>
      ((identity.1, filePath.asPosix, identity.2.1, identity.2.2) : Identity) := by
  rintro ⟨leftRule, leftText, leftPrint⟩ ⟨rightRule, rightText, rightPrint⟩ same
  simp only [Prod.mk.injEq, true_and] at same
  obtain ⟨rfl, rfl, rfl⟩ := same
  rfl

/-- The directive occurrences of a version of a file, as a multiset. -/
def occurrences (library : Library) (filePath : Path) (source : Text) : Multiset Identity :=
  match directives library source with
  | .ok found => (found.map (·.identityAt filePath) : List Identity)
  | .error _ => 0

/-- The newly introduced occurrences: for each file those of the index minus those
of HEAD. -/
def newOccurrences (library : Library) (stagedSources : StagedSources) : Multiset Identity :=
  (stagedSources.items.map fun item =>
    occurrences library item.1 item.2.1 - occurrences library item.1 (item.2.2.getD [])).sum

/-- The identities of the records that the index has and HEAD has not. -/
def newRecords (indexed head : List DirectiveException) : Finset Identity :=
  (indexed.map DirectiveException.identity).toFinset \
    (head.map DirectiveException.identity).toFinset

/-- Both versions of a staged file parse, and each of their comments has at most
one suppression. -/
def WellFormed (library : Library) (versions : Text × Option Text) : Prop :=
  ∃ indexed head, bothDirectives library versions.1 versions.2 = .ok (indexed, head)

section Counting

variable (library : Library)

/-- The directives of both versions are those of each. -/
theorem directives_of_bothDirectives (indexedSource : Text) (headSource : Option Text)
    (indexed head : List Directive)
    (found : bothDirectives library indexedSource headSource = .ok (indexed, head)) :
    directives library indexedSource = .ok indexed ∧
      directives library (headSource.getD []) = .ok head := by
  obtain ⟨first, inIndex, rest⟩ := (Outcome.bind_eq_ok _ _ _).mp found
  obtain ⟨second, inHead, same⟩ := (Outcome.bind_eq_ok _ _ _).mp rest
  cases same
  exact ⟨inIndex, inHead⟩

/-- The occurrences that HEAD does not account for are a difference of
multisets. -/
theorem unmatched_head (filePath : Path) (versions : Text × Option Text)
    (indexed head : List Directive)
    (found : bothDirectives library versions.1 versions.2 = .ok (indexed, head)) :
    (((Counter.unmatched Directive.identity (Counter.ofList (head.map Directive.identity))
      indexed).map (·.identityAt filePath) : List Identity) : Multiset Identity) =
      occurrences library filePath versions.1 -
        occurrences library filePath (versions.2.getD []) := by
  obtain ⟨inIndex, inHead⟩ := directives_of_bothDirectives library _ _ indexed head found
  have renamed := Counter.unmatched_embed Directive.identity _ (identityAt_injective filePath)
    (Counter.ofList (head.map Directive.identity))
    (Counter.ofList (head.map (·.identityAt filePath)))
    (by
      intro wanted
      have embedded : head.map (·.identityAt filePath) =
          (head.map Directive.identity).map fun identity : Rule × Text × Text =>
            ((identity.1, filePath.asPosix, identity.2.1, identity.2.2) : Identity) := by
        rw [List.map_map]
        rfl
      rw [Counter.count_ofList, Counter.count_ofList, embedded, ← Multiset.map_coe,
        Multiset.count_map_eq_count' _ _ (identityAt_injective filePath)])
    indexed
  rw [← renamed, occurrences, inIndex, occurrences, inHead]
  exact Counter.map_unmatched (fun directive => directive.identityAt filePath)
    (head.map (·.identityAt filePath)) indexed

/-- Sorted identities are the same ones. -/
theorem sortIdentities_perm (identities : List Identity) :
    (sortIdentities identities).Perm identities :=
  List.mergeSort_perm _ _

/-- The counter of new occurrences has their multiplicities. -/
theorem count_stagedDirectives (stagedSources : StagedSources)
    (wellFormed : ∀ item ∈ stagedSources.items, WellFormed library item.2)
    (identity : Identity) :
    (stagedDirectives library stagedSources).count identity =
      (newOccurrences library stagedSources).count identity := by
  have run : ∀ (items : List (Path × Text × Option Text)) (counter : Counter Identity),
      (∀ item ∈ items, WellFormed library item.2) →
        (items.foldl (fun counter item =>
          match newDirectiveIdentities library item.1 item.2.1 item.2.2 with
          | .ok identities => counter.addAll identities
          | .error _ => counter) counter).count identity =
        counter.count identity + ((items.map fun item =>
          occurrences library item.1 item.2.1 -
            occurrences library item.1 (item.2.2.getD [])).sum).count identity := by
    intro items
    induction items with
    | nil => simp
    | cons item rest inductionHypothesis =>
      intro counter allFormed
      rw [List.forall_mem_cons] at allFormed
      obtain ⟨indexed, head, found⟩ := allFormed.1
      have identities : newDirectiveIdentities library item.1 item.2.1 item.2.2 =
          .ok (sortIdentities ((Counter.unmatched Directive.identity
            (Counter.ofList (head.map Directive.identity)) indexed).map
              (·.identityAt item.1))) := by
        rw [newDirectiveIdentities, found]
        rfl
      rw [List.foldl_cons, inductionHypothesis _ allFormed.2, identities]
      simp only [Counter.count_addAll, List.map_cons, List.sum_cons, Multiset.count_add]
      rw [Multiset.coe_eq_coe.mpr (sortIdentities_perm _),
        unmatched_head library item.1 item.2 indexed head found]
      omega
  rw [stagedDirectives, run stagedSources.items ∅ wellFormed]
  exact Nat.zero_add _

end Counting

/-- The new records of an accepted manifest are listed once each. -/
theorem coe_newRecordIdentities (indexed head : List DirectiveException)
    (distinct : (indexed.map DirectiveException.identity).Nodup) :
    (newRecordIdentities indexed head : Multiset Identity) = (newRecords indexed head).val := by
  have sorted := (sortIdentities_perm ((indexed.map DirectiveException.identity).filter
    fun identity => decide (identity ∉ head.map DirectiveException.identity)))
  have nodup : (newRecordIdentities indexed head).Nodup :=
    sorted.nodup_iff.mpr (distinct.filter _)
  rw [← Multiset.coe_nodup] at nodup
  refine (Multiset.Nodup.ext nodup (newRecords indexed head).nodup).mpr ?_
  intro identity
  simp only [newRecordIdentities, Multiset.mem_coe, sorted.mem_iff, newRecords, Finset.mem_val,
    Finset.mem_sdiff, List.mem_toFinset, List.mem_filter, decide_eq_true_eq]

/-- Nothing is left over exactly when the counter is zero everywhere. -/
theorem unrecordedViolations_eq_nil (library : Library) (filePath : Path)
    (indexed : List DirectiveException) (remaining : Counter Identity) :
    unrecordedViolations library filePath indexed remaining = [] ↔
      ∀ identity, remaining.count identity = 0 := by
  simp only [unrecordedViolations, List.flatMap_eq_nil_iff, List.mem_mergeSort,
    List.replicate_eq_nil_iff]
  constructor
  · intro zero identity
    unfold Counter.count
    cases stored : remaining.get identity with
    | none => rfl
    | some occurrences => exact zero (identity, occurrences) ((Dict.get_eq_some_iff _ _ _).mp stored)
  · rintro zero ⟨identity, occurrences⟩ member
    have stored := (Dict.get_eq_some_iff remaining identity occurrences).mpr member
    have none_left := zero identity
    rw [Counter.count, stored] at none_left
    exact none_left

section Acceptance

variable (library : Library) (indexedSource : Text) (headSource : Option Text) (filePath : Path)
  (stagedSources : StagedSources) (renamedAwayPaths : List Path)
  (indexed head : List DirectiveException)

/-- No identity comes twice in a loaded manifest. -/
theorem nodup_of_loadManifests
    (loaded : loadManifests library indexedSource headSource = .ok (indexed, head)) :
    (indexed.map DirectiveException.identity).Nodup := by
  obtain ⟨records, first, rest⟩ := (Outcome.bind_eq_ok _ _ _).mp loaded
  obtain ⟨headRecords, -, same⟩ := (Outcome.bind_eq_ok _ _ _).mp rest
  cases same
  exact nodup_of_loadExceptions library indexedSource indexed first

/-- Nothing edits an approval if equal identities have equal approvals. -/
theorem editsApproval_eq_false (old : DirectiveException)
    (unedited : ∀ new ∈ indexed, new.identity = old.identity →
      (new.reason, new.approvalUrl) = (old.reason, old.approvalUrl)) :
    editsApproval indexed old = false := by
  unfold editsApproval
  split
  · rfl
  · rename_i record found
    have same := List.find?_some found
    rw [decide_eq_true_eq] at same
    simp [unedited record (List.mem_of_find?_eq_some found) same]

/-- Nothing is reported when no record names a path that is renamed away. -/
theorem retainedViolations_eq_nil
    (unrenamed : ∀ record ∈ indexed, Path.ofText record.path ∉ renamedAwayPaths) :
    retainedViolations filePath indexed renamedAwayPaths = [] := by
  have none_retained : ((indexed.map fun record => Path.ofText record.path).dedup).filter
      (fun path => decide (path ∈ renamedAwayPaths)) = [] := by
    rw [List.filter_eq_nil_iff]
    intro path member retained
    obtain ⟨record, listed, rfl⟩ := List.mem_map.mp (List.mem_dedup.mp member)
    exact unrenamed record listed (of_decide_eq_true retained)
  simp [retainedViolations, none_retained]

/-- The three parts of the report are empty exactly when records and occurrences
have the same multiplicities. -/
theorem manifestViolations_eq_nil_iff
    (distinct : (indexed.map DirectiveException.identity).Nodup)
    (wellFormed : ∀ item ∈ stagedSources.items, WellFormed library item.2)
    (unedited : ∀ old ∈ head, ∀ new ∈ indexed, new.identity = old.identity →
      (new.reason, new.approvalUrl) = (old.reason, old.approvalUrl))
    (unrenamed : ∀ record ∈ indexed, Path.ofText record.path ∉ renamedAwayPaths) :
    manifestViolations library filePath stagedSources renamedAwayPaths indexed head = [] ↔
      newOccurrences library stagedSources = (newRecords indexed head).val := by
  have kept : head.any (editsApproval indexed) = false := by
    rw [List.any_eq_false]
    intro old member
    rw [editsApproval_eq_false indexed old (unedited old member)]
    decide
  have counts := count_stagedDirectives library stagedSources wellFormed
  simp only [manifestViolations, kept, Bool.false_eq_true, ↓reduceIte, List.append_eq_nil_iff,
    retainedViolations_eq_nil filePath renamedAwayPaths indexed unrenamed, and_true,
    unrecordedViolations_eq_nil, orphanViolations, List.map_eq_nil_iff,
    Counter.unmatched_eq_nil_iff, Counter.count_leftOver, List.map_id, counts,
    coe_newRecordIdentities indexed head distinct, Multiset.ext]
  constructor
  · rintro ⟨covered, exhausted⟩ identity
    have upper := covered identity
    have lower := exhausted identity
    omega
  · intro same
    refine ⟨fun identity => (same identity).ge, ?_⟩
    intro identity
    rw [same identity]
    omega

/-- A file of an accepted update passes.

Proof: its new occurrences are among all new occurrences, hence among the new
records and so among the records that the loop consumes. -/
theorem checkLinterDirectives_eq_nil
    (wellFormed : ∀ item ∈ stagedSources.items, WellFormed library item.2)
    (matched : newOccurrences library stagedSources = (newRecords indexed head).val)
    (item : Path × Text × Option Text) (member : item ∈ stagedSources.items) :
    checkLinterDirectives library item.1 item.2.1 item.2.2 indexed = .ok [] := by
  obtain ⟨inIndex, inHead, found⟩ := wellFormed item member
  have single : occurrences library item.1 item.2.1 -
      occurrences library item.1 (item.2.2.getD []) ≤ newOccurrences library stagedSources :=
    List.le_sum_of_mem (List.mem_map_of_mem member)
  have recorded : (newRecords indexed head).val ≤
      (indexed.map DirectiveException.identity : Multiset Identity) := by
    rw [Multiset.le_iff_subset (newRecords indexed head).nodup]
    intro identity new
    have listed := (Finset.mem_sdiff.mp (Finset.mem_val.mp new)).1
    exact List.mem_toFinset.mp listed
  have covered := (single.trans matched.le).trans recorded
  rw [← unmatched_head library item.1 item.2 inIndex inHead found] at covered
  have passed : unapproved item.1 (Counter.ofList (inHead.map Directive.identity))
      (Counter.ofList (indexed.map DirectiveException.identity)) inIndex = [] := by
    rw [unapproved_eq, Counter.unmatched_eq_nil_iff]
    intro identity
    rw [Counter.count_ofList]
    exact Multiset.count_le_of_le identity covered
  simp only [checkLinterDirectives, found, passed, List.map_nil]

/-- Manifest acceptance is a bijection. Let both manifests load and every staged
file be well formed, let no record of HEAD be edited and no record name a path
that was renamed away. Then an update is accepted exactly when the multiset of
newly introduced directive occurrences is the set of the new records; and every
file of an accepted update passes with the loaded records.

Proof: what the loops let through and leave over are differences of multisets, by
the rules for counters. -/
theorem manifest_accepted_iff
    (loaded : loadManifests library indexedSource headSource = .ok (indexed, head))
    (wellFormed : ∀ item ∈ stagedSources.items, WellFormed library item.2)
    (unedited : ∀ old ∈ head, ∀ new ∈ indexed, new.identity = old.identity →
      (new.reason, new.approvalUrl) = (old.reason, old.approvalUrl))
    (unrenamed : ∀ record ∈ indexed, Path.ofText record.path ∉ renamedAwayPaths) :
    (checkManifestUpdate library indexedSource headSource filePath stagedSources
        renamedAwayPaths = .ok [] ↔
      newOccurrences library stagedSources = (newRecords indexed head).val) ∧
    (checkManifestUpdate library indexedSource headSource filePath stagedSources
        renamedAwayPaths = .ok [] →
      ∀ item ∈ stagedSources.items,
        checkLinterDirectives library item.1 item.2.1 item.2.2 indexed = .ok []) := by
  have distinct := nodup_of_loadManifests library indexedSource headSource indexed head loaded
  have accepted : checkManifestUpdate library indexedSource headSource filePath stagedSources
      renamedAwayPaths = .ok [] ↔
      newOccurrences library stagedSources = (newRecords indexed head).val := by
    rw [checkManifestUpdate, loaded]
    simp only [Except.ok.injEq]
    exact manifestViolations_eq_nil_iff library filePath stagedSources renamedAwayPaths indexed
      head distinct wellFormed unedited unrenamed
  refine ⟨accepted, ?_⟩
  intro passed item member
  exact checkLinterDirectives_eq_nil library stagedSources indexed head wellFormed
    (accepted.mp passed) item member

end Acceptance

/-- A module with one import that is suppressed. -/
def importSource : Text := unlines ["import os  # noqa: F401"]

/-- A manifest with the record that allows it in `utilities/virt.py`. -/
def importManifest : Text :=
  unlines ["[[exceptions]]", "rule = \"noqa\"", "path = \"utilities/virt.py\"",
    "directive = \"# noqa: F401\"", "source_fingerprint = \"sha256:" ++
      "f5620be012f9cfe8ad603cae1c93b65e1faa51da94649077eb377549736193fd\"",
    "reason = \"Used by a plugin\"", "approval_url = \"https://example.invalid/1\""]

/-- The hexadecimal digest of the directive and its statement. -/
def importDigest : Text :=
  "f5620be012f9cfe8ad603cae1c93b65e1faa51da94649077eb377549736193fd".toList

/-- The library, as it answers for these two texts and for the empty one. -/
def importLibrary : Library where
  unicode := ascii
  parse source :=
    if source.isEmpty then some ⟨[], []⟩
    else
      some ⟨[⟨1, some 1, 0, "Import(names=[alias(name='os')])".toList⟩],
        [⟨1, "# noqa: F401".toList⟩]⟩
  loads _ := .ok [("exceptions".toList, .array [.table
    [("rule".toList, .string "noqa".toList), ("path".toList, .string "utilities/virt.py".toList),
      ("directive".toList, .string "# noqa: F401".toList),
      ("source_fingerprint".toList, .string ("sha256:".toList ++ importDigest)),
      ("reason".toList, .string "Used by a plugin".toList),
      ("approval_url".toList, .string "https://example.invalid/1".toList)]])]
  urlparse _ := some ("https".toList, "example.invalid".toList)
  hexdigest _ := importDigest
  repr text := FsText.ofString "'" ++ text ++ FsText.ofString "'"

/-- The record of the manifest. -/
def importRecord : DirectiveException where
  rule := .noqa
  path := "utilities/virt.py".toList
  directive := "# noqa: F401".toList
  sourceFingerprint := "sha256:".toList ++ importDigest
  reason := "Used by a plugin".toList
  approvalUrl := "https://example.invalid/1".toList

/-- The module is staged as a new file. -/
def importStaged : StagedSources :=
  Dict.empty.set (Path.ofText "utilities/virt.py".toList) (importSource, none)

set_option maxRecDepth 4000 in
/-- One new directive and one new record. -/
theorem recorded_directive_accepted :
    checkManifestUpdate importLibrary importManifest none exceptionsPath importStaged [] = .ok [] ∧
      checkLinterDirectives importLibrary (Path.ofText "utilities/virt.py".toList) importSource none
        [importRecord] = .ok [] := by
  have loaded : loadManifests importLibrary importManifest none = .ok ([importRecord], []) := rfl
  have wellFormed : ∀ item ∈ importStaged.items, WellFormed importLibrary item.2 := by
    intro item member
    rw [List.mem_singleton.mp member]
    exact ⟨_, _, rfl⟩
  have accepted := manifest_accepted_iff importLibrary importManifest none exceptionsPath
    importStaged [] [importRecord] [] loaded wellFormed (by simp) (by simp)
  have passed := accepted.1.mpr rfl
  exact ⟨passed, accepted.2 passed _ (List.mem_singleton.mpr rfl)⟩

end VirtTestTools.Policy
