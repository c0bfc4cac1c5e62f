import VirtTestTools.Suite.Dashboard
import VirtTestTools.Suite.VersionBranches

/-!
# Scans of repositories

The dashboard scans the branches of each repository in one clone, in a directory named by the last
component of the repository's name. A directory that is there already is brought up to date and used
again. A branch is checked out and its tests are counted; a branch that cannot be checked out is left
out, and so is a repository that cannot be cloned. Before a branch is checked out the scan looks for
the tests in the clone as it is, that is in the branch before.
-/

namespace VirtTestTools.Suite

open Text

/-! ## Configuration -/

/-- What a scanner takes from `re`. -/
structure ScannerPatterns where
  digits : Digits
  reasonOf : Text → Text

/-- `DEFAULT_EXCLUDED_FOLDERS`. -/
def defaultExcludedFolders : List Text :=
  ["after_cluster_deploy_sanity".toList, "deprecated_api".toList]

/-- `DEFAULT_FOLDER_MAPPINGS`. -/
def defaultFolderMappings : Dict Text Text :=
  Dict.empty.update
    [("compute".toList, "virt".toList), ("data_protection".toList, "storage".toList),
      ("cross_cluster_live_migration".toList, "storage".toList)]

/-- `REPO_EXCLUDED_FOLDERS`. -/
def repoExcludedFolders : Dict Text (List Text) :=
  Dict.empty.set "RedHatQE/cnv-tests".toList
    ["ansible-module".toList, "ci".toList, "ci_tests".toList, "csv".toList, "security".toList,
      "vmimport".toList]

/-- `REPO_FOLDER_MAPPINGS`. -/
def repoFolderMappings : Dict Text (List (Text × Text)) :=
  Dict.empty.set "RedHatQE/cnv-tests".toList
    [("must-gather".toList, "install_upgrade_operators".toList),
      ("must_gather".toList, "install_upgrade_operators".toList),
      ("product_uninstall".toList, "install_upgrade_operators".toList),
      ("product_upgrade".toList, "install_upgrade_operators".toList)]

/-- `TestScanner(tests_dir, repo)`. -/
def scannerFor (patterns : ScannerPatterns) (repo : Text) : TestScanner where
  excludedFolders := defaultExcludedFolders ++ (repoExcludedFolders.get repo).getD []
  folderMappings := defaultFolderMappings.update ((repoFolderMappings.get repo).getD [])
  digit := patterns.digits.isDigit
  reasonOf := patterns.reasonOf

/-- `REPOS`. -/
def repos : List Text :=
  ["RedHatQE/openshift-virtualization-tests".toList, "RedHatQE/cnv-tests".toList]

/-! ## Clones -/

/-- A clone, as the commands of git find it. A branch without the directory of the tests has no test
files. -/
structure Clone where
  /-- The branch whose tree is in the clone. -/
  head : Text
  /-- What `git branch` prints, unless it fails. -/
  printed : Option Text
  checksOut : Text → Bool
  hasTests : Text → Bool
  files : Text → List (Option TestFile)
  empty : ∀ branch, hasTests branch = false → files branch = []

/-- The repositories that git reaches over the network. -/
structure Remote where
  /-- What `git clone` makes of a repository, unless it fails. -/
  clone : Text → Option Clone
  /-- Whether `git fetch --all --prune` succeeds in a clone, and the clone behind it. -/
  fetch : Clone → Bool × Clone

/-- The name of the directory for a repository: `repo.rsplit("/", maxsplit=1)[-1]`. -/
def repoName (repo : Text) : Text := (repo.reverse.takeWhile (· ≠ '/')).reverse

/-- `clone_or_update_repo`: the clone, unless git fails, and the clones in the working directory
behind it, by the names of their directories. -/
def cloneOrUpdateRepo (remote : Remote) (workdir : Dict Text Clone) (repo : Text) :
    Option Clone × Dict Text Clone :=
  match workdir.get (repoName repo) with
  | some existing =>
    let (success, fetched) := remote.fetch existing
    (if success then some fetched else none, workdir.set (repoName repo) fetched)
  | none =>
    match remote.clone repo with
    | none => (none, workdir)
    | some cloned => (some cloned, workdir.set (repoName repo) cloned)

section Scan

variable (scanner : TestScanner) (clone : Clone)

/-- `scan_branch`, and the branch whose tree is in the clone behind it. -/
def scanBranch (current branch : Text) : Option DashboardStats × Text :=
  if clone.checksOut branch then (some (scanAllTests scanner (clone.files branch)), branch)
  else (none, current)

/-- `scan_repo_branch`. -/
def scanRepoBranch (current branch : Text) : Option DashboardStats × Text :=
  if clone.hasTests current then scanBranch scanner clone current branch else (none, current)

/-- The loop over the branches of a repository, and the branch whose tree is in the clone behind it.
-/
def scanBranches : Text → List Text → List VersionStats × Text
  | current, [] => ([], current)
  | current, branch :: rest =>
    let (stats, next) := scanRepoBranch scanner clone current branch
    let (later, last) := scanBranches next rest
    ((stats.map fun stats => ⟨branch, stats⟩).toList ++ later, last)

/-- The branches up to the first one without tests. -/
def upToMissing : List Text → List Text
  | [] => []
  | branch :: rest => if clone.hasTests branch then branch :: upToMissing rest else [branch]

/-- The branches that are reported: those that can be checked out, up to the first one without
tests, and none if the clone is at such a branch before. -/
def reportedBranches (branches : List Text) : List Text :=
  if clone.hasTests clone.head then upToMissing clone (branches.filter clone.checksOut) else []

/-- Without tests in the clone nothing is checked out any more. -/
theorem scanBranches_missing (current : Text) (branches : List Text)
    (missing : clone.hasTests current = false) :
    (scanBranches scanner clone current branches).1 = [] := by
  induction branches with
  | nil => rfl
  | cons branch rest inductionHypothesis =>
    have idle : scanRepoBranch scanner clone current branch = (none, current) := by
      rw [scanRepoBranch, missing]
      rfl
    rw [scanBranches, idle]
    exact inductionHypothesis

/-- The branches that are reported have the statistics of their own trees.

Proof: by induction on the branches; the tests of a branch are counted when it is checked out. -/
theorem scanBranches_eq (current : Text) (branches : List Text)
    (present : clone.hasTests current = true) :
    (scanBranches scanner clone current branches).1 =
      (upToMissing clone (branches.filter clone.checksOut)).map fun branch =>
        ⟨branch, scanAllTests scanner (clone.files branch)⟩ := by
  induction branches generalizing current with
  | nil => rfl
  | cons branch rest inductionHypothesis =>
    rw [scanBranches, scanRepoBranch, if_pos present, scanBranch]
    by_cases checked : clone.checksOut branch = true
    · rw [if_pos checked, List.filter_cons_of_pos checked, upToMissing]
      cases tests : clone.hasTests branch with
      | true =>
        simp only [↓reduceIte, Option.map_some, Option.toList_some, List.singleton_append,
          List.map_cons, inductionHypothesis branch tests]
      | false =>
        simp only [Bool.false_eq_true, ↓reduceIte, Option.map_some, Option.toList_some,
          List.singleton_append, List.map_cons, List.map_nil,
          scanBranches_missing scanner clone branch rest tests]
    · rw [if_neg checked, List.filter_cons_of_neg checked]
      exact inductionHypothesis current present

end Scan

/-! ## All repositories -/

section Repositories

variable (patterns : ScannerPatterns) (remote : Remote)

/-- The branches to scan; `none` if `git branch` fails. A filter is tried even if it is not valid.
-/
def branchesToScan (branchFilter : Option Text) (clone : Clone) : Option (List Text) :=
  match branchFilter.filter (· ≠ []) with
  | some branch =>
    let valid := if isValidBranch patterns.digits branch then [branch] else []
    some (if valid.isEmpty then [branch] else valid)
  | none => clone.printed.map (getValidBranches patterns.digits)

/-- What is reported of a clone, if anything is, and the branch whose tree is in it afterwards. -/
def scanClone (branchFilter : Option Text) (repo : Text) (clone : Clone) :
    Option (List VersionStats) × Text :=
  match branchesToScan patterns branchFilter clone with
  | none => (none, clone.head)
  | some listed =>
    let branches := filterBranchesForRepo patterns.digits repo listed
    let (repoStats, head) := scanBranches (scannerFor patterns repo) clone clone.head branches
    (if repoStats.isEmpty then none else some repoStats, head)

/-- The body of the loop over the repositories: the entry of a repository, if it has one, and the
working directory behind it. -/
def scanRepository (branchFilter : Option Text) (workdir : Dict Text Clone) (repo : Text) :
    Option (List VersionStats) × Dict Text Clone :=
  match cloneOrUpdateRepo remote workdir repo with
  | (none, workdir) => (none, workdir)
  | (some clone, workdir) =>
    let (repoStats, head) := scanClone patterns branchFilter repo clone
    (repoStats, workdir.set (repoName repo) { clone with head })

/-- The results and the working directory behind a repository. -/
def scanNext (branchFilter : Option Text)
    (state : Dict Text (List VersionStats) × Dict Text Clone) (repo : Text) :
    Dict Text (List VersionStats) × Dict Text Clone :=
  let (repoStats, workdir) := scanRepository patterns remote branchFilter state.2 repo
  (match repoStats with
    | none => state.1
    | some repoStats => state.1.set repo repoStats, workdir)

/-- `scan_all_repos`. -/
def scanAllRepos (branchFilter : Option Text) (workdir : Dict Text Clone)
    (repositories : List Text) : Dict Text (List VersionStats) :=
  (repositories.foldl (scanNext patterns remote branchFilter) (∅, workdir)).1

/-- `run_multi_repo_mode` with `json_output`: the output, unless nothing could be scanned. -/
def runMultiRepoMode (casing : Casing) (workdir : Dict Text Clone) :
    Option (Dict Text (Dict Text VersionData)) :=
  let repoStats := scanAllRepos patterns remote none workdir repos
  if repoStats.items.isEmpty then none else some (generateJsonOutput casing repoStats)

/-! ### One repository -/

/-- Only the directory of a repository is used for it. -/
theorem get_cloneOrUpdateRepo (workdir : Dict Text Clone) (repo other : Text)
    (elsewhere : other ≠ repoName repo) :
    (cloneOrUpdateRepo remote workdir repo).2.get other = workdir.get other := by
  unfold cloneOrUpdateRepo
  split
  · rw [Dict.get_set, if_neg elsewhere]
  · split
    · rfl
    · rw [Dict.get_set, if_neg elsewhere]

/-- The scan of a repository leaves the other directories as they are. -/
theorem get_scanRepository (branchFilter : Option Text) (workdir : Dict Text Clone)
    (repo other : Text) (elsewhere : other ≠ repoName repo) :
    (scanRepository patterns remote branchFilter workdir repo).2.get other = workdir.get other := by
  have cloned := get_cloneOrUpdateRepo remote workdir repo other elsewhere
  unfold scanRepository
  split
  · rename_i failed
    rwa [failed] at cloned
  · rename_i found
    rw [found] at cloned
    exact (Dict.get_set _ _ _ _).trans ((if_neg elsewhere).trans cloned)

/-- The clone of a repository depends on its directory alone. -/
theorem cloneOrUpdateRepo_congr (workdir other : Dict Text Clone) (repo : Text)
    (same : workdir.get (repoName repo) = other.get (repoName repo)) :
    (cloneOrUpdateRepo remote workdir repo).1 = (cloneOrUpdateRepo remote other repo).1 := by
  unfold cloneOrUpdateRepo
  rw [same]
  cases other.get (repoName repo) with
  | some existing => rfl
  | none => cases remote.clone repo <;> rfl

/-- The report of a repository: the branches that are reported with the statistics of their own
trees, or nothing if the repository cannot be cloned or its branches cannot be listed. -/
def reportOf (workdir : Dict Text Clone) (repo : Text) : List VersionStats :=
  match (cloneOrUpdateRepo remote workdir repo).1 with
  | none => []
  | some clone =>
    match clone.printed with
    | none => []
    | some stdout =>
      (reportedBranches clone (filterBranchesForRepo patterns.digits repo
        (getValidBranches patterns.digits stdout))).map fun branch =>
          ⟨branch, scanAllTests (scannerFor patterns repo) (clone.files branch)⟩

/-- A repository has an entry when something is reported of it. -/
theorem scanRepository_eq (workdir : Dict Text Clone) (repo : Text) :
    (scanRepository patterns remote none workdir repo).1 =
      if (reportOf patterns remote workdir repo).isEmpty then none
      else some (reportOf patterns remote workdir repo) := by
  unfold scanRepository reportOf
  rcases cloneOrUpdateRepo remote workdir repo with ⟨_ | clone, behind⟩
  · rfl
  · simp only [scanClone, branchesToScan, Option.filter_none]
    cases clone.printed with
    | none => rfl
    | some stdout =>
      simp only [Option.map_some]
      generalize filterBranchesForRepo patterns.digits repo
        (getValidBranches patterns.digits stdout) = branches
      have scanned : (scanBranches (scannerFor patterns repo) clone clone.head branches).1 =
          (reportedBranches clone branches).map fun branch =>
            ⟨branch, scanAllTests (scannerFor patterns repo) (clone.files branch)⟩ := by
        unfold reportedBranches
        cases present : clone.hasTests clone.head with
        | true => exact scanBranches_eq _ _ _ _ present
        | false => exact scanBranches_missing _ _ _ _ present
      rw [scanned]

/-! ### The loop over the repositories -/

/-- The results of the loop are the reports of the repositories in the working directory before it.

Proof: by induction on the repositories; a repository leaves the directories of the others alone. -/
theorem scanNext_foldl (repositories : List Text) (distinct : (repositories.map repoName).Nodup)
    (initial workdir : Dict Text Clone) (results : Dict Text (List VersionStats))
    (untouched : ∀ repo ∈ repositories,
      workdir.get (repoName repo) = initial.get (repoName repo)) :
    (repositories.foldl (scanNext patterns remote none) (results, workdir)).1 =
      results.update ((repositories.map fun repo =>
        (repo, reportOf patterns remote initial repo)).filter fun entry => !entry.2.isEmpty) := by
  induction repositories generalizing workdir results with
  | nil => rfl
  | cons repo rest inductionHypothesis =>
    obtain ⟨fresh, distinctRest⟩ := List.nodup_cons.mp distinct
    obtain ⟨here, others⟩ := List.forall_mem_cons.mp untouched
    have later : ∀ other ∈ rest,
        (scanRepository patterns remote none workdir repo).2.get (repoName other) =
          initial.get (repoName other) := by
      intro other inside
      rw [get_scanRepository patterns remote none workdir repo (repoName other) fun same =>
        fresh (List.mem_map.mpr ⟨other, inside, same⟩)]
      exact others other inside
    have report : reportOf patterns remote workdir repo = reportOf patterns remote initial repo := by
      unfold reportOf
      rw [cloneOrUpdateRepo_congr remote workdir initial repo here]
    rw [List.foldl_cons, scanNext, inductionHypothesis distinctRest _ _ later, List.map_cons,
      List.filter_cons, scanRepository_eq, report]
    cases (reportOf patterns remote initial repo).isEmpty <;> rfl

/-- A run over all branches of some repositories reports each repository that has a report, if no two
share a directory. What fails in one repository does not matter for the others. -/
theorem scanAllRepos_items (workdir : Dict Text Clone) (repositories : List Text)
    (distinct : (repositories.map repoName).Nodup) :
    (scanAllRepos patterns remote none workdir repositories).items =
      (repositories.map fun repo => (repo, reportOf patterns remote workdir repo)).filter
        fun entry => !entry.2.isEmpty := by
  rw [scanAllRepos, scanNext_foldl patterns remote repositories distinct workdir workdir ∅
    (fun _ _ => rfl), Dict.items_update_of_distinct]
  · rfl
  · have names : (repositories.map fun repo =>
        (repo, reportOf patterns remote workdir repo)).map Prod.fst = repositories := by
      rw [List.map_map]
      exact List.map_id _
    have part : (((repositories.map fun repo =>
        (repo, reportOf patterns remote workdir repo)).filter
          fun entry => !entry.2.isEmpty).map Prod.fst).Sublist
            ((repositories.map fun repo =>
              (repo, reportOf patterns remote workdir repo)).map Prod.fst) :=
      List.filter_sublist.map _
    rw [names] at part
    exact distinct.of_map.sublist part

/-- The output has the repositories of the scan, with the data of each version. -/
theorem items_generateJsonOutput (casing : Casing) (repoStats : Dict Text (List VersionStats)) :
    (generateJsonOutput casing repoStats).items = repoStats.items.map fun item =>
      (item.1, Dict.empty.update (item.2.map fun version =>
        (version.branch, versionData casing version.stats))) := by
  rw [generateJsonOutput, Dict.items_update_of_distinct]
  · rfl
  · rw [List.map_map]
    exact repoStats.distinct

end Repositories

/-! ## Two repositories -/

/-- A repository with two branches of which the first has no tests. -/
def flakyClone : Clone where
  head := mainBranch
  printed := some "  origin/main\n  origin/cnv-4.9\n  origin/cnv-4.18\n".toList
  checksOut _ := true
  hasTests branch := decide (branch = mainBranch)
  files branch := if branch = mainBranch then [some flakyFile] else []
  empty := by
    intro branch missing
    exact if_neg (of_decide_eq_false missing)

/-- One of the repositories can be cloned. -/
def flakyRemote : Remote where
  clone repo := if repo = "RedHatQE/cnv-tests".toList then some flakyClone else none
  fetch existing := (true, existing)

/-- The patterns with ASCII digits. -/
def basicPatterns : ScannerPatterns := ⟨Digits.basic, fun _ => "flaky".toList⟩

/-- The scan of the two repositories, the first of which has been cloned before and is on another
branch. -/
theorem two_repositories_scanned :
    (scanAllRepos basicPatterns flakyRemote none
      (Dict.empty.set "openshift-virtualization-tests".toList
        { flakyClone with head := "cnv-4.18".toList }) repos).items =
      (repos.map fun repo => (repo, reportOf basicPatterns flakyRemote
        (Dict.empty.set "openshift-virtualization-tests".toList
          { flakyClone with head := "cnv-4.18".toList }) repo)).filter fun entry =>
        !entry.2.isEmpty :=
  scanAllRepos_items basicPatterns flakyRemote _ repos (by decide)

end VirtTestTools.Suite
