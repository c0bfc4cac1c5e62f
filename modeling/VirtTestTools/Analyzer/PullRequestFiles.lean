import VirtTestTools.Dict
import VirtTestTools.Pages
import VirtTestTools.Text

/-!
# The files of a pull request

`get_pr_changed_files`, `get_pr_file_diff` and `_prefetch_pr_diffs` ask the GitHub API for
the files of a pull request page by page. The three loops differ in what they collect, when
they stop early and what they do about errors. The API is a function from requests to
responses; each loop runs until a page is short.

When the API serves a list of files with distinct names in consecutive pages, the loops
end and agree on names, statuses and patches, unless a response announces that it is
larger than the analyzer accepts.
-/

namespace VirtTestTools.Analyzer

open Text Recursions

/-! ## Requests and responses -/

/-- What is read of a file of the response. -/
structure PrFile where
  filename : Text
  status : Option Text := none
  patch : Option Text := none

/-- A request to the API. -/
structure Request where
  url : Text
  headers : List (Text × Text)

/-- How a request ends. A response may announce its length; its body is decoded to a list
of files, or it is no JSON. -/
inductive Response
  | files (contentLength : Option Nat) (data : List PrFile)
  | notJson (contentLength : Option Nat) (message : Text)
  | httpError (code : Nat) (reason : Text) (body : Option Text)
  | urlError (message : Text)
  | osError (message : Text)

/-- The server. -/
abbrev Api := Request → Response

/-- The exceptions that reach the caller. -/
inductive ApiError
  | valueError (message : Text)
  | runtimeError (message : Text)
  | osError (message : Text)
deriving DecidableEq

/-- `GITHUB_API_MAX_PER_PAGE`. -/
def githubApiMaxPerPage : Nat := 100

/-- `MAX_RESPONSE_SIZE`. -/
def maxResponseSize : Nat := 10 * 1024 * 1024

/-- `MAX_FILES_PER_PR`. -/
def maxFilesPerPr : Nat := 10000

/-- `[a-zA-Z0-9][a-zA-Z0-9._-]*`. -/
def isRepoPart : Text → Bool
  | [] => false
  | first :: rest => first.isAlphanum &&
      rest.all fun character => character.isAlphanum || ['.', '_', '-'].contains character

/-- The pattern of `validate_repo_name`. Its end also matches before a last newline. -/
def matchesRepo (repo : Text) : Bool :=
  let owner := repo.takeWhile (· ≠ '/')
  let name := (repo.dropWhile (· ≠ '/')).drop 1
  isRepoPart owner && (isRepoPart name || (name.getLast? = some '\n' && isRepoPart name.dropLast))

/-- `dangerous_chars`. -/
def dangerousChars : List Char := "`$|&;\n\r\\\"'<>()".toList

/-- `validate_repo_name`. -/
def validateRepoName (repo : Text) : Except ApiError Unit :=
  if repo.count '/' ≠ 1 then
    .error (.valueError
      ("Invalid repo format: ".toList ++ repo ++ ". Expected 'owner/repo'".toList))
  else if !matchesRepo repo then
    .error (.valueError
      ("Invalid repo format: ".toList ++ repo ++ ". Contains invalid characters".toList))
  else if dangerousChars.any (fun character => decide (character ∈ repo)) then
    .error (.valueError ("Invalid characters in repo name: ".toList ++ repo))
  else .ok ()

/-- The checks of the arguments. -/
def validateRequest (repo : Text) (prNumber : Int) : Except ApiError Unit :=
  match validateRepoName repo with
  | .error error => .error error
  | .ok () =>
    if prNumber ≤ 0 then
      .error (.valueError ("Invalid PR number: ".toList ++ (toString prNumber).toList ++
        ". Must be positive integer".toList))
    else .ok ()

/-- The URL of a page of files. -/
def pageUrl (repo : Text) (prNumber : Int) (page : Nat) : Text :=
  "https://api.github.com/repos/".toList ++ repo ++ "/pulls/".toList ++
    (toString prNumber).toList ++ "/files?per_page=".toList ++ decimal githubApiMaxPerPage ++
    "&page=".toList ++ decimal page

/-- The headers of a request; an empty token counts as none. -/
def requestHeaders (token : Option Text) : List (Text × Text) :=
  [("Accept".toList, "application/vnd.github.v3+json".toList),
    ("User-Agent".toList, "pytest-marker-analyzer".toList)] ++
    match token with
    | none | some [] => []
    | some token => [("Authorization".toList, "token ".toList ++ token)]

/-- `_handle_github_api_error`, which raises in all cases. A body that cannot be read counts
as empty. -/
def handleGithubApiError (code : Nat) (reason : Text) (body : Option Text) (context : Text) :
    ApiError :=
  let errorBody := body.getD []
  .runtimeError <|
    if code = 401 then
      ("GitHub API authentication failed. Please provide a valid token via " ++
        "--github-token or GITHUB_TOKEN environment variable").toList
    else if code = 403 then
      if contains "rate limit".toList (errorBody.map Char.toLower) then
        ("GitHub API rate limit exceeded. Please provide authentication token via " ++
          "--github-token or GITHUB_TOKEN environment variable to increase rate limits").toList
      else "GitHub API forbidden (403): ".toList ++ errorBody
    else if code = 404 then context ++ " not found (404): ".toList ++ errorBody
    else "GitHub API error: ".toList ++ decimal code ++ ' ' :: reason ++ '\n' :: errorBody

/-- Whether a response announces more than `MAX_RESPONSE_SIZE` bytes. -/
def tooLarge (contentLength : Option Nat) : Bool := contentLength.any (maxResponseSize < ·)

/-- The message about such a response. -/
def tooLargeMessage (contentLength : Option Nat) : Text :=
  "Response too large: ".toList ++ decimal (contentLength.getD 0) ++ " bytes".toList

/-! ## The loops -/

section

variable (api : Api) (repo : Text) (prNumber : Int) (token : Option Text)

/-- The response to the request for a page. -/
def respond (page : Nat) : Response := api ⟨pageUrl repo prNumber page, requestHeaders token⟩

/-- The variables of the loop of `get_pr_changed_files`. -/
structure ChangedFilesScan where
  files : List Text := []
  page : Nat := 1

/-- A turn of `get_pr_changed_files`. -/
def changedFilesTurn (scan : ChangedFilesScan) :
    Turn ChangedFilesScan (Except ApiError (List Text)) :=
  let refused (contentLength : Option Nat) : Turn ChangedFilesScan (Except ApiError (List Text)) :=
    .leave (.error (.runtimeError (tooLargeMessage contentLength ++ " (max: ".toList ++
      decimal maxResponseSize ++ ")".toList)))
  match respond api repo prNumber token scan.page with
  | .files contentLength data =>
    if tooLarge contentLength then refused contentLength
    else
      let pageFiles := data.map PrFile.filename
      let files := scan.files ++ pageFiles
      if files.length ≥ maxFilesPerPr then .leave (.ok files)
      else if pageFiles.length < githubApiMaxPerPage then .leave (.ok files)
      else .again ⟨files, scan.page + 1⟩
  | .notJson contentLength message =>
    if tooLarge contentLength then refused contentLength
    else .leave (.error (.runtimeError ("Failed to parse GitHub API response: ".toList ++ message)))
  | .httpError code reason body =>
    let context := "PR ".toList ++ repo ++ '#' :: (toString prNumber).toList ++ " files".toList
    .leave (.error (handleGithubApiError code reason body context))
  | .urlError message =>
    .leave (.error (.runtimeError ("Failed to connect to GitHub API: ".toList ++ message)))
  | .osError message => .leave (.error (.osError message))

/-- `get_pr_changed_files`. -/
def getPrChangedFiles (bound : Nat) : Option (Except ApiError (List Text)) :=
  match validateRequest repo prNumber with
  | .error error => some (.error error)
  | .ok () => loop (changedFilesTurn api repo prNumber token) bound {}

/-- A turn of `get_pr_file_diff`, which changes the number of the page only. -/
def fileDiffTurn (filePath : Text) (page : Nat) : Turn Nat (Except ApiError Text) :=
  match respond api repo prNumber token page with
  | .files contentLength files =>
    if tooLarge contentLength then .leave (.error (.runtimeError (tooLargeMessage contentLength)))
    else
      match files.find? (·.filename = filePath) with
      | some file => .leave (.ok (file.patch.getD []))
      | none => if files.length < githubApiMaxPerPage then .leave (.ok []) else .again (page + 1)
  | .notJson contentLength _ =>
    if tooLarge contentLength then .leave (.error (.runtimeError (tooLargeMessage contentLength)))
    else .leave (.ok [])
  | .httpError .. | .urlError _ | .osError _ => .leave (.ok [])

/-- `get_pr_file_diff`. -/
def getPrFileDiff (filePath : Text) (bound : Nat) : Option (Except ApiError Text) :=
  match validateRequest repo prNumber with
  | .error error => some (.error error)
  | .ok () => loop (fileDiffTurn api repo prNumber token filePath) bound 1

/-- What `_prefetch_pr_diffs` collects. -/
structure Prefetched where
  diffs : Dict Text Text := ∅
  statuses : Dict Text Text := ∅

/-- The body of the inner loop of `_prefetch_pr_diffs`. -/
def Prefetched.add (prefetched : Prefetched) (fileData : PrFile) : Prefetched where
  diffs :=
    let patch := fileData.patch.getD []
    if patch ≠ [] then prefetched.diffs.set fileData.filename patch else prefetched.diffs
  statuses := prefetched.statuses.set fileData.filename (fileData.status.getD "modified".toList)

/-- A turn of `_prefetch_pr_diffs`, for what it has collected and the number of the page.
Errors end it with what it has. -/
def prefetchTurn (scan : Prefetched × Nat) : Turn (Prefetched × Nat) (Except ApiError Prefetched) :=
  match respond api repo prNumber token scan.2 with
  | .files contentLength files =>
    if tooLarge contentLength then .leave (.error (.runtimeError (tooLargeMessage contentLength)))
    else
      let prefetched := files.foldl Prefetched.add scan.1
      if files.length < githubApiMaxPerPage then .leave (.ok prefetched)
      else .again (prefetched, scan.2 + 1)
  | .notJson contentLength _ =>
    if tooLarge contentLength then .leave (.error (.runtimeError (tooLargeMessage contentLength)))
    else .leave (.ok scan.1)
  | .httpError .. | .urlError _ | .osError _ => .leave (.ok scan.1)

/-- `_prefetch_pr_diffs`. -/
def prefetchPrDiffs (bound : Nat) : Option (Except ApiError Prefetched) :=
  match validateRequest repo prNumber with
  | .error error => some (.error error)
  | .ok () => loop (prefetchTurn api repo prNumber token) bound ({}, 1)

end

/-! ## What the API serves -/

/-- The API serves the files in consecutive pages, whoever asks; the lengths are what the
responses announce. -/
def ServesPages (api : Api) (repo : Text) (prNumber : Int) (lengths : Nat → Option Nat)
    (files : List PrFile) : Prop :=
  ∀ headers page, 1 ≤ page → api ⟨pageUrl repo prNumber page, headers⟩ =
    .files (lengths page) (Pages.page githubApiMaxPerPage files page)

/-- No page up to the short one is announced as too large. -/
def Accepted (lengths : Nat → Option Nat) (files : List PrFile) : Prop :=
  ∀ page, 1 ≤ page → page ≤ files.length / githubApiMaxPerPage + 1 → tooLarge (lengths page) = false

/-- The patch of a file, if it is not empty. -/
def PrFile.storedPatch (file : PrFile) : Option Text := file.patch.filter (· ≠ [])

/-- The three functions return and agree: the names in order, the statuses and patches of
all names, and the patch of any name. -/
structure LoopsAgree (api : Api) (repo : Text) (prNumber : Int) (token : Option Text)
    (files : List PrFile) (prefetched : Prefetched) : Prop where
  names : Returns (getPrChangedFiles api repo prNumber token) (· = .ok (files.map PrFile.filename))
  whole : Returns (prefetchPrDiffs api repo prNumber token) (· = .ok prefetched)
  statuses : prefetched.statuses.items =
    files.map fun file => (file.filename, file.status.getD "modified".toList)
  diffs : prefetched.diffs.items =
    files.filterMap fun file => file.storedPatch.map fun patch => (file.filename, patch)
  single : ∀ filePath, Returns (getPrFileDiff api repo prNumber token filePath)
    (· = .ok ((prefetched.diffs.get filePath).getD []))

/-! ## What the loops read -/

section

variable {api : Api} {repo : Text} {prNumber : Int} {token : Option Text}
  {lengths : Nat → Option Nat} {files : List PrFile}

/-- An accepted listing has no page that is too large. -/
theorem Accepted.at_page (accepted : Accepted lengths files) {page : Nat} (counted : 1 ≤ page)
    (inside : (page - 1) * githubApiMaxPerPage ≤ files.length) :
    tooLarge (lengths page) = false := by
  have reached := (Nat.le_div_iff_mul_le (by decide : 0 < githubApiMaxPerPage)).mpr inside
  exact accepted page counted (by omega)

variable (served : ServesPages api repo prNumber lengths files)

include served

/-- A counted page is answered with its files. -/
theorem respond_eq {page : Nat} (counted : 1 ≤ page) :
    respond api repo prNumber token page =
      .files (lengths page) (Pages.page githubApiMaxPerPage files page) :=
  served _ page counted

/-- A turn of `get_pr_changed_files` that has read the pages before it. -/
theorem changedFilesTurn_eq (few : files.length < maxFilesPerPr) {scan : ChangedFilesScan}
    (counted : 1 ≤ scan.page)
    (read : scan.files = (Pages.before githubApiMaxPerPage files scan.page).map PrFile.filename)
    (fits : tooLarge (lengths scan.page) = false) :
    changedFilesTurn api repo prNumber token scan =
      if (Pages.page githubApiMaxPerPage files scan.page).length < githubApiMaxPerPage then
        .leave (.ok (files.map PrFile.filename))
      else .again ⟨(Pages.before githubApiMaxPerPage files (scan.page + 1)).map PrFile.filename,
        scan.page + 1⟩ := by
  have joined : scan.files ++ (Pages.page githubApiMaxPerPage files scan.page).map PrFile.filename =
      (Pages.before githubApiMaxPerPage files (scan.page + 1)).map PrFile.filename := by
    rw [read, ← List.map_append, Pages.before_append_page counted]
  have bounded :
      ¬(Pages.before githubApiMaxPerPage files (scan.page + 1)).length ≥ maxFilesPerPr := by
    rw [Pages.before, List.length_take]
    omega
  unfold changedFilesTurn
  rw [respond_eq served counted]
  dsimp only
  rw [fits, if_neg Bool.false_ne_true, joined, List.length_map, List.length_map, if_neg bounded]
  split_ifs with short
  · have all := Pages.before_append_short counted short
    rw [Pages.before_append_page counted] at all
    rw [all]
  · rfl

/-- `get_pr_changed_files` returns every name once, in order. -/
theorem returns_changedFiles (few : files.length < maxFilesPerPr)
    (accepted : Accepted lengths files) :
    Returns (fun bound => loop (changedFilesTurn api repo prNumber token) bound {})
      (· = .ok (files.map PrFile.filename)) := by
  refine Pages.returns_pages files (by decide : 0 < githubApiMaxPerPage) ChangedFilesScan.page
    (fun before scan => scan.files = before.map PrFile.filename) ?_ ?_ {} rfl rfl
  · intro scan next counted inside read ending
    rw [changedFilesTurn_eq served few counted read (accepted.at_page counted inside)] at ending
    split_ifs at ending with short
    obtain rfl := Turn.again.inj ending
    exact ⟨rfl, short, rfl⟩
  · intro scan result counted inside read ending
    rw [changedFilesTurn_eq served few counted read (accepted.at_page counted inside)] at ending
    split_ifs at ending
    exact (Turn.leave.inj ending).symm

/-- A page that is too large ends the loop over changed files with an error. -/
theorem changedFilesTurn_refused {scan : ChangedFilesScan} (counted : 1 ≤ scan.page)
    (large : tooLarge (lengths scan.page) = true) :
    ∃ message, changedFilesTurn api repo prNumber token scan =
      .leave (.error (.runtimeError message)) := by
  unfold changedFilesTurn
  rw [respond_eq served counted]
  dsimp only
  rw [if_pos large]
  exact ⟨_, rfl⟩

/-- If `get_pr_changed_files` returns names, no response on the way was too large. -/
theorem accepted_of_changedFiles (few : files.length < maxFilesPerPr) :
    Returns (fun bound => loop (changedFilesTurn api repo prNumber token) bound {})
      fun result => ∀ names, result = .ok names → Accepted lengths files := by
  refine Pages.returns_pages files (by decide : 0 < githubApiMaxPerPage) ChangedFilesScan.page
    (fun before scan => scan.files = before.map PrFile.filename ∧
      ∀ page, 1 ≤ page → page < scan.page → tooLarge (lengths page) = false) ?_ ?_ {} rfl
    ⟨rfl, fun page counted early => absurd early (Nat.not_lt_of_le counted)⟩
  · rintro scan next counted inside ⟨read, fitted⟩ ending
    cases fits : tooLarge (lengths scan.page) with
    | true =>
      obtain ⟨message, refused⟩ := changedFilesTurn_refused served counted fits
      rw [refused] at ending
      cases ending
    | false =>
      rw [changedFilesTurn_eq served few counted read fits] at ending
      split_ifs at ending with short
      obtain rfl := Turn.again.inj ending
      refine ⟨rfl, short, rfl, fun page counted early => ?_⟩
      obtain earlier | rfl := Nat.lt_succ_iff_lt_or_eq.mp early
      · exact fitted page counted earlier
      · exact fits
  · rintro scan result counted inside ⟨read, fitted⟩ ending names isNames
    cases fits : tooLarge (lengths scan.page) with
    | true =>
      obtain ⟨message, refused⟩ := changedFilesTurn_refused served counted fits
      rw [refused, isNames] at ending
      cases ending
    | false =>
      rw [changedFilesTurn_eq served few counted read fits] at ending
      split_ifs at ending with short
      -- this page was the last one
      intro page pageCounted onTheWay
      have ended := Pages.length_lt_of_short counted short
      have last := (Nat.div_lt_iff_lt_mul (by decide : 0 < githubApiMaxPerPage)).mpr ended
      obtain earlier | rfl := Nat.lt_or_eq_of_le (by omega : page ≤ scan.page)
      · exact fitted page pageCounted earlier
      · exact fits

/-- The patch that is shown for a name: that of the first file with the name. -/
def patchOf (files : List PrFile) (filePath : Text) : Text :=
  ((files.find? (·.filename = filePath)).bind PrFile.patch).getD []

/-- A turn for one diff, by the page it reads. -/
theorem fileDiffTurn_eq (accepted : Accepted lengths files) (filePath : Text) (page : Nat)
    (counted : 1 ≤ page) (inside : (page - 1) * githubApiMaxPerPage ≤ files.length) :
    fileDiffTurn api repo prNumber token filePath page =
      match (Pages.page githubApiMaxPerPage files page).find? (·.filename = filePath) with
      | some file => .leave (.ok (file.patch.getD []))
      | none =>
        if (Pages.page githubApiMaxPerPage files page).length < githubApiMaxPerPage then
          .leave (.ok [])
        else .again (page + 1) := by
  unfold fileDiffTurn
  rw [respond_eq served counted]
  dsimp only
  rw [accepted.at_page counted inside, if_neg Bool.false_ne_true]

/-- `get_pr_file_diff` returns the patch of the first file with the name. -/
theorem returns_fileDiff (accepted : Accepted lengths files) (filePath : Text) :
    Returns (fun bound => loop (fileDiffTurn api repo prNumber token filePath) bound 1)
      (· = .ok (patchOf files filePath)) := by
  refine Pages.returns_pages files (by decide : 0 < githubApiMaxPerPage) (fun page => page)
    (fun before _ => before.find? (·.filename = filePath) = none) ?_ ?_ 1 rfl rfl
  · intro page next counted inside absent ending
    rw [fileDiffTurn_eq served accepted filePath page counted inside] at ending
    split at ending
    · cases ending
    · rename_i absentHere
      split_ifs at ending with short
      obtain rfl := Turn.again.inj ending
      refine ⟨rfl, short, ?_⟩
      rw [← Pages.before_append_page counted, List.find?_append, absent, Option.none_or]
      exact absentHere
  · intro page result counted inside absent ending
    rw [fileDiffTurn_eq served accepted filePath page counted inside] at ending
    split at ending
    · rename_i file found
      obtain rfl := Turn.leave.inj ending
      obtain ⟨rest, whole⟩ : ∃ rest, files = _ ++ rest := Pages.exists_rest counted
      have first : files.find? (·.filename = filePath) = some file := by
        rw [whole, List.find?_append, List.find?_append, absent, found]
        rfl
      rw [patchOf, first]
      rfl
    · rename_i absentHere
      split_ifs at ending with short
      obtain rfl := Turn.leave.inj ending
      have all := Pages.before_append_short counted short
      have nowhere : files.find? (·.filename = filePath) = none := by
        rw [← all, List.find?_append, absent, Option.none_or]
        exact absentHere
      rw [patchOf, nowhere]
      rfl

/-- A turn of the prefetch, by the page it reads. -/
theorem prefetchTurn_eq (accepted : Accepted lengths files) {scan : Prefetched × Nat}
    (counted : 1 ≤ scan.2) (inside : (scan.2 - 1) * githubApiMaxPerPage ≤ files.length)
    (collected : scan.1 = (Pages.before githubApiMaxPerPage files scan.2).foldl Prefetched.add {}) :
    prefetchTurn api repo prNumber token scan =
      if (Pages.page githubApiMaxPerPage files scan.2).length < githubApiMaxPerPage then
        .leave (.ok (files.foldl Prefetched.add {}))
      else .again ((Pages.before githubApiMaxPerPage files (scan.2 + 1)).foldl Prefetched.add {},
        scan.2 + 1) := by
  unfold prefetchTurn
  rw [respond_eq served counted]
  dsimp only
  rw [accepted.at_page counted inside, if_neg Bool.false_ne_true, collected, ← List.foldl_append]
  split_ifs with short
  · rw [Pages.before_append_short counted short]
  · rw [Pages.before_append_page counted]

/-- `_prefetch_pr_diffs` collects from every file, in order. -/
theorem returns_prefetch (accepted : Accepted lengths files) :
    Returns (fun bound => loop (prefetchTurn api repo prNumber token) bound ({}, 1))
      (· = .ok (files.foldl Prefetched.add {})) := by
  refine Pages.returns_pages files (by decide : 0 < githubApiMaxPerPage) Prod.snd
    (fun before scan => scan.1 = before.foldl Prefetched.add {}) ?_ ?_ ({}, 1) rfl rfl
  · intro scan next counted inside collected ending
    rw [prefetchTurn_eq served accepted counted inside collected] at ending
    split_ifs at ending with short
    obtain rfl := Turn.again.inj ending
    exact ⟨rfl, short, rfl⟩
  · intro scan result counted inside collected ending
    rw [prefetchTurn_eq served accepted counted inside collected] at ending
    split_ifs at ending
    exact (Turn.leave.inj ending).symm

end

/-! ## What is collected -/

section

variable {files : List PrFile}

/-- A file adds the patch that is stored for it. -/
theorem add_diffs (prefetched : Prefetched) (file : PrFile) :
    (prefetched.add file).diffs = prefetched.diffs.update
      (file.storedPatch.map fun patch => (file.filename, patch)).toList := by
  unfold Prefetched.add PrFile.storedPatch
  cases file.patch with
  | none => rfl
  | some patch =>
    by_cases nonempty : patch ≠ []
    · simp [nonempty, Option.filter, Dict.update]
    · simp [not_not.mp nonempty, Option.filter, Dict.update]

/-- The inner loop assigns the items of the files one after the other. -/
theorem foldl_add (files : List PrFile) (prefetched : Prefetched) :
    files.foldl Prefetched.add prefetched =
      { diffs := prefetched.diffs.update (files.filterMap fun file =>
          file.storedPatch.map fun patch => (file.filename, patch))
        statuses := prefetched.statuses.update (files.map fun file =>
          (file.filename, file.status.getD "modified".toList)) } := by
  induction files generalizing prefetched with
  | nil => rfl
  | cons file rest inductionHypothesis =>
    have added := add_diffs prefetched file
    rw [List.foldl_cons, inductionHypothesis, added, List.filterMap_cons]
    cases file.storedPatch <;> rfl

variable (distinct : (files.map PrFile.filename).Nodup)

include distinct

/-- The prefetch has the status of each file. -/
theorem items_statuses : (files.foldl Prefetched.add {}).statuses.items =
    files.map fun file => (file.filename, file.status.getD "modified".toList) := by
  rw [foldl_add]
  refine (Dict.items_update_of_distinct _ _ ?_).trans (List.nil_append _)
  rw [List.map_map]
  exact distinct

/-- The prefetch has the stored patch of each file. -/
theorem items_diffs : (files.foldl Prefetched.add {}).diffs.items =
    files.filterMap fun file => file.storedPatch.map fun patch => (file.filename, patch) := by
  rw [foldl_add]
  refine (Dict.items_update_of_distinct _ _ ?_).trans (List.nil_append _)
  refine distinct.sublist ?_
  clear distinct
  induction files with
  | nil => exact List.Sublist.refl _
  | cons file rest inductionHypothesis =>
    rw [List.filterMap_cons]
    cases file.storedPatch with
    | none => exact inductionHypothesis.cons _
    | some patch => exact inductionHypothesis.cons_cons _

/-- The stored patch of a name is the one that is shown for it. -/
theorem get_diffs (filePath : Text) :
    ((files.foldl Prefetched.add {}).diffs.get filePath).getD [] = patchOf files filePath := by
  have stored (patch : Text) : (files.foldl Prefetched.add {}).diffs.get filePath = some patch ↔
      ∃ file ∈ files, file.filename = filePath ∧ file.storedPatch = some patch := by
    rw [Dict.get_eq_some_iff, items_diffs distinct, List.mem_filterMap]
    refine exists_congr fun file => and_congr_right fun _ => ?_
    rw [Option.map_eq_some_iff]
    constructor
    · rintro ⟨own, isStored, same⟩
      obtain ⟨named, rfl⟩ := Prod.mk.inj same
      exact ⟨named, isStored⟩
    · rintro ⟨named, isStored⟩
      exact ⟨patch, isStored, by rw [named]⟩
  have shown (file : PrFile) : file.storedPatch.getD [] = file.patch.getD [] := by
    unfold PrFile.storedPatch
    cases file.patch with
    | none => rfl
    | some patch => by_cases nonempty : patch = [] <;> simp [nonempty, Option.filter]
  unfold patchOf
  cases found : files.find? (·.filename = filePath) with
  | none =>
    have nothing : (files.foldl Prefetched.add {}).diffs.get filePath = none := by
      rw [Option.eq_none_iff_forall_ne_some]
      intro patch isStored
      obtain ⟨file, inside, named, -⟩ := (stored patch).mp isStored
      exact List.find?_eq_none.mp found file inside (decide_eq_true named)
    rw [nothing]
    rfl
  | some file =>
    have inside := List.mem_of_find?_eq_some found
    have named : file.filename = filePath := by simpa using List.find?_some found
    -- another file with the name would be the same
    have isStored : (files.foldl Prefetched.add {}).diffs.get filePath = file.storedPatch := by
      ext patch
      rw [stored]
      constructor
      · rintro ⟨other, otherInside, otherNamed, isStored⟩
        rwa [List.inj_on_of_nodup_map distinct inside otherInside (named.trans otherNamed.symm)]
      · exact fun isStored => ⟨file, inside, named, isStored⟩
    rw [isStored, shown, Option.bind_some]

end

/-! ## The three functions -/

section

variable {api : Api} {repo : Text} {prNumber : Int} {token : Option Text}
  {lengths : Nat → Option Nat} {files : List PrFile}

/-- A valid request starts the loop over the pages. -/
theorem getPrChangedFiles_eq (valid : validateRequest repo prNumber = .ok ()) :
    getPrChangedFiles api repo prNumber token =
      fun bound => loop (changedFilesTurn api repo prNumber token) bound {} := by
  funext bound
  rw [getPrChangedFiles, valid]

/-- The three loops agree on an accepted listing. -/
theorem loopsAgree_of_accepted (served : ServesPages api repo prNumber lengths files)
    (valid : validateRequest repo prNumber = .ok ()) (distinct : (files.map PrFile.filename).Nodup)
    (few : files.length < maxFilesPerPr) (accepted : Accepted lengths files) :
    LoopsAgree api repo prNumber token files (files.foldl Prefetched.add {}) where
  names := by
    rw [getPrChangedFiles_eq valid]
    exact returns_changedFiles served few accepted
  whole := by
    have whole : prefetchPrDiffs api repo prNumber token =
        fun bound => loop (prefetchTurn api repo prNumber token) bound ({}, 1) := by
      funext bound
      rw [prefetchPrDiffs, valid]
    rw [whole]
    exact returns_prefetch served accepted
  statuses := items_statuses distinct
  diffs := items_diffs distinct
  single filePath := by
    have single : getPrFileDiff api repo prNumber token filePath =
        fun bound => loop (fileDiffTurn api repo prNumber token filePath) bound 1 := by
      funext bound
      rw [getPrFileDiff, valid]
    rw [single, get_diffs distinct]
    exact returns_fileDiff served accepted filePath

/-- A listing that the loops agree on is accepted. -/
theorem accepted_of_loopsAgree (served : ServesPages api repo prNumber lengths files)
    (valid : validateRequest repo prNumber = .ok ()) (few : files.length < maxFilesPerPr)
    {prefetched : Prefetched} (alike : LoopsAgree api repo prNumber token files prefetched) :
    Accepted lengths files := by
  have names := alike.names
  rw [getPrChangedFiles_eq valid] at names
  obtain ⟨result, isNames, accepted⟩ := (names.and (accepted_of_changedFiles served few)).exists
  exact accepted _ isNames

end

/-- When the API serves the files in consecutive pages, the three functions agree exactly
if no response on the way to the last page announces more than `MAX_RESPONSE_SIZE` bytes.

Proof: each loop has read a beginning of the files when it asks for a page, and at a short
page all of them. A response that is too large makes `get_pr_changed_files` fail. -/
theorem pages_read_alike_iff (api : Api) (repo : Text) (prNumber : Int) (token : Option Text)
    (lengths : Nat → Option Nat) (files : List PrFile)
    (served : ServesPages api repo prNumber lengths files)
    (valid : validateRequest repo prNumber = .ok ()) (distinct : (files.map PrFile.filename).Nodup)
    (few : files.length < maxFilesPerPr) :
    (∃ prefetched, LoopsAgree api repo prNumber token files prefetched) ↔
      Accepted lengths files := by
  constructor
  · rintro ⟨prefetched, alike⟩
    exact accepted_of_loopsAgree served valid few alike
  · intro accepted
    exact ⟨_, loopsAgree_of_accepted served valid distinct few accepted⟩

/-! ## A single page -/

/-- A file of which one line was changed. -/
def changedFile : PrFile where
  filename := "utilities/virt.py".toList
  status := some "modified".toList
  patch := some "@@ -1 +1 @@\n-a\n+b".toList

/-- A file with a patch as long as a whole response may be. -/
def largeFile : PrFile where
  filename := "utilities/manifests.py".toList
  status := some "added".toList
  patch := some (List.replicate maxResponseSize '+')

/-- A repository. -/
def repoName : Text := "owner/repo".toList

/-- An API with one page for one pull request. -/
def singlePageApi (contentLength : Option Nat) (file : PrFile) : Api := fun request =>
  if request.url = pageUrl repoName 7 1 then .files contentLength [file] else .files none []

/-- Different pages have different addresses. -/
theorem pageUrl_injective (repo : Text) (prNumber : Int) :
    Function.Injective (pageUrl repo prNumber) := by
  intro page other same
  have numerals : decimal page = decimal other := List.append_cancel_left same
  rw [← decimalValue_decimal page, numerals, decimalValue_decimal]

/-- The server with one file serves its only page. -/
theorem servesPages_single (contentLength : Option Nat) (file : PrFile) :
    ServesPages (singlePageApi contentLength file) repoName 7
      (fun page => if page = 1 then contentLength else none) [file] := by
  intro headers page counted
  unfold singlePageApi
  by_cases first : page = 1
  · subst first
    rw [if_pos rfl]
    rfl
  · have other : pageUrl repoName 7 page ≠ pageUrl repoName 7 1 :=
      fun same => first (pageUrl_injective repoName 7 same)
    have behind : [file].length ≤ (page - 1) * githubApiMaxPerPage := by
      have later : 1 ≤ page - 1 := by omega
      have afterFirst : 1 ≤ 1 * githubApiMaxPerPage := by decide
      exact Nat.le_trans afterFirst (Nat.mul_le_mul_right _ later)
    have unannounced : (fun number => if number = 1 then contentLength else none) page = none :=
      if_neg first
    rw [if_neg other, unannounced, Pages.page, List.drop_eq_nil_of_le behind, List.take_nil]

/-- A page of 512 bytes is accepted. -/
theorem small_page_accepted :
    Accepted (fun page => if page = 1 then some 512 else none) [changedFile] := by
  intro page counted _
  by_cases first : page = 1 <;> simp [first, tooLarge, maxResponseSize]

/-- It is read alike by the three loops, by the general theorem. -/
theorem small_page_read_alike :
    ∃ prefetched, LoopsAgree (singlePageApi (some 512) changedFile) repoName 7 none [changedFile]
      prefetched :=
  (pages_read_alike_iff (singlePageApi (some 512) changedFile) repoName 7 none _ [changedFile]
    (servesPages_single (some 512) changedFile) (by decide +kernel) (List.nodup_singleton _)
    (by decide)).mpr small_page_accepted

/-- A page whose patch alone fills a response, with the names and braces around it, is not
read. -/
theorem large_page_refused :
    ServesPages (singlePageApi (some (maxResponseSize + 512)) largeFile) repoName 7
        (fun page => if page = 1 then some (maxResponseSize + 512) else none) [largeFile] ∧
      validateRequest repoName 7 = .ok () ∧ ([largeFile].map PrFile.filename).Nodup ∧
      [largeFile].length < maxFilesPerPr ∧
      ¬∃ prefetched, LoopsAgree (singlePageApi (some (maxResponseSize + 512)) largeFile) repoName 7
        none [largeFile] prefetched := by
  have served := servesPages_single (some (maxResponseSize + 512)) largeFile
  have valid : validateRequest repoName 7 = .ok () := by decide +kernel
  have few : [largeFile].length < maxFilesPerPr := by
    rw [List.length_singleton]
    decide
  refine ⟨served, valid, List.nodup_singleton _, few, ?_⟩
  rintro ⟨prefetched, alike⟩
  have fits : tooLarge (some (maxResponseSize + 512)) = false :=
    accepted_of_loopsAgree served valid few alike 1 (Nat.le_refl 1) (Nat.le_add_left _ _)
  have announced : tooLarge (some (maxResponseSize + 512)) = true := by decide
  rw [announced] at fits
  cases fits

end VirtTestTools.Analyzer
