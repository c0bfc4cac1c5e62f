import VirtTestTools.Dict
import VirtTestTools.Syntax

/-!
# Data of the marker analyzer

The records of `pytest_marker_analyzer.py` and the outside world it reads: the
head checkout, the diffs, the base branch and the pull request. Paths are
component lists below the repository root. Every path the analyzer builds is
`repo_root / ...` and every `relative_to(repo_root)` is then total, so the root
itself does not appear.

Python sets are lists here, in whatever order the interpreter would iterate
them; statements about membership therefore hold for every iteration order.
-/

namespace VirtTestTools.Analyzer

/-- A path below the repository root, by components. -/
abbrev Path := List String

namespace Path

/-- `path.name`. -/
def name (path : Path) : String := path.getLastD ""

/-- `path.suffix`: the last dot and what follows, if both sides of the dot are
nonempty. -/
def suffix (path : Path) : Text :=
  let reversed := path.name.toList.reverse
  let extension := reversed.takeWhile (· != '.')
  match reversed.dropWhile (· != '.') with
  | _ :: _ :: _ => if extension.isEmpty then [] else '.' :: extension.reverse
  | _ => []

/-- `str(path.relative_to(repo_root))`. -/
def display (path : Path) : String := String.intercalate "/" path

/-- A relative path from its text: empty and `.` components are dropped, as
`pathlib` does. -/
def ofText (text : Text) : Path :=
  ((text.splitOn '/').filter (fun part => part != [] && part != ['.'])).map String.ofList

/-- The directory or module stem of a dotted module name. -/
def ofModule (module : String) : Path := (module.toList.splitOn '.').map String.ofList

/-- `path / "__init__.py"`. -/
def initPy (path : Path) : Path := path ++ ["__init__.py"]

/-- `path.with_suffix(".py")` for a last component without a dot, which is what
`ofModule` produces. -/
def withPy (path : Path) : Path := path.dropLast ++ [path.name ++ ".py"]

/-- Whether the file is a `conftest.py`. -/
def isConftest (path : Path) : Bool := decide (path.name = "conftest.py")

end Path

/-- File statuses of the GitHub pull request API. -/
inductive FileStatus
  | added
  | removed
  | modified
  | renamed
  | copied
  | changed
  | unchanged
deriving DecidableEq

/-- A test with its dependencies. Files in `dependencies` but absent from
`symbolImports` are documented to be opaque. -/
structure MarkedTest where
  filePath : Path
  testName : String
  nodeId : String
  dependencies : List Path := []
  fixtures : List String := []
  symbolImports : Dict Path (List String) := ∅

/-- A fixture with the fixtures it requests and the functions it calls. -/
structure Fixture where
  name : String
  filePath : Path
  fixtureDeps : List String := []
  functionCalls : List String := []

/-- Which top-level symbols of a changed file were modified and which are new. -/
structure SymbolClassification where
  modifiedSymbols : List String
  newSymbols : List String
  modifiedMembers : Dict String (List String) := ∅
  hasUnattributedChanges : Bool := false

/-- Outcome of fetching the base-branch version of a file. -/
inductive BaseFile
  | missing
  | failed
  | found (source : Source)

/-- Everything outside the analyzer that it reads. A `none` is a failed read;
an empty pull request diff is one the API does not deliver. -/
structure World where
  unicode : Text.Unicode
  /-- `Path.exists` in the analysed checkout. -/
  present : Path → Bool
  /-- The files of the analysed checkout, in the order of a recursive glob. -/
  files : List Path := []
  filesPresent : ∀ path ∈ files, present path = true := by decide
  /-- `read_text` of a file of the analysed checkout. -/
  source : Path → Option Source
  /-- `git diff -U<context> <base>...HEAD -- <path>`, when it exits with zero. -/
  gitDiff : Nat → Path → Option Text
  /-- The base-branch version of a file. -/
  baseFile : Path → BaseFile
  /-- Whether pull request information was supplied. -/
  githubPrInfo : Bool := false
  isCheckout : Bool := false
  /-- Whether the head commit of the pull request is known. -/
  prHeadRef : Bool := false
  fetchFileAtRef : Path → Option Source := fun _ => none
  getPrFileDiff : Path → Text := fun _ => []
  prDiffsCache : Option (Dict Path Text) := none
  prFileStatuses : Option (Dict Path FileStatus) := none

/-- The parsed statements of a file, or `none` when reading or parsing fails. -/
def World.tree (world : World) (path : Path) : Option (List AST) :=
  (world.source path).bind Source.tree

/-- Set intersection `left & right`. -/
def intersect (left right : List String) : List String := left.filter (· ∈ right)

/-- A common symbol is in both lists. -/
theorem mem_intersect (left right : List String) (symbol : String) :
    symbol ∈ intersect left right ↔ symbol ∈ left ∧ symbol ∈ right := by
  simp [intersect]

/-- A nonempty intersection has a common member. -/
theorem intersect_ne_nil (left right : List String) :
    intersect left right ≠ [] ↔ ∃ symbol, symbol ∈ left ∧ symbol ∈ right := by
  simp only [← mem_intersect]
  exact ⟨List.exists_mem_of_ne_nil _, fun ⟨_, member⟩ => List.ne_nil_of_mem member⟩

end VirtTestTools.Analyzer
