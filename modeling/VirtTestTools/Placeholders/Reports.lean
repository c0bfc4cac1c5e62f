import Mathlib.Algebra.BigOperators.Group.List.Basic
import Mathlib.Algebra.GroupWithZero.Nat
import VirtTestTools.Dict
import VirtTestTools.Placeholders.Stats

/-!
# The reports of placeholder tests

`std_placeholder_stats.py` reports what it has scanned as text or as JSON, in two categories: the
tests that are not implemented yet, and those that are disabled. Both formats are made from the same
files, one by lines below headings, the other by lists below paths, and both give totals.
-/

namespace VirtTestTools.Placeholders

open Text

/-! ## The scan -/

/-- A file `test_*.py` below the tests directory, with its path relative to the parent of that
directory. There is no content if it cannot be read. -/
structure ScannedPath where
  relativePath : String
  content : Option Source

/-- What a file contributes: nothing if it cannot be read. -/
def scanFile (file : ScannedPath) : Option PlaceholderFile :=
  file.content.bind fun source => scannedFile source file.relativePath

/-- `scan_placeholder_tests`. -/
def scanPlaceholderTests (testsDir : List ScannedPath) : List PlaceholderFile :=
  testsDir.filterMap scanFile

/-! ## The two categories -/

/-- Where the entry of a file has the tests of a category. -/
structure Category where
  methods : PlaceholderClass → List String
  standalone : PlaceholderFile → List String

/-- The tests without a body. -/
def placeholderTests : Category := ⟨PlaceholderClass.testMethods, PlaceholderFile.standaloneTests⟩

/-- The tests with a body that are kept from the collection. -/
def disabledTests : Category :=
  ⟨PlaceholderClass.disabledMethods, PlaceholderFile.disabledStandaloneTests⟩

namespace Category

variable (category : Category)

/-- The number of tests of a file. -/
def inFile (file : PlaceholderFile) : Nat :=
  (file.classes.map fun cls => (category.methods cls).length).sum +
    (category.standalone file).length

/-- The number of tests, and of the files with such tests. -/
def count (files : List PlaceholderFile) : Nat × Nat :=
  ((files.map category.inFile).sum, files.countP fun file => decide (0 < category.inFile file))

/-- A heading with its tests below it, if there are any. -/
def headed (heading : Text) (tests : List String) : List Text :=
  if tests.isEmpty then [] else heading :: tests.map fun test => "  - ".toList ++ test.toList

/-- The lines for a file. -/
def formatLines (file : PlaceholderFile) : List Text :=
  (file.classes.flatMap fun cls =>
      headed (file.filePath.toList ++ "::".toList ++ cls.name.toList) (category.methods cls)) ++
    headed (file.filePath.toList ++ "::<standalone>".toList) (category.standalone file)

/-- The entries for a file. -/
def entries (file : PlaceholderFile) : List Text :=
  (file.classes.flatMap fun cls =>
      (category.methods cls).map fun method =>
        cls.name.toList ++ "::".toList ++ method.toList) ++
    (category.standalone file).map String.toList

/-- The entries of all files that have some, by path. -/
def byFile (files : List PlaceholderFile) : Dict String (List Text) :=
  files.foldl (fun dict file =>
    if (category.entries file).isEmpty then dict
    else dict.set file.filePath (category.entries file)) ∅

end Category

/-- `PlaceholderFile.total_tests`. -/
def totalTests : PlaceholderFile → Nat := placeholderTests.inFile

/-- `PlaceholderFile.total_disabled`. -/
def totalDisabled : PlaceholderFile → Nat := disabledTests.inFile

/-- `count_placeholder_tests`. -/
def countPlaceholderTests : List PlaceholderFile → Nat × Nat := placeholderTests.count

/-- `count_disabled_tests`. -/
def countDisabledTests : List PlaceholderFile → Nat × Nat := disabledTests.count

/-- `format_placeholder_lines`. -/
def formatPlaceholderLines : PlaceholderFile → List Text := placeholderTests.formatLines

/-- `format_disabled_lines`. -/
def formatDisabledLines : PlaceholderFile → List Text := disabledTests.formatLines

/-! ## The formats -/

/-- `TERMINAL_WIDTH`. -/
def terminalWidth : Nat := 120

/-- `separator` without a title. -/
def separator (symbol : Char) : Text := List.replicate terminalWidth symbol

/-- The line with the totals; `kind` is the word for the category. -/
def totalLine (kind : Text) (total : Nat × Nat) : Text :=
  "Total: ".toList ++ decimal total.1 ++ " ".toList ++ kind ++ " ".toList ++
    (if total.1 = 1 then "test".toList else "tests".toList) ++ " in ".toList ++ decimal total.2 ++
    " ".toList ++ (if total.2 = 1 then "file".toList else "files".toList)

/-- The block of a category between its title and its totals. -/
def block (title kind : Text) (lines : List Text) (total : Nat × Nat) : List Text :=
  [separator '=', title, separator '=', []] ++ lines ++
    [[], separator '-', totalLine kind total, separator '=']

/-- The lines that `output_text` logs. -/
def outputText (files : List PlaceholderFile) : List Text :=
  let tests := countPlaceholderTests files
  let disabled := countDisabledTests files
  if tests.1 = 0 ∧ disabled.1 = 0 then ["No STD placeholder or disabled tests found.".toList]
  else
    (if 0 < tests.1 then
      block "STD PLACEHOLDER TESTS (not yet implemented)".toList "placeholder".toList
        (files.flatMap formatPlaceholderLines) tests
    else []) ++
      if 0 < disabled.1 then
        [] :: block "DISABLED TESTS (implemented but marked __test__ = False)".toList
          "disabled".toList (files.flatMap formatDisabledLines) disabled
      else []

/-- The object of a category. -/
structure CategoryReport where
  totalTests : Nat
  totalFiles : Nat
  files : Dict String (List Text)

/-- The entry of a category in the JSON output. -/
def Category.report (category : Category) (files : List PlaceholderFile) : CategoryReport :=
  ⟨(category.count files).1, (category.count files).2, category.byFile files⟩

/-- The object that `output_json` prints. -/
structure JsonReport where
  placeholder : CategoryReport
  disabled : CategoryReport

/-- `output_json`: the object that is written. -/
def outputJson (files : List PlaceholderFile) : JsonReport :=
  ⟨placeholderTests.report files, disabledTests.report files⟩

/-! ## What is reported -/

/-- The node ids that an object has for its files. -/
def CategoryReport.listed (report : CategoryReport) : List Text :=
  report.files.items.flatMap fun item =>
    item.2.map fun entry => item.1.toList ++ "::".toList ++ entry

/-- A test below a heading, as a node id. -/
def testBelow (heading test : Text) : Text :=
  if endsWith "<standalone>".toList heading then
    heading.take (heading.length - "<standalone>".toList.length) ++ test
  else heading ++ "::".toList ++ test

/-- The tests that a reader finds in the lines of a report, given the last heading. -/
def readLines : Text → List Text → List Text
  | _, [] => []
  | heading, line :: rest =>
    match literal "  - ".toList line with
    | some test => testBelow heading test :: readLines heading rest
    | none => readLines line rest

/-- A reader takes no heading of the file for a test, and no class for its functions. -/
structure Legible (file : PlaceholderFile) : Prop where
  path : file.filePath.toList.head? ≠ some ' '
  classes : ∀ cls ∈ file.classes, '<' ∉ cls.name.toList

namespace Category

variable (category : Category)

/-- The node ids of the tests of a file. -/
def nodeIds (file : PlaceholderFile) : List Text :=
  (category.entries file).map fun entry => file.filePath.toList ++ "::".toList ++ entry

/-- A file has as many entries as tests of the category. -/
theorem length_entries (file : PlaceholderFile) :
    (category.entries file).length = category.inFile file := by
  rw [entries, inFile, List.length_append, List.length_flatMap, List.length_map]
  simp only [List.length_map]

/-- The table by file, as an update with the files that have entries. -/
theorem byFile_eq_update (files : List PlaceholderFile) :
    category.byFile files =
      Dict.update ∅ ((files.filter fun file => !(category.entries file).isEmpty).map fun file =>
        (file.filePath, category.entries file)) := by
  rw [byFile, Dict.update, List.foldl_map, List.foldl_filter]
  congr 1
  funext dict file
  cases (category.entries file).isEmpty <;> rfl

/-- With different paths every file that has some tests has its item. -/
theorem items_byFile (files : List PlaceholderFile)
    (distinct : (files.map PlaceholderFile.filePath).Nodup) :
    (category.byFile files).items =
      (files.filter fun file => !(category.entries file).isEmpty).map fun file =>
        (file.filePath, category.entries file) := by
  rw [byFile_eq_update, Dict.items_update_of_distinct]
  · rfl
  · have paths : (Dict.keys (∅ : Dict String (List Text))) = [] := rfl
    rw [paths, List.nil_append, List.map_map]
    exact distinct.sublist (List.filter_sublist.map _)

/-- The report lists the tests of each file when no path comes twice. -/
theorem listed_report (files : List PlaceholderFile)
    (distinct : (files.map PlaceholderFile.filePath).Nodup) :
    (category.report files).listed = files.flatMap category.nodeIds := by
  rw [CategoryReport.listed, report, items_byFile category files distinct, List.flatMap_map]
  clear distinct
  induction files with
  | nil => rfl
  | cons file rest inductionHypothesis =>
    rw [List.filter_cons, List.flatMap_cons, ← inductionHypothesis]
    cases empty : (category.entries file).isEmpty with
    | false => rfl
    | true =>
      have nothing : category.nodeIds file = [] := by
        rw [nodeIds, List.isEmpty_iff.mp empty, List.map_nil]
      rw [nothing]
      rfl

/-- There are as many node ids as the category counts. -/
theorem length_nodeIds (files : List PlaceholderFile) :
    (files.flatMap category.nodeIds).length = (category.count files).1 := by
  rw [List.length_flatMap]
  simp only [nodeIds, List.length_map, length_entries]
  rfl

/-- The totals of an object are those of its lists. -/
theorem report_totals (files : List PlaceholderFile)
    (distinct : (files.map PlaceholderFile.filePath).Nodup) :
    (category.report files).totalTests = (category.report files).listed.length ∧
      (category.report files).totalFiles = (category.report files).files.items.length := by
  constructor
  · rw [listed_report category files distinct, length_nodeIds]
    rfl
  · have items : (category.report files).files.items = (category.byFile files).items := rfl
    have counted : (category.report files).totalFiles =
        files.countP fun file => decide (0 < category.inFile file) := rfl
    rw [items, items_byFile category files distinct, List.length_map, counted,
      ← List.countP_eq_length_filter]
    apply List.countP_congr
    intro file _
    rw [← length_entries]
    cases category.entries file <;> simp

end Category

/-! ## Reading a report -/

/-- A line that begins with another character does not match. -/
theorem literal_eq_none_of_head (expected : Char) (opening line : Text)
    (other : line.head? ≠ some expected) : literal (expected :: opening) line = none := by
  unfold literal
  cases line with
  | nil => rfl
  | cons character rest =>
    have different : expected ≠ character := fun same => other (congrArg some same.symm)
    rw [startsWith_cons_of_ne expected character opening rest different]
    rfl

/-- A line that is no test becomes the heading. -/
theorem readLines_heading (heading line : Text) (rest : List Text) (other : line.head? ≠ some ' ') :
    readLines heading (line :: rest) = readLines line rest := by
  rw [readLines]
  have none : literal "  - ".toList line = none := literal_eq_none_of_head ' ' _ line other
  rw [none]

/-- The lines for some tests are read as these tests. -/
theorem readLines_tests (heading : Text) (tests : List String) (rest : List Text) :
    readLines heading ((tests.map fun test => "  - ".toList ++ test.toList) ++ rest) =
      (tests.map fun test => testBelow heading test.toList) ++ readLines heading rest := by
  induction tests with
  | nil => rfl
  | cons test more inductionHypothesis =>
    rw [List.map_cons, List.cons_append, readLines, literal_append]
    exact congrArg _ inductionHypothesis

/-- A heading of a class is not one of a file. -/
theorem testBelow_class (path name test : Text) (identifier : '<' ∉ name) :
    testBelow (path ++ "::".toList ++ name) test =
      path ++ "::".toList ++ (name ++ "::".toList ++ test) := by
  have class_heading : endsWith "<standalone>".toList (path ++ "::".toList ++ name) = false := by
    rw [Bool.eq_false_iff, ne_eq, endsWith, List.isSuffixOf_iff_suffix]
    intro ends
    have tail : (':' :: name) <:+ path ++ "::".toList ++ name :=
      ⟨path ++ [':'], by simp⟩
    rcases List.suffix_or_suffix_of_suffix ends tail with inside | around
    · have bracket : '<' ∈ ':' :: name := inside.subset (by decide)
      rw [List.mem_cons] at bracket
      rcases bracket with colon | named
      · revert colon
        decide
      · exact identifier named
    · have colon : ':' ∈ "<standalone>".toList := around.subset List.mem_cons_self
      revert colon
      decide
  rw [testBelow, class_heading, if_neg Bool.false_ne_true]
  simp only [List.append_assoc]

/-- Below the heading for standalone tests a test belongs to the file. -/
theorem testBelow_standalone (path test : Text) :
    testBelow (path ++ "::<standalone>".toList) test = path ++ "::".toList ++ test := by
  have split : path ++ "::<standalone>".toList =
      (path ++ "::".toList) ++ "<standalone>".toList := by
    rw [List.append_assoc]
    rfl
  have ends : endsWith "<standalone>".toList ((path ++ "::".toList) ++ "<standalone>".toList) =
      true := by
    rw [endsWith, List.isSuffixOf_iff_suffix]
    exact List.suffix_append _ _
  rw [split, testBelow, if_pos ends, List.length_append, Nat.add_sub_cancel, List.take_left]

namespace Category

variable (category : Category)

/-- A heading with its tests is read back as the tests below it. -/
theorem readLines_headed (heading line : Text) (tests : List String) (rest : List Text)
    (other : line.head? ≠ some ' ') :
    ∃ last, readLines heading (headed line tests ++ rest) =
      (tests.map fun test => testBelow line test.toList) ++ readLines last rest := by
  cases tests with
  | nil => exact ⟨heading, rfl⟩
  | cons test more =>
    refine ⟨line, ?_⟩
    have lines : headed line (test :: more) ++ rest =
        line :: (((test :: more).map fun test => "  - ".toList ++ test.toList) ++ rest) := rfl
    rw [lines, readLines_heading heading line _ other, readLines_tests]

/-- A line that begins with a path is a heading. -/
theorem head_of_path (path rest : Text) (shown : path.head? ≠ some ' ') :
    (path ++ "::".toList ++ rest).head? ≠ some ' ' := by
  cases path with
  | nil =>
    intro blank
    exact absurd (Option.some.inj blank) (by decide : ':' ≠ ' ')
  | cons character more => exact shown

/-- The lines of the classes of a file are read back as their tests. -/
theorem readLines_classes (path : Text) (shown : path.head? ≠ some ' ')
    (classes : List PlaceholderClass) (named : ∀ cls ∈ classes, '<' ∉ cls.name.toList)
    (heading : Text) (rest : List Text) :
    ∃ last,
      readLines heading ((classes.flatMap fun cls =>
          headed (path ++ "::".toList ++ cls.name.toList) (category.methods cls)) ++ rest) =
        ((classes.flatMap fun cls => (category.methods cls).map fun method =>
          cls.name.toList ++ "::".toList ++ method.toList).map fun entry =>
            path ++ "::".toList ++ entry) ++ readLines last rest := by
  induction classes generalizing heading with
  | nil => exact ⟨heading, rfl⟩
  | cons cls more inductionHypothesis =>
    obtain ⟨middle, first⟩ := readLines_headed heading (path ++ "::".toList ++ cls.name.toList)
      (category.methods cls) ((more.flatMap fun cls =>
        headed (path ++ "::".toList ++ cls.name.toList) (category.methods cls)) ++ rest)
      (head_of_path _ _ shown)
    obtain ⟨last, behind⟩ := inductionHypothesis
      (fun other inside => named other (List.mem_cons_of_mem _ inside)) middle
    have own : ((category.methods cls).map fun test =>
        testBelow (path ++ "::".toList ++ cls.name.toList) test.toList) =
          ((category.methods cls).map fun method =>
            cls.name.toList ++ "::".toList ++ method.toList).map fun entry =>
              path ++ "::".toList ++ entry := by
      rw [List.map_map]
      apply List.map_congr_left
      intro method _
      exact testBelow_class _ _ _ (named cls List.mem_cons_self)
    refine ⟨last, ?_⟩
    rw [List.flatMap_cons, List.append_assoc, first, behind, own, List.flatMap_cons,
      List.map_append, List.append_assoc]

/-- The lines for a file are read as its tests, whatever comes behind them. -/
theorem readLines_formatLines (file : PlaceholderFile) (legible : Legible file) (heading : Text)
    (rest : List Text) :
    ∃ last, readLines heading (category.formatLines file ++ rest) =
      category.nodeIds file ++ readLines last rest := by
  obtain ⟨middle, first⟩ := readLines_classes category file.filePath.toList legible.path
    file.classes legible.classes heading
    (headed (file.filePath.toList ++ "::<standalone>".toList) (category.standalone file) ++ rest)
  have shown : (file.filePath.toList ++ "::<standalone>".toList).head? ≠ some ' ' := by
    have split : file.filePath.toList ++ "::<standalone>".toList =
        file.filePath.toList ++ "::".toList ++ "<standalone>".toList := by
      rw [List.append_assoc]
      rfl
    rw [split]
    exact head_of_path _ _ legible.path
  obtain ⟨last, behind⟩ := readLines_headed middle _ (category.standalone file) rest shown
  have own : ((category.standalone file).map fun test =>
      testBelow (file.filePath.toList ++ "::<standalone>".toList) test.toList) =
        ((category.standalone file).map String.toList).map fun entry =>
          file.filePath.toList ++ "::".toList ++ entry := by
    rw [List.map_map]
    apply List.map_congr_left
    intro test _
    exact testBelow_standalone _ _
  refine ⟨last, ?_⟩
  rw [formatLines, List.append_assoc, first, behind, own, nodeIds, entries, List.map_append,
    List.append_assoc]

/-- The lines of all files are read back as their tests. -/
theorem readLines_files (files : List PlaceholderFile)
    (legible : ∀ file ∈ files, Legible file) (heading : Text) (rest : List Text) :
    ∃ last, readLines heading (files.flatMap category.formatLines ++ rest) =
      files.flatMap category.nodeIds ++ readLines last rest := by
  induction files generalizing heading with
  | nil => exact ⟨heading, rfl⟩
  | cons file more inductionHypothesis =>
    obtain ⟨middle, first⟩ := category.readLines_formatLines file
      (legible file List.mem_cons_self) heading (more.flatMap category.formatLines ++ rest)
    obtain ⟨last, behind⟩ := inductionHypothesis
      (fun other inside => legible other (List.mem_cons_of_mem _ inside)) middle
    refine ⟨last, ?_⟩
    rw [List.flatMap_cons, List.append_assoc, first, behind, List.flatMap_cons, List.append_assoc]

/-- The block of a category is read as its tests. -/
theorem readLines_block (files : List PlaceholderFile) (legible : ∀ file ∈ files, Legible file)
    (title kind : Text) (named : title.head? ≠ some ' ') (total : Nat × Nat) (heading : Text)
    (rest : List Text) :
    readLines heading (block title kind (files.flatMap category.formatLines) total ++ rest) =
      files.flatMap category.nodeIds ++ readLines (separator '=') rest := by
  have symbol (character : Char) (visible : character ≠ ' ') :
      (separator character).head? ≠ some ' ' := by
    intro blank
    exact visible (Option.some.inj blank)
  have shown : ∀ line ∈ ([[], separator '-', totalLine kind total, separator '='] : List Text),
      line.head? ≠ some ' ' := by
    intro line inside
    simp only [List.mem_cons, List.not_mem_nil, or_false] at inside
    rcases inside with rfl | rfl | rfl | rfl
    · exact nofun
    · exact symbol '-' (by decide)
    · intro blank
      exact absurd (Option.some.inj blank) (by decide : 'T' ≠ ' ')
    · exact symbol '=' (by decide)
  obtain ⟨last, lines⟩ := category.readLines_files files legible []
    ([[], separator '-', totalLine kind total, separator '='] ++ rest)
  have opening : ([] : Text).head? ≠ some ' ' := nofun
  rw [block, List.append_assoc, List.append_assoc]
  simp only [List.cons_append, List.nil_append] at lines ⊢
  rw [readLines_heading _ _ _ (symbol '=' (by decide)), readLines_heading _ _ _ named,
    readLines_heading _ _ _ (symbol '=' (by decide)), readLines_heading _ _ _ opening, lines,
    readLines_heading _ _ _ opening, readLines_heading _ _ _ (shown _ (by simp)),
    readLines_heading _ _ _ (shown _ (by simp)), readLines_heading _ _ _ (shown _ (by simp))]

/-- A category without tests has no node ids. -/
theorem nodeIds_of_count (files : List PlaceholderFile) (nothing : (category.count files).1 = 0) :
    files.flatMap category.nodeIds = [] := by
  rw [← List.length_eq_zero_iff, length_nodeIds, nothing]

end Category

/-! ## Both formats -/

/-- The entry of a file has the path of the file. -/
theorem scanFile_path (file : ScannedPath) (entry : PlaceholderFile)
    (scanned : scanFile file = some entry) : entry.filePath = file.relativePath := by
  rw [scanFile, Option.bind_eq_some_iff] at scanned
  obtain ⟨source, -, found⟩ := scanned
  unfold scannedFile at found
  split at found
  · obtain ⟨tree, -, collected⟩ := Option.bind_eq_some_iff.mp found
    have path : ∀ (statements : List AST) (placeholder : PlaceholderFile),
        (statements.foldl (collectStatement tree (statementsHaveTestFalse tree))
          placeholder).filePath = placeholder.filePath := by
      intro statements
      induction statements with
      | nil => exact fun _ => rfl
      | cons statement rest inductionHypothesis =>
        intro placeholder
        rw [List.foldl_cons, inductionHypothesis]
        unfold collectStatement
        repeat' split
        all_goals rfl
    unfold collectPlaceholders at collected
    dsimp only at collected
    split at collected
    · cases collected
    · cases collected
      exact path tree _
  · cases found

/-- The paths of the scanned files are different if those below the directory are. -/
theorem scan_paths_nodup (testsDir : List ScannedPath)
    (distinct : (testsDir.map ScannedPath.relativePath).Nodup) :
    ((scanPlaceholderTests testsDir).map PlaceholderFile.filePath).Nodup := by
  have part : ((scanPlaceholderTests testsDir).map PlaceholderFile.filePath).Sublist
      (testsDir.map ScannedPath.relativePath) := by
    induction testsDir with
    | nil => exact List.Sublist.refl _
    | cons file rest inductionHypothesis =>
      have tail := inductionHypothesis (List.nodup_cons.mp distinct).2
      rw [scanPlaceholderTests, List.filterMap_cons, List.map_cons]
      cases scanned : scanFile file with
      | none => exact tail.cons _
      | some entry =>
        rw [← scanFile_path file entry scanned]
        exact tail.cons_cons _
  exact distinct.sublist part

/-- A block ends with its total. -/
theorem totalLine_mem_block (title kind : Text) (lines : List Text) (total : Nat × Nat) :
    totalLine kind total ∈ block title kind lines total := by
  simp [block]

/-- The output has the total of placeholder tests. -/
theorem totalLine_placeholder (files : List PlaceholderFile)
    (some : 0 < (countPlaceholderTests files).1) :
    totalLine "placeholder".toList (countPlaceholderTests files) ∈ outputText files := by
  have shown : ¬((countPlaceholderTests files).1 = 0 ∧ (countDisabledTests files).1 = 0) :=
    fun nothing => absurd nothing.1 some.ne'
  unfold outputText
  rw [if_neg shown, if_pos some]
  exact List.mem_append_left _ (totalLine_mem_block _ _ _ _)

/-- The output has the total of disabled tests. -/
theorem totalLine_disabled (files : List PlaceholderFile)
    (some : 0 < (countDisabledTests files).1) :
    totalLine "disabled".toList (countDisabledTests files) ∈ outputText files := by
  have shown : ¬((countPlaceholderTests files).1 = 0 ∧ (countDisabledTests files).1 = 0) :=
    fun nothing => absurd nothing.2 some.ne'
  unfold outputText
  rw [if_neg shown, if_pos some]
  exact List.mem_append_right _ (List.mem_cons_of_mem _ (totalLine_mem_block _ _ _ _))

/-- The text report is read back as the node ids of both categories.

Proof: the lines are read block by block, and what stands around the tests is no test. -/
theorem readLines_outputText (files : List PlaceholderFile)
    (legible : ∀ file ∈ files, Legible file) :
    readLines [] (outputText files) =
      files.flatMap placeholderTests.nodeIds ++ files.flatMap disabledTests.nodeIds := by
  have noTests := placeholderTests.nodeIds_of_count files
  have noDisabled := disabledTests.nodeIds_of_count files
  have firstBlock := placeholderTests.readLines_block files legible
    "STD PLACEHOLDER TESTS (not yet implemented)".toList "placeholder".toList (by decide)
    (countPlaceholderTests files)
  have secondBlock := disabledTests.readLines_block files legible
    "DISABLED TESTS (implemented but marked __test__ = False)".toList "disabled".toList (by decide)
    (countDisabledTests files)
  unfold outputText
  dsimp only
  split
  · rename_i nothing
    rw [noTests nothing.1, noDisabled nothing.2]
    rfl
  · have first (rest : List Text) : ∃ last, readLines []
        ((if 0 < (countPlaceholderTests files).1 then
        block "STD PLACEHOLDER TESTS (not yet implemented)".toList "placeholder".toList
          (files.flatMap formatPlaceholderLines) (countPlaceholderTests files)
        else []) ++ rest) = files.flatMap placeholderTests.nodeIds ++ readLines last rest := by
      split
      · exact ⟨_, firstBlock [] rest⟩
      · rename_i none
        rw [noTests (Nat.eq_zero_of_not_pos none)]
        exact ⟨[], rfl⟩
    obtain ⟨last, tests⟩ := first (if 0 < (countDisabledTests files).1 then
        [] :: block "DISABLED TESTS (implemented but marked __test__ = False)".toList
          "disabled".toList (files.flatMap formatDisabledLines) (countDisabledTests files)
      else [])
    rw [tests]
    congr 1
    split
    · have opening : ([] : Text).head? ≠ some ' ' := nofun
      have block := secondBlock [] []
      rw [List.append_nil] at block
      rw [readLines_heading last [] _ opening]
      exact block.trans (List.append_nil _)
    · rename_i none
      rw [noDisabled (Nat.eq_zero_of_not_pos none)]
      rfl

/-- The two formats report the same tests in the same order, the placeholders first, and the totals
of both are the numbers of these tests and of the files that have some. -/
theorem formats_agree (testsDir : List ScannedPath)
    (distinct : (testsDir.map ScannedPath.relativePath).Nodup)
    (legible : ∀ file ∈ scanPlaceholderTests testsDir, Legible file) :
    let files := scanPlaceholderTests testsDir
    let report := outputJson files
    readLines [] (outputText files) = report.placeholder.listed ++ report.disabled.listed ∧
      (report.placeholder.totalTests = report.placeholder.listed.length ∧
        report.placeholder.totalFiles = report.placeholder.files.items.length) ∧
      (report.disabled.totalTests = report.disabled.listed.length ∧
        report.disabled.totalFiles = report.disabled.files.items.length) ∧
      (0 < report.placeholder.totalTests →
        totalLine "placeholder".toList
          (report.placeholder.totalTests, report.placeholder.totalFiles) ∈ outputText files) ∧
      (0 < report.disabled.totalTests →
        totalLine "disabled".toList (report.disabled.totalTests, report.disabled.totalFiles) ∈
          outputText files) := by
  have paths := scan_paths_nodup testsDir distinct
  generalize scanPlaceholderTests testsDir = files at paths legible
  refine ⟨?_, placeholderTests.report_totals files paths, disabledTests.report_totals files paths,
    totalLine_placeholder files, totalLine_disabled files⟩
  have placeholders : (outputJson files).placeholder.listed =
      files.flatMap placeholderTests.nodeIds := placeholderTests.listed_report files paths
  have disabled : (outputJson files).disabled.listed = files.flatMap disabledTests.nodeIds :=
    disabledTests.listed_report files paths
  rw [placeholders, disabled]
  exact readLines_outputText files legible

/-! ## Two modules with placeholders and a disabled test -/

/-- A method with only `self`, on the given line. -/
def sampleMethod (number line : Nat) (name : String) (body decorators : List AST) : AST :=
  .functionDef ⟨number, line, line + body.length⟩ false name
    (.arguments ⟨number + 1, line, line⟩ [] [.arg ⟨number + 2, line, line⟩ "self" none] none [] []
      none []) body decorators none

/-- `__test__ = False` on the given line. -/
def testFalseStatement (number line : Nat) : AST :=
  .assign ⟨number, line, line⟩ [.name ⟨number + 1, line, line⟩ "__test__" .store]
    (.constant ⟨number + 2, line, line⟩ (.bool false))

/-- A string as a statement. -/
def docstringStatement (number line : Nat) (value : String) : AST :=
  .exprStmt ⟨number, line, line⟩ (.constant ⟨number + 1, line, line⟩ (.str value))

/-- A class that is not collected, with a placeholder and an implemented test. -/
def diskModule : List AST :=
  [.classDef ⟨0, 1, 9⟩ "TestDisk" [] []
    [testFalseStatement 1 2,
      sampleMethod 4 4 "test_attach" [docstringStatement 7 5 "Attach a disk."] [],
      sampleMethod 9 7 "test_detach"
        [docstringStatement 12 8 "Detach a disk.",
          .exprStmt ⟨14, 9, 9⟩ (.call ⟨15, 9, 9⟩ (.name ⟨16, 9, 9⟩ "detach" .load) [] [])] []] []]

/-- A module with one class of the scan, a placeholder and a disabled test in it. -/
def diskSource : Source where
  text := unlines ["class TestDisk:", "    __test__ = False", "", "    def test_attach(self):",
    "        \"\"\"Attach a disk.\"\"\"", "", "    def test_detach(self):",
    "        \"\"\"Detach a disk.\"\"\"", "        detach()"]
  tree := some diskModule

/-- A module that is not collected, with a placeholder of its own. -/
def pingModule : List AST :=
  [testFalseStatement 0 1,
    .functionDef ⟨3, 4, 5⟩ false "test_ping" (.arguments ⟨4, 4, 4⟩ [] [] none [] [] none [])
      [docstringStatement 5 5 "Ping a VM."]
      [.call ⟨7, 3, 3⟩ (.attribute ⟨8, 3, 3⟩ (.attribute ⟨9, 3, 3⟩ (.name ⟨10, 3, 3⟩ "pytest" .load)
        "mark") "polarion") [.constant ⟨11, 3, 3⟩ (.str "CNV-7")] []] none]

/-- A module that is disabled itself, with a standalone placeholder. -/
def pingSource : Source where
  text := unlines ["__test__ = False", "", "@pytest.mark.polarion(\"CNV-7\")", "def test_ping():",
    "    \"\"\"Ping a VM.\"\"\""]
  tree := some pingModule

/-- A directory with both modules. -/
def diskTests : List ScannedPath :=
  [⟨"tests/storage/test_disk.py", some diskSource⟩,
    ⟨"tests/network/test_ping.py", some pingSource⟩]

/-- What the scan finds in the directory. -/
theorem diskTests_scan :
    scanPlaceholderTests diskTests =
      [⟨"tests/storage/test_disk.py", [⟨"TestDisk", ["test_attach"], ["test_detach"]⟩], [], []⟩,
        ⟨"tests/network/test_ping.py", [], ["test_ping"], []⟩] := by
  decide +kernel

/-- Both formats list its tests, by the general theorem. -/
theorem disk_formats_agree :
    let files := scanPlaceholderTests diskTests
    let report := outputJson files
    readLines [] (outputText files) = report.placeholder.listed ++ report.disabled.listed ∧
      (report.placeholder.totalTests = report.placeholder.listed.length ∧
        report.placeholder.totalFiles = report.placeholder.files.items.length) ∧
      (report.disabled.totalTests = report.disabled.listed.length ∧
        report.disabled.totalFiles = report.disabled.files.items.length) ∧
      (0 < report.placeholder.totalTests →
        totalLine "placeholder".toList
          (report.placeholder.totalTests, report.placeholder.totalFiles) ∈ outputText files) ∧
      (0 < report.disabled.totalTests →
        totalLine "disabled".toList (report.disabled.totalTests, report.disabled.totalFiles) ∈
          outputText files) := by
  apply formats_agree
  · decide
  · rw [diskTests_scan]
    intro file inside
    rw [List.mem_pair] at inside
    rcases inside with rfl | rfl
    · constructor
      · decide +kernel
      · intro cls listed
        rw [List.mem_singleton] at listed
        subst listed
        decide +kernel
    · constructor
      · decide +kernel
      · intro cls listed
        cases listed

end VirtTestTools.Placeholders
