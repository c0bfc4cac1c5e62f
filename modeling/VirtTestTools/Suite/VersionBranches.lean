import Mathlib.Data.List.Sort
import Mathlib.Data.List.TakeWhile
import Mathlib.Data.Prod.Lex
import VirtTestTools.Dict
import VirtTestTools.KeySort
import VirtTestTools.Numerals

/-!
# Version branches

The dashboard scans the main branch of a repository and those of its versions, the highest
first. The names come from `git branch`, are matched with a pattern, sorted by a key and
compared with the lowest version of the repository. The pattern, the key and the comparison
read a name in three ways.
-/

namespace VirtTestTools.Suite

open Text

/-! ## The branches of a repository -/

/-- The main branch. -/
def mainBranch : Text := "main".toList

/-- `str.replace`. -/
def replaceAll (old new text : Text) : Text := new.intercalate (split old text)

section Branches

variable (digits : Digits)

/-- `CNV_BRANCH_PATTERN.match`, where the end may be a last line feed. -/
def cnvBranchPattern (branch : Text) : Bool :=
  match literal "cnv-".toList branch with
  | none => false
  | some rest =>
    match rest.dropWhile digits.isDigit with
    | '.' :: more =>
      decide (rest.takeWhile digits.isDigit ≠ []) && decide (more.takeWhile digits.isDigit ≠ []) &&
        (decide (more.dropWhile digits.isDigit = []) ||
          decide (more.dropWhile digits.isDigit = ['\n']))
    | _ => false

/-- `is_valid_branch`. -/
def isValidBranch (branch : Text) : Bool :=
  decide (branch = mainBranch) || cnvBranchPattern digits branch

/-- The two integers of a version; `none` is another number of parts, or a `ValueError`. -/
def versionParts (text : Text) : Option (Int × Int) :=
  match split ['.'] text with
  | [major, minor] =>
    (digits.parseInt major).bind fun first =>
      (digits.parseInt minor).map fun second => (first, second)
  | _ => none

/-- `sort_key`. -/
def sortKey (branch : Text) : ℤ ×ₗ ℤ ×ₗ ℤ :=
  if branch = mainBranch then toLex (0, toLex (0, 0))
  else if cnvBranchPattern digits branch then
    match versionParts digits (replaceAll "cnv-".toList [] branch) with
    | some (major, minor) => toLex (1, toLex (-major, -minor))
    | none => toLex (2, toLex (0, 0))
  else toLex (2, toLex (0, 0))

/-- `sort_branches`. -/
def sortBranches (branches : List Text) : List Text := sortedBy (sortKey digits) branches

/-- The names that `git branch` prints, without the name of the remote. -/
def listedBranches (stdout : Text) : List Text :=
  (split ['\n'] (strip stdout)).filterMap fun line =>
    if strip line = [] then none
    else some (strip (replaceAll "origin/".toList [] (strip line)))

/-- `get_valid_branches`, for what `git branch` prints. -/
def getValidBranches (stdout : Text) : List Text :=
  sortBranches digits ((listedBranches stdout).filter (isValidBranch digits))

/-- Whether `filter_branches_for_repo` keeps a branch of a repository with a lowest version. -/
def reachesVersion (minimum : Int × Int) (branch : Text) : Bool :=
  if branch = mainBranch then true
  else if startsWith "cnv-".toList branch then
    (versionParts digits (branch.drop 4)).any fun version => decide (toLex minimum ≤ toLex version)
  else false

/-- `REPO_MIN_VERSIONS`. -/
def repoMinVersions : Dict Text (Int × Int) :=
  Dict.empty.set "RedHatQE/cnv-tests".toList (4, 14)

/-- `filter_branches_for_repo`. -/
def filterBranchesForRepo (repo : Text) (branches : List Text) : List Text :=
  match repoMinVersions.get repo with
  | none => branches
  | some minimum => branches.filter (reachesVersion digits minimum)

/-! ## Versions -/

/-- The branch of a version. -/
def IsVersion (branch : Text) (version : ℕ × ℕ) : Prop :=
  ∃ major minor, branch = "cnv-".toList ++ major ++ '.' :: minor ∧
    digits.numeral major = some version.1 ∧ digits.numeral minor = some version.2

/-- A numeral has digits only, and at least one. -/
theorem numeral_digits {text : Text} {value : ℕ} (read : digits.numeral text = some value) :
    text ≠ [] ∧ ∀ character ∈ text, digits.isDigit character = true :=
  (digits.numeral_isSome_iff text).mp (Option.isSome_iff_exists.mpr ⟨value, read⟩)

/-- A dot is no digit. -/
theorem dot_not_digit : digits.isDigit '.' = false :=
  digits.isDigit_eq_false '.' (by decide) (by decide)

/-- A version is read from the two numerals around a dot. -/
theorem versionParts_numerals {major minor : Text} {version : ℕ × ℕ}
    (readMajor : digits.numeral major = some version.1)
    (readMinor : digits.numeral minor = some version.2) :
    versionParts digits (major ++ '.' :: minor) = some ((version.1 : ℤ), (version.2 : ℤ)) := by
  have undotted {text : Text} {value : ℕ} (read : digits.numeral text = some value) :
      '.' ∉ text := by
    intro inside
    have digit := (numeral_digits digits read).2 '.' inside
    rw [dot_not_digit] at digit
    cases digit
  have pieces : split ['.'] (major ++ '.' :: minor) = [major, minor] := by
    rw [split_char '.' major minor (undotted readMajor), split_absent]
    rw [Bool.eq_false_iff, ne_eq, contains_iff]
    rintro ⟨before, after, rfl⟩
    exact undotted readMinor (by simp)
  rw [versionParts, pieces]
  simp only [digits.parseInt_of_numeral major _ readMajor,
    digits.parseInt_of_numeral minor _ readMinor, Option.bind_some, Option.map_some]

/-- A literal that is taken off was there. -/
theorem eq_append_of_literal {expected text rest : Text}
    (opened : literal expected text = some rest) :
    text = expected ++ rest := by
  unfold literal startsWith at opened
  split at opened
  · rename_i isPrefix
    obtain ⟨more, rfl⟩ := List.isPrefixOf_iff_prefix.mp isPrefix
    rw [List.drop_left, Option.some.injEq] at opened
    rw [opened]
  · cases opened

/-- A version branch matches the pattern. -/
theorem cnvBranchPattern_version {branch : Text} {version : ℕ × ℕ}
    (isVersion : IsVersion digits branch version) : cnvBranchPattern digits branch = true := by
  obtain ⟨major, minor, rfl, readMajor, readMinor⟩ := isVersion
  obtain ⟨someMajor, allMajor⟩ := numeral_digits digits readMajor
  obtain ⟨someMinor, allMinor⟩ := numeral_digits digits readMinor
  have opened : literal "cnv-".toList ("cnv-".toList ++ major ++ '.' :: minor) =
      some (major ++ '.' :: minor) := by
    rw [List.append_assoc, literal_append]
  have undotted : ¬ digits.isDigit '.' = true := by
    rw [dot_not_digit]
    exact Bool.false_ne_true
  unfold cnvBranchPattern
  rw [opened]
  simp only [List.dropWhile_append_of_pos allMajor, List.takeWhile_append_of_pos allMajor,
    List.dropWhile_cons_of_neg undotted, List.takeWhile_cons_of_neg undotted, List.append_nil,
    List.takeWhile_eq_self_iff.mpr allMinor, List.dropWhile_eq_nil_iff.mpr allMinor]
  simp [someMajor, someMinor]

/-- What the pattern matches is the branch of a version, if no line feed ends it. -/
theorem exists_version {branch : Text} (matched : cnvBranchPattern digits branch = true)
    (closed : branch.getLast? ≠ some '\n') : ∃ version, IsVersion digits branch version := by
  have read {text : Text} (present : text ≠ []) (all : ∀ c ∈ text, digits.isDigit c = true) :
      ∃ value, digits.numeral text = some value :=
    Option.isSome_iff_exists.mp ((digits.numeral_isSome_iff text).mpr ⟨present, all⟩)
  have taken (text : Text) : ∀ c ∈ text.takeWhile digits.isDigit, digits.isDigit c = true :=
    fun _ inside => List.mem_takeWhile_imp inside
  unfold cnvBranchPattern at matched
  split at matched
  · cases matched
  · rename_i rest opened
    split at matched
    · rename_i more dotted
      simp only [Bool.and_eq_true, Bool.or_eq_true, decide_eq_true_eq] at matched
      obtain ⟨⟨someMajor, someMinor⟩, ended⟩ := matched
      have shape : branch = "cnv-".toList ++ rest := eq_append_of_literal opened
      have major := List.takeWhile_append_dropWhile (p := digits.isDigit) (l := rest)
      have minor := List.takeWhile_append_dropWhile (p := digits.isDigit) (l := more)
      rw [dotted] at major
      obtain ended | ended := ended
      · rw [ended, List.append_nil] at minor
        obtain ⟨first, readMajor⟩ := read someMajor (taken rest)
        obtain ⟨second, readMinor⟩ := read someMinor (taken more)
        refine ⟨(first, second), rest.takeWhile digits.isDigit, more.takeWhile digits.isDigit, ?_,
          readMajor, readMinor⟩
        rw [shape, minor, List.append_assoc, major]
      · rw [ended] at minor
        refine absurd ?_ closed
        rw [shape, ← major, ← minor, List.append_cons, ← List.append_assoc, ← List.append_assoc,
          List.getLast?_concat]
    · cases matched

section Version

variable {branch : Text} {version : ℕ × ℕ} (isVersion : IsVersion digits branch version)

include isVersion

/-- A version branch is not the main one. -/
theorem ne_main_of_version : branch ≠ mainBranch := by
  obtain ⟨major, minor, rfl, -⟩ := isVersion
  intro same
  cases List.cons.inj same |>.1

/-- The key of a version reads its two numbers. -/
theorem sortKey_version :
    sortKey digits branch = toLex (1, toLex (-(version.1 : ℤ), -(version.2 : ℤ))) := by
  have matched := cnvBranchPattern_version digits isVersion
  have other := ne_main_of_version digits isVersion
  obtain ⟨major, minor, rfl, readMajor, readMinor⟩ := isVersion
  have plain : ∀ character ∈ major ++ '.' :: minor, character ≠ 'c' := by
    have digitNe {text : Text} (all : ∀ c ∈ text, digits.isDigit c = true) :
        ∀ character ∈ text, character ≠ 'c' := by
      rintro _ inside rfl
      have digit := all 'c' inside
      rw [digits.isDigit_eq_false 'c' (by decide) (by decide)] at digit
      cases digit
    intro character inside
    rw [List.mem_append, List.mem_cons] at inside
    obtain inMajor | rfl | inMinor := inside
    · exact digitNe (numeral_digits digits readMajor).2 character inMajor
    · decide
    · exact digitNe (numeral_digits digits readMinor).2 character inMinor
  have removed : replaceAll "cnv-".toList [] ("cnv-".toList ++ major ++ '.' :: minor) =
      major ++ '.' :: minor := by
    have absent : contains "cnv-".toList (major ++ '.' :: minor) = false := by
      rw [Bool.eq_false_iff, ne_eq, contains_iff]
      rintro ⟨before, after, shape⟩
      have inside : 'c' ∈ major ++ '.' :: minor := by
        rw [shape]
        simp
      exact plain 'c' inside rfl
    have pieces := splitFrom_first "cnv-".toList [] [] (major ++ '.' :: minor) (by decide) (by
      intro tail present ending
      exact absurd (List.suffix_nil.mp ending) present)
    have rest := splitFrom_absent "cnv-".toList [] _ absent
    rw [List.nil_append, rest] at pieces
    rw [replaceAll, split, List.append_assoc, pieces]
    simp [List.intercalate_cons_cons]
  rw [sortKey, if_neg other, if_pos matched, removed,
    versionParts_numerals digits readMajor readMinor]

/-- A version is kept if it is not below the lowest one. -/
theorem reachesVersion_version (minimum : Int × Int) :
    reachesVersion digits minimum branch =
      decide (toLex minimum ≤ toLex ((version.1 : ℤ), (version.2 : ℤ))) := by
  have other := ne_main_of_version digits isVersion
  obtain ⟨major, minor, rfl, readMajor, readMinor⟩ := isVersion
  have opened : startsWith "cnv-".toList ("cnv-".toList ++ major ++ '.' :: minor) = true := by
    rw [List.append_assoc]
    exact startsWith_append _ _
  have cut : ("cnv-".toList ++ major ++ '.' :: minor).drop 4 = major ++ '.' :: minor := by
    rw [List.append_assoc]
    rfl
  rw [reachesVersion, if_neg other, if_pos opened, cut,
    versionParts_numerals digits readMajor readMinor, Option.any_some]

end Version

/-! ## The branches that are scanned -/

/-- White space at the end is gone. -/
theorem strip_getLast (text : Text) : (strip text).getLast? ≠ some '\n' := by
  intro ended
  rw [strip, List.getLast?_reverse] at ended
  have spaced := List.head?_dropWhile_not isSpace (lstrip text).reverse
  rw [lstrip] at ended
  rw [ended] at spaced
  cases spaced

/-- A valid branch that is printed is the main one or that of a version. -/
theorem listed_cases (stdout branch : Text) (listed : branch ∈ listedBranches stdout) :
    isValidBranch digits branch = true ↔
      branch = mainBranch ∨ ∃ version, IsVersion digits branch version := by
  obtain ⟨line, -, named⟩ := List.mem_filterMap.mp listed
  split at named
  · cases named
  · cases named
    rw [isValidBranch, Bool.or_eq_true, decide_eq_true_eq]
    apply or_congr_right
    constructor
    · exact fun matched => exists_version digits matched (strip_getLast _)
    · exact fun ⟨_, isVersion⟩ => cnvBranchPattern_version digits isVersion

/-- The valid branches are the listed ones that are the main one or a version. -/
theorem mem_getValidBranches (stdout branch : Text) : branch ∈ getValidBranches digits stdout ↔
    branch ∈ listedBranches stdout ∧
      (branch = mainBranch ∨ ∃ version, IsVersion digits branch version) := by
  rw [getValidBranches, sortBranches, mem_sortedBy, List.mem_filter]
  apply and_congr_right
  exact fun listed => listed_cases digits stdout branch listed

/-- The key of the main branch is below those of versions, and the key of a higher version is below
that of a lower one. -/
theorem getValidBranches_sorted (stdout : Text) :
    (getValidBranches digits stdout).Pairwise fun first second =>
      first = mainBranch ∨ ∃ higher lower, IsVersion digits first higher ∧
        IsVersion digits second lower ∧ toLex lower ≤ toLex higher := by
  have ascending := pairwise_sortedBy (sortKey digits)
    ((listedBranches stdout).filter (isValidBranch digits))
  apply ascending.imp_of_mem
  intro first second firstInside secondInside keys
  obtain main | ⟨higher, isHigher⟩ := ((mem_getValidBranches digits stdout _).mp firstInside).2
  · exact Or.inl main
  · rw [sortKey_version digits isHigher] at keys
    obtain rfl | ⟨lower, isLower⟩ := ((mem_getValidBranches digits stdout _).mp secondInside).2
    · have mainKey : sortKey digits mainBranch = toLex (0, toLex (0, 0)) := if_pos rfl
      rw [mainKey, Prod.Lex.toLex_le_toLex] at keys
      simp at keys
    · rw [sortKey_version digits isLower, Prod.Lex.toLex_le_toLex, Prod.Lex.toLex_le_toLex] at keys
      refine Or.inr ⟨higher, lower, isHigher, isLower, ?_⟩
      rw [Prod.Lex.toLex_le_toLex]
      simp only at keys
      omega

/-- Whether a branch is scanned: the main one always is, and that of a version if the version is not
below the lowest one of the repository. -/
def Scanned (repo branch : Text) : Prop :=
  branch = mainBranch ∨ ∃ version, IsVersion digits branch version ∧
    ∀ minimum, repoMinVersions.get repo = some minimum →
      toLex minimum ≤ toLex ((version.1 : ℤ), (version.2 : ℤ))

/-- Of the branches that git prints the main one is scanned first, and then those of versions that
are high enough, the highest first; versions are compared as numbers. No other branch is scanned,
and none of these is left out.

Proof: for a branch of a version the pattern, the key and the comparison read the same two numerals.
-/
theorem scanned_branches (repo stdout : Text) :
    (∀ branch, branch ∈ filterBranchesForRepo digits repo (getValidBranches digits stdout) ↔
      branch ∈ listedBranches stdout ∧ Scanned digits repo branch) ∧
      (filterBranchesForRepo digits repo (getValidBranches digits stdout)).Pairwise
        fun first second => first = mainBranch ∨ ∃ higher lower,
          IsVersion digits first higher ∧ IsVersion digits second lower ∧
            toLex lower ≤ toLex higher := by
  have valid := mem_getValidBranches digits stdout
  have sorted := getValidBranches_sorted digits stdout
  unfold filterBranchesForRepo Scanned
  cases repoMinVersions.get repo with
  | none =>
    refine ⟨fun branch => (valid branch).trans (and_congr_right fun _ => ?_), sorted⟩
    simp
  | some minimum =>
    refine ⟨fun branch => ?_, sorted.filter _⟩
    rw [List.mem_filter, valid, and_assoc]
    apply and_congr_right
    intro _
    constructor
    · rintro ⟨main | ⟨version, isVersion⟩, reaches⟩
      · exact Or.inl main
      · rw [reachesVersion_version digits isVersion, decide_eq_true_eq] at reaches
        refine Or.inr ⟨version, isVersion, ?_⟩
        rintro _ ⟨⟩
        exact reaches
    · rintro (rfl | ⟨version, isVersion, reaches⟩)
      · exact ⟨Or.inl rfl, if_pos rfl⟩
      · refine ⟨Or.inr ⟨version, isVersion⟩, ?_⟩
        rw [reachesVersion_version digits isVersion]
        exact decide_eq_true (reaches minimum rfl)

end Branches

end VirtTestTools.Suite
