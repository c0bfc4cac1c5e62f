import VirtTestTools.Matches
import VirtTestTools.Dict
import VirtTestTools.Policy.Violations

/-!
# Links to test plans

A test docstring must link to a ticket or to a test plan (STP) in the design-docs
repository. `check_test_std.py` decides whether a docstring has such a link;
`check_stp_links.py` collects the links to test plans from the source and compares
their paths with the documents that are merged. The two use different patterns.
This module says exactly which accepted links are also collected.
-/

namespace VirtTestTools.Policy

open Text

/-- The text after `https?://`, without regard to case. -/
def afterScheme (text : Text) : Option Text :=
  (literalIgnoringCase "https://".toList text).or (literalIgnoringCase "http://".toList text)

/-- The text after the part that both patterns share: the scheme, the repository,
and `blob/` or `tree/`. -/
def afterStpHead (text : Text) : Option Text :=
  (afterScheme text).bind fun host =>
  (literalIgnoringCase
    "github.com/RedHatQE/openshift-virtualization-tests-design-docs/".toList host).bind fun kind =>
  (literalIgnoringCase "blob/".toList kind).or (literalIgnoringCase "tree/".toList kind)

/-- The class `[^\s/]`. -/
def isRefCharacter (character : Char) : Bool := !isSpace character && character != '/'

/-- The class `[^\s)>\]#?]`. -/
def isPathCharacter (character : Char) : Bool :=
  !isSpace character && !(")>]#?".toList.contains character)

/-- The class `[^\s)>\]]`. -/
def isUrlCharacter (character : Char) : Bool :=
  !isSpace character && !(")>]".toList.contains character)

/-- A match of `_STP_URL` of `check_stp_links.py`, with its group `path`. -/
structure StpMatch where
  text : Text
  path : Text

/-- `_STP_URL` of `check_stp_links.py` at the start of a text. The ref is the run
up to the next slash, since its class has no slash. -/
def stpMatch (text : Text) : Option StpMatch :=
  match afterStpHead text with
  | none => none
  | some rest =>
    let ref := rest.takeWhile isRefCharacter
    match ref, literalIgnoringCase "/stps/".toList (rest.drop ref.length) with
    | [], _ => none
    | _, none => none
    | _, some tail =>
      match tail.takeWhile isPathCharacter with
      | [] => none
      | path =>
        some
          { text := text.take (text.length - tail.length + path.length)
            path := (rest.drop (ref.length + 1)).take (5 + path.length) }

/-- The text of the match. -/
def stpUrl (text : Text) : Option Text := (stpMatch text).map StpMatch.text

/-- `str.rstrip` with a set of characters. -/
def rstripCharacters (characters text : Text) : Text :=
  (text.reverse.dropWhile (fun character => decide (character ∈ characters))).reverse

/-- `_reference_path`. -/
def referencePath (url : Text) : Text :=
  match stpMatch url with
  | some found => rstripCharacters ['/'] found.path
  | none => []

/-- What is stripped from the end of a match. -/
def trailingPunctuation : Text := ".,;:!'\"".toList

/-- The key under which a match is recorded. -/
def referenceKey (match_ : Text) : Text := rstripCharacters trailingPunctuation match_

/-- `dict.setdefault`. -/
def setDefault (references : Dict Text Nat) (key : Text) (lineNumber : Nat) : Dict Text Nat :=
  if references.has key then references else references.set key lineNumber

/-- The references of one line. -/
def addLineReferences (references : Dict Text Nat) (numbered : Text × Nat) : Dict Text Nat :=
  (findall stpUrl numbered.1).foldl
    (fun current found => setDefault current (referenceKey found) numbered.2) references

/-- Whether a line is inspected: `None` stands for every line. -/
def isInspected (addedLines : Option (List Nat)) (lineNumber : Nat) : Bool :=
  match addedLines with
  | none => true
  | some lines => lines.contains lineNumber

/-- `stp_references`. -/
def stpReferences (source : Text) (addedLines : Option (List Nat)) : Dict Text Nat :=
  (((split ['\n'] source).zipIdx 1).filter (fun numbered => isInspected addedLines numbered.2)).foldl
    addLineReferences ∅

/-- The message of `check_stp_links`. -/
def stpMessage (url : Text) : FsText :=
  FsText.ofString ("stp-links: STP document is not merged in " ++
    "RedHatQE/openshift-virtualization-tests-design-docs on the default branch: ") ++
    FsText.ofText url

/-- `check_stp_links`. -/
def checkStpLinks (filePath : Path) (references : Dict Text Nat) (mergedPaths : List Text) :
    List PolicyViolation :=
  ((references.items.mergeSort (fun left right => decide (left.2 ≤ right.2))).filter
      (fun item => !mergedPaths.contains (referencePath item.1))).map
    (fun item => ⟨filePath, some item.2, stpMessage item.1⟩)

/-- `_TRACKING_URL` at the start of a text; it minds the case of the scheme. -/
def trackingUrl (text : Text) : Option Text :=
  match (literal "https://".toList text).or (literal "http://".toList text) with
  | none => none
  | some rest =>
    match rest.takeWhile isUrlCharacter with
    | [] => none
    | run => some (text.take (text.length - rest.length + run.length))

/-- Whether a literal occurs in a text, without regard to case. -/
def containsIgnoringCase (piece : Text) : Text → Bool
  | [] => (literalIgnoringCase piece []).isSome
  | character :: rest =>
    (literalIgnoringCase piece (character :: rest)).isSome || containsIgnoringCase piece rest

/-- `_STP_URL.match` of `check_test_std.py`: anything but white space may stand
between `blob/` or `tree/` and `/stps/`. -/
def isStpUrl (url : Text) : Bool :=
  match afterStpHead url with
  | none => false
  | some rest => containsIgnoringCase "/stps/".toList (rest.takeWhile (fun c => !isSpace c))

/-- The class `[A-Z]`, without regard to case. -/
def isLetter (character : Char) : Bool :=
  "ABCDEFGHIJKLMNOPQRSTUVWXYZ".toList.any (matchesIgnoringCase · character)

/-- The rest of a ticket key behind its project: a hyphen and a number. -/
def isTicketNumber (isDecimal : Char → Bool) : Text → Bool
  | '-' :: number => !number.isEmpty && number.all isDecimal
  | _ => false

/-- `[A-Z][A-Z0-9]+-\d+` on a whole text. The class `\d` ranges over all decimal
digits of Unicode and is a parameter. -/
def isTicketKey (isDecimal : Char → Bool) : Text → Bool
  | first :: rest =>
    let inProject := fun character : Char => isLetter character || character.isDigit
    isLetter first && !(rest.takeWhile inProject).isEmpty &&
      isTicketNumber isDecimal (rest.dropWhile inProject)
  | [] => false

/-- `_JIRA_URL.fullmatch`. -/
def isJiraUrl (isDecimal : Char → Bool) (url : Text) : Bool :=
  match (afterScheme url).bind fun host =>
      (literalIgnoringCase "issues.redhat.com/browse/".toList host).or
        (literalIgnoringCase "redhat.atlassian.net/browse/".toList host) with
  | some key => isTicketKey isDecimal key
  | none => false

/-- `_has_tracking_url`. -/
def hasTrackingUrl (isDecimal : Char → Bool) (docstrings : List Text) : Bool :=
  docstrings.any fun docstring =>
    (splitlines docstring).any fun line =>
      (findall trackingUrl line).any fun url => isJiraUrl isDecimal url || isStpUrl url

/-- The scheme of a longer text. -/
theorem afterScheme_append (text rest more : Text) (found : afterScheme text = some rest) :
    afterScheme (text ++ more) = some (rest ++ more) := by
  simp only [afterScheme] at found ⊢
  cases secure : literalIgnoringCase "https://".toList text with
  | some host =>
    rw [secure] at found
    cases found
    rw [literalIgnoringCase_append _ text rest more secure]
    rfl
  | none =>
    rw [secure, Option.none_or] at found
    have shared : "http://".toList = "http".toList ++ "://".toList := rfl
    have sharedSecure : "https://".toList = "http".toList ++ "s://".toList := rfl
    -- the character after `http` is a colon, so the longer text has no `https` either
    have insecure : literalIgnoringCase "https://".toList (text ++ more) = none := by
      rw [shared, literalIgnoringCase_two] at found
      obtain ⟨behind, opening, colon⟩ := Option.bind_eq_some_iff.mp found
      rw [sharedSecure, literalIgnoringCase_two, literalIgnoringCase_append _ _ _ more opening]
      cases behind with
      | nil => cases colon
      | cons character behind =>
        have isColon : matchesIgnoringCase ':' character = true := by
          by_contra other
          have none : literalIgnoringCase "://".toList (character :: behind) = none :=
            if_neg other
          rw [none] at colon
          cases colon
        rw [eq_of_matchesIgnoringCase ':' character (by decide) isColon]
        rfl
    rw [insecure, literalIgnoringCase_append _ text rest more found]
    rfl

/-- The kind of page of a longer text. -/
theorem kind_append (text rest more : Text)
    (found : (literalIgnoringCase "blob/".toList text).or
      (literalIgnoringCase "tree/".toList text) = some rest) :
    (literalIgnoringCase "blob/".toList (text ++ more)).or
      (literalIgnoringCase "tree/".toList (text ++ more)) = some (rest ++ more) := by
  cases blob : literalIgnoringCase "blob/".toList text with
  | some behind =>
    rw [blob] at found
    cases found
    rw [literalIgnoringCase_append _ text rest more blob]
    rfl
  | none =>
    rw [blob, Option.none_or] at found
    have notBlob : literalIgnoringCase "blob/".toList (text ++ more) = none := by
      cases text with
      | nil => cases found
      | cons character text =>
        have isT : matchesIgnoringCase 't' character = true := by
          by_contra other
          have none : literalIgnoringCase "tree/".toList (character :: text) = none :=
            if_neg other
          rw [none] at found
          cases found
        have notB : matchesIgnoringCase 'b' character ≠ true := by
          intro isB
          simp [matchesIgnoringCase] at isT isB
          rw [isB] at isT
          revert isT
          decide
        exact if_neg notB
    rw [notBlob, literalIgnoringCase_append _ text rest more found]
    rfl

/-- The shared part of the patterns in a longer text. -/
theorem afterStpHead_append (text rest more : Text) (found : afterStpHead text = some rest) :
    afterStpHead (text ++ more) = some (rest ++ more) := by
  simp only [afterStpHead] at found ⊢
  obtain ⟨host, scheme, behindScheme⟩ := Option.bind_eq_some_iff.mp found
  obtain ⟨kind, repository, behindKind⟩ := Option.bind_eq_some_iff.mp behindScheme
  rw [afterScheme_append text host more scheme, Option.bind_some,
    literalIgnoringCase_append _ host kind more repository, Option.bind_some]
  exact kind_append kind rest more behindKind

/-- Between `blob/` or `tree/` and `/stps/` stands one nonempty segment, and
`/stps/` is followed by a character of a path. -/
def SingleRef (rest : Text) : Prop :=
  ∃ ref stps character tail, rest = ref ++ (stps ++ character :: tail) ∧ ref ≠ [] ∧
    (∀ other ∈ ref, isRefCharacter other = true) ∧
    literalIgnoringCase "/stps/".toList stps = some [] ∧ isPathCharacter character = true

/-- The literal `/stps/` begins with a slash. -/
theorem head_of_stps (stps : Text) (literal : literalIgnoringCase "/stps/".toList stps = some []) :
    ∃ behind, stps = '/' :: behind := by
  cases stps with
  | nil => cases literal
  | cons character stps =>
    have isSlash : matchesIgnoringCase '/' character = true := by
      by_contra other
      have none : literalIgnoringCase "/stps/".toList (character :: stps) = none := if_neg other
      rw [none] at literal
      cases literal
    exact ⟨stps, by rw [eq_of_matchesIgnoringCase '/' character (by decide) isSlash]⟩

/-- The ref of a text that has a single one. -/
theorem takeWhile_ref (ref stps behind : Text) (all : ∀ other ∈ ref, isRefCharacter other = true)
    (literal : literalIgnoringCase "/stps/".toList stps = some []) :
    (ref ++ (stps ++ behind)).takeWhile isRefCharacter = ref := by
  obtain ⟨slashed, rfl⟩ := head_of_stps stps literal
  rw [List.takeWhile_append_of_pos all]
  simp [isRefCharacter]

/-- The pattern of `check_stp_links.py` matches exactly the links with a single
ref and a path. -/
theorem stpMatch_isSome_iff (text : Text) :
    (stpMatch text).isSome = true ↔ ∃ rest, afterStpHead text = some rest ∧ SingleRef rest := by
  simp only [stpMatch]
  cases head : afterStpHead text with
  | none => simp
  | some rest =>
    dsimp only
    have parts : rest.takeWhile isRefCharacter ++
        rest.drop (rest.takeWhile isRefCharacter).length = rest :=
      List.prefix_iff_eq_append.mp (List.takeWhile_prefix _)
    constructor
    · intro matched
      refine ⟨rest, rfl, ?_⟩
      split at matched
      · cases matched
      · cases matched
      · rename_i tail behind nonempty
        split at matched
        · cases matched
        · rename_i path
          obtain ⟨stps, same, literal⟩ := (literalIgnoringCase_eq_some_iff _ _ _).mp behind
          cases tail with
          | nil => exact absurd rfl path
          | cons character tail =>
            refine ⟨rest.takeWhile isRefCharacter, stps, character, tail, ?_, nonempty, ?_,
              literal, ?_⟩
            · rw [← same, parts]
            · intro other member
              exact List.mem_takeWhile_imp member
            · by_contra notPath
              exact path (List.takeWhile_cons_of_neg notPath)
    · rintro ⟨_, same, ref, stps, character, tail, decomposed, nonempty, all, literal, isPath⟩
      cases same
      have run : rest.takeWhile isRefCharacter = ref := by
        rw [decomposed, takeWhile_ref ref stps _ all literal]
      have behind : literalIgnoringCase "/stps/".toList
          (rest.drop (rest.takeWhile isRefCharacter).length) = some (character :: tail) := by
        rw [run, decomposed, List.drop_left]
        exact literalIgnoringCase_append _ stps [] _ literal
      rw [behind, run]
      split
      · exact absurd rfl nonempty
      · rename_i impossible
        cases impossible
      · rename_i found
        cases found
        split
        · rename_i empty
          rw [List.takeWhile_cons_of_pos isPath] at empty
          cases empty
        · rfl

/-- A match is not empty. -/
theorem stpUrl_ne_nil (text found : Text) (matched : stpUrl text = some found) : found ≠ [] := by
  obtain ⟨result, whole, rfl⟩ := Option.map_eq_some_iff.mp matched
  have nonempty : text ≠ [] := by
    rintro rfl
    cases whole
  simp only [stpMatch] at whole
  split at whole
  · cases whole
  · split at whole
    · cases whole
    · cases whole
    · split at whole
      · cases whole
      · rename_i path
        cases whole
        have positive := List.length_pos_iff.mpr path
        intro empty
        rcases List.take_eq_nil_iff.mp empty with zero | nil
        · omega
        · exact nonempty nil

/-- The keys of a dictionary that a loop fills. -/
theorem has_foldl {α : Type} (step : Dict Text Nat → α → Dict Text Nat) (adds : α → Text → Prop)
    (key : Text)
    (grows : ∀ references item,
      (step references item).has key = true ↔ references.has key = true ∨ adds item key)
    (items : List α) (references : Dict Text Nat) :
    (items.foldl step references).has key = true ↔
      references.has key = true ∨ ∃ item ∈ items, adds item key := by
  induction items generalizing references with
  | nil => simp
  | cons item rest inductionHypothesis =>
    rw [List.foldl_cons, inductionHypothesis, grows, or_assoc, List.exists_mem_cons_iff]

/-- Behind a default there is its key too. -/
theorem has_setDefault (references : Dict Text Nat) (key other : Text) (lineNumber : Nat) :
    (setDefault references key lineNumber).has other = true ↔
      references.has other = true ∨ key = other := by
  unfold setDefault
  split
  · rename_i present
    constructor
    · exact Or.inl
    · rintro (earlier | rfl)
      · exact earlier
      · exact present
  · rw [Dict.has_iff, Dict.has_iff]
    simp only [Dict.get_set]
    by_cases same : other = key
    · simp [same]
    · simp [same, Ne.symm same]

/-- Every match on a line of the source is recorded. -/
theorem has_stpReferences (source line : Text) (standing : line ∈ split ['\n'] source)
    (position : Nat) (found : Text) (matched : (position, found) ∈ finditer stpUrl line) :
    (stpReferences source none).has (referenceKey found) = true := by
  have onLine (references : Dict Text Nat) (numbered : Text × Nat) :
      (addLineReferences references numbered).has (referenceKey found) = true ↔
        references.has (referenceKey found) = true ∨
          ∃ match_ ∈ findall stpUrl numbered.1, referenceKey match_ = referenceKey found :=
    has_foldl _ (fun match_ key => referenceKey match_ = key) _
      (fun current match_ => has_setDefault current (referenceKey match_) _ numbered.2) _ _
  obtain ⟨index, bound, same⟩ := List.getElem_of_mem standing
  have numbered : (line, 1 + index) ∈ (split ['\n'] source).zipIdx 1 := by
    rw [List.mem_zipIdx_iff_le_and_getElem?_sub]
    refine ⟨Nat.le_add_right _ _, ?_⟩
    rw [Nat.add_sub_cancel_left, List.getElem?_eq_getElem bound, same]
  unfold stpReferences
  rw [has_foldl addLineReferences (fun numbered key =>
    ∃ match_ ∈ findall stpUrl numbered.1, referenceKey match_ = key) _ onLine]
  refine Or.inr ⟨(line, 1 + index), ?_, found, ?_, rfl⟩
  · exact List.mem_filter.mpr ⟨numbered, rfl⟩
  · exact List.mem_map_of_mem matched

/-- Different links have different messages. -/
theorem stpMessage_injective : Function.Injective stpMessage := by
  intro left right same
  exact FsText.ofText_injective (List.append_cancel_left same)

/-- A reference is reported exactly if its path is not merged. -/
theorem mem_checkStpLinks_iff (filePath : Path) (references : Dict Text Nat)
    (mergedPaths : List Text) (key : Text) (lineNumber : Nat)
    (recorded : references.get key = some lineNumber) :
    ⟨filePath, some lineNumber, stpMessage key⟩ ∈ checkStpLinks filePath references mergedPaths ↔
      referencePath key ∉ mergedPaths := by
  simp only [checkStpLinks, List.mem_map, List.mem_filter, List.mem_mergeSort]
  constructor
  · rintro ⟨item, ⟨-, missing⟩, same⟩
    injection same with _ _ sameMessage
    rw [stpMessage_injective sameMessage] at missing
    simpa using missing
  · intro missing
    exact ⟨(key, lineNumber), ⟨(Dict.get_eq_some_iff references key lineNumber).mp recorded,
      by simpa using missing⟩, rfl⟩

/-! ## Which links are verified -/

/-- A URL of a docstring that `_has_tracking_url` accepts as a link to a test plan. -/
def AcceptedLink (docstring url : Text) : Prop :=
  ∃ line ∈ splitlines docstring, url ∈ findall trackingUrl line ∧ isStpUrl url = true

/-- An accepted link is a tracking URL. -/
theorem hasTrackingUrl_of_accepted (isDecimal : Char → Bool) (docstrings : List Text)
    (docstring url : Text) (inside : docstring ∈ docstrings)
    (accepted : AcceptedLink docstring url) : hasTrackingUrl isDecimal docstrings = true := by
  obtain ⟨line, isLine, found, isLink⟩ := accepted
  rw [hasTrackingUrl, List.any_eq_true]
  refine ⟨docstring, inside, List.any_eq_true.mpr ⟨line, isLine, List.any_eq_true.mpr ?_⟩⟩
  exact ⟨url, found, by rw [isLink, Bool.or_true]⟩

/-- The link is verified: on some line of the source it is recorded as a reference, with nothing
added to it, and the path of the reference is compared with the merged paths. -/
def Verified (source url : Text) : Prop :=
  ∃ before behind found lineNumber, before ++ url ++ behind ∈ split ['\n'] source ∧
    (before.length, found) ∈ finditer stpUrl (before ++ url ++ behind) ∧
    referenceKey found <+: url ∧
    (stpReferences source none).get (referenceKey found) = some lineNumber ∧
    ∀ filePath mergedPaths,
      ⟨filePath, some lineNumber, stpMessage (referenceKey found)⟩ ∈
          checkStpLinks filePath (stpReferences source none) mergedPaths ↔
        referencePath (referenceKey found) ∉ mergedPaths

/-- The link has a form that is collected, with the given text behind it: one nonempty segment stands
between `blob/` or `tree/` and `/stps/`, a character of a path comes next, and if all of the link
behind `/stps/` is a path, only punctuation follows it within the path. -/
def IsCollectable (url behind : Text) : Prop :=
  ∃ ref stps path, afterStpHead url = some (ref ++ (stps ++ path)) ∧ ref ≠ [] ∧
    (∀ other ∈ ref, isRefCharacter other = true) ∧
    literalIgnoringCase "/stps/".toList stps = some [] ∧
    (path ++ behind).takeWhile isPathCharacter ≠ [] ∧
    ((∀ other ∈ path, isPathCharacter other = true) →
      ∀ other ∈ behind.takeWhile isPathCharacter, other ∈ trailingPunctuation)

section Stripping

variable (characters : List Char)

/-- A stripped text is the beginning of the text. -/
theorem rstripCharacters_isPrefixOf (text : Text) : rstripCharacters characters text <+: text := by
  have reversed : text.reverse.dropWhile (fun other => decide (other ∈ characters)) <:+
      text.reverse := List.dropWhile_suffix _
  rwa [← List.reverse_prefix, List.reverse_reverse] at reversed

/-- What is stripped off. -/
theorem exists_stripped (text : Text) :
    ∃ stripped, text = rstripCharacters characters text ++ stripped ∧
      ∀ other ∈ stripped, other ∈ characters := by
  refine ⟨(text.reverse.takeWhile fun other => decide (other ∈ characters)).reverse, ?_, ?_⟩
  · rw [rstripCharacters, ← List.reverse_append, List.takeWhile_append_dropWhile,
      List.reverse_reverse]
  · intro other inside
    have stripped := List.mem_takeWhile_imp (List.mem_reverse.mp inside)
    exact of_decide_eq_true stripped

/-- A text is left over exactly if all that stands behind it is stripped off. -/
theorem rstripCharacters_append_prefix_iff (text more : Text) :
    rstripCharacters characters (text ++ more) <+: text ↔ ∀ other ∈ more, other ∈ characters := by
  constructor
  · intro kept
    obtain ⟨stripped, parts, all⟩ := exists_stripped characters (text ++ more)
    have short := kept.length_le
    have sizes := congrArg List.length parts
    rw [List.length_append, List.length_append] at sizes
    have ending : more <:+ stripped := by
      refine List.suffix_of_suffix_length_le (List.suffix_append text more) ?_ (by omega)
      rw [parts]
      exact List.suffix_append _ _
    exact fun other inside => all other (ending.subset inside)
  · intro all
    have reversed : ∀ other ∈ more.reverse, (decide (other ∈ characters)) = true :=
      fun other inside => decide_eq_true (all other (List.mem_reverse.mp inside))
    rw [rstripCharacters, List.reverse_append, List.dropWhile_append_of_pos reversed]
    exact rstripCharacters_isPrefixOf characters text

end Stripping

/-- What the shared part leaves is the end of the text. -/
theorem suffix_of_literal (expected text rest : Text)
    (found : literalIgnoringCase expected text = some rest) : rest <:+ text := by
  obtain ⟨front, rfl, -⟩ := (literalIgnoringCase_eq_some_iff expected text rest).mp found
  exact List.suffix_append front rest

/-- Behind either literal there is the end of the text. -/
theorem suffix_of_either (first second text rest : Text)
    (found : (literalIgnoringCase first text).or (literalIgnoringCase second text) = some rest) :
    rest <:+ text := by
  rcases Option.or_eq_some_iff.mp found with one | ⟨-, other⟩
  · exact suffix_of_literal first text rest one
  · exact suffix_of_literal second text rest other

/-- Behind the head of a link there is the end of the text. -/
theorem suffix_of_afterStpHead (text rest : Text) (found : afterStpHead text = some rest) :
    rest <:+ text := by
  obtain ⟨host, scheme, behindScheme⟩ := Option.bind_eq_some_iff.mp found
  obtain ⟨kind, repository, behindKind⟩ := Option.bind_eq_some_iff.mp behindScheme
  exact ((suffix_of_either _ _ kind rest behindKind).trans
    (suffix_of_literal _ host kind repository)).trans (suffix_of_either _ _ text host scheme)

/-- The match of a text with a single ref goes as far as the path. -/
theorem stpUrl_of_parts (opening ref stps tail : Text)
    (head : afterStpHead (opening ++ (ref ++ (stps ++ tail))) = some (ref ++ (stps ++ tail)))
    (nonempty : ref ≠ []) (all : ∀ other ∈ ref, isRefCharacter other = true)
    (literal : literalIgnoringCase "/stps/".toList stps = some [])
    (path : tail.takeWhile isPathCharacter ≠ []) :
    stpUrl (opening ++ (ref ++ (stps ++ tail))) =
      some (opening ++ (ref ++ (stps ++ tail.takeWhile isPathCharacter))) := by
  have behind : literalIgnoringCase "/stps/".toList (stps ++ tail) = some tail :=
    literalIgnoringCase_append _ stps [] tail literal
  have front : (opening ++ (ref ++ (stps ++ tail))).take
      ((opening ++ (ref ++ (stps ++ tail))).length - tail.length +
        (tail.takeWhile isPathCharacter).length) =
        opening ++ (ref ++ (stps ++ tail.takeWhile isPathCharacter)) := by
    have regrouped (ending : Text) : opening ++ (ref ++ (stps ++ ending)) =
        (opening ++ ref ++ stps) ++ ending := by simp only [List.append_assoc]
    rw [regrouped tail, regrouped, List.length_append, Nat.add_sub_cancel,
      List.take_length_add_append, ← List.prefix_iff_eq_take.mp (List.takeWhile_prefix _)]
  rw [stpUrl, stpMatch, head]
  dsimp only
  rw [takeWhile_ref ref stps tail all literal, List.drop_left, behind]
  split
  · exact absurd rfl nonempty
  · rename_i impossible
    cases impossible
  · rename_i same
    cases same
    split
    · exact absurd (by assumption) path
    · rw [Option.map_some, front]

/-- A literal is as long as the text that it is found in. -/
theorem length_of_literal (expected text : Text)
    (found : literalIgnoringCase expected text = some []) : text.length = expected.length := by
  induction expected generalizing text with
  | nil =>
    cases text with
    | nil => rfl
    | cons character text => cases found
  | cons character expected inductionHypothesis =>
    cases text with
    | nil => cases found
    | cons other text =>
      rw [literalIgnoringCase] at found
      split at found
      · rw [List.length_cons, List.length_cons, inductionHypothesis text found]
      · cases found

/-- A piece that is contained is a part of the text. -/
theorem exists_of_containsIgnoringCase (piece text : Text)
    (found : containsIgnoringCase piece text = true) :
    ∃ front middle behind, text = front ++ (middle ++ behind) ∧
      literalIgnoringCase piece middle = some [] := by
  have here (text : Text) (starts : (literalIgnoringCase piece text).isSome = true) :
      ∃ front middle behind, text = front ++ (middle ++ behind) ∧
        literalIgnoringCase piece middle = some [] := by
    obtain ⟨rest, isRest⟩ := Option.isSome_iff_exists.mp starts
    obtain ⟨middle, rfl, literal⟩ := (literalIgnoringCase_eq_some_iff piece text rest).mp isRest
    exact ⟨[], middle, rest, rfl, literal⟩
  induction text with
  | nil => exact here [] found
  | cons character rest inductionHypothesis =>
    rw [containsIgnoringCase, Bool.or_eq_true] at found
    rcases found with starts | later
    · exact here _ starts
    · obtain ⟨front, middle, behind, rfl, literal⟩ := inductionHypothesis later
      exact ⟨character :: front, middle, behind, rfl, literal⟩

/-- In an accepted link the first `/stps/` behind a single ref lies within the link. -/
theorem exists_path_of_accepted (rest behind ref stps tail : Text)
    (contained : containsIgnoringCase "/stps/".toList
      (rest.takeWhile fun other => !isSpace other) = true)
    (all : ∀ other ∈ ref, isRefCharacter other = true)
    (literal : literalIgnoringCase "/stps/".toList stps = some [])
    (parts : rest ++ behind = ref ++ (stps ++ tail)) :
    ∃ path, rest = ref ++ (stps ++ path) ∧ tail = path ++ behind := by
  obtain ⟨front, middle, after, shape, again⟩ := exists_of_containsIgnoringCase _ _ contained
  obtain ⟨others, isPrefix⟩ := List.takeWhile_prefix (fun other => !isSpace other) (l := rest)
  obtain ⟨slashed, rfl⟩ := head_of_stps middle again
  have whole : rest = front ++ ('/' :: slashed ++ (after ++ others)) := by
    rw [← isPrefix, shape]
    simp only [List.append_assoc]
  -- The ref has no slash, so it ends where the front ends at the latest.
  have refShort : ref.length ≤ front.length := by
    by_contra long
    have inRef : (ref ++ (stps ++ tail))[front.length]? = some '/' := by
      rw [← parts, whole]
      simp
    rw [List.getElem?_append_left (by omega)] at inRef
    have isRef := all '/' (List.mem_of_getElem? inRef)
    revert isRef
    decide
  have sizes : ref.length + stps.length ≤ rest.length := by
    have one := length_of_literal _ _ literal
    have two := length_of_literal _ _ again
    rw [whole, List.length_append, List.length_append]
    omega
  have grouped : rest ++ behind = (ref ++ stps) ++ tail := by rw [parts, List.append_assoc]
  obtain ⟨path, left, right⟩ | ⟨path, left, right⟩ := List.append_eq_append_iff.mp grouped
  · have empty : path = [] := by
      have lengths := congrArg List.length left
      rw [List.length_append, List.length_append] at lengths
      exact List.eq_nil_of_length_eq_zero (by omega)
    subst empty
    refine ⟨[], ?_, ?_⟩
    · rw [List.append_nil] at left ⊢
      exact left.symm
    · rw [List.nil_append, right, List.nil_append]
  · exact ⟨path, by rw [left, List.append_assoc], right⟩

/-- A link in front of some text is matched, with nothing added to its key, exactly if it is
collectable. -/
theorem exists_stpUrl_iff (url behind : Text) (accepted : isStpUrl url = true) :
    (∃ found, stpUrl (url ++ behind) = some found ∧ referenceKey found <+: url) ↔
      IsCollectable url behind := by
  obtain ⟨rest, opening, contained⟩ : ∃ rest, afterStpHead url = some rest ∧
      containsIgnoringCase "/stps/".toList (rest.takeWhile fun other => !isSpace other) = true := by
    unfold isStpUrl at accepted
    split at accepted
    · cases accepted
    · exact ⟨_, by assumption, accepted⟩
  obtain ⟨front, rfl⟩ := suffix_of_afterStpHead url rest opening
  have longer := afterStpHead_append _ rest behind opening
  -- With its parts known, the match is the link up to the end of the path.
  have key_iff (ref stps path : Text) (parts : rest = ref ++ (stps ++ path)) (nonempty : ref ≠ [])
      (all : ∀ other ∈ ref, isRefCharacter other = true)
      (literal : literalIgnoringCase "/stps/".toList stps = some [])
      (isPath : (path ++ behind).takeWhile isPathCharacter ≠ []) :
      (∃ found, stpUrl (front ++ rest ++ behind) = some found ∧
          referenceKey found <+: front ++ rest) ↔
        ((∀ other ∈ path, isPathCharacter other = true) →
          ∀ other ∈ behind.takeWhile isPathCharacter, other ∈ trailingPunctuation) := by
    subst parts
    have regrouped : front ++ (ref ++ (stps ++ path)) ++ behind =
        front ++ (ref ++ (stps ++ (path ++ behind))) := by simp only [List.append_assoc]
    have longRest : ref ++ (stps ++ path) ++ behind = ref ++ (stps ++ (path ++ behind)) := by
      simp only [List.append_assoc]
    rw [regrouped, longRest] at longer
    rw [regrouped, stpUrl_of_parts front ref stps _ longer nonempty all literal isPath]
    simp only [Option.some.injEq, exists_eq_left']
    by_cases whole : ∀ other ∈ path, isPathCharacter other = true
    · rw [List.takeWhile_append_of_pos whole]
      have grouped : front ++ (ref ++ (stps ++ (path ++ behind.takeWhile isPathCharacter))) =
          front ++ (ref ++ (stps ++ path)) ++ behind.takeWhile isPathCharacter := by
        simp only [List.append_assoc]
      rw [grouped, referenceKey, rstripCharacters_append_prefix_iff]
      exact ⟨fun punctuation _ => punctuation, fun punctuation => punctuation whole⟩
    · -- The path ends within the link.
      refine iff_of_true ?_ fun every => absurd every whole
      have short : (path ++ behind).takeWhile isPathCharacter <+: path := by
        have cut : (path ++ behind).takeWhile isPathCharacter = path.takeWhile isPathCharacter := by
          rw [List.takeWhile_append, if_neg]
          intro same
          have every := (List.takeWhile_prefix isPathCharacter (l := path)).eq_of_length same
          exact whole fun other inside => List.mem_takeWhile_imp (every ▸ inside)
        rw [cut]
        exact List.takeWhile_prefix _
      refine (rstripCharacters_isPrefixOf _ _).trans ?_
      rw [List.prefix_append_right_inj, List.prefix_append_right_inj,
        List.prefix_append_right_inj]
      exact short
  constructor
  · rintro ⟨found, matched, kept⟩
    have isMatch : (stpMatch (front ++ rest ++ behind)).isSome = true := by
      rw [stpUrl] at matched
      obtain ⟨result, isResult, -⟩ := Option.map_eq_some_iff.mp matched
      rw [isResult]
      rfl
    obtain ⟨after, head, ref, stps, character, tail, parts, nonempty, all, literal, isPath⟩ :=
      (stpMatch_isSome_iff _).mp isMatch
    rw [longer, Option.some.injEq] at head
    obtain ⟨path, inside, shape⟩ := exists_path_of_accepted rest behind ref stps _ contained all
      literal (head.trans parts)
    have path_ne : (path ++ behind).takeWhile isPathCharacter ≠ [] := by
      rw [← shape, List.takeWhile_cons_of_pos isPath]
      exact List.cons_ne_nil _ _
    exact ⟨ref, stps, path, by rw [opening, inside], nonempty, all, literal, path_ne,
      (key_iff ref stps path inside nonempty all literal path_ne).mp ⟨found, matched, kept⟩⟩
  · rintro ⟨ref, stps, path, head, nonempty, all, literal, path_ne, punctuation⟩
    rw [opening, Option.some.injEq] at head
    exact (key_iff ref stps path head nonempty all literal path_ne).mpr punctuation

/-- Which accepted links are verified. The link is verified exactly if it stands on a line of the
source in a form that is collected, and no earlier match of the line reaches into it.

Proof: the scan of a line finds a match at a position unless an earlier match covers it. The two
patterns share the text up to `blob/` or `tree/`, which acceptance guarantees. -/
theorem accepted_link_verified_iff (source docstring url : Text)
    (accepted : AcceptedLink docstring url) :
    Verified source url ↔
      ∃ before behind, before ++ url ++ behind ∈ split ['\n'] source ∧ IsCollectable url behind ∧
        ∀ earlier ∈ finditer stpUrl (before ++ url ++ behind), earlier.1 < before.length →
          earlier.1 + earlier.2.length ≤ before.length := by
  obtain ⟨line, -, found, isLink⟩ := accepted
  have nonempty : url ≠ [] := by
    rintro rfl
    cases isLink
  have matches_iff (before behind found : Text) :
      (before.length, found) ∈ finditer stpUrl (before ++ url ++ behind) ↔
        stpUrl (url ++ behind) = some found ∧
          ∀ earlier ∈ finditer stpUrl (before ++ url ++ behind), earlier.1 < before.length →
            earlier.1 + earlier.2.length ≤ before.length := by
    have bound : before.length < (before ++ url ++ behind).length := by
      have positive := List.length_pos_iff.mpr nonempty
      simp only [List.length_append]
      omega
    rw [mem_finditer_iff stpUrl stpUrl_ne_nil]
    have behindIt : (before ++ url ++ behind).drop before.length = url ++ behind := by
      rw [List.append_assoc, List.drop_left]
    rw [behindIt]
    exact and_iff_right bound
  constructor
  · rintro ⟨before, behind, found, lineNumber, standing, matched, kept, -⟩
    obtain ⟨here, clear⟩ := (matches_iff before behind found).mp matched
    exact ⟨before, behind, standing, (exists_stpUrl_iff url behind isLink).mp ⟨found, here, kept⟩,
      clear⟩
  · rintro ⟨before, behind, standing, collectable, clear⟩
    obtain ⟨found, here, kept⟩ := (exists_stpUrl_iff url behind isLink).mpr collectable
    have matched := (matches_iff before behind found).mpr ⟨here, clear⟩
    obtain ⟨lineNumber, recorded⟩ := (Dict.has_iff _ _).mp
      (has_stpReferences source _ standing before.length found matched)
    exact ⟨before, behind, found, lineNumber, standing, matched, kept, recorded,
      fun filePath mergedPaths => mem_checkStpLinks_iff filePath _ mergedPaths _ lineNumber recorded⟩

/-! ## Links to a branch -/

/-- The line `STP: <url>` of a docstring. -/
def stpLine (path : Text) : Text :=
  "STP: https://github.com/RedHatQE/openshift-virtualization-tests-design-docs/".toList ++ path

/-- The source of a test whose docstring has such a line. -/
def stpSource (path : Text) : Text :=
  "\"\"\"\n ".toList ++ stpLine path ++ "\n\"\"\"\n".toList

/-- The URL of such a line. -/
def stpLink (path : Text) : Text := (stpLine path).drop 5

/-- The link of such a line is accepted. -/
theorem acceptedLink_of_line (path : Text)
    (evaluated : splitlines (stpLine path) = [stpLine path] ∧
      findall trackingUrl (stpLine path) = [stpLink path] ∧ isStpUrl (stpLink path) = true) :
    AcceptedLink (stpLine path) (stpLink path) := by
  obtain ⟨one, found, accepted⟩ := evaluated
  refine ⟨stpLine path, ?_, ?_, accepted⟩
  · rw [one]
    exact List.mem_singleton_self _
  · rw [found]
    exact List.mem_singleton_self _

/-- A link with one ref and a path, in an indented docstring line, is verified. -/
theorem main_branch_link_verified :
    Verified (stpSource "blob/main/stps/a".toList) (stpLink "blob/main/stps/a".toList) := by
  have evaluated : " STP: ".toList ++ stpLink "blob/main/stps/a".toList ++ [] ∈
        split ['\n'] (stpSource "blob/main/stps/a".toList) ∧
      afterStpHead (stpLink "blob/main/stps/a".toList) = some "main/stps/a".toList ∧
      ∀ earlier ∈ finditer stpUrl (" STP: ".toList ++ stpLink "blob/main/stps/a".toList ++ []),
        earlier.1 < " STP: ".toList.length →
          earlier.1 + earlier.2.length ≤ " STP: ".toList.length := by
    decide +kernel
  obtain ⟨standing, head, clear⟩ := evaluated
  refine (accepted_link_verified_iff _ (stpLine "blob/main/stps/a".toList) _
    (acceptedLink_of_line _ (by decide +kernel))).mpr ⟨" STP: ".toList, [], standing, ?_, clear⟩
  exact ⟨"main".toList, "/stps/".toList, ['a'], head, by decide, List.all_eq_true.mp (by decide),
    by decide, by decide, fun _ other inside => by cases inside⟩

/-- Two accepted links that are not verified: one to a branch with a slash in its
name, and one without a path. -/
theorem accepted_link_not_verified :
    (AcceptedLink (stpLine "blob/v4/x/stps/a".toList) (stpLink "blob/v4/x/stps/a".toList) ∧
      hasTrackingUrl Char.isDigit [stpLine "blob/v4/x/stps/a".toList] = true ∧
      ¬ Verified (stpSource "blob/v4/x/stps/a".toList) (stpLink "blob/v4/x/stps/a".toList)) ∧
    AcceptedLink (stpLine "blob/main/stps/".toList) (stpLink "blob/main/stps/".toList) ∧
      hasTrackingUrl Char.isDigit [stpLine "blob/main/stps/".toList] = true ∧
      ¬ Verified (stpSource "blob/main/stps/".toList) (stpLink "blob/main/stps/".toList) := by
  have notFound (path : Text)
      (none : ∀ line ∈ split ['\n'] (stpSource path), finditer stpUrl line = []) :
      ¬ Verified (stpSource path) (stpLink path) := by
    rintro ⟨before, behind, found, lineNumber, standing, matched, -⟩
    rw [none _ standing] at matched
    cases matched
  have branch := acceptedLink_of_line "blob/v4/x/stps/a".toList (by decide +kernel)
  have folder := acceptedLink_of_line "blob/main/stps/".toList (by decide +kernel)
  exact ⟨⟨branch, hasTrackingUrl_of_accepted _ _ _ _ (List.mem_singleton_self _) branch,
      notFound _ (by decide +kernel)⟩,
    folder, hasTrackingUrl_of_accepted _ _ _ _ (List.mem_singleton_self _) folder,
    notFound _ (by decide +kernel)⟩

end VirtTestTools.Policy
