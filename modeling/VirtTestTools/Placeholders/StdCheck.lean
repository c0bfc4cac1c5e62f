import VirtTestTools.Pairings
import VirtTestTools.Placeholders.TestDocumentation

/-!
# The documentation check

`check_test_std.py` compares the tests of a staged file with those at `HEAD`. New tests
must be documented. Tests whose name exists at `HEAD` may lack what they lacked there:
among the definitions of one name those with equal trees are compared with each other,
the remaining ones by position, and those left over with all definitions of the name.

The results say that no way to pair the definitions lets a requirement be lost that all
definitions of a name have met, and that a file that did not change is accepted, but for
the markers of manual tests.
-/

namespace VirtTestTools.Placeholders

open Policy Text

/-- `is_product_test_path`. Only a relative path has `tests` as its first part. -/
def isProductTestPath (filePath : Path) : Bool :=
  let stem := filePath.name.take (filePath.name.length - filePath.suffix.length)
  decide (3 ≤ filePath.parts.length) && filePath.firstPart == some (FsText.ofString "tests") &&
    ((FsText.ofString "test_").isPrefixOf filePath.name ||
      (FsText.ofString "_test").isSuffixOf stem) &&
    filePath.suffix == FsText.ofString ".py"

section

variable (isDecimal : Char → Bool) (dump : AST → Text) (filePath : Path)

/-- A message for each condition that holds. -/
def reports (definition : TestDefinition) (messages : List (Bool × String)) :
    List PolicyViolation :=
  (messages.filter Prod.fst).map fun entry => definition.violation filePath entry.2

/-- The message for an implemented test with the marker. -/
def removeManualMessage : String := "remove @pytest.mark.manual from this implemented test"

/-- The message for a placeholder without the marker. -/
def declareManualMessage : String := "declare @pytest.mark.manual on this test"

/-- An implemented test with the marker of manual tests. -/
def TestDefinition.wronglyManual (definition : TestDefinition) : Bool :=
  definition.manual && !definition.disabled && !definition.placeholder

/-- `_new_test_violations`. -/
def newTestViolations (definition : TestDefinition) : List PolicyViolation :=
  newTestDocumentationViolations isDecimal filePath definition ++
    reports filePath definition
      [(definition.placeholder && !definition.disabled,
          "mark this docstring-only STD placeholder with effective __test__ = False"),
        (!definition.placeholder && definition.disabled,
          "remove effective __test__ = False from this implemented test"),
        (definition.placeholder && definition.disabled && !definition.manual,
          declareManualMessage),
        (definition.wronglyManual, removeManualMessage)]

/-- The message of `_transition_violations` about the placeholder state. -/
def stateMessage (current previous : TestDefinition) : Option String :=
  if !previous.placeholder && current.placeholder then
    some ("do not replace an implemented test with a docstring-only placeholder; " ++
      "restore its implementation rather than changing __test__")
  else if previous.placeholder && current.placeholder && previous.disabled && !current.disabled then
    some "keep effective __test__ = False until this placeholder is implemented"
  else if previous.placeholder && !current.placeholder && current.disabled then
    some "remove effective __test__ = False when implementing this placeholder"
  else if !previous.placeholder && !previous.disabled && current.disabled then
    some "remove newly effective __test__ = False from implemented test"
  else none

/-- `_transition_violations`. -/
def transitionViolations (current previous : TestDefinition) : List PolicyViolation :=
  (stateMessage current previous).toList.map (current.violation filePath) ++
    reports filePath current
      [(previous.manual && !current.manual && current.disabled, declareManualMessage),
        (current.wronglyManual, removeManualMessage)]

/-- The documentation violations of a definition that none of the earlier ones has. -/
def newlyUndocumented (current : TestDefinition) (earlier : List TestDefinition) :
    List PolicyViolation :=
  let messages := earlier.flatMap fun previous =>
    (documentationViolations isDecimal filePath previous).map
      PolicyViolation.message
  (documentationViolations isDecimal filePath current).filter fun violation =>
    !messages.contains violation.message

/-- The pairs of the definitions of one name, and those that are left over. -/
def retainedPairs (current previous : List TestDefinition) :
    Pairing TestDefinition TestDefinition :=
  (Pairing.byMatch (fun left right => dump left.test.node == dump right.test.node) current
    previous).byPosition

/-- The state of a definition at `HEAD`, if all definitions share it: the first of them. -/
def commonState (previous : List TestDefinition) : Option TestDefinition :=
  previous.head?.filter fun first =>
    previous.all fun other => first.placeholder == other.placeholder &&
      first.disabled == other.disabled

/-- What `check_test_std` says of the definitions of a name that both sides have. -/
def retainedViolations (current previous : List TestDefinition) : List PolicyViolation :=
  let pairing := retainedPairs dump current previous
  (pairing.pairs.flatMap fun pair =>
      newlyUndocumented isDecimal filePath pair.1 [pair.2] ++
        transitionViolations filePath pair.1 pair.2) ++
    pairing.leftOver.flatMap fun definition =>
      newlyUndocumented isDecimal filePath definition previous ++
        (commonState previous).toList.flatMap (transitionViolations filePath definition)

/-- The definitions of one name. -/
def named (name : String) (definitions : List TestDefinition) : List TestDefinition :=
  definitions.filter fun definition => definition.qualifiedName == name

/-- The violations of `check_test_std` before they are sorted. The order of the names is that of
a set; it is lost in the sort. -/
def stdViolations (indexed head : List TestDefinition) : List PolicyViolation :=
  let names := indexed.map fun definition => definition.qualifiedName
  let headNames := head.map fun definition => definition.qualifiedName
  (indexed.filter fun definition => !headNames.contains definition.qualifiedName).flatMap
      (newTestViolations isDecimal filePath) ++
    (names.dedup.filter headNames.contains).flatMap fun name =>
      retainedViolations isDecimal dump filePath (named name indexed) (named name head)

/-- `check_test_std`, or `none` if a source does not parse. -/
def checkTestStd (indexedSource : Source) (headSource : Option Source) :
    Option (List PolicyViolation) :=
  if isProductTestPath filePath then do
    let indexed ← indexedSource.tree
    let head ← match headSource with
      | none => some []
      | some source => source.tree
    pure ((stdViolations isDecimal dump filePath (definitions indexed)
      (definitions head)).mergeSort byLineAndMessage)
  else some []

end

/-! ## Nothing is lost -/

section

variable {isDecimal : Char → Bool} {dump : AST → Text} {filePath : Path}

/-- A requirement that all earlier definitions meet is reported where it is not met any more. -/
theorem mem_newlyUndocumented {current : TestDefinition} {earlier : List TestDefinition}
    (sameName : ∀ previous ∈ earlier, previous.qualifiedName = current.qualifiedName)
    {requirement : Requirement}
    (met : ∀ previous ∈ earlier, requirement.isMet isDecimal previous.docs = true)
    (missing : requirement.isMet isDecimal current.docs = false) :
    current.violation filePath requirement.message ∈
      newlyUndocumented isDecimal filePath current earlier := by
  apply List.mem_filter.mpr
  constructor
  · apply List.mem_map.mpr
    exact ⟨requirement, List.mem_filter.mpr ⟨requirement.mem_all, by simpa using missing⟩, rfl⟩
  · rw [Bool.not_eq_true', List.contains_eq_mem, decide_eq_false_iff_not]
    intro known
    obtain ⟨previous, inside, there⟩ := List.mem_flatMap.mp known
    have unmet := (message_mem_documentationViolations (sameName previous inside).symm
      requirement).mp there
    rw [met previous inside] at unmet
    cases unmet

/-- Neither of the three ways to compare a definition misses it. -/
theorem mem_retainedViolations {current previous : List TestDefinition} {name : String}
    (currentNames : ∀ definition ∈ current, definition.qualifiedName = name)
    (previousNames : ∀ definition ∈ previous, definition.qualifiedName = name)
    {requirement : Requirement}
    (met : ∀ definition ∈ previous, requirement.isMet isDecimal definition.docs = true)
    {definition : TestDefinition} (inside : definition ∈ current)
    (missing : requirement.isMet isDecimal definition.docs = false) :
    definition.violation filePath requirement.message ∈
      retainedViolations isDecimal dump filePath current previous := by
  have sameName : ∀ other ∈ previous, other.qualifiedName = definition.qualifiedName := by
    intro other otherInside
    rw [previousNames other otherInside, currentNames definition inside]
  have covers : (retainedPairs dump current previous).Covers current previous :=
    (Pairing.covers_byMatch _ current previous).byPosition
  obtain ⟨partner, paired⟩ | unpaired := covers.each definition inside
  · obtain ⟨-, partnerInside⟩ := covers.within _ paired
    apply List.mem_append_left
    apply List.mem_flatMap.mpr
    refine ⟨(definition, partner), paired, List.mem_append_left _ ?_⟩
    apply mem_newlyUndocumented _ _ missing
    · rintro other (_ | ⟨_, ⟨⟩⟩)
      exact sameName partner partnerInside
    · rintro other (_ | ⟨_, ⟨⟩⟩)
      exact met partner partnerInside
  · apply List.mem_append_right
    apply List.mem_flatMap.mpr
    exact ⟨definition, unpaired, List.mem_append_left _ (mem_newlyUndocumented sameName met missing)⟩

/-- The definitions of a name. -/
theorem mem_named {name : String} {definitions : List TestDefinition}
    {definition : TestDefinition} :
    definition ∈ named name definitions ↔
      definition ∈ definitions ∧ definition.qualifiedName = name := by
  rw [named, List.mem_filter, beq_iff_eq]

/-- A requirement that was met and no longer is is reported. -/
theorem mem_stdViolations {indexed head : List TestDefinition} {requirement : Requirement}
    {definition : TestDefinition} (inside : definition ∈ indexed)
    (present : ∃ previous ∈ head, previous.qualifiedName = definition.qualifiedName)
    (met : ∀ previous ∈ head, previous.qualifiedName = definition.qualifiedName →
      requirement.isMet isDecimal previous.docs = true)
    (missing : requirement.isMet isDecimal definition.docs = false) :
    definition.violation filePath requirement.message ∈
      stdViolations isDecimal dump filePath indexed head := by
  obtain ⟨previous, previousInside, same⟩ := present
  apply List.mem_append_right
  apply List.mem_flatMap.mpr
  refine ⟨definition.qualifiedName, ?_, ?_⟩
  · apply List.mem_filter.mpr
    constructor
    · exact List.mem_dedup.mpr (List.mem_map.mpr ⟨definition, inside, rfl⟩)
    · exact List.contains_iff_mem.mpr (List.mem_map.mpr ⟨previous, previousInside, same⟩)
  · apply mem_retainedViolations (fun other named => (mem_named.mp named).2)
      (fun other named => (mem_named.mp named).2) _ (mem_named.mpr ⟨inside, rfl⟩) missing
    intro other named
    exact met other (mem_named.mp named).1 (mem_named.mp named).2

/-! ## A file that did not change -/

/-- A definition is not less documented than itself. -/
theorem newlyUndocumented_self (definition : TestDefinition) :
    newlyUndocumented isDecimal filePath definition [definition] = [] := by
  apply List.filter_eq_nil_iff.mpr
  intro violation inside
  simpa using ⟨violation, inside, rfl⟩

/-- Compared with itself a definition has no transition but a wrong marker. -/
theorem transitionViolations_self (definition : TestDefinition) :
    ∀ violation ∈ transitionViolations filePath definition definition,
      violation = definition.violation filePath removeManualMessage := by
  have unchanged : stateMessage definition definition = none := by
    unfold stateMessage
    cases definition.placeholder <;> cases definition.disabled <;> rfl
  intro violation inside
  rw [transitionViolations, unchanged] at inside
  simp only [reports, Option.toList_none, List.map_nil, List.nil_append, List.mem_map,
    List.mem_filter] at inside
  obtain ⟨entry, ⟨listed, holds⟩, rfl⟩ := inside
  obtain rfl | rfl := by simpa using listed
  · simp at holds
  · rfl

/-- Of the definitions that both sides have, a module compared with itself has only markers to
remove. -/
theorem retainedViolations_self (definitions : List TestDefinition) :
    ∀ violation ∈ retainedViolations isDecimal dump filePath definitions definitions,
      ∃ definition ∈ definitions,
        violation = definition.violation filePath removeManualMessage := by
  have paired : retainedPairs dump definitions definitions =
      ⟨definitions.map fun definition => (definition, definition), [], []⟩ := by
    rw [retainedPairs, Pairing.byMatch_self _ (fun definition => by simp),
      Pairing.byPosition_of_leftOver_nil]
  intro violation inside
  simp only [retainedViolations, paired, List.flatMap_nil, List.append_nil, List.flatMap_map,
    newlyUndocumented_self, List.nil_append] at inside
  obtain ⟨definition, member, here⟩ := List.mem_flatMap.mp inside
  exact ⟨definition, member, transitionViolations_self definition violation here⟩

/-- A module compared with itself has only markers to remove. -/
theorem stdViolations_self (definitions : List TestDefinition) :
    ∀ violation ∈ stdViolations isDecimal dump filePath definitions definitions,
      ∃ definition ∈ definitions,
        violation = definition.violation filePath removeManualMessage := by
  intro violation inside
  obtain new | retained := List.mem_append.mp inside
  · -- every name is known
    obtain ⟨definition, unknown, -⟩ := List.mem_flatMap.mp new
    obtain ⟨member, missing⟩ := List.mem_filter.mp unknown
    rw [List.contains_iff_mem.mpr (List.mem_map.mpr ⟨definition, member, rfl⟩)] at missing
    cases missing
  · obtain ⟨name, -, here⟩ := List.mem_flatMap.mp retained
    obtain ⟨definition, member, same⟩ := retainedViolations_self _ violation here
    exact ⟨definition, (mem_named.mp member).1, same⟩

end

section

variable (isDecimal : Char → Bool) (dump : AST → Text) (filePath : Path)

/-- The check of a module that is parsed in both versions. -/
theorem checkTestStd_parsed (indexed head : Source) {tree headTree : List AST}
    (product : isProductTestPath filePath = true) (parsed : indexed.tree = some tree)
    (headParsed : head.tree = some headTree) :
    checkTestStd isDecimal dump filePath indexed (some head) =
      some ((stdViolations isDecimal dump filePath (definitions tree)
        (definitions headTree)).mergeSort byLineAndMessage) := by
  simp [checkTestStd, product, parsed, headParsed]

/-- A module with one test, which has a docstring and a body. -/
def sampleTree (doc : String) : List AST :=
  [.functionDef ⟨0, 1, 3⟩ false "test_ping" (.arguments ⟨1, 1, 1⟩ [] [] none [] [] none [])
    [.exprStmt ⟨2, 2, 2⟩ (.constant ⟨3, 2, 2⟩ (.str doc)),
      .exprStmt ⟨4, 3, 3⟩ (.call ⟨5, 3, 3⟩ (.name ⟨6, 3, 3⟩ "ping" .load) [] [])] [] none]

/-- Its source, for a docstring without quotes or line breaks. -/
def sampleSource (doc : String) : Source where
  text := unlines ["def test_ping():", "    \"\"\"" ++ doc ++ "\"\"\"", "    ping()"]
  tree := some (sampleTree doc)

/-- A dump that tells such tests apart. -/
def sampleDump : AST → Text
  | .functionDef _ _ name _ body .. => name.toList ++ (docstring body).toList
  | _ => []

/-- A test module of the product. -/
def samplePath : Path := ⟨0, ["tests", "network", "test_ping.py"].map FsText.ofString⟩

/-- The definition of the test. -/
def sampleDefinition (doc : String) : TestDefinition where
  parents := []
  test := ⟨(sampleTree doc).head (by simp [sampleTree]), "test_ping",
    [.exprStmt ⟨2, 2, 2⟩ (.constant ⟨3, 2, 2⟩ (.str doc)),
      .exprStmt ⟨4, 3, 3⟩ (.call ⟨5, 3, 3⟩ (.name ⟨6, 3, 3⟩ "ping" .load) [] [])]⟩
  docs := [doc, ""]
  placeholder := false
  disabled := false
  manual := false

/-- Its only test. -/
theorem definitions_sampleTree (doc : String) :
    definitions (sampleTree doc) = [sampleDefinition doc] := rfl

/-- A file that did not change is accepted, up to implemented tests that carry the marker of
manual tests. -/
theorem unchanged_source_accepted (source : Source) (tree : List AST)
    (product : isProductTestPath filePath = true) (parsed : source.tree = some tree) :
    ∃ violations, checkTestStd isDecimal dump filePath source (some source) = some violations ∧
      ∀ violation ∈ violations, ∃ definition ∈ definitions tree,
        violation = definition.violation filePath removeManualMessage := by
  refine ⟨_, checkTestStd_parsed isDecimal dump filePath source source product parsed parsed, ?_⟩
  intro violation inside
  exact stdViolations_self _ violation (List.mem_mergeSort.mp inside)

/-- The unchanged sample module, by the general theorem. -/
theorem unchanged_ping_accepted :
    ∃ violations,
      checkTestStd Char.isDigit sampleDump samplePath (sampleSource "Pings.")
        (some (sampleSource "Pings.")) = some violations ∧
      ∀ violation ∈ violations, ∃ definition ∈ definitions (sampleTree "Pings."),
        violation = definition.violation samplePath removeManualMessage :=
  unchanged_source_accepted Char.isDigit sampleDump samplePath (sampleSource "Pings.") _
    (by decide) rfl

/-- A requirement that all definitions of a name meet at `HEAD` is reported at every staged
definition of the name that does not meet it.

Proof: the definition is paired by its tree, paired by its position, or left over, and in
each case it is compared only with definitions that meet the requirement. -/
theorem regression_reported (indexed head : Source) (tree headTree : List AST)
    (product : isProductTestPath filePath = true) (parsed : indexed.tree = some tree)
    (headParsed : head.tree = some headTree) (name : String) (requirement : Requirement)
    (present : ∃ previous ∈ definitions headTree, previous.qualifiedName = name)
    (met : ∀ previous ∈ definitions headTree, previous.qualifiedName = name →
      requirement.isMet isDecimal previous.docs = true)
    (definition : TestDefinition) (inside : definition ∈ definitions tree)
    (sameName : definition.qualifiedName = name)
    (missing : requirement.isMet isDecimal definition.docs = false) :
    ∃ violations, checkTestStd isDecimal dump filePath indexed (some head) = some violations ∧
      definition.violation filePath requirement.message ∈ violations := by
  refine ⟨_, checkTestStd_parsed isDecimal dump filePath indexed head product parsed headParsed, ?_⟩
  subst sameName
  exact List.mem_mergeSort.mpr (mem_stdViolations inside present met missing)

/-- The description of the test is deleted. -/
theorem deleted_description_reported :
    ∃ violations,
      checkTestStd Char.isDigit sampleDump samplePath (sampleSource "")
        (some (sampleSource "Pings.")) = some violations ∧
      (sampleDefinition "").violation samplePath Requirement.description.message ∈ violations := by
  have before := definitions_sampleTree "Pings."
  have after := definitions_sampleTree ""
  apply regression_reported Char.isDigit sampleDump samplePath (sampleSource "")
    (sampleSource "Pings.") (sampleTree "") (sampleTree "Pings.") (by decide) rfl rfl "test_ping"
    .description
  · exact ⟨sampleDefinition "Pings.", before ▸ List.mem_singleton_self _, by decide⟩
  · intro previous inside _
    rw [before] at inside
    rw [List.mem_singleton.mp inside]
    decide +kernel
  · exact after ▸ List.mem_singleton_self _
  · decide
  · decide +kernel

end

end VirtTestTools.Placeholders
