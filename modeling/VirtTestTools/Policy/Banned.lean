import Mathlib.Data.Multiset.MapFold
import VirtTestTools.Policy.SourceChecks

/-!
# Banned constructs

`check_banned.py` is the stateless form of the hooks for files that are checked whole.
It keeps of the basics what holds for the entire repository and adds the calls that
construct a client. With a filter the staged check may look into asynchronous
functions that the whole check reports and does not enter, so a violation of the one
need not be a violation of the other; but around it the whole check reports the
function.
-/

namespace VirtTestTools.Policy

open Traversal

/-- `_BANNED_CONSTRUCT_MESSAGES`. -/
def bannedConstructMessages : List FsText :=
  [relativeImportMessage, asyncFunctionMessage, asyncComprehensionMessage, awaitMessage,
    asyncForMessage, asyncWithMessage].map FsText.ofString

/-- Whether the node is a call that constructs a client. -/
def constructsClient (scopes : ScopeBuilder) : AST → Bool
  | .call _ func .. => scopes.isDynamicClientCall func
  | _ => false

/-- The calls that construct a client. -/
def clientConstructions (filePath : Path) (tree : List AST) (scopes : ScopeBuilder) :
    List PolicyViolation :=
  ((walked tree).filter (constructsClient scopes)).map fun node =>
    violationAt filePath node dynamicClientMessage

/-- The basics as the stateless check asks for them: all lines count as added. -/
def wholeFileBasics (filePath : Path) (tree : List AST) : List PolicyViolation :=
  checkTestBasics filePath tree (fileScopes filePath tree).resolvedNames
    (fun node _ => intersects none node) none

/-- `banned_construct_violations`. -/
def bannedConstructViolations (filePath : Path) (tree : List AST) : List PolicyViolation :=
  ((wholeFileBasics filePath tree).filter (bannedConstructMessages.contains ·.message) ++
    clientConstructions filePath tree (fileScopes filePath tree)).mergeSort byLine

/-- The message is one about a banned construct. -/
def isBannedMessage (message : FsText) : Bool :=
  bannedConstructMessages.contains message || message = FsText.ofString dynamicClientMessage

/-- The violation is one about a banned construct. -/
def isBanned (violation : PolicyViolation) : Bool := isBannedMessage violation.message

/-- The lines of the banned constructs with their messages. -/
def bannedPairs (violations : List PolicyViolation) : Multiset (Option Nat × FsText) :=
  ((violations.filter isBanned).map fun violation => (violation.lineNumber, violation.message) :
    List (Option Nat × FsText))

/-! ## Messages

Texts are compared by a few letters: a message about a banned construct opens with the word
`relative` or `reuse`, or has `async` or `await` behind the heading of the basics. -/

/-- How messages about banned constructs open. -/
def opensBanned (text : Text) : Bool :=
  [['r', 'e', 'l'], ['r', 'e', 'u']].contains (text.take 3) ||
    [['a', 's'], ['a', 'w']].contains ((text.drop 13).take 2)

/-- The letters of a literal. -/
theorem of_spelled (test : Text → Bool) {message : String} {characters : List Char}
    {expected : Bool} (spelled : message = String.ofList characters)
    (letters : test characters = expected) : test message.toList = expected := by
  rw [spelled, String.toList_ofList]
  exact letters

/-- The letters of a text that opens with a literal. -/
theorem of_spelled_append (test : Text → Bool) {opening : String} {characters rest : List Char}
    {expected : Bool} (spelled : opening = String.ofList characters)
    (letters : test (characters ++ rest) = expected) :
    test (opening.toList ++ rest) = expected := by
  rw [spelled, String.toList_ofList]
  exact letters

/-- The messages about banned constructs open so. -/
theorem opensBanned_of_mem : ∀ message ∈ [relativeImportMessage, asyncFunctionMessage,
    asyncComprehensionMessage, awaitMessage, asyncForMessage, asyncWithMessage,
    dynamicClientMessage], opensBanned message.toList = true := by
  simp only [List.forall_mem_cons]
  refine ⟨?_, ?_, ?_, ?_, ?_, ?_, ?_, by simp⟩
  all_goals exact of_spelled opensBanned rfl rfl

/-- A message that opens otherwise is not about a banned construct. -/
theorem isBannedMessage_eq_false {message : String}
    (opening : opensBanned message.toList = false) :
    isBannedMessage (FsText.ofString message) = false := by
  rw [Bool.eq_false_iff]
  intro banned
  obtain ⟨other, inside, same⟩ : ∃ other ∈ [relativeImportMessage, asyncFunctionMessage,
      asyncComprehensionMessage, awaitMessage, asyncForMessage, asyncWithMessage,
      dynamicClientMessage], FsText.ofString message = FsText.ofString other := by
    simpa [isBannedMessage, bannedConstructMessages, or_assoc] using banned
  have letters := FsText.ofText_injective same
  rw [letters, opensBanned_of_mem other inside] at opening
  exact absurd opening (by simp)

/-- A violation with another opening is not banned. -/
theorem isBanned_violationAt (filePath : Path) (node : AST) {message : String}
    (opening : opensBanned message.toList = false) :
    isBanned (violationAt filePath node message) = false :=
  isBannedMessage_eq_false opening

/-- The messages of the rules about skips and clients. -/
theorem otherMessages_opening : ∀ message ∈
    ["module-level pytestmark skip markers are forbidden", "pytest.skip() is forbidden",
      skipMarkerMessage, sleepMessage,
      "resource-clients: pass an existing non-None client= to this Resource constructor",
      "resource-clients: pass an existing non-None client= to this Resource class .get()"],
    opensBanned message.toList = false := by
  simp only [List.forall_mem_cons]
  refine ⟨?_, ?_, ?_, ?_, ?_, ?_, by simp⟩
  all_goals exact of_spelled opensBanned rfl rfl

/-- The message about special infrastructure has another opening. -/
theorem specialInfraMessage_opening (marker : String) :
    opensBanned (specialInfraMessage marker).toList = false := by
  unfold specialInfraMessage
  rw [String.toList_append, String.toList_append, List.append_assoc]
  exact of_spelled_append opensBanned rfl rfl

/-- The message about cached reads has another opening. -/
theorem cacheCommentMessage_opening : opensBanned cacheCommentMessage.toList = false := by
  unfold cacheCommentMessage
  rw [String.toList_append]
  exact of_spelled_append opensBanned rfl rfl

/-! ## What the rules report -/

section

variable {filePath : Path} {tree : List AST} {scopes : ScopeBuilder} {added : AddedLines}

/-- Assignments of a module are not banned constructs. -/
theorem not_banned_of_mem_checkModuleAssignments {violation : PolicyViolation}
    (found : violation ∈ scopes.checkModuleAssignments filePath tree added) :
    isBanned violation = false := by
  obtain ⟨node, -, found⟩ := List.mem_filterMap.mp found
  unfold ScopeBuilder.checkModulePytestmark at found
  split at found
  · exact absurd found (by simp)
  · split at found
    · obtain rfl := Option.some.inj found
      apply isBanned_violationAt
      apply otherMessages_opening
      simp
    · exact absurd found (by simp)

/-- Calls of resources are not banned constructs. -/
theorem not_banned_of_mem_checkResourceCalls {source : ParsedSource}
    {resources : List (List String)} {identities : List (AST × CacheIdentity)}
    (legacy : Counter CacheIdentity) (nodes : List AST) {violation : PolicyViolation}
    (found : violation ∈
      checkResourceCalls filePath source scopes added resources identities legacy nodes) :
    isBanned violation = false := by
  induction nodes generalizing legacy with
  | nil => exact absurd found List.not_mem_nil
  | cons node rest inductionHypothesis =>
    unfold checkResourceCalls at found
    split at found
    · obtain atResource | atCache := List.mem_append.mp found
      · unfold checkResourceCall resourceCallMessage at atResource
        split at atResource
        · split at atResource
          · obtain rfl := List.mem_singleton.mp atResource
            apply isBanned_violationAt
            apply otherMessages_opening
            simp
          · split at atResource
            · obtain rfl := List.mem_singleton.mp atResource
              apply isBanned_violationAt
              apply otherMessages_opening
              simp
            · exact absurd atResource List.not_mem_nil
        · exact absurd atResource List.not_mem_nil
      · split at atCache
        · dsimp only at atCache
          split at atCache
          · exact inductionHypothesis _ atCache
          · obtain rfl | later := List.mem_cons.mp atCache
            · exact isBanned_violationAt _ _ cacheCommentMessage_opening
            · exact inductionHypothesis _ later
        · exact inductionHypothesis _ atCache
    · exact inductionHypothesis _ found

/-- Of the rules about nodes only the one about clients is about a banned construct. -/
theorem filter_isBanned_checkCall (node func : AST) (keywords : List AST) :
    (scopes.checkCall filePath none node func keywords).filter isBanned =
      if scopes.isDynamicClientCall func then [violationAt filePath node dynamicClientMessage]
      else [] := by
  have hit : ∀ dependency, scopes.nodeOrDependencyIntersects none node dependency = true :=
    fun _ => rfl
  unfold ScopeBuilder.checkCall ScopeBuilder.callFinding ScopeBuilder.callMessage
  by_cases isDynamic : scopes.isDynamicClientCall func = true
  · have banned : isBanned (violationAt filePath node dynamicClientMessage) = true := by
      simp [isBanned, isBannedMessage, violationAt]
    simp [isDynamic, hit, banned]
  · have quiet : ∀ message : Option String, (∀ text ∈ message, opensBanned text.toList = false) →
        (message.toList.map (violationAt filePath node)).filter isBanned = [] := by
      intro message opening
      rw [List.filter_eq_nil_iff]
      intro violation found
      obtain ⟨text, isText, rfl⟩ := List.mem_map.mp found
      rw [Option.mem_toList] at isText
      have notBanned : isBanned (violationAt filePath node text) = false :=
        isBanned_violationAt _ _ (opening text isText)
      simp [notBanned]
    simp only [isDynamic, if_false, hit, if_true, Bool.false_eq_true]
    apply quiet
    split
    · rename_i message isSkip
      split at isSkip
      · obtain rfl := Option.some.inj isSkip
        rintro text ⟨⟩
        apply otherMessages_opening
        simp
      · exact absurd isSkip (by simp)
    · intro text isText
      unfold ScopeBuilder.pytestParamMarkerMessage at isText
      split at isText
      · split at isText
        · exact absurd isText (by simp)
        · split at isText
          · obtain rfl := Option.some.inj isText
            apply otherMessages_opening
            simp
          · exact absurd isText (by simp)
      · exact absurd isText (by simp)

/-- The checks of decorators report no banned construct. -/
theorem filter_isBanned_checkDecorators (decoratorList : List AST) :
    (scopes.checkDecorators filePath added decoratorList).filter isBanned = [] := by
  rw [List.filter_eq_nil_iff]
  intro violation found
  obtain ⟨decorator, -, rfl⟩ := List.mem_map.mp found
  have quiet := isBanned_violationAt filePath decorator
    (otherMessages_opening skipMarkerMessage (by simp))
  simp [quiet]

/-- The banned constructs that the rules of the policy report whole are the constructions of
clients. -/
theorem filter_isBanned_checkAstNodes :
    (scopes.checkAstNodes filePath tree none).filter isBanned =
      clientConstructions filePath tree scopes := by
  unfold ScopeBuilder.checkAstNodes clientConstructions
  induction walked tree with
  | nil => rfl
  | cons node rest inductionHypothesis =>
    rw [List.flatMap_cons, List.filter_append, inductionHypothesis, List.filter_cons]
    cases node with
    | call info func args keywords =>
      rw [ScopeBuilder.checkAstNode, filter_isBanned_checkCall]
      by_cases isDynamic : scopes.isDynamicClientCall func = true
      · simp [constructsClient, isDynamic]
      · simp [constructsClient, isDynamic]
    | classDef info name bases keywords body decoratorList =>
      rw [ScopeBuilder.checkAstNode, filter_isBanned_checkDecorators]
      rfl
    | functionDef info isAsync name args body decoratorList returns =>
      rw [ScopeBuilder.checkAstNode, filter_isBanned_checkDecorators]
      rfl
    | _ => rfl

/-! ## The visitor -/

/-- An asynchronous node is reported as banned. -/
theorem exists_banned_of_async {node : AST} (isAsync : isAddedAsync none node = true) :
    ∃ violation ∈ visit filePath none node, isBanned violation = true := by
  refine ⟨violationAt filePath node asyncFunctionMessage, ?_, ?_⟩
  · rw [visit_eq]
    apply List.mem_append_right
    simp [visitAfter, isAsync]
  · simp [isBanned, isBannedMessage, bannedConstructMessages, violationAt]

/-- Where the visitor finds a banned construct with a filter, it finds one without.

Proof: by induction on the nodes. An asynchronous function is reported without a filter, whatever
was found inside; any other node is entered as with the filter. -/
theorem exists_banned_visit (node : AST)
    (found : ∃ violation ∈ visit filePath added node, isBanned violation = true) :
    ∃ violation ∈ visit filePath none node, isBanned violation = true := by
  induction node using descends_induction (descends_visitNext (some [])) with
  | step node inductionHypothesis =>
    by_cases isAsync : isAddedAsync none node = true
    · exact exists_banned_of_async isAsync
    have within : added.Within none := fun _ _ => rfl
    have entered : visitNext none node = visitNext (some []) node :=
      visitNext_congr ((Bool.eq_false_iff.mpr isAsync).trans (isAddedAsync_nothing node).symm)
    obtain ⟨violation, inside, banned⟩ := found
    rw [visit_eq, List.append_assoc, List.mem_append, List.mem_append] at inside
    obtain before | inner | after := inside
    · refine ⟨violation, ?_, banned⟩
      rw [visit_eq]
      exact List.mem_append_left _
        (List.mem_append_left _ (visitBefore_subset within filePath node before))
    · obtain ⟨child, childInside, below⟩ := List.mem_flatMap.mp inner
      have reached := visitNext_subset added node childInside
      obtain ⟨other, otherInside, otherBanned⟩ :=
        inductionHypothesis child reached ⟨violation, below, banned⟩
      refine ⟨other, ?_, otherBanned⟩
      rw [visit_eq, entered]
      exact List.mem_append_left _ (List.mem_append_right _
        (List.mem_flatMap.mpr ⟨child, reached, otherInside⟩))
    · unfold visitAfter at after
      split at after
      · rename_i reported
        exact absurd (isAddedAsync_mono within reported) isAsync
      · exact absurd after List.not_mem_nil

/-! ## The basics -/

/-- The messages of the basics, apart from those about markers. -/
def basicsMessages : List String :=
  [relativeImportMessage, asyncFunctionMessage, asyncComprehensionMessage, awaitMessage,
    asyncForMessage, asyncWithMessage, assertMessage, selfAssertMessage, compareNoneMessage,
    compareBoolMessage, sleepMessage]

/-- The message of a comparison is one of the basic ones. -/
theorem comparisonMessage_mem (operators : List CompareOp) (operands : List AST) {message : String}
    (found : comparisonMessage operators operands = some message) : message ∈ basicsMessages := by
  fun_induction comparisonMessage operators operands with
  | case1 operator operators left right operands isEquality isNone =>
    obtain rfl := Option.some.inj found
    simp [basicsMessages]
  | case2 operator operators left right operands isEquality notNone isBool =>
    obtain rfl := Option.some.inj found
    simp [basicsMessages]
  | case3 operator operators left right operands isEquality notNone notBool inductionHypothesis =>
    exact inductionHypothesis found
  | case4 operator operators left right operands notEquality inductionHypothesis =>
    exact inductionHypothesis found
  | case5 => exact absurd found (by simp)

/-- The message of a node is one of the basic ones. -/
theorem nodeMessage_mem {node : AST} {message : String}
    (found : nodeMessage added node = some message) : message ∈ basicsMessages := by
  have chosen : ∀ {hit : Bool} {text : String}, text ∈ basicsMessages →
      (if hit then some text else none) = some message → message ∈ basicsMessages := by
    intro hit text inside chosen
    split at chosen
    · obtain rfl := Option.some.inj chosen
      exact inside
    · exact absurd chosen (by simp)
  unfold nodeMessage at found
  split at found
  · exact chosen (by simp [basicsMessages]) found
  · exact chosen (by simp [basicsMessages]) found
  · exact chosen (by simp [basicsMessages]) found
  · exact chosen (by simp [basicsMessages]) found
  · exact chosen (by simp [basicsMessages]) found
  · exact chosen (by simp [basicsMessages]) found
  · exact chosen (by simp [basicsMessages]) found
  · split at found
    · exact comparisonMessage_mem _ _ found
    · exact absurd found (by simp)
  · exact absurd found (by simp)

/-- The visitor reports basic messages only. -/
theorem visit_message (node : AST) {violation : PolicyViolation}
    (found : violation ∈ visit filePath added node) :
    ∃ message ∈ basicsMessages, violation.message = FsText.ofString message := by
  induction node using descends_induction (descends_visitNext added) with
  | step node inductionHypothesis =>
    rw [visit_eq, List.append_assoc, List.mem_append, List.mem_append] at found
    obtain before | inner | after := found
    · obtain ⟨message, isMessage, rfl⟩ := List.mem_map.mp before
      rw [Option.mem_toList] at isMessage
      exact ⟨message, nodeMessage_mem isMessage, rfl⟩
    · obtain ⟨child, childInside, below⟩ := List.mem_flatMap.mp inner
      exact inductionHypothesis child childInside below
    · unfold visitAfter at after
      split at after
      · rw [List.mem_singleton.mp after]
        exact ⟨asyncFunctionMessage, by simp [basicsMessages], message_violationAt ..⟩
      · exact absurd after List.not_mem_nil

section

variable {resolve : AST → List (List String)} {hits : AST → AST → Bool}

/-- A violation of the basics comes from one of the five checks. -/
theorem mem_checkTestBasics {violation : PolicyViolation} :
    violation ∈ checkTestBasics filePath tree resolve hits added ↔
      violation ∈ relativeImports filePath tree added ∨
      violation ∈ specialInfra filePath tree resolve hits ∨
      violation ∈ relativeDynamicImports filePath tree resolve hits ∨
      violation ∈ sleepCalls filePath tree resolve hits ∨
      violation ∈ visitorViolations filePath tree added := by
  unfold checkTestBasics
  simp only [List.mem_mergeSort, List.mem_append, or_assoc]

/-- A violation about special infrastructure names its marker. -/
theorem exists_marker_of_mem_specialInfra {violation : PolicyViolation}
    (found : violation ∈ specialInfra filePath tree resolve hits) :
    ∃ node marker, violation = violationAt filePath node (specialInfraMessage marker) := by
  unfold specialInfra specialInfraViolations at found
  split at found
  · simp only [List.mem_flatMap] at found
    obtain ⟨_, _, node, _, marker, _, found⟩ := found
    split at found
    · exact ⟨node, marker, List.mem_singleton.mp found⟩
    · exact absurd found List.not_mem_nil
  · exact absurd found List.not_mem_nil

/-- The message about clients opens with `reuse`. -/
def opensReuse (text : Text) : Bool := text.take 3 == ['r', 'e', 'u']

/-- A message with another opening is not the one about dynamic clients. -/
theorem ne_dynamicClient_of_opening {message : String}
    (opening : opensReuse message.toList = false) :
    FsText.ofString message ≠ FsText.ofString dynamicClientMessage := by
  intro same
  have letters := FsText.ofText_injective same
  have reuse : opensReuse dynamicClientMessage.toList = true := of_spelled opensReuse rfl rfl
  rw [letters, reuse] at opening
  exact absurd opening (by simp)

/-- The basic messages do not open like that about reuse. -/
theorem basicsMessages_opening : ∀ message ∈ basicsMessages, opensReuse message.toList = false := by
  simp only [basicsMessages, List.forall_mem_cons]
  refine ⟨?_, ?_, ?_, ?_, ?_, ?_, ?_, ?_, ?_, ?_, ?_, by simp⟩
  all_goals exact of_spelled opensReuse rfl rfl

/-- No rule of the basics has the message about clients. -/
theorem message_ne_dynamicClient {violation : PolicyViolation}
    (found : violation ∈ checkTestBasics filePath tree resolve hits added) :
    violation.message ≠ FsText.ofString dynamicClientMessage := by
  have plain : ∀ message ∈ basicsMessages,
      FsText.ofString message ≠ FsText.ofString dynamicClientMessage :=
    fun message inside => ne_dynamicClient_of_opening (basicsMessages_opening message inside)
  rw [mem_checkTestBasics] at found
  obtain atImport | atMarker | atCall | atSleep | visited := found
  · obtain ⟨node, -, rfl⟩ := List.mem_map.mp atImport
    rw [message_violationAt]
    exact plain relativeImportMessage (by simp [basicsMessages])
  · obtain ⟨node, marker, rfl⟩ := exists_marker_of_mem_specialInfra atMarker
    rw [message_violationAt]
    apply ne_dynamicClient_of_opening
    unfold specialInfraMessage
    rw [String.toList_append, String.toList_append, List.append_assoc]
    exact of_spelled_append opensReuse rfl rfl
  · obtain ⟨node, -, rfl⟩ := List.mem_map.mp atCall
    rw [message_violationAt]
    exact plain relativeImportMessage (by simp [basicsMessages])
  · obtain ⟨node, -, rfl⟩ := List.mem_map.mp atSleep
    rw [message_violationAt]
    exact plain sleepMessage (by simp [basicsMessages])
  · unfold visitorViolations at visited
    split at visited
    · obtain ⟨node, -, inside⟩ := List.mem_flatMap.mp visited
      obtain ⟨message, isBasics, same⟩ := visit_message node inside
      rw [same]
      exact plain message isBasics
    · exact absurd visited List.not_mem_nil

/-- A banned construct that the basics report with a filter is one they report whole, or one is
found around it. -/
theorem exists_banned_basics (wider : AST → AST → Bool)
    (implied : ∀ node dependency, hits node dependency = true → wider node dependency = true)
    {violation : PolicyViolation}
    (found : violation ∈ checkTestBasics filePath tree resolve hits added)
    (banned : isBanned violation = true) :
    ∃ other ∈ checkTestBasics filePath tree resolve wider none, isBanned other = true := by
  simp only [mem_checkTestBasics] at found ⊢
  obtain atImport | atMarker | atCall | atSleep | visited := found
  · exact ⟨violation, Or.inl (relativeImports_subset (fun _ _ => rfl) atImport), banned⟩
  · obtain ⟨node, marker, rfl⟩ := exists_marker_of_mem_specialInfra atMarker
    rw [isBanned_violationAt _ _ (specialInfraMessage_opening marker)] at banned
    exact absurd banned Bool.false_ne_true
  · exact ⟨violation, Or.inr (Or.inr (Or.inl (relativeDynamicImports_subset implied atCall))),
      banned⟩
  · obtain ⟨node, -, rfl⟩ := List.mem_map.mp atSleep
    rw [isBanned_violationAt _ _ (otherMessages_opening sleepMessage (by simp))] at banned
    exact absurd banned Bool.false_ne_true
  · unfold visitorViolations at visited ⊢
    split at visited
    · rename_i inRoot
      obtain ⟨node, nodeInside, inside⟩ := List.mem_flatMap.mp visited
      obtain ⟨other, otherInside, otherBanned⟩ :=
        exists_banned_visit node ⟨violation, inside, banned⟩
      refine ⟨other, Or.inr (Or.inr (Or.inr (Or.inr ?_))), otherBanned⟩
      rw [if_pos inRoot]
      exact List.mem_flatMap.mpr ⟨node, nodeInside, otherInside⟩
    · exact absurd visited List.not_mem_nil

end

end

/-! ## The two checks -/

section

variable (filePath : Path) (source : ParsedSource) (head : Option ParsedSource)
  (resourceClasses : List (List String))

/-- Of the basics the stateless check keeps exactly the banned constructs. -/
theorem filter_wholeFileBasics (tree : List AST) :
    (wholeFileBasics filePath tree).filter (bannedConstructMessages.contains ·.message) =
      (wholeFileBasics filePath tree).filter isBanned := by
  apply List.filter_congr
  intro violation inside
  have other := message_ne_dynamicClient inside
  simp [isBanned, isBannedMessage, other]

/-- A banned construct is found by the basics or as the construction of a client. -/
theorem mem_bannedConstructViolations {tree : List AST} {violation : PolicyViolation} :
    violation ∈ bannedConstructViolations filePath tree ↔
      violation ∈ (wholeFileBasics filePath tree).filter isBanned ∨
        violation ∈ clientConstructions filePath tree (fileScopes filePath tree) := by
  unfold bannedConstructViolations
  rw [List.mem_mergeSort, List.mem_append, filter_wholeFileBasics]

/-- Without a filter the staged check reports, of banned constructs, the constructions of clients
and those of the basics. -/
theorem filter_isBanned_wholeFile :
    ((checkPythonSource filePath source none head resourceClasses).filter isBanned).Perm
      (clientConstructions filePath source.tree (fileScopes filePath source.tree) ++
        (wholeFileBasics filePath source.tree).filter isBanned) := by
  unfold checkPythonSource
  refine ((List.mergeSort_perm _ _).filter _).trans (List.Perm.of_eq ?_)
  have assignments : ((fileScopes filePath source.tree).checkModuleAssignments filePath source.tree
      none).filter isBanned = [] := by
    rw [List.filter_eq_nil_iff]
    intro violation found
    simp [not_banned_of_mem_checkModuleAssignments found]
  have clients : (checkResourceClients filePath source (fileScopes filePath source.tree) none
      (head.map fun headSource => (headSource, fileScopes filePath headSource.tree))
      resourceClasses).filter isBanned = [] := by
    rw [List.filter_eq_nil_iff]
    intro violation found
    unfold checkResourceClients at found
    rw [List.mem_mergeSort] at found
    simp [not_banned_of_mem_checkResourceCalls _ _ found]
  simp only [List.filter_append, assignments, clients, filter_isBanned_checkAstNodes,
    List.nil_append, List.append_nil]
  rfl

/-- The construction of a client is banned. -/
theorem isBanned_of_mem_clientConstructions {tree : List AST} {scopes : ScopeBuilder}
    {violation : PolicyViolation} (inside : violation ∈ clientConstructions filePath tree scopes) :
    isBanned violation = true := by
  obtain ⟨node, -, rfl⟩ := List.mem_map.mp inside
  simp [isBanned, isBannedMessage, violationAt]

/-- What the stateless check reports is about banned constructs. -/
theorem filter_isBanned_bannedConstructViolations (tree : List AST) :
    ((bannedConstructViolations filePath tree).filter isBanned).Perm
      (clientConstructions filePath tree (fileScopes filePath tree) ++
        (wholeFileBasics filePath tree).filter isBanned) := by
  unfold bannedConstructViolations
  refine ((List.mergeSort_perm _ _).filter _).trans ?_
  have clients : (clientConstructions filePath tree (fileScopes filePath tree)).filter isBanned =
      clientConstructions filePath tree (fileScopes filePath tree) :=
    List.filter_eq_self.mpr fun _ inside => isBanned_of_mem_clientConstructions filePath inside
  have kept : ((wholeFileBasics filePath tree).filter isBanned).filter isBanned =
      (wholeFileBasics filePath tree).filter isBanned :=
    List.filter_eq_self.mpr fun _ inside => (List.mem_filter.mp inside).2
  rw [filter_wholeFileBasics, List.filter_append, kept, clients]
  exact List.perm_append_comm

/-- A violation of the staged check about a banned construct has one of the stateless check beside
it. -/
theorem exists_bannedConstructViolation {added : AddedLines} {violation : PolicyViolation}
    (found : violation ∈ checkPythonSource filePath source added head resourceClasses)
    (banned : isBanned violation = true) :
    ∃ other ∈ bannedConstructViolations filePath source.tree, isBanned other = true := by
  have within : added.Within none := fun _ _ => rfl
  unfold checkPythonSource at found
  simp only [List.mem_mergeSort, List.mem_append, or_assoc] at found
  obtain atAssignment | atNode | atClient | atBasics := found
  · rw [not_banned_of_mem_checkModuleAssignments atAssignment] at banned
    exact absurd banned Bool.false_ne_true
  · refine ⟨violation, (mem_bannedConstructViolations filePath).mpr (Or.inr ?_), banned⟩
    rw [← filter_isBanned_checkAstNodes, List.mem_filter]
    exact ⟨ScopeBuilder.checkAstNodes_subset within filePath source.tree atNode, banned⟩
  · unfold checkResourceClients at atClient
    rw [List.mem_mergeSort] at atClient
    rw [not_banned_of_mem_checkResourceCalls _ _ atClient] at banned
    exact absurd banned Bool.false_ne_true
  · obtain ⟨other, inside, otherBanned⟩ := exists_banned_basics
      (fun node _ => intersects none node) (fun _ _ _ => rfl) atBasics banned
    refine ⟨other, (mem_bannedConstructViolations filePath).mpr (Or.inl ?_), otherBanned⟩
    exact List.mem_filter.mpr ⟨inside, otherBanned⟩

/-- The stateless check and the staged check agree on banned constructs. If the staged check finds
one with some filter, so does the stateless one; and without a filter they find the same, line by
line.

Proof: without a filter both are the constructions of clients and the banned constructs of the
basics. With a filter the rules report no more than without, except inside asynchronous
functions, and these are reported themselves. -/
theorem banned_constructs_agree :
    (∀ added, (∃ violation ∈ checkPythonSource filePath source added head resourceClasses,
        isBanned violation = true) →
      ∃ violation ∈ bannedConstructViolations filePath source.tree, isBanned violation = true) ∧
    bannedPairs (checkPythonSource filePath source none head resourceClasses) =
      bannedPairs (bannedConstructViolations filePath source.tree) := by
  constructor
  · rintro added ⟨violation, found, banned⟩
    exact exists_bannedConstructViolation filePath source head resourceClasses found banned
  · have same := (filter_isBanned_wholeFile filePath source head resourceClasses).trans
      (filter_isBanned_bannedConstructViolations filePath source.tree).symm
    unfold bannedPairs
    rw [Multiset.coe_eq_coe]
    exact same.map _

end

/-- The expression `await connect()` on the second line. -/
def awaited : AST :=
  .other ⟨4, 2, 2⟩ .await [.call ⟨5, 2, 2⟩ (.name ⟨6, 2, 2⟩ "connect" .load) [] []]

/-- An asynchronous function that awaits. -/
def awaitingTest : ParsedSource where
  tree :=
    [.functionDef ⟨1, 1, 2⟩ true "test_vm" (.arguments ⟨2, 1, 1⟩ [] [] none [] [] none [])
      [.exprStmt ⟨3, 2, 2⟩ awaited] [] none]
  tokens := []
  colOffset := fun _ => 0
  dump := fun _ => []

/-- With the second line added the staged check reports the `await`, which the stateless check does
not come to; it reports the function. -/
theorem awaiting_test_reported :
    (∃ violation ∈ checkPythonSource testFile awaitingTest (some [2]) none [],
        isBanned violation = true) ∧
      ∃ violation ∈ bannedConstructViolations testFile awaitingTest.tree,
        isBanned violation = true := by
  have visited : visitorViolations testFile awaitingTest.tree (some [2]) =
      [violationAt testFile awaited awaitMessage] := by
    rfl
  have staged : ∃ violation ∈ checkPythonSource testFile awaitingTest (some [2]) none [],
      isBanned violation = true := by
    refine ⟨violationAt testFile awaited awaitMessage, ?_, ?_⟩
    · unfold checkPythonSource
      rw [List.mem_mergeSort]
      apply List.mem_append_right
      rw [mem_checkTestBasics, visited]
      simp
    · simp [isBanned, isBannedMessage, bannedConstructMessages, violationAt]
  exact ⟨staged, (banned_constructs_agree testFile awaitingTest none []).1 (some [2]) staged⟩

end VirtTestTools.Policy
