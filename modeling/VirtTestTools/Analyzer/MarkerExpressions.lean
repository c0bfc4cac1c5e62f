import VirtTestTools.Analyzer.Markers

/-!
# Marker expressions and the fallback discovery

Marker expressions over `and`, `or`, `not` and parentheses, with their written
forms and their boolean meaning, and the effective markers of a test function as
pytest combines them. The fallback discovery flattens an expression to its names
and scans a module for them. The main result says which satisfying tests it
registers: those with a name of the expression written at a place it scans. A
test may satisfy an expression without that, for a negated name or a marker at
another place.
-/

namespace VirtTestTools.Analyzer

open Text

/-- A boolean expression over marker names; `paren` is a pair of parentheses
that precedence does not require. -/
inductive MarkerExpr
  | name (id : String)
  | not (operand : MarkerExpr)
  | and (left right : MarkerExpr)
  | or (left right : MarkerExpr)
  | paren (inner : MarkerExpr)

/-- The tokens of a written expression. -/
inductive Token
  | left
  | right
  | andOp
  | orOp
  | notOp
  | ident (id : String)
deriving DecidableEq

namespace Token

/-- The text of a token. -/
def spelling : Token → Text
  | .left => ['(']
  | .right => [')']
  | .andOp => "and".toList
  | .orOp => "or".toList
  | .notOp => "not".toList
  | .ident id => id.toList

/-- Whether a token is a word, so that a following word needs a separator. -/
def isWord : Token → Bool
  | .left | .right => false
  | _ => true

end Token

namespace MarkerExpr

/-- The names of an expression, with repetitions. -/
def names : MarkerExpr → List String
  | .name id => [id]
  | .not operand => operand.names
  | .and left right | .or left right => left.names ++ right.names
  | .paren inner => inner.names

/-- The boolean meaning for a set of markers. -/
def holds (markers : List String) : MarkerExpr → Bool
  | .name id => decide (id ∈ markers)
  | .not operand => !operand.holds markers
  | .and left right => left.holds markers && right.holds markers
  | .or left right => left.holds markers || right.holds markers
  | .paren inner => inner.holds markers

/-- Binding strength: `or` is weaker than `and`, which is weaker than the rest. -/
def strength : MarkerExpr → Nat
  | .or .. => 0
  | .and .. => 1
  | _ => 2

/-- Parenthesise an operand that binds less tightly than its place requires. -/
def enclose (required : Nat) (operand : MarkerExpr) (tokens : List Token) : List Token :=
  if operand.strength < required then .left :: tokens ++ [.right] else tokens

/-- The tokens of an expression. -/
def tokens : MarkerExpr → List Token
  | .name id => [.ident id]
  | .not operand => .notOp :: enclose 2 operand operand.tokens
  | .and left right => enclose 1 left left.tokens ++ .andOp :: enclose 1 right right.tokens
  | .or left right => left.tokens ++ .orOp :: right.tokens
  | .paren inner => .left :: inner.tokens ++ [.right]

end MarkerExpr

/-- A name that can be written after `pytest.mark.`: a nonempty word that is no
operator. -/
def IsMarkerName (unicode : Unicode) (name : String) : Prop :=
  name.toList ≠ [] ∧ (∀ character ∈ name.toList, unicode.word character = true) ∧
    name ∉ ["and", "or", "not"]

/-- The written forms of a token list: white space anywhere between tokens, and
no two words without a separator. -/
inductive Spelled (unicode : Unicode) : List Token → Text → Prop
  | nil {gap : Text} (spaces : ∀ character ∈ gap, isSpace character = true) :
      Spelled unicode [] gap
  | cons {token : Token} {rest : List Token} {gap tail : Text}
      (spaces : ∀ character ∈ gap, isSpace character = true)
      (later : Spelled unicode rest tail)
      (separated : token.isWord = true →
        ∀ character ∈ tail.head?, unicode.word character = false) :
      Spelled unicode (token :: rest) (gap ++ token.spelling ++ tail)

section Words

variable (unicode : Unicode)

/-- Separators before the first word are skipped. -/
theorem words_skip (gap text : Text)
    (separators : ∀ character ∈ gap, unicode.word character = false) :
    words unicode (gap ++ text) = words unicode text := by
  induction gap with
  | nil => rfl
  | cons character rest inductionHypothesis =>
    rw [List.forall_mem_cons] at separators
    rw [List.cons_append, words, wordsFrom]
    simp only [separators.1, Bool.false_eq_true, ↓reduceIte, List.isEmpty_nil]
    exact inductionHypothesis separators.2

/-- Word characters are collected. -/
theorem wordsFrom_collect (pending word text : Text)
    (characters : ∀ character ∈ word, unicode.word character = true) :
    wordsFrom unicode pending (word ++ text) =
      wordsFrom unicode (word.reverse ++ pending) text := by
  induction word generalizing pending with
  | nil => rfl
  | cons character rest inductionHypothesis =>
    rw [List.forall_mem_cons] at characters
    rw [List.cons_append, wordsFrom]
    simp only [characters.1, ↓reduceIte]
    rw [inductionHypothesis _ characters.2]
    simp

/-- A word that a separator or the end follows is a word of the text. -/
theorem words_word (word text : Text) (nonempty : word ≠ [])
    (characters : ∀ character ∈ word, unicode.word character = true)
    (separated : ∀ character ∈ text.head?, unicode.word character = false) :
    words unicode (word ++ text) = word :: words unicode text := by
  rw [words, wordsFrom_collect unicode [] word text characters, List.append_nil]
  cases text with
  | nil => simp [wordsFrom, words, nonempty]
  | cons character rest =>
    have separator := separated character (by simp)
    simp [wordsFrom, words, separator, nonempty]

/-- The words of a written token list are its word tokens, in order. -/
theorem words_of_spelled (tokens : List Token) (text : Text)
    (spelled : Spelled unicode tokens text)
    (named : ∀ id, Token.ident id ∈ tokens → IsMarkerName unicode id) :
    words unicode text = (tokens.filter Token.isWord).map Token.spelling := by
  induction spelled with
  | nil spaces =>
    rename_i gap
    have skipped := words_skip unicode gap [] fun character member =>
      unicode.word_space character (spaces character member)
    rw [List.append_nil] at skipped
    rw [skipped]
    rfl
  | cons spaces later separated inductionHypothesis =>
    rename_i token rest gap tail
    have rest_words := inductionHypothesis fun id member => named id (List.mem_cons_of_mem _ member)
    rw [List.append_assoc, words_skip unicode gap _ fun character member =>
      unicode.word_space character (spaces character member)]
    by_cases isWord : token.isWord = true
    · have characters : token.spelling ≠ [] ∧
          ∀ character ∈ token.spelling, unicode.word character = true := by
        cases token with
        | left => cases isWord
        | right => cases isWord
        | andOp => simp [Token.spelling, unicode.word_ascii]
        | orOp => simp [Token.spelling, unicode.word_ascii]
        | notOp => simp [Token.spelling, unicode.word_ascii]
        | ident id =>
          obtain ⟨nonempty, word, -⟩ := named id List.mem_cons_self
          exact ⟨nonempty, word⟩
      rw [words_word unicode token.spelling tail characters.1 characters.2 (separated isWord),
        rest_words, List.filter_cons_of_pos isWord, List.map_cons]
    · have separators : ∀ character ∈ token.spelling, unicode.word character = false := by
        cases token with
        | left => simp [Token.spelling, unicode.word_ascii]
        | right => simp [Token.spelling, unicode.word_ascii]
        | andOp => exact absurd rfl isWord
        | orOp => exact absurd rfl isWord
        | notOp => exact absurd rfl isWord
        | ident id => exact absurd rfl isWord
      rw [words_skip unicode token.spelling tail separators, rest_words,
        List.filter_cons_of_neg isWord]

end Words

/-- The identifiers among the tokens of an expression are its names. -/
theorem MarkerExpr.ident_mem_tokens (expr : MarkerExpr) (id : String) :
    Token.ident id ∈ expr.tokens ↔ id ∈ expr.names := by
  have enclosed : ∀ (required : Nat) (operand : MarkerExpr) (tokens : List Token),
      Token.ident id ∈ enclose required operand tokens ↔ Token.ident id ∈ tokens := by
    intro required operand tokens
    unfold enclose
    split <;> simp
  induction expr with
  | name other => simp [tokens, names]
  | not operand inductionHypothesis => simp [tokens, names, enclosed, inductionHypothesis]
  | and left right leftHypothesis rightHypothesis =>
    simp [tokens, names, enclosed, leftHypothesis, rightHypothesis]
  | or left right leftHypothesis rightHypothesis =>
    simp [tokens, names, leftHypothesis, rightHypothesis]
  | paren inner inductionHypothesis => simp [tokens, names, inductionHypothesis]

/-- The names extracted from a written expression are the names in it. -/
theorem mem_extractMarkerNames (unicode : Unicode) (expr : MarkerExpr) (text : Text)
    (spelled : Spelled unicode expr.tokens text)
    (named : ∀ id ∈ expr.names, IsMarkerName unicode id) (id : String) :
    id ∈ extractMarkerNames unicode text ↔ id ∈ expr.names := by
  have identifiers : ∀ other, Token.ident other ∈ expr.tokens → IsMarkerName unicode other :=
    fun other member => named other ((expr.ident_mem_tokens other).mp member)
  simp only [extractMarkerNames, words_of_spelled unicode expr.tokens text spelled identifiers,
    List.mem_filter, List.mem_map, decide_eq_true_eq]
  rw [← expr.ident_mem_tokens]
  constructor
  · rintro ⟨⟨word, ⟨token, ⟨member, isWord⟩, rfl⟩, rfl⟩, ordinary⟩
    cases token with
    | left => cases isWord
    | right => cases isWord
    | andOp => exact absurd (by simp [Token.spelling]) ordinary
    | orOp => exact absurd (by simp [Token.spelling]) ordinary
    | notOp => exact absurd (by simp [Token.spelling]) ordinary
    | ident other => simpa [Token.spelling] using member
  · intro member
    refine ⟨⟨id.toList, ⟨.ident id, ⟨member, rfl⟩, rfl⟩, String.ofList_toList⟩, ?_⟩
    exact (identifiers id member).2.2

/-- Markers outside the expression do not change its value. -/
theorem MarkerExpr.holds_of_disjoint (expr : MarkerExpr) (markers : List String)
    (disjoint : ∀ id ∈ expr.names, id ∉ markers) : expr.holds markers = expr.holds [] := by
  induction expr with
  | name id => simpa [holds, names] using disjoint
  | not operand inductionHypothesis => simp [holds, inductionHypothesis disjoint]
  | and left right leftHypothesis rightHypothesis =>
    simp only [names, List.forall_mem_append] at disjoint
    simp [holds, leftHypothesis disjoint.1, rightHypothesis disjoint.2]
  | or left right leftHypothesis rightHypothesis =>
    simp only [names, List.forall_mem_append] at disjoint
    simp [holds, leftHypothesis disjoint.1, rightHypothesis disjoint.2]
  | paren inner inductionHypothesis => simpa [holds] using inductionHypothesis disjoint

/-- The marker an expression `pytest.mark.<name>` denotes, bare or called. -/
def markerNameOf : AST → Option String
  | .attribute _ (.attribute _ (.name _ id _) mark) attr =>
    if id = "pytest" ∧ mark = "mark" then some attr else none
  | .call _ func _ _ => markerNameOf func
  | _ => none

/-- The markers of a value that is a marker or a list of markers. -/
def listedMarkers : AST → List String
  | .list _ elts => elts.filterMap markerNameOf
  | value => (markerNameOf value).toList

/-- The markers of a value that is a marker or a tuple of markers. -/
def tupledMarkers : AST → List String
  | .tuple _ elts => elts.filterMap markerNameOf
  | value => (markerNameOf value).toList

/-- The markers of a value that is a marker or a collection of markers. -/
def collectedMarkers : AST → List String
  | .list _ elts | .tuple _ elts | .other _ .set elts => elts.filterMap markerNameOf
  | value => (markerNameOf value).toList

/-- The value a top-level statement binds to `pytestmark`. -/
def pytestmarkValue : AST → Option AST
  | .assign _ targets value =>
    if targets.any (fun | .name _ id _ => decide (id = "pytestmark") | _ => false) then some value
    else none
  | .annAssign _ (.name _ "pytestmark" _) _ value => value
  | _ => none

/-- The markers of the module: those of the last value of `pytestmark`. -/
def moduleMarkers (tree : List AST) : List String :=
  ((tree.filterMap pytestmarkValue).getLast?.map listedMarkers).getD []

/-- The marks of one parameter. -/
def paramMarks (param : AST) : List String := (marksValues param).flatMap collectedMarkers

/-- The parameters of a `pytest.mark.parametrize` decorator. -/
def parametrization (decorator : AST) : List AST :=
  match parametrizeArguments decorator with
  | none => []
  | some (args, keywords) =>
    secondArgumentElements args ++ (keywordValues "argvalues" keywords).flatMap displayElements

/-- The marks of the parameters an instance may combine: one parameter of each
parametrization. -/
def chosenMarks : List AST → List (List String)
  | [] => [[]]
  | decorator :: rest =>
    match parametrization decorator with
    | [] => chosenMarks rest
    | options => options.flatMap fun option => (chosenMarks rest).map (paramMarks option ++ ·)

/-- A test function of a module, by qualified name, with the decorators of its
class and its own. -/
structure TestDefinition where
  name : String
  classDecorators : List AST
  decorators : List AST

/-- The test functions of a class body. -/
def methodDefinitions (className : String) (classDecorators body : List AST) :
    List TestDefinition :=
  body.filterMap fun
    | .functionDef _ _ name _ _ decoratorList _ =>
      if isTestName name then some ⟨className ++ "::" ++ name, classDecorators, decoratorList⟩
      else none
    | _ => none

/-- The test functions of one top-level statement. -/
def definitionsOf : AST → List TestDefinition
  | .functionDef _ _ name _ _ decoratorList _ =>
    if isTestName name then [⟨name, [], decoratorList⟩] else []
  | .classDef _ name _ _ body decoratorList => methodDefinitions name decoratorList body
  | _ => []

/-- The top-level and class-level test functions of a module. -/
def testDefinitions (tree : List AST) : List TestDefinition := tree.flatMap definitionsOf

/-- The effective marker sets of the instances of a test: the markers of the
module, of the class and of the function, and those of the chosen parameters. -/
def effectiveMarkerSets (tree : List AST) (test : TestDefinition) : List (List String) :=
  (chosenMarks (test.classDecorators ++ test.decorators)).map fun chosen =>
    moduleMarkers tree ++ (test.classDecorators ++ test.decorators).filterMap markerNameOf ++ chosen

/-- The module markers the scan reads: those of an assignment to `pytestmark`
alone. -/
def scannedModuleMarkers : AST → List String
  | .assign _ [.name _ id _] value => if id = "pytestmark" then listedMarkers value else []
  | _ => []

/-- The marks the scan reads from a parameter. -/
def scannedParamMarks (param : AST) : List String := (marksValues param).flatMap tupledMarkers

/-- The marks the scan reads from a decorator of a function: those of the second
positional argument of `pytest.mark.parametrize`. -/
def scannedParametrizeMarks (decorator : AST) : List String :=
  match parametrizeArguments decorator with
  | none => []
  | some (args, _) => (secondArgumentElements args).flatMap scannedParamMarks

/-- The markers written at the places the scan reads: plain `pytestmark`
assignments, the decorators of the class and of the function, and the marks of
the function's own parametrizations. -/
def scannedMarkers (tree : List AST) (test : TestDefinition) : List String :=
  tree.flatMap scannedModuleMarkers ++
    (test.classDecorators ++ test.decorators).filterMap markerNameOf ++
    test.decorators.flatMap scannedParametrizeMarks

section Scan

variable (markerNames : List String)

/-- A node is a marker of the list exactly when its name is in it. -/
theorem isMarker_iff (node : AST) :
    isMarker markerNames node = true ↔ ∃ name ∈ markerNames, markerNameOf node = some name := by
  fun_induction isMarker markerNames node with
  | case1 => simp [markerNameOf]; tauto
  | case2 info func args keywords inductionHypothesis => simpa [markerNameOf] using inductionHypothesis
  | case3 node attributes calls =>
    have unmarked : markerNameOf node = none := by
      unfold markerNameOf
      split
      · exact (attributes _ _ _ _ _ _ _ rfl).elim
      · exact (calls _ _ _ _ rfl).elim
      · rfl
    simp [unmarked]

/-- Some node is a marker of the list exactly when some name is. -/
theorem any_isMarker_iff (nodes : List AST) :
    nodes.any (isMarker markerNames) = true ↔
      ∃ name ∈ markerNames, name ∈ nodes.filterMap markerNameOf := by
  simp only [List.any_eq_true, isMarker_iff, List.mem_filterMap]
  constructor
  · rintro ⟨node, member, name, listed, written⟩
    exact ⟨name, listed, node, member, written⟩
  · rintro ⟨name, listed, node, member, written⟩
    exact ⟨node, member, name, listed, written⟩

/-- The scan of a marker or a list of them. -/
theorem isMarkerOrList_iff (value : AST) :
    isMarkerOrList markerNames value = true ↔
      ∃ name ∈ markerNames, name ∈ listedMarkers value := by
  unfold isMarkerOrList listedMarkers
  split
  · exact any_isMarker_iff markerNames _
  · simp [isMarker_iff]

/-- The scan of a marker or a tuple of them. -/
theorem isMarkerOrTuple_iff (value : AST) :
    isMarkerOrTuple markerNames value = true ↔
      ∃ name ∈ markerNames, name ∈ tupledMarkers value := by
  unfold isMarkerOrTuple tupledMarkers
  split
  · exact any_isMarker_iff markerNames _
  · simp [isMarker_iff]

/-- The scan of an assignment to `pytestmark`. -/
theorem checkPytestmarkAssignment_iff (node : AST) :
    checkPytestmarkAssignment markerNames node = true ↔
      ∃ name ∈ markerNames, name ∈ scannedModuleMarkers node := by
  unfold checkPytestmarkAssignment
  split
  · rename_i id ctx value
    by_cases same : id = "pytestmark"
    · simp [scannedModuleMarkers, same, isMarkerOrList_iff]
    · simp [scannedModuleMarkers, same]
  · rename_i shape
    have unread : scannedModuleMarkers node = [] := by
      unfold scannedModuleMarkers
      split
      · exact (shape _ _ _ _ _ rfl).elim
      · rfl
    simp [unread]

/-- A name is found among the values that one of the nodes contributes. -/
theorem any_iff_of_forall (accepts : AST → Bool) (written : AST → List String)
    (reads : ∀ node, accepts node = true ↔ ∃ name ∈ markerNames, name ∈ written node)
    (nodes : List AST) :
    nodes.any accepts = true ↔ ∃ name ∈ markerNames, name ∈ nodes.flatMap written := by
  simp only [List.any_eq_true, reads, List.mem_flatMap]
  constructor
  · rintro ⟨node, member, name, listed, found⟩
    exact ⟨name, listed, node, member, found⟩
  · rintro ⟨name, listed, node, member, found⟩
    exact ⟨node, member, name, listed, found⟩

/-- The scan of the marks of a parameter. -/
theorem hasMarkerInParam_iff (param : AST) :
    hasMarkerInParam markerNames param = true ↔
      ∃ name ∈ markerNames, name ∈ scannedParamMarks param :=
  any_iff_of_forall markerNames _ _ (isMarkerOrTuple_iff markerNames) (marksValues param)

/-- The scan of the parameters of a decorator. -/
theorem checkParametrizeMarks_iff (decorator : AST) :
    checkParametrizeMarks markerNames decorator = true ↔
      ∃ name ∈ markerNames, name ∈ scannedParametrizeMarks decorator := by
  unfold checkParametrizeMarks scannedParametrizeMarks
  cases parametrizeArguments decorator with
  | none => simp
  | some arguments =>
    exact any_iff_of_forall markerNames _ _ (hasMarkerInParam_iff markerNames)
      (secondArgumentElements arguments.1)

/-- The decorators of a function are read for markers and for parameter marks. -/
theorem any_marksFunction_iff (decorators : List AST) :
    decorators.any (marksFunction markerNames) = true ↔
      ∃ name ∈ markerNames, name ∈ decorators.filterMap markerNameOf ++
        decorators.flatMap scannedParametrizeMarks := by
  simp only [List.any_eq_true, marksFunction, Bool.or_eq_true, isMarker_iff,
    checkParametrizeMarks_iff, List.mem_append, List.mem_filterMap, List.mem_flatMap]
  constructor
  · rintro ⟨decorator, member, ⟨name, listed, found⟩ | ⟨name, listed, found⟩⟩
    · exact ⟨name, listed, Or.inl ⟨decorator, member, found⟩⟩
    · exact ⟨name, listed, Or.inr ⟨decorator, member, found⟩⟩
  · rintro ⟨name, listed, ⟨decorator, member, found⟩ | ⟨decorator, member, found⟩⟩
    · exact ⟨decorator, member, Or.inl ⟨name, listed, found⟩⟩
    · exact ⟨decorator, member, Or.inr ⟨name, listed, found⟩⟩

/-- Whether the scan of a module accepts one of its tests. -/
def acceptsTest (tree : List AST) (test : TestDefinition) : Bool :=
  tree.any (checkPytestmarkAssignment markerNames) ||
    test.classDecorators.any (isMarker markerNames) ||
    test.decorators.any (marksFunction markerNames)

/-- A test is accepted exactly when a scanned marker of it is in the list. -/
theorem acceptsTest_iff (tree : List AST) (test : TestDefinition) :
    acceptsTest markerNames tree test = true ↔
      ∃ name ∈ markerNames, name ∈ scannedMarkers tree test := by
  simp only [acceptsTest, Bool.or_eq_true, any_isMarker_iff, any_marksFunction_iff,
    any_iff_of_forall markerNames _ _ (checkPytestmarkAssignment_iff markerNames) tree,
    scannedMarkers, List.filterMap_append, List.mem_append]
  constructor
  · rintro ((⟨name, listed, found⟩ | ⟨name, listed, found⟩) | ⟨name, listed, found | found⟩)
    · exact ⟨name, listed, Or.inl (Or.inl found)⟩
    · exact ⟨name, listed, Or.inl (Or.inr (Or.inl found))⟩
    · exact ⟨name, listed, Or.inl (Or.inr (Or.inr found))⟩
    · exact ⟨name, listed, Or.inr found⟩
  · rintro ⟨name, listed, (found | found | found) | found⟩
    · exact Or.inl (Or.inl ⟨name, listed, found⟩)
    · exact Or.inl (Or.inr ⟨name, listed, found⟩)
    · exact Or.inr ⟨name, listed, Or.inl found⟩
    · exact Or.inr ⟨name, listed, Or.inr found⟩

/-- The methods of a class that are accepted are those among its definitions. -/
theorem testMethods_eq (className : String) (classDecorators body : List AST)
    (accepts : List AST → Bool) :
    testMethods className accepts body =
      ((methodDefinitions className classDecorators body).filter
        (fun test => accepts test.decorators)).map TestDefinition.name := by
  induction body with
  | nil => rfl
  | cons node rest inductionHypothesis =>
    simp only [testMethods, methodDefinitions, List.filterMap_cons] at inductionHypothesis ⊢
    cases node with
    | functionDef info isAsync name args body decoratorList returns =>
      by_cases isTest : isTestName name = true
      · by_cases accepted : accepts decoratorList = true
        · simp only [isTest, accepted, Bool.and_self, ↓reduceIte, List.filter_cons_of_pos,
            List.map_cons, inductionHypothesis]
        · simp only [isTest, accepted, Bool.and_false, Bool.false_eq_true, ↓reduceIte,
            inductionHypothesis, not_false_eq_true, List.filter_cons_of_neg]
      · simp only [isTest, Bool.false_and, Bool.false_eq_true, ↓reduceIte, inductionHypothesis]
    | _ => exact inductionHypothesis

/-- The methods of a class have its decorators. -/
theorem methodDefinitions_classDecorators (className : String) (classDecorators body : List AST) :
    ∀ test ∈ methodDefinitions className classDecorators body,
      test.classDecorators = classDecorators := by
  intro test member
  obtain ⟨node, -, found⟩ := List.mem_filterMap.mp member
  split at found
  · split at found
    · exact (Option.some.inj found) ▸ rfl
    · cases found
  · cases found

/-- The scanned names are the accepted tests of the module. -/
theorem markedTestNames_eq (tree : List AST) :
    markedTestNames markerNames tree =
      ((testDefinitions tree).filter (acceptsTest markerNames tree)).map TestDefinition.name := by
  have statement : ∀ node, markedTestsOf markerNames
      (tree.any (checkPytestmarkAssignment markerNames)) node =
      ((definitionsOf node).filter (acceptsTest markerNames tree)).map TestDefinition.name := by
    intro node
    cases node with
    | functionDef info isAsync name args body decoratorList returns =>
      by_cases isTest : isTestName name = true
      · simp only [markedTestsOf, definitionsOf, isTest, acceptsTest, Bool.true_and, ↓reduceIte,
          List.filter_cons, List.any_nil, Bool.or_false, List.filter_nil]
        split <;> rfl
      · simp [markedTestsOf, definitionsOf, isTest]
    | classDef info name bases keywords body decoratorList =>
      rw [markedTestsOf, testMethods_eq name decoratorList body]
      congr 1
      refine List.filter_congr fun test member => ?_
      rw [acceptsTest, methodDefinitions_classDecorators name decoratorList body test member]
    | _ => rfl
  simp only [markedTestNames, testDefinitions, List.filter_flatMap, List.map_flatMap]
  exact congrArg (fun names => tree.flatMap names) (funext statement)

/-- Registration keeps what is known and adds the new node ids. -/
theorem has_foldl_registerNew (found : List MarkedTest) (markedTests : Dict String MarkedTest)
    (nodeId : String) :
    (found.foldl registerNew markedTests).has nodeId = true ↔
      markedTests.has nodeId = true ∨ ∃ markedTest ∈ found, markedTest.nodeId = nodeId := by
  induction found generalizing markedTests with
  | nil => simp
  | cons markedTest rest inductionHypothesis =>
    have one : (registerNew markedTests markedTest).has nodeId = true ↔
        markedTests.has nodeId = true ∨ markedTest.nodeId = nodeId := by
      unfold registerNew
      split
      · rename_i known
        constructor
        · exact Or.inl
        · rintro (old | rfl)
          · exact old
          · exact known
      · rw [Dict.has_iff, Dict.has_iff]
        by_cases same : nodeId = markedTest.nodeId
        · simp [Dict.get_set, same]
        · simp [Dict.get_set, same, Ne.symm same]
    rw [List.foldl_cons, inductionHypothesis, one, List.exists_mem_cons_iff, or_assoc]

/-- The fallback registers the tests with a scanned marker of the given names,
and no other node id. -/
theorem has_fallback_iff (world : World) (nodeId : String) :
    (fallbackDiscoverMarkedTests world markerNames ∅).has nodeId = true ↔
      ∃ testFile ∈ testFiles world, ∃ tree test, world.tree testFile = some tree ∧
        test ∈ testDefinitions tree ∧ nodeIdOf testFile test.name = nodeId ∧
        ∃ name ∈ markerNames, name ∈ scannedMarkers tree test := by
  rw [fallbackDiscoverMarkedTests, has_foldl_registerNew]
  have empty : (∅ : Dict String MarkedTest).has nodeId = false := rfl
  simp only [empty, Bool.false_eq_true, false_or, List.mem_flatMap, processTestFileForMarkers]
  constructor
  · rintro ⟨markedTest, ⟨testFile, listed, member⟩, same⟩
    split at member
    · cases member
    · rename_i tree parsed
      simp only [markedTestNames_eq, List.map_map, List.mem_map, List.mem_filter,
        Function.comp_apply] at member
      obtain ⟨test, ⟨defined, accepted⟩, rfl⟩ := member
      exact ⟨testFile, listed, tree, test, parsed, defined, same,
        (acceptsTest_iff markerNames tree test).mp accepted⟩
  · rintro ⟨testFile, listed, tree, test, parsed, defined, same, scanned⟩
    refine ⟨{ filePath := testFile, testName := test.name, nodeId := nodeIdOf testFile test.name },
      ⟨testFile, listed, ?_⟩, same⟩
    rw [parsed]
    refine List.mem_map.mpr ⟨test.name, ?_, rfl⟩
    rw [markedTestNames_eq]
    exact List.mem_map_of_mem
      (List.mem_filter.mpr ⟨defined, (acceptsTest_iff markerNames tree test).mpr scanned⟩)

end Scan

/-- Fallback discovery of a satisfying test. For every way of writing a marker
expression and every test function of a test module with an effective marker set
that satisfies it, the fallback registers the test exactly when a definition
with its node id has a name of the expression written at a place the scan reads.

Proof: the extracted names are the names of the expression, and the scan of a
module accepts a test when one of them is among its scanned markers. -/
theorem satisfying_test_registered_iff (world : World) (expr : MarkerExpr) (text : Text)
    (testFile : Path) (tree : List AST) (test : TestDefinition) (markers : List String)
    (spelled : Spelled world.unicode expr.tokens text)
    (named : ∀ id ∈ expr.names, IsMarkerName world.unicode id)
    (_listed : testFile ∈ testFiles world)
    (_parsed : world.tree testFile = some tree)
    (_defined : test ∈ testDefinitions tree)
    (_effective : markers ∈ effectiveMarkerSets tree test)
    (_satisfied : expr.holds markers = true) :
    (fallbackDiscoverMarkedTests world (extractMarkerNames world.unicode text) ∅).has
        (nodeIdOf testFile test.name) = true ↔
      ∃ otherFile ∈ testFiles world, ∃ otherTree other, world.tree otherFile = some otherTree ∧
        other ∈ testDefinitions otherTree ∧
        nodeIdOf otherFile other.name = nodeIdOf testFile test.name ∧
        ∃ name ∈ expr.names, name ∈ scannedMarkers otherTree other := by
  rw [has_fallback_iff]
  simp only [mem_extractMarkerNames world.unicode expr text spelled named]

/-- The fallback misses no test of an expression that fails without markers, as
long as the effective markers are written where the scan reads. -/
theorem registered_of_scanned (world : World) (expr : MarkerExpr) (text : Text)
    (testFile : Path) (tree : List AST) (test : TestDefinition) (markers : List String)
    (spelled : Spelled world.unicode expr.tokens text)
    (named : ∀ id ∈ expr.names, IsMarkerName world.unicode id)
    (listed : testFile ∈ testFiles world)
    (parsed : world.tree testFile = some tree)
    (defined : test ∈ testDefinitions tree)
    (positive : expr.holds [] = false)
    (scanned : ∀ marker ∈ markers, marker ∈ scannedMarkers tree test)
    (satisfied : expr.holds markers = true) :
    (fallbackDiscoverMarkedTests world (extractMarkerNames world.unicode text) ∅).has
      (nodeIdOf testFile test.name) = true := by
  have common : ∃ name ∈ expr.names, name ∈ markers := by
    by_contra disjoint
    push Not at disjoint
    rw [expr.holds_of_disjoint markers disjoint, positive] at satisfied
    cases satisfied
  obtain ⟨name, written, member⟩ := common
  rw [has_fallback_iff]
  exact ⟨testFile, listed, tree, test, parsed, defined, rfl, name,
    (mem_extractMarkerNames world.unicode expr text spelled named name).mpr written,
    scanned name member⟩

/-- The decorator `@pytest.mark.<name>`. -/
def markAttribute (id : Nat) (name : String) : AST :=
  .attribute ⟨id, 1, 1⟩ (.attribute ⟨id + 1, 1, 1⟩ (.name ⟨id + 2, 1, 1⟩ "pytest" .load) "mark") name

/-- A test function with an empty body. -/
def emptyTest (id : Nat) (name : String) (decorators : List AST) : AST :=
  .functionDef ⟨id, 1, 1⟩ false name (.arguments ⟨id + 1, 1, 1⟩ [] [] none [] [] none [])
    [.other ⟨id + 2, 1, 1⟩ .pass []] decorators none

/-- `@pytest.mark.parametrize("size", [pytest.param(1, marks=[pytest.mark.smoke])])`. -/
def listedParam : AST :=
  .call ⟨30, 1, 1⟩ (markAttribute 31 "parametrize")
    [ .constant ⟨34, 1, 1⟩ (.str "size"),
      .list ⟨35, 1, 1⟩
        [.call ⟨36, 1, 1⟩ (.attribute ⟨37, 1, 1⟩ (.name ⟨38, 1, 1⟩ "pytest" .load) "param")
          [.constant ⟨39, 1, 1⟩ .other]
          [.keyword ⟨40, 1, 1⟩ (some "marks") (.list ⟨41, 1, 1⟩ [markAttribute 42 "smoke"])]] ]
    []

/-- A test module with an unmarked test, a test whose parameter carries a list
of marks, and a decorated test. -/
def smokeTree : List AST :=
  [ emptyTest 1 "test_plain" [],
    emptyTest 5 "test_sized" [listedParam],
    emptyTest 9 "test_smoke" [markAttribute 50 "smoke"] ]

/-- A checkout with one test file. -/
def smokeWorld : World where
  unicode := ascii
  present path := decide (path = ["tests", "test_vm.py"])
  files := [["tests", "test_vm.py"]]
  source path := if path = ["tests", "test_vm.py"] then some ⟨[], some smokeTree⟩ else none
  gitDiff _ _ := none
  baseFile _ := .missing

/-- The marker is a name of pytest. -/
theorem smoke_isMarkerName : IsMarkerName ascii "smoke" := by
  exact ⟨by decide, List.all_eq_true.mp (by decide), by decide⟩

/-- The expression of one marker is spelled as the marker. -/
theorem smoke_spelled : Spelled ascii (MarkerExpr.name "smoke").tokens "smoke".toList := by
  have spelled : Spelled ascii [.ident "smoke"] ([] ++ "smoke".toList ++ []) :=
    .cons (by simp) (.nil (by simp)) (by simp)
  simpa [MarkerExpr.tokens] using spelled

/-- The three tests of the module. -/
def smokeTest (name : String) (decorators : List AST) : TestDefinition := ⟨name, [], decorators⟩

/-- The test without markers is defined in the file. -/
theorem plain_defined : smokeTest "test_plain" [] ∈ testDefinitions smokeTree :=
  List.mem_of_getElem? (i := 0) rfl

/-- The test with a marked parameter is defined in the file. -/
theorem sized_defined : smokeTest "test_sized" [listedParam] ∈ testDefinitions smokeTree :=
  List.mem_of_getElem? (i := 1) rfl

/-- The test with a marking decorator is defined in the file. -/
theorem decorated_defined :
    smokeTest "test_smoke" [markAttribute 50 "smoke"] ∈ testDefinitions smokeTree :=
  List.mem_of_getElem? (i := 2) rfl

/-- The decorated test is registered. -/
theorem satisfying_test_registered_by_decorator :
    (fallbackDiscoverMarkedTests smokeWorld (extractMarkerNames ascii "smoke".toList) ∅).has
      (nodeIdOf ["tests", "test_vm.py"] "test_smoke") = true := by
  refine (satisfying_test_registered_iff smokeWorld (.name "smoke") "smoke".toList
    ["tests", "test_vm.py"] smokeTree (smokeTest "test_smoke" [markAttribute 50 "smoke"]) ["smoke"]
    smoke_spelled ?_ (by decide) rfl decorated_defined (by decide) (by decide)).mpr ?_
  · intro id member
    rw [MarkerExpr.names, List.mem_singleton] at member
    exact member ▸ smoke_isMarkerName
  · exact ⟨["tests", "test_vm.py"], by decide, smokeTree, _, rfl, decorated_defined, rfl, "smoke",
      by decide, by decide⟩

/-- Two satisfying tests that are not registered: the unmarked one for
`not slow`, and the one with a list of parameter marks for `smoke`. -/
theorem satisfying_tests_not_registered :
    Spelled ascii (MarkerExpr.not (.name "slow")).tokens ("not".toList ++ " slow".toList) ∧
      smokeTest "test_plain" [] ∈ testDefinitions smokeTree ∧
      [] ∈ effectiveMarkerSets smokeTree (smokeTest "test_plain" []) ∧
      (MarkerExpr.not (.name "slow")).holds [] = true ∧
      (fallbackDiscoverMarkedTests smokeWorld
        (extractMarkerNames ascii ("not".toList ++ " slow".toList)) ∅).has
        (nodeIdOf ["tests", "test_vm.py"] "test_plain") = false ∧
      Spelled ascii (MarkerExpr.name "smoke").tokens "smoke".toList ∧
      smokeTest "test_sized" [listedParam] ∈ testDefinitions smokeTree ∧
      ["parametrize", "smoke"] ∈ effectiveMarkerSets smokeTree (smokeTest "test_sized" [listedParam]) ∧
      (MarkerExpr.name "smoke").holds ["parametrize", "smoke"] = true ∧
      (fallbackDiscoverMarkedTests smokeWorld (extractMarkerNames ascii "smoke".toList) ∅).has
        (nodeIdOf ["tests", "test_vm.py"] "test_sized") = false := by
  have negated : Spelled ascii [.notOp, .ident "slow"]
      ([] ++ "not".toList ++ ([' '] ++ "slow".toList ++ [])) :=
    .cons (by simp) (.cons (List.all_eq_true.mp (by decide)) (.nil (by simp)) (by simp))
      (by intro _ character member; simp at member; subst member; rfl)
  refine ⟨negated, plain_defined, by decide, by decide, by decide +kernel, smoke_spelled,
    sized_defined, by decide, by decide, by decide +kernel⟩

end VirtTestTools.Analyzer
