import VirtTestTools.LevelOrder
import VirtTestTools.Policy.ManifestUpdate

/-!
# Directives and the code before them

A directive is identified by the smallest statement around it, whatever its line. Here
the syntax tree is kept as a tree, and one source stands behind another: its statements
and comments are those it has alone, moved down. `ast.walk` then takes turns between the
two sources, but a line of one of them lies in statements of that source only.
-/

namespace VirtTestTools.Policy

open LevelOrder Text

/-- The statement of each node of a parsed module, if it is one, and the comments. -/
structure SyntaxTree where
  nodes : List (LevelOrder.Tree (Option Statement))
  comments : List Comment

/-- The statement some lines further down. -/
def Statement.moved (lines : Nat) (statement : Statement) : Statement :=
  { statement with
    lineno := statement.lineno + lines
    endLineno := some (statement.lastLine + lines) }

/-- The comment some lines further down. -/
def Comment.moved (lines : Nat) (comment : Comment) : Comment :=
  { comment with line := comment.line + lines }

namespace SyntaxTree

/-- What the module reads of the tree. -/
def module (tree : SyntaxTree) : ParsedModule where
  statements := (walk tree.nodes).filterMap id
  comments := tree.comments

/-- The tree with everything some lines further down. -/
def moved (lines : Nat) (tree : SyntaxTree) : SyntaxTree where
  nodes := tree.nodes.map (LevelOrder.Tree.relabel (Option.map (Statement.moved lines)))
  comments := tree.comments.map (Comment.moved lines)

/-- A tree behind another one. -/
def append (first second : SyntaxTree) : SyntaxTree where
  nodes := first.nodes ++ second.nodes
  comments := first.comments ++ second.comments

/-- The comments of two trees, one behind the other. -/
theorem comments_append (first second : SyntaxTree) :
    (first.append second).comments = first.comments ++ second.comments := rfl

/-- The comments of a moved tree are the moved ones. -/
theorem comments_moved (lines : Nat) (tree : SyntaxTree) :
    (tree.moved lines).comments = tree.comments.map (Comment.moved lines) := rfl

/-- Statements and comments stand on the lines of the source, which are counted from one. -/
structure Within (tree : SyntaxTree) (lines : Nat) : Prop where
  statements : ∀ statement ∈ tree.module.statements,
    1 ≤ statement.lineno ∧ statement.lastLine ≤ lines
  comments : ∀ comment ∈ tree.comments, 1 ≤ comment.line ∧ comment.line ≤ lines

end SyntaxTree

/-- The lines of a text that ends with a newline. -/
def lineCount (text : Text) : Nat := text.count '\n'

/-- What Python documents of its parser and tokenizer, for two sources that end with a newline:
positions lie in the source, and one source behind the other is read as the statements and
comments of both, those of the second moved down by the lines of the first. -/
structure ReadInTurn (parse : Text → Option SyntaxTree) (first second : Text) : Prop where
  within : ∀ source ∈ [first, second], ∀ tree, parse source = some tree →
    endsWith ['\n'] source = true → tree.Within (lineCount source)
  joined : ∀ firstTree secondTree, parse first = some firstTree → parse second = some secondTree →
    endsWith ['\n'] first = true → endsWith ['\n'] second = true →
    parse (first ++ second) = some (firstTree.append (secondTree.moved (lineCount first)))

/-! ## The smallest statement around a line -/

/-- A moved statement begins further down. -/
@[simp] theorem Statement.lineno_moved (lines : Nat) (statement : Statement) :
    (statement.moved lines).lineno = statement.lineno + lines := rfl

/-- A moved statement stays in its column. -/
@[simp] theorem Statement.colOffset_moved (lines : Nat) (statement : Statement) :
    (statement.moved lines).colOffset = statement.colOffset := rfl

/-- The last line is known of a statement that was moved, unless nothing was. -/
@[simp] theorem Statement.lastLine_moved (lines : Nat) (statement : Statement) :
    (statement.moved lines).lastLine = statement.lastLine + lines := by
  have given : (statement.moved lines).lastLine =
      if statement.lastLine + lines = 0 then statement.lineno + lines
      else statement.lastLine + lines := by
    rw [moved, lastLine]
    split
    · cases ‹some _ = none›
    · rw [if_pos (Option.some.inj ‹_›)]
    · rename_i line positive same
      have lineEq := Option.some.inj same
      rw [if_neg, lineEq]
      rintro zero
      exact positive (by rw [← lineEq, zero])
  rw [given]
  split
  · rename_i zero
    obtain ⟨last, rfl⟩ := Nat.add_eq_zero_iff.mp zero
    -- a last line of zero can only be the first line
    rw [last]
    unfold lastLine at last
    split at last
    · exact last
    · exact last
    · rename_i line positive same
      exact absurd last positive
  · rfl

/-- Moving does not change which of two statements is smaller. -/
theorem Statement.smaller_moved (lines : Nat) (left right : Statement) :
    (left.moved lines).smaller (right.moved lines) = left.smaller right := by
  unfold smaller
  simp only [lastLine_moved, lineno_moved, colOffset_moved, Nat.add_sub_add_right]

/-- The statements whose lines include a line, among the labels of a tree. -/
def enclosing (line : Nat) : Option Statement → Option Statement :=
  Option.filter fun statement => decide (statement.lineno ≤ line ∧ line ≤ statement.lastLine)

/-- The smaller of two statements; of equal ones the first. -/
def smallerOf (best statement : Statement) : Statement :=
  if statement.smaller best then statement else best

/-- The dump of the smallest of the statements. -/
def smallestDump : List Statement → Text
  | [] => "comment".toList
  | first :: rest => (rest.foldl smallerOf first).dump

/-- The fingerprint source is the dump of the smallest statement around the line. -/
theorem statementFingerprintSource_eq (tree : SyntaxTree) (line : Nat) :
    statementFingerprintSource tree.module line =
      smallestDump ((walk tree.nodes).filterMap (enclosing line)) := by
  rw [statementFingerprintSource, SyntaxTree.module, List.filter_filterMap]
  rfl

/-- The smallest of moved statements is the smallest one, moved. -/
theorem foldl_smallerOf_moved (lines : Nat) (first : Statement) (rest : List Statement) :
    (rest.map (Statement.moved lines)).foldl smallerOf (first.moved lines) =
      (rest.foldl smallerOf first).moved lines := by
  induction rest generalizing first with
  | nil => rfl
  | cons statement rest inductionHypothesis =>
    rw [List.map_cons, List.foldl_cons, List.foldl_cons, ← inductionHypothesis]
    congr 1
    rw [smallerOf, Statement.smaller_moved, smallerOf]
    split <;> rfl

/-- Moved statements have the same smallest dump. -/
theorem smallestDump_moved (lines : Nat) (statements : List Statement) :
    smallestDump (statements.map (Statement.moved lines)) = smallestDump statements := by
  cases statements with
  | nil => rfl
  | cons first rest =>
    change ((rest.map (Statement.moved lines)).foldl smallerOf (first.moved lines)).dump =
      (rest.foldl smallerOf first).dump
    rw [foldl_smallerOf_moved]
    rfl

/-- A moved statement encloses the moved line. -/
theorem enclosing_moved (lines line : Nat) (label : Option Statement) :
    enclosing (line + lines) (label.map (Statement.moved lines)) =
      (enclosing line label).map (Statement.moved lines) := by
  cases label with
  | none => rfl
  | some statement =>
    simp only [enclosing, Option.map_some, Option.filter_some, Statement.lastLine_moved,
      Statement.lineno_moved, Nat.add_le_add_iff_right]
    split <;> rfl

/-- A moved source has the same smallest statement around the moved line. -/
theorem statementFingerprintSource_moved (tree : SyntaxTree) (lines line : Nat) :
    statementFingerprintSource (tree.moved lines).module (line + lines) =
      statementFingerprintSource tree.module line := by
  rw [statementFingerprintSource_eq, statementFingerprintSource_eq, SyntaxTree.moved,
    walk_relabel, List.filterMap_map]
  have selected : enclosing (line + lines) ∘ Option.map (Statement.moved lines) =
      fun label => (enclosing line label).map (Statement.moved lines) :=
    funext (enclosing_moved lines line)
  rw [selected, ← List.map_filterMap, smallestDump_moved]

section

variable {first second : SyntaxTree} {lines : Nat}

/-- A label of a walk that is a statement is a statement of the module. -/
theorem mem_statements {tree : SyntaxTree} {statement : Statement}
    (inside : some statement ∈ walk tree.nodes) : statement ∈ tree.module.statements :=
  List.mem_filterMap.mpr ⟨some statement, inside, rfl⟩

/-- A statement encloses no line outside of it. -/
theorem enclosing_eq_none {line : Nat} {label : Option Statement}
    (outside : ∀ statement, label = some statement →
      ¬(statement.lineno ≤ line ∧ line ≤ statement.lastLine)) : enclosing line label = none := by
  cases label with
  | none => rfl
  | some statement =>
    rw [enclosing, Option.filter_some, if_neg]
    simpa using outside statement rfl

/-- No statement of the second source reaches up to a line of the first. -/
theorem statementFingerprintSource_first (started : second.Within lines) {line bound : Nat}
    (early : line ≤ bound) :
    statementFingerprintSource (first.append (second.moved bound)).module line =
      statementFingerprintSource first.module line := by
  rw [statementFingerprintSource_eq, statementFingerprintSource_eq, SyntaxTree.append,
    filterMap_walk_left]
  intro label inside
  rw [SyntaxTree.moved, walk_relabel] at inside
  obtain ⟨original, originalInside, rfl⟩ := List.mem_map.mp inside
  apply enclosing_eq_none
  rintro statement same ⟨before, -⟩
  obtain ⟨unmoved, rfl, rfl⟩ := Option.map_eq_some_iff.mp same
  have positive := (started.statements unmoved (mem_statements originalInside)).1
  simp only [Statement.moved] at before
  omega

/-- No statement of the first source reaches down to a line of the second. -/
theorem statementFingerprintSource_second (ended : first.Within lines) {line : Nat}
    (positive : 1 ≤ line) :
    statementFingerprintSource (first.append (second.moved lines)).module (line + lines) =
      statementFingerprintSource second.module line := by
  rw [← statementFingerprintSource_moved second lines line, statementFingerprintSource_eq,
    statementFingerprintSource_eq, SyntaxTree.append, filterMap_walk_right]
  intro label inside
  apply enclosing_eq_none
  rintro statement rfl ⟨-, behind⟩
  have last := (ended.statements statement (mem_statements inside)).2
  omega

end

/-! ## The directives -/

section

variable (library : Library)

/-- The comment has at most one suppression. -/
def SingleRule (comment : Comment) : Prop :=
  (matchingRules library.unicode (normalizedDirective comment.string)).length ≤ 1

/-- The directive of a comment. -/
def directiveOf (module : ParsedModule) (comment : Comment) : Option Directive :=
  (commentDirective library module comment).toOption.join

variable {library}

/-- A comment with a single rule is read as its directive. -/
theorem commentDirective_eq {module : ParsedModule} {comment : Comment}
    (single : SingleRule library comment) :
    commentDirective library module comment = .ok (directiveOf library module comment) := by
  unfold SingleRule at single
  unfold directiveOf commentDirective
  dsimp only
  split
  · rfl
  · rfl
  · rename_i several
    exfalso
    generalize matchingRules library.unicode (normalizedDirective comment.string) = rules at *
    match rules with
    | [] => exact ‹[] = [] → False› rfl
    | [rule] => exact several rule rfl
    | _ :: _ :: _ => simp at single

/-- The directives of a source without doubtful comments. -/
theorem directives_eq {source : Text} {module : ParsedModule}
    (parsed : library.parse source = some module)
    (single : ∀ comment ∈ module.comments, SingleRule library comment) :
    directives library source = .ok (module.comments.filterMap (directiveOf library module)) := by
  have each : module.comments.mapM (commentDirective library module) =
      .ok (module.comments.map (directiveOf library module)) := by
    rw [Outcome.mapM_eq_ok, List.forall₂_map_right_iff, List.forall₂_same]
    intro comment inside
    exact commentDirective_eq (single comment inside)
  rw [directives, parsed]
  simp only [each]
  change Except.ok _ = _
  rw [List.filterMap_map]
  rfl

/-- The fingerprint depends on the enclosing statement only. -/
theorem computeSourceFingerprint_congr {module other : ParsedModule} {line otherLine : Nat}
    (sameStatement : statementFingerprintSource module line =
      statementFingerprintSource other otherLine) (directive : Text) (rule : Rule) :
    computeSourceFingerprint library module line directive rule =
      computeSourceFingerprint library other otherLine directive rule := by
  unfold computeSourceFingerprint
  rw [sameStatement]

/-- The identity of the directive of a comment depends on its text and on the smallest statement
around it. -/
theorem identity_directiveOf {module other : ParsedModule} {comment moved : Comment}
    (sameText : moved.string = comment.string)
    (sameStatement : statementFingerprintSource module moved.line =
      statementFingerprintSource other comment.line) :
    (directiveOf library module moved).map Directive.identity =
      (directiveOf library other comment).map Directive.identity := by
  unfold directiveOf commentDirective
  dsimp only
  rw [sameText]
  split
  · rfl
  · simp only [Except.toOption, Option.join_some, Option.map_some, Directive.identity,
      computeSourceFingerprint_congr sameStatement]
  · rfl

/-- Compared with the second part of the directives those of the first are new. -/
theorem unmatched_perm {found first second : List Directive}
    (identities : found.map Directive.identity =
      first.map Directive.identity ++ second.map Directive.identity) :
    ((Counter.unmatched Directive.identity (Counter.ofList (second.map Directive.identity))
      found).map Directive.identity).Perm (first.map Directive.identity) := by
  rw [← Multiset.coe_eq_coe]
  apply Multiset.ext.mpr
  intro identity
  rw [Counter.count_unmatched, Counter.count_ofList, identities, ← Multiset.coe_add,
    Multiset.count_add, Nat.add_sub_cancel]

end

/-- The identities of the directives of a tree behind another one.

Proof: the smallest statement around each comment is the one in its own tree. -/
theorem identities_append (library : Library) {first second : SyntaxTree} {lines bound : Nat}
    (ended : first.Within lines) (started : second.Within bound) :
    ((first.append (second.moved lines)).comments.filterMap
        (directiveOf library (first.append (second.moved lines)).module)).map Directive.identity =
      (first.comments.filterMap (directiveOf library first.module)).map Directive.identity ++
        (second.comments.filterMap (directiveOf library second.module)).map
          Directive.identity := by
  have early : first.comments.filterMap (fun comment =>
        (directiveOf library (first.append (second.moved lines)).module comment).map
          Directive.identity) =
      first.comments.filterMap (fun comment =>
        (directiveOf library first.module comment).map Directive.identity) := by
    apply List.filterMap_congr
    intro comment inside
    exact identity_directiveOf rfl
      (statementFingerprintSource_first started (ended.comments comment inside).2)
  have late : (second.comments.map (Comment.moved lines)).filterMap (fun comment =>
        (directiveOf library (first.append (second.moved lines)).module comment).map
          Directive.identity) =
      second.comments.filterMap (fun comment =>
        (directiveOf library second.module comment).map Directive.identity) := by
    rw [List.filterMap_map]
    apply List.filterMap_congr
    intro comment inside
    exact identity_directiveOf rfl
      (statementFingerprintSource_second ended (started.comments comment inside).1)
  rw [SyntaxTree.comments_append, SyntaxTree.comments_moved, List.filterMap_append, List.map_append]
  simp only [List.map_filterMap, early, late]

/-- The directives of two sources, one behind the other, have the identities of the directives of
the first followed by those of the second; compared with the second source as many occurrences of
an identity are new as the first has.

Proof: a line of a source lies in statements of this source only, and these are moved down
together with the line, so the smallest of them is the same. -/
theorem directives_in_turn (library : Library) (parse : Text → Option SyntaxTree)
    (reads : ∀ source, library.parse source = (parse source).map SyntaxTree.module)
    (first second : Text) (documented : ReadInTurn parse first second)
    (firstTree secondTree : SyntaxTree) (firstParsed : parse first = some firstTree)
    (secondParsed : parse second = some secondTree) (firstEnds : endsWith ['\n'] first = true)
    (secondEnds : endsWith ['\n'] second = true)
    (single : ∀ comment ∈ firstTree.comments ++ secondTree.comments, SingleRule library comment) :
    ∃ firstFound secondFound found, directives library first = .ok firstFound ∧
      directives library second = .ok secondFound ∧
      directives library (first ++ second) = .ok found ∧
      found.map Directive.identity =
        firstFound.map Directive.identity ++ secondFound.map Directive.identity ∧
      ((Counter.unmatched Directive.identity
        (Counter.ofList (secondFound.map Directive.identity)) found).map Directive.identity).Perm
          (firstFound.map Directive.identity) := by
  have ended := documented.within first (by simp) firstTree firstParsed firstEnds
  have started := documented.within second (by simp) secondTree secondParsed secondEnds
  have joined := documented.joined firstTree secondTree firstParsed secondParsed firstEnds secondEnds
  generalize lines : lineCount first = count at ended joined
  have firstRead : library.parse first = some firstTree.module := by rw [reads, firstParsed]; rfl
  have secondRead : library.parse second = some secondTree.module := by
    rw [reads, secondParsed]
    rfl
  have read : library.parse (first ++ second) =
      some (firstTree.append (secondTree.moved count)).module := by
    rw [reads, joined]
    rfl
  have moved : ∀ comment ∈ (firstTree.append (secondTree.moved count)).comments,
      SingleRule library comment := by
    intro comment inside
    obtain early | late := List.mem_append.mp inside
    · exact single comment (List.mem_append_left _ early)
    · obtain ⟨original, member, rfl⟩ := List.mem_map.mp late
      exact single original (List.mem_append_right _ member)
  have identities := identities_append library ended started
  refine ⟨_, _, _,
    directives_eq firstRead fun comment inside => single comment (List.mem_append_left _ inside),
    directives_eq secondRead fun comment inside => single comment (List.mem_append_right _ inside),
    directives_eq read moved, identities, unmatched_perm identities⟩

/-- A suppression inside of an `if`. -/
def nestedSource : Text := unlines ["if 1:", "    pass  # noqa"]

/-- Its tree, or that of the same code further down. -/
def nestedTree : SyntaxTree where
  nodes := [.node (some ⟨1, some 2, 0, "If(test=Constant(value=1), body=[Pass()])".toList⟩)
    [.node none [], .node (some ⟨2, some 2, 4, "Pass()".toList⟩) []]]
  comments := [⟨2, "# noqa".toList⟩]

/-- The tree of an import with a suppression on a given line. -/
def importTree (line : Nat) : SyntaxTree where
  nodes := [.node (some ⟨line, some line, 0, "Import(names=[alias(name='os')])".toList⟩)
    [.node none []]]
  comments := [⟨line, "# noqa: F401".toList⟩]

/-- The parser, as it answers for the two sources and for one behind the other. -/
def sampleParse (source : Text) : Option SyntaxTree :=
  if source = nestedSource then some nestedTree
  else if source = importSource then some (importTree 1)
  else if source = nestedSource ++ importSource then some (nestedTree.append (importTree 3))
  else none

/-- The first sample source is parsed. -/
theorem sampleParse_importSource : sampleParse importSource = some (importTree 1) := by
  rw [sampleParse, if_neg (by decide), if_pos rfl]

/-- The joined source is parsed as the joined tree. -/
theorem sampleParse_joined :
    sampleParse (nestedSource ++ importSource) = some (nestedTree.append (importTree 3)) := by
  rw [sampleParse, if_neg (by decide), if_neg (by decide), if_pos rfl]

/-- Both sample sources are read in turn. -/
theorem readInTurn_sampleParse : ReadInTurn sampleParse nestedSource importSource := by
  have nested : sampleParse nestedSource = some nestedTree := if_pos rfl
  constructor
  · intro source inside tree parsed _
    obtain rfl | rfl := by simpa using inside
    · obtain rfl := Option.some.inj (nested.symm.trans parsed)
      exact ⟨by decide +kernel, by decide +kernel⟩
    · obtain rfl := Option.some.inj (sampleParse_importSource.symm.trans parsed)
      exact ⟨by decide +kernel, by decide +kernel⟩
  · intro firstTree secondTree firstParsed secondParsed _ _
    obtain rfl := Option.some.inj (nested.symm.trans firstParsed)
    obtain rfl := Option.some.inj (sampleParse_importSource.symm.trans secondParsed)
    exact sampleParse_joined

/-- Code with a suppression stands before an import with another one. -/
theorem import_moved_down :
    ∃ firstFound secondFound found,
      directives { importLibrary with
          parse := fun source => (sampleParse source).map SyntaxTree.module } nestedSource =
        .ok firstFound ∧
      directives { importLibrary with
          parse := fun source => (sampleParse source).map SyntaxTree.module } importSource =
        .ok secondFound ∧
      directives { importLibrary with
          parse := fun source => (sampleParse source).map SyntaxTree.module }
          (nestedSource ++ importSource) = .ok found ∧
      found.map Directive.identity =
        firstFound.map Directive.identity ++ secondFound.map Directive.identity ∧
      ((Counter.unmatched Directive.identity
        (Counter.ofList (secondFound.map Directive.identity)) found).map Directive.identity).Perm
          (firstFound.map Directive.identity) :=
  directives_in_turn _ sampleParse (fun _ => rfl) nestedSource importSource readInTurn_sampleParse
    nestedTree (importTree 1) (if_pos rfl) sampleParse_importSource (by decide) (by decide)
    (by simp only [SingleRule]; decide +kernel)

end VirtTestTools.Policy
