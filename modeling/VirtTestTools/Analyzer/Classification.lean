import VirtTestTools.Analyzer.Deletions

/-!
# Attribution of changed lines and new symbols

Ranges of top-level symbols may share lines: the targets of a chained assignment, several
statements on one line, a decorator list that reaches over another definition. The attribution
loop of `_extract_modified_symbols` gives a changed line to the first range of the line map that
covers it. The first result says when every symbol with a changed line is classified.

A symbol all of whose lines are added is a candidate for a new one. When the diff deletes nothing,
the base version is not consulted about the candidates. The second result says when none of the
new symbols is a symbol of the base version.
-/

namespace VirtTestTools.Analyzer

open Text

/-- The range covers the line and none of the ranges listed before it does. The list is ordered
by first lines, and by the source where these are equal. -/
def FirstCovering (ranges : List SymbolRange) (line : Nat) (range : SymbolRange) : Prop :=
  range.covers line = true ∧ ∃ before after, ranges = before ++ range :: after ∧
    ∀ other ∈ before, other.covers line = false

/-- Some definition of the name is the first one listed that covers one of its changed lines. -/
def HasOwnLine (ranges : List SymbolRange) (changedLines : List Nat) (name : String) : Prop :=
  ∃ line ∈ changedLines, ∃ range, FirstCovering ranges line range ∧ range.name = name

/-- A line is attributed to the first range that covers it. -/
theorem attributedTo_eq_some_iff (ranges : List SymbolRange) (line : Nat) (name : String) :
    attributedTo ranges line = some name ↔
      ∃ range, FirstCovering ranges line range ∧ range.name = name := by
  simp only [attributedTo, Option.map_eq_some_iff, List.find?_eq_some_iff_append, FirstCovering,
    Bool.not_eq_true']

/-- A symbol has a change attributed to it exactly when it has a line of its own. -/
theorem attributedChange_iff (ranges : List SymbolRange) (changedLines : List Nat) (name : String) :
    AttributedChange ranges changedLines name ↔ HasOwnLine ranges changedLines name := by
  simp only [AttributedChange, HasOwnLine, attributedTo_eq_some_iff]

section Classified

variable (world : World) (path : Path) (fileStatus : Option FileStatus) {diffContent : Text}
  {head : Source} {tree : List AST}

/-- A changed line outside every symbol that may be executable: symbol-level analysis gives up. -/
def GivesUp (unicode : Unicode) (headText : Text) (tree : List AST) (changedLines : List Nat) :
    Prop :=
  ∃ line ∈ changedLines, isExecutableLine unicode (splitlines headText)
    (buildLineToSymbolMap tree).topLevel line = true

/-- What the classification of a readable diff consists of. -/
theorem extractModifiedSymbols_spec (content : getDiffContent world path = some diffContent)
    (additions : parseDiffForChangedLines diffContent ≠ [])
    (headFile : headSource world path = some head) (parsed : head.tree = some tree) :
    (extractModifiedSymbols world path fileStatus = none ∧
        GivesUp world.unicode head.text tree (parseDiffForChangedLines diffContent)) ∨
      ¬ GivesUp world.unicode head.text tree (parseDiffForChangedLines diffContent) ∧
        ∃ classification, extractModifiedSymbols world path fileStatus = some classification ∧
          ∀ name,
            (name ∈ classification.newSymbols ↔
              HasOwnLine (buildLineToSymbolMap tree).topLevel
                  (parseDiffForChangedLines diffContent) name ∧
                TakenForNew world path fileStatus (diffHasDeletions diffContent)
                  (buildLineToSymbolMap tree).topLevel (parseDiffForChangedLines diffContent)
                  name) ∧
            (name ∈ classification.modifiedSymbols ↔
              HasOwnLine (buildLineToSymbolMap tree).topLevel
                  (parseDiffForChangedLines diffContent) name ∧
                ¬ TakenForNew world path fileStatus (diffHasDeletions diffContent)
                  (buildLineToSymbolMap tree).topLevel (parseDiffForChangedLines diffContent)
                  name) := by
  have classified : extractModifiedSymbols world path fileStatus =
      classifyChanges world path fileStatus head.text tree (diffHasDeletions diffContent)
        (parseDiffForChangedLines diffContent) := by
    simp [extractModifiedSymbols, content, additions, headFile, parsed]
  rw [classified]
  rcases classifyChanges_spec world path fileStatus head.text tree (diffHasDeletions diffContent)
    (parseDiffForChangedLines diffContent) _ rfl with failed | ⟨harmless, classification, result, names⟩
  · exact Or.inl failed
  · refine Or.inr ⟨?_, classification, result, fun name => ?_⟩
    · rintro ⟨line, member, found⟩
      rw [harmless line member] at found
      cases found
    · rw [← attributedChange_iff]
      exact names name

/-- A diff without additions makes no symbol new. -/
theorem newSymbols_of_no_additions (content : getDiffContent world path = some diffContent)
    (none : parseDiffForChangedLines diffContent = []) (classification : SymbolClassification)
    (classified : extractModifiedSymbols world path fileStatus = some classification) :
    classification.newSymbols = [] := by
  simp only [extractModifiedSymbols, content, none, List.isEmpty_nil, ↓reduceIte] at classified
  split at classified
  · rw [← Option.some.inj classified]
  · rw [← Option.some.inj classified]

end Classified

/-- Completeness of the attribution. For every diff and every parseable head version, every
top-level symbol whose range contains a changed line is classified as modified or new, whenever
there is a classification, exactly when the analysis gives up on an executable line or each such
symbol has a changed line of its own.

Proof: the modified and the new symbols are together the names with a line of their own. -/
theorem attribution_complete_iff (world : World) (path : Path) (fileStatus : Option FileStatus)
    (diffContent : Text) (head : Source) (tree : List AST)
    (content : getDiffContent world path = some diffContent)
    (headFile : headSource world path = some head) (parsed : head.tree = some tree) :
    (∀ classification, extractModifiedSymbols world path fileStatus = some classification →
      ∀ range ∈ (buildLineToSymbolMap tree).topLevel,
        (∃ line ∈ parseDiffForChangedLines diffContent, range.covers line = true) →
          range.name ∈ classification.modifiedSymbols ∨
            range.name ∈ classification.newSymbols) ↔
      GivesUp world.unicode head.text tree (parseDiffForChangedLines diffContent) ∨
        ∀ range ∈ (buildLineToSymbolMap tree).topLevel,
          (∃ line ∈ parseDiffForChangedLines diffContent, range.covers line = true) →
            HasOwnLine (buildLineToSymbolMap tree).topLevel
              (parseDiffForChangedLines diffContent) range.name := by
  by_cases additions : parseDiffForChangedLines diffContent = []
  · simp [additions]
  · rcases extractModifiedSymbols_spec world path fileStatus content additions headFile parsed with
      ⟨failed, givesUp⟩ | ⟨goesOn, classification, result, names⟩
    · simp [failed, givesUp]
    · have classified (name : String) :
          name ∈ classification.modifiedSymbols ∨ name ∈ classification.newSymbols ↔
            HasOwnLine (buildLineToSymbolMap tree).topLevel
              (parseDiffForChangedLines diffContent) name := by
        rw [(names name).1, (names name).2, ← and_or_left]
        exact and_iff_left (Classical.em _).symm
      simp only [result, Option.some.injEq, forall_eq', goesOn, false_or, classified]

/-! ## Shared lines -/

/-- The statement `a = b = value` on the first line. -/
def chainedTree (value : Int) : List AST :=
  [.assign ⟨1, 1, 1⟩ [.name ⟨2, 1, 1⟩ "a" .store, .name ⟨3, 1, 1⟩ "b" .store]
    (.constant ⟨4, 1, 1⟩ (.int value))]

/-- The value of the assignment changes. -/
def chainedDiff : UnifiedDiff where
  hunks := [{ skipped := [], body := [.delete (.ofString "a = b = 0"), .insert (.ofString "a = b = 1")] }]

/-- The diff of the sample is classified. -/
theorem replacedDiff_classified :
    ∃ classification, extractModifiedSymbols (diffWorld replacedDiff (startTree 3)) ["lib.py"]
      (some .modified) = some classification := by
  rw [← Option.isSome_iff_exists]
  decide +kernel

/-- A changed function on lines of its own is classified. -/
theorem single_definition_classified :
    ∃ classification, extractModifiedSymbols (diffWorld replacedDiff (startTree 3)) ["lib.py"]
        (some .modified) = some classification ∧
      ("start" ∈ classification.modifiedSymbols ∨ "start" ∈ classification.newSymbols) := by
  obtain ⟨classification, classified⟩ := replacedDiff_classified
  refine ⟨classification, classified, ?_⟩
  have only : ∀ range ∈ (buildLineToSymbolMap (startTree 3)).topLevel, range = ⟨1, 3, "start"⟩ := by
    intro range member
    exact List.mem_singleton.mp member
  have complete := (attribution_complete_iff (diffWorld replacedDiff (startTree 3)) ["lib.py"]
    (some .modified) (replacedDiff.render []) ⟨replacedDiff.newText, some (startTree 3)⟩
    (startTree 3) (by decide +kernel) rfl rfl).mpr (Or.inr ?_)
  · exact complete classification classified ⟨1, 3, "start"⟩ (List.mem_singleton.mpr rfl)
      ⟨2, by decide +kernel, by decide⟩
  · intro range member _
    rw [only range member]
    exact ⟨2, by decide +kernel, ⟨1, 3, "start"⟩, ⟨by decide, [], [], rfl, by simp⟩, rfl⟩

/-- The second target of a chained assignment is lost. -/
theorem chained_target_not_classified :
    chainedDiff.newText = unlines ["a = b = 1"] ∧
      ⟨1, 1, "b"⟩ ∈ (buildLineToSymbolMap (chainedTree 1)).topLevel ∧
      1 ∈ parseDiffForChangedLines (chainedDiff.render []) ∧
      (extractModifiedSymbols (versionsWorld chainedDiff (chainedTree 0) (chainedTree 1)) ["lib.py"]
        (some .modified)).map (fun classification =>
          (classification.modifiedSymbols, classification.newSymbols)) = some (["a"], []) := by
  refine ⟨by decide, by decide +kernel, by decide +kernel, by decide +kernel⟩

/-! ## New symbols -/

/-- New symbols are new. Let a diff turn the base version of a file into its head version, both
parseable, and let all reads succeed. None of the new symbols is a symbol of the base version
exactly when a deletion is recognised, or the analysis gives up, or no name of the base version has
a definition in the head version that consists of added lines and owns one of them.

Proof: with a recognised deletion the names of the base version are removed from the candidates;
without one the candidates are the new symbols. -/
theorem new_symbols_new_iff (world : World) (path : Path) (preamble : Text) (diff : UnifiedDiff)
    (base head : Source) (baseTree headTree : List AST)
    (content : getDiffContent world path = some (diff.render preamble))
    (baseFile : world.baseFile path = .found base)
    (_baseText : base.text = diff.oldText) (baseParsed : base.tree = some baseTree)
    (headFile : headSource world path = some head)
    (_headText : head.text = diff.newText) (headParsed : head.tree = some headTree) :
    (∀ classification, extractModifiedSymbols world path (some .modified) = some classification →
      ∀ name ∈ classification.newSymbols,
        name ∉ (baseTree.flatMap symbolRanges).map SymbolRange.name) ↔
      diffHasDeletions (diff.render preamble) = true ∨
        GivesUp world.unicode head.text headTree
          (parseDiffForChangedLines (diff.render preamble)) ∨
        ∀ name ∈ (baseTree.flatMap symbolRanges).map SymbolRange.name,
          ¬ (HasOwnLine (buildLineToSymbolMap headTree).topLevel
              (parseDiffForChangedLines (diff.render preamble)) name ∧
            WhollyChanged (buildLineToSymbolMap headTree).topLevel
              (parseDiffForChangedLines (diff.render preamble)) name) := by
  by_cases additions : parseDiffForChangedLines (diff.render preamble) = []
  · have empty (classification : SymbolClassification)
        (classified : extractModifiedSymbols world path (some .modified) = some classification) :=
      newSymbols_of_no_additions world path (some .modified) content additions classification
        classified
    have unowned (name : String) :
        ¬ HasOwnLine (buildLineToSymbolMap headTree).topLevel [] name := by
      simp [HasOwnLine]
    simp only [additions, unowned, false_and, not_false_eq_true, implies_true, or_true, iff_true]
    intro classification classified name member
    rw [empty classification classified] at member
    cases member
  · rcases extractModifiedSymbols_spec world path (some .modified) content additions headFile
      headParsed with ⟨failed, givesUp⟩ | ⟨goesOn, classification, result, names⟩
    · simp [failed, givesUp]
    · obtain ⟨members, known⟩ : ∃ members, getOldFileSymbols world path =
          some ((baseTree.flatMap symbolRanges).map SymbolRange.name, members) := by
        rw [getOldFileSymbols, baseFile]
        simp only [baseParsed, Option.map_some]
        exact ⟨_, rfl⟩
      simp only [result, Option.some.injEq, forall_eq', goesOn, false_or, fun name => (names name).1,
        TakenForNew, reduceCtorEq, known, exists_eq_left']
      cases diffHasDeletions (diff.render preamble) with
      | true =>
        simp only [Bool.true_eq_false, false_or, true_or, iff_true]
        rintro name ⟨-, -, fresh⟩
        exact fresh
      | false =>
        simp only [true_or, and_true, Bool.false_eq_true, false_or]
        constructor
        · intro fresh name member whole
          exact fresh name whole member
        · intro unchanged name whole member
          exact unchanged name member whole

/-- The function `start` twice, one definition below the other. -/
def twiceTree : List AST :=
  startTree 3 ++ [.functionDef ⟨4, 4, 5⟩ false "start"
    (.arguments ⟨5, 4, 4⟩ [] [] none [] [] none []) [.returnStmt ⟨6, 5, 5⟩ none] [] none]

/-- A second definition of `start` is added at the end of the file. -/
def redefinedDiff : UnifiedDiff where
  hunks :=
    [{ skipped := [.ofString "def start():", .ofString " a = 1", .ofString " return"]
       body := [.insert (.ofString "def start():"), .insert (.ofString " return")] }]

/-- A replaced line makes no symbol of the base version new. -/
theorem replaced_line_not_new :
    ∃ classification, extractModifiedSymbols (diffWorld replacedDiff (startTree 3)) ["lib.py"]
        (some .modified) = some classification ∧ "start" ∉ classification.newSymbols := by
  obtain ⟨classification, classified⟩ := replacedDiff_classified
  refine ⟨classification, classified, ?_⟩
  have fresh := (new_symbols_new_iff (diffWorld replacedDiff (startTree 3)) ["lib.py"] [] replacedDiff
    ⟨replacedDiff.oldText, some (startTree 3)⟩ ⟨replacedDiff.newText, some (startTree 3)⟩
    (startTree 3) (startTree 3) (by decide +kernel) rfl rfl rfl rfl rfl rfl).mpr
      (Or.inl (by decide +kernel))
  intro listed
  exact fresh classification classified "start" listed (by decide)

/-- A function that is defined a second time without deletions is taken for new. -/
theorem redefinition_taken_for_new :
    redefinedDiff.oldText = unlines ["def start():", " a = 1", " return"] ∧
      redefinedDiff.newText =
        unlines ["def start():", " a = 1", " return", "def start():", " return"] ∧
      "start" ∈ ((startTree 3).flatMap symbolRanges).map SymbolRange.name ∧
      (extractModifiedSymbols (versionsWorld redefinedDiff (startTree 3) twiceTree) ["lib.py"]
        (some .modified)).map SymbolClassification.newSymbols = some ["start"] := by
  refine ⟨by decide, by decide, by decide, by decide +kernel⟩

end VirtTestTools.Analyzer
