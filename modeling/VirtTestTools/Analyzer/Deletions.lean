import VirtTestTools.UnifiedDiff
import VirtTestTools.Analyzer.Symbols

/-!
# Attribution of deleted lines

`_extract_modified_symbols` works on the new side of a diff. Deleted lines enter
it twice: a diff without additions is searched for deleted `def` and `class`
lines, and the presence of deletions decides whether the base version is
consulted about seemingly new symbols. A deletion inside the body of a symbol is
seen only through additions next to it. The main result states when every base
symbol with a deleted line is classified as modified.
-/

namespace VirtTestTools.Analyzer

open Text

/-- A top-level name of the base version one of whose definitions loses a line. -/
def LosesLine (baseTree : List AST) (diff : UnifiedDiff) (name : String) : Prop :=
  ∃ range ∈ baseTree.flatMap symbolRanges, range.name = name ∧
    ∃ line ∈ diff.deletedLines, range.covers line = true

/-- When every name that loses a line is noticed. Without additions, its own
`def` or `class` line has to be deleted. With additions, the classification has
to give up on an executable line outside all symbols, or each such name has to
receive an added line as well; if no line counts as a deletion, the name must not
have a definition that consists of added lines only. -/
def DeletionsNoticed (unicode : Unicode) (diffContent headText : Text) (headTree : List AST)
    (losesLine : String → Prop) : Prop :=
  let changedLines := parseDiffForChangedLines diffContent
  let ranges := (buildLineToSymbolMap headTree).topLevel
  changedLines = [] ∧
      (∀ name, losesLine name → name ∈ extractDeletedSymbolsFromDiff unicode diffContent) ∨
    changedLines ≠ [] ∧
      ((∃ line ∈ changedLines,
          isExecutableLine unicode (splitlines headText) ranges line = true) ∨
        ∀ name, losesLine name → AttributedChange ranges changedLines name ∧
          (diffHasDeletions diffContent = true ∨ ¬ WhollyChanged ranges changedLines name))

/-- A deleted definition is a deletion. -/
theorem diffHasDeletions_of_mem (unicode : Unicode) (diffContent : Text) (name : String)
    (member : name ∈ extractDeletedSymbolsFromDiff unicode diffContent) :
    diffHasDeletions diffContent = true := by
  obtain ⟨line, listed, found⟩ := List.mem_filterMap.mp member
  have deletion : isDeletion line = true := by
    by_contra other
    simp [deletedSymbol, other] at found
  exact List.any_eq_true.mpr ⟨line, listed, deletion⟩

/-- Deletion soundness. Let a diff turn the base version of a file into its head
version, both parseable, and let all reads succeed. Every base name that loses a
line is classified as modified, whenever there is a classification, exactly
under `DeletionsNoticed`.

Proof: a diff without additions is classified by its deleted definitions. For
one with additions `classifyChanges_spec` says which names are modified; a base
name is never taken for new once a deletion is recognised. -/
theorem deletions_classified_iff (world : World) (path : Path) (preamble : Text)
    (diff : UnifiedDiff) (base head : Source) (baseTree headTree : List AST)
    (_ordinary : path.isConftest = false)
    (content : getDiffContent world path = some (diff.render preamble))
    (baseFile : world.baseFile path = .found base)
    (_baseText : base.text = diff.oldText) (baseParsed : base.tree = some baseTree)
    (headFile : headSource world path = some head)
    (_headText : head.text = diff.newText) (headParsed : head.tree = some headTree) :
    (∀ classification,
      extractModifiedSymbols world path (some .modified) = some classification →
        ∀ name, LosesLine baseTree diff name → name ∈ classification.modifiedSymbols) ↔
      DeletionsNoticed world.unicode (diff.render preamble) head.text headTree
        (LosesLine baseTree diff) := by
  have inBase : ∀ name, LosesLine baseTree diff name → ∀ old,
      getOldFileSymbols world path = some old → name ∈ old.1 := by
    rintro name ⟨range, member, rfl, -⟩ old known
    rw [getOldFileSymbols, baseFile] at known
    simp only [baseParsed, Option.map_some, Option.some.injEq] at known
    rw [← known]
    exact List.mem_map_of_mem member
  unfold DeletionsNoticed
  by_cases unchanged : parseDiffForChangedLines (diff.render preamble) = []
  · -- Without additions the classification lists the deleted definitions.
    simp only [unchanged, true_and, ne_eq, not_true_eq_false, false_and, or_false]
    have deletedOnly : extractModifiedSymbols world path (some .modified) =
        if diffHasDeletions (diff.render preamble) then
          some
            { modifiedSymbols :=
                (extractDeletedSymbolsFromDiff world.unicode (diff.render preamble)).dedup
              newSymbols := [] }
        else some { modifiedSymbols := [], newSymbols := [] } := by
      simp [extractModifiedSymbols, content, unchanged]
    constructor
    · intro noticed name loses
      by_cases deletes : diffHasDeletions (diff.render preamble) = true
      · rw [deletedOnly, if_pos deletes] at noticed
        exact List.mem_dedup.mp (noticed _ rfl name loses)
      · rw [deletedOnly, if_neg deletes] at noticed
        cases noticed _ rfl name loses
    · intro defined classification classified name loses
      have deletes := diffHasDeletions_of_mem _ _ _ (defined name loses)
      rw [deletedOnly, if_pos deletes, Option.some.injEq] at classified
      rw [← classified]
      exact List.mem_dedup.mpr (defined name loses)
  · simp only [unchanged, false_and, ne_eq, not_false_eq_true, true_and, false_or]
    have classified : extractModifiedSymbols world path (some .modified) =
        classifyChanges world path (some .modified) head.text headTree
          (diffHasDeletions (diff.render preamble))
          (parseDiffForChangedLines (diff.render preamble)) := by
      simp [extractModifiedSymbols, content, unchanged, headFile, headParsed]
    rw [classified]
    rcases classifyChanges_spec world path (some .modified) head.text headTree
      (diffHasDeletions (diff.render preamble)) (parseDiffForChangedLines (diff.render preamble))
      _ rfl with ⟨failed, executable⟩ | ⟨harmless, classification, result, names⟩
    · simp [failed, executable]
    · have noExecutable : ¬ ∃ line ∈ parseDiffForChangedLines (diff.render preamble),
          isExecutableLine world.unicode (splitlines head.text)
            (buildLineToSymbolMap headTree).topLevel line = true := by
        rintro ⟨line, member, found⟩
        rw [harmless line member] at found
        cases found
      simp only [result, Option.some.injEq, forall_eq', noExecutable, false_or,
        fun name => (names name).2, TakenForNew, reduceCtorEq]
      refine forall_congr' fun name => forall_congr' fun loses => and_congr_right fun _ => ?_
      have known := inBase name loses
      have never : ¬ ∃ old, getOldFileSymbols world path = some old ∧ name ∉ old.1 := by
        rintro ⟨old, found, fresh⟩
        exact fresh (known old found)
      cases diffHasDeletions (diff.render preamble) <;> simp [never]

/-- A function `start` that ends at the given line. -/
def startTree (lastLine : Nat) : List AST :=
  [.functionDef ⟨1, 1, lastLine⟩ false "start"
    (.arguments ⟨2, 1, 1⟩ [] [] none [] [] none [])
    [.returnStmt ⟨3, lastLine, lastLine⟩ none] [] none]

/-- The first body line of `start` is replaced. -/
def replacedDiff : UnifiedDiff where
  hunks :=
    [{ skipped := [.ofString "def start():"]
       body := [.delete (.ofString " a = 1"), .insert (.ofString " a = 2")] }]
  rest := [.ofString " return"]

/-- The first body line of `start` is deleted. -/
def droppedDiff : UnifiedDiff where
  hunks :=
    [{ skipped := [.ofString "def start():"]
       body := [.delete (.ofString " a = 1")] }]
  rest := [.ofString " return"]

/-- A pull request with the given diff of one file and its versions. -/
def versionsWorld (diff : UnifiedDiff) (baseTree headTree : List AST) : World where
  unicode := ascii
  present _ := true
  source _ := some ⟨diff.newText, some headTree⟩
  gitDiff _ _ := none
  baseFile _ := .found ⟨diff.oldText, some baseTree⟩
  githubPrInfo := true
  getPrFileDiff _ := diff.render []

/-- The file has the function `start` on the base branch. -/
def diffWorld (diff : UnifiedDiff) (headTree : List AST) : World :=
  versionsWorld diff (startTree 3) headTree

/-- A deletion next to an addition in the same function is noticed. -/
theorem replaced_line_classified :
    LosesLine (startTree 3) replacedDiff "start" ∧
      ∀ classification,
        extractModifiedSymbols (diffWorld replacedDiff (startTree 3)) ["lib.py"] (some .modified) =
            some classification →
          ∀ name, LosesLine (startTree 3) replacedDiff name →
            name ∈ classification.modifiedSymbols := by
  refine ⟨⟨⟨1, 3, "start"⟩, List.mem_singleton.mpr rfl, rfl, by decide +kernel⟩, ?_⟩
  refine (deletions_classified_iff (diffWorld replacedDiff (startTree 3)) ["lib.py"] []
    replacedDiff ⟨replacedDiff.oldText, some (startTree 3)⟩
    ⟨replacedDiff.newText, some (startTree 3)⟩ (startTree 3) (startTree 3) (by decide)
    (by decide +kernel) rfl rfl rfl rfl rfl rfl).mpr ?_
  refine Or.inr ⟨by decide +kernel, Or.inr ?_⟩
  rintro name ⟨range, member, rfl, -⟩
  have only : range = ⟨1, 3, "start"⟩ := List.mem_singleton.mp member
  subst only
  exact ⟨⟨2, by decide +kernel, by decide +kernel⟩, Or.inl (by decide +kernel)⟩

/-- A line deleted from the body of a function, with nothing added: the function
is not classified as modified. -/
theorem dropped_line_not_classified :
    droppedDiff.oldText = unlines ["def start():", " a = 1", " return"] ∧
      droppedDiff.newText = unlines ["def start():", " return"] ∧
      LosesLine (startTree 3) droppedDiff "start" ∧
      (extractModifiedSymbols (diffWorld droppedDiff (startTree 2)) ["lib.py"]
        (some .modified)).map SymbolClassification.modifiedSymbols = some [] :=
  ⟨by decide, by decide, ⟨⟨1, 3, "start"⟩, List.mem_singleton.mpr rfl, rfl, 2, by decide, by decide⟩,
    by decide +kernel⟩

end VirtTestTools.Analyzer
