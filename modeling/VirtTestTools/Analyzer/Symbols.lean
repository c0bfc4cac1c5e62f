import Mathlib.Data.List.Dedup
import Mathlib.Data.List.Sort
import Mathlib.Tactic.Tauto
import VirtTestTools.Analyzer.Visitors
import VirtTestTools.Analyzer.DiffText

/-!
# Which symbols a diff changes

The line map of a source file, the symbols of its base version, and the
classification of a changed file into modified and new symbols. The
classification is `none` when symbol-level analysis is not possible; callers
then fall back to file-level tracking.
-/

namespace VirtTestTools.Analyzer

open Text

/-- A top-level symbol with its first and last line. -/
structure SymbolRange where
  start : Nat
  stop : Nat
  name : String
deriving DecidableEq

/-- Whether a line lies in the range. -/
def SymbolRange.covers (range : SymbolRange) (line : Nat) : Bool :=
  decide (range.start ≤ line ∧ line ≤ range.stop)

/-- Members of a class by line range, and the `self.x()` calls among them. -/
structure ClassMemberInfo where
  members : Dict String (Nat × Nat)
  internalCalls : Dict String (List String)

/-- Top-level symbols in order of their first line, and the members of classes. -/
structure SymbolMap where
  topLevel : List SymbolRange
  classMembers : Dict String ClassMemberInfo

/-- `_symbol_start_line`: decorators belong to the symbol. -/
def symbolStartLine (info : Info) (decoratorList : List AST) : Nat :=
  (decoratorList.head?.map (fun decorator => decorator.info.lineno)).getD info.lineno

/-- The name a plain assignment target binds. -/
def targetName : AST → Option String
  | .name _ id _ => some id
  | _ => none

/-- The symbols one top-level statement defines, with their ranges. -/
def symbolRanges : AST → List SymbolRange
  | .functionDef info _ name _ _ decoratorList _ =>
    [⟨symbolStartLine info decoratorList, info.endLineno, name⟩]
  | .classDef info name _ _ _ decoratorList =>
    [⟨symbolStartLine info decoratorList, info.endLineno, name⟩]
  | .assign info targets _ =>
    (targets.filterMap targetName).map (⟨info.lineno, info.endLineno, ·⟩)
  | .annAssign info target _ _ =>
    (targetName target).toList.map (⟨info.lineno, info.endLineno, ·⟩)
  | _ => []

/-- The line range of a method, for a statement of a class body. -/
def memberRange : AST → Option (String × (Nat × Nat))
  | .functionDef info _ name _ _ decoratorList _ =>
    some (name, (symbolStartLine info decoratorList, info.endLineno))
  | _ => none

/-- The methods a method calls on `self`, anywhere below its definition. -/
def selfCalls (node : AST) : List String :=
  node.preorder.filterMap fun
    | .call _ (.attribute _ (.name _ "self" _) attr) _ _ => some attr
    | _ => none

/-- `_build_intra_class_call_graph`. -/
def buildIntraClassCallGraph (body : List AST) : Dict String (List String) :=
  (Dict.empty).update (body.filterMap fun
    | node@(.functionDef _ _ name _ _ _ _) => some (name, selfCalls node)
    | _ => none)

/-- Class members of the statements of a module; a later class of the same name
replaces an earlier one. -/
def classMembers (tree : List AST) : Dict String ClassMemberInfo :=
  (Dict.empty).update (tree.filterMap fun
    | .classDef _ name _ _ body _ =>
      some (name,
        { members := (Dict.empty).update (body.filterMap memberRange)
          internalCalls := buildIntraClassCallGraph body })
    | _ => none)

/-- `_build_line_to_symbol_map`; the sort is stable. -/
def buildLineToSymbolMap (tree : List AST) : SymbolMap where
  topLevel := (tree.flatMap symbolRanges).insertionSort (fun left right => left.start ≤ right.start)
  classMembers := classMembers tree

/-- `_get_old_file_symbols`: names of the base version, and the method names of
its classes. A file missing from the base has none; an error gives `none`. -/
def getOldFileSymbols (world : World) (path : Path) :
    Option (List String × Dict String (List String)) :=
  match world.baseFile path with
  | .missing => some ([], ∅)
  | .failed => none
  | .found source =>
    source.tree.map fun tree =>
      ((tree.flatMap symbolRanges).map SymbolRange.name,
        (Dict.empty).update (tree.filterMap fun
          | .classDef _ name _ _ body _ => some (name, (body.filterMap memberRange).map Prod.fst)
          | _ => none))

/-- One round of `_expand_modified_members_transitively`. -/
def expandRound (internalCalls : Dict String (List String)) (expanded : List String) :
    List String :=
  internalCalls.items.foldl
    (fun current entry =>
      if decide (entry.1 ∉ current) && !(intersect entry.2 current).isEmpty then
        current ++ [entry.1]
      else current)
    expanded

/-- `_expand_modified_members_transitively`. A round that changes the set adds
one of the callers, so as many rounds as there are callers reach the fixed point
at which the source's loop stops. -/
def expandModifiedMembersTransitively (directlyModified : List String)
    (internalCalls : Dict String (List String)) : List String :=
  (expandRound internalCalls)^[internalCalls.items.length] directlyModified

/-- `_get_diff_content`: the prefetched diff, else the pull request's, else the
local one without context lines. An empty diff counts as a failure. -/
def getDiffContent (world : World) (path : Path) : Option Text :=
  match world.prDiffsCache.bind (fun cache => cache.get path) with
  | some cached => some cached
  | none =>
    let content :=
      if world.githubPrInfo then some (world.getPrFileDiff path) else world.gitDiff 0 path
    content.filter (fun text => !text.isEmpty)

/-- The version of the file that the diff's new side refers to. -/
def headSource (world : World) (path : Path) : Option Source :=
  if world.prHeadRef && world.githubPrInfo then
    match world.fetchFileAtRef path with
    | some source => some source
    | none => if world.isCheckout then world.source path else none
  else world.source path

/-- `^[A-Za-z_]\w*(?:\s+as\s+\w+)?\s*,\s*$` on a stripped line. -/
def isImportContinuation (unicode : Unicode) (line : Text) : Bool :=
  match line with
  | [] => false
  | first :: rest =>
    (first.isAlpha || first == '_') &&
      let after := rest.dropWhile unicode.word
      let closes := fun tail : Text =>
        match lstrip tail with
        | ',' :: trailing => (lstrip trailing).isEmpty
        | _ => false
      closes after ||
        match ((spaces after).bind (literal "as".toList)).bind spaces with
        | none => false
        | some renamed =>
          !(renamed.takeWhile unicode.word).isEmpty && closes (renamed.dropWhile unicode.word)

/-- Openings of a line that is harmless outside every symbol. -/
def safeOpenings : List Text :=
  ["#", "@", "import ", "from ", "\"\"\"", "'''", "\"", "'", "if TYPE_CHECKING:",
    "if typing.TYPE_CHECKING:", ")", "__all__"].map String.toList

/-- Whether a changed line outside every symbol may be ignored: blank, one of
the safe openings, or the continuation of an import. -/
def isSafeLine (unicode : Unicode) (line : Text) : Bool :=
  let content := strip line
  content.isEmpty || startsWithAny safeOpenings content || isImportContinuation unicode content

/-- The symbol a changed line is attributed to: the first one covering it. -/
def attributedTo (ranges : List SymbolRange) (line : Nat) : Option String :=
  (ranges.find? (SymbolRange.covers · line)).map SymbolRange.name

/-- A changed line that maps to no symbol and is not known to be harmless. -/
def isExecutableLine (unicode : Unicode) (sourceLines : List Text) (ranges : List SymbolRange)
    (line : Nat) : Bool :=
  (attributedTo ranges line).isNone &&
    match sourceLines[line - 1]? with
    | some content => !isSafeLine unicode content
    | none => true

/-- Member-level analysis of one modified class: the members containing the
changed lines of the class, expanded to their callers, unless some changed line
of the class lies outside every member. -/
def modifiedMembersOf (symbolMap : SymbolMap) (changedLines : List Nat) (symbolName : String) :
    Option (List String) :=
  match symbolMap.classMembers.get symbolName,
    symbolMap.topLevel.find? (fun range => decide (range.name = symbolName)) with
  | some classInfo, some classRange =>
    let inside := changedLines.filter classRange.covers
    let memberAt := fun line =>
      (classInfo.members.items.find?
        (fun entry => decide (entry.2.1 ≤ line ∧ line ≤ entry.2.2))).map Prod.fst
    if inside.isEmpty || !inside.all (fun line => (memberAt line).isSome) then none
    else
      some (expandModifiedMembersTransitively ((inside.filterMap memberAt).dedup)
        classInfo.internalCalls)
  | _, _ => none

/-- Candidates for new symbols: some definition of the name consists of added
lines only. -/
def candidateNew (ranges : List SymbolRange) (changedLines : List Nat)
    (modifiedSymbols : List String) : List String :=
  ((ranges.filter (fun range =>
    decide (range.name ∈ modifiedSymbols) &&
      (List.range' range.start (range.stop + 1 - range.start)).all (fun line =>
        decide (line ∈ changedLines)))).map SymbolRange.name).dedup

/-- Exclude newly added members: members absent from the base version of the
class are dropped, and a class with none left loses its entry. -/
def excludeNewMembers (oldClassMembers : Dict String (List String))
    (modifiedMembers : Dict String (List String)) : Dict String (List String) :=
  modifiedMembers.filterMap fun className members =>
    match oldClassMembers.get className with
    | none => some members
    | some oldMembers =>
      let filtered := intersect members oldMembers
      if filtered.isEmpty then none else some filtered

/-- The part of `_extract_modified_symbols` after the diff and the head version
have been read, for a diff that adds at least one line. -/
def classifyChanges (world : World) (path : Path) (fileStatus : Option FileStatus)
    (source : Text) (tree : List AST) (hasDeletions : Bool) (changedLines : List Nat) :
    Option SymbolClassification :=
  let symbolMap := buildLineToSymbolMap tree
  let ranges := symbolMap.topLevel
  if changedLines.any (isExecutableLine world.unicode (splitlines source) ranges) then none
  else
    let modifiedSymbols := (changedLines.filterMap (attributedTo ranges)).dedup
    let hasUnattributed := changedLines.any (fun line => (attributedTo ranges line).isNone)
    let modifiedMembers := (Dict.empty).update (modifiedSymbols.filterMap fun symbolName =>
      (modifiedMembersOf symbolMap changedLines symbolName).map (fun members =>
        (symbolName, members)))
    let candidates := candidateNew ranges changedLines modifiedSymbols
    if fileStatus = some .added then
      some ⟨[], modifiedSymbols, modifiedMembers, hasUnattributed⟩
    else if candidates.isEmpty then
      some ⟨modifiedSymbols, [], modifiedMembers, hasUnattributed⟩
    else if !hasDeletions then
      some ⟨modifiedSymbols.filter (· ∉ candidates), candidates, modifiedMembers, hasUnattributed⟩
    else
      match getOldFileSymbols world path with
      | none => some ⟨modifiedSymbols, [], modifiedMembers, hasUnattributed⟩
      | some (oldSymbols, oldClassMembers) =>
        let trulyNew := candidates.filter (· ∉ oldSymbols)
        some ⟨modifiedSymbols.filter (· ∉ trulyNew), trulyNew,
          excludeNewMembers oldClassMembers modifiedMembers, hasUnattributed⟩

/-- `_extract_modified_symbols`. -/
def extractModifiedSymbols (world : World) (path : Path) (fileStatus : Option FileStatus) :
    Option SymbolClassification :=
  match getDiffContent world path with
  | none => if fileStatus = some .renamed then some { modifiedSymbols := [], newSymbols := [] } else none
  | some diffContent =>
    let hasDeletions := diffHasDeletions diffContent
    let changedLines := parseDiffForChangedLines diffContent
    if changedLines.isEmpty then
      if hasDeletions && decide (fileStatus ≠ some .renamed) then
        some
          { modifiedSymbols := (extractDeletedSymbolsFromDiff world.unicode diffContent).dedup
            newSymbols := [] }
      else some { modifiedSymbols := [], newSymbols := [] }
    else
      match headSource world path with
      | none => none
      | some source =>
        match source.tree with
        | none => none
        | some tree =>
          classifyChanges world path fileStatus source.text tree hasDeletions changedLines

/-- Some changed line is attributed to the name. -/
def AttributedChange (ranges : List SymbolRange) (changedLines : List Nat) (name : String) : Prop :=
  ∃ line ∈ changedLines, attributedTo ranges line = some name

/-- Some definition of the name consists of changed lines only. -/
def WhollyChanged (ranges : List SymbolRange) (changedLines : List Nat) (name : String) : Prop :=
  ∃ range ∈ ranges, range.name = name ∧
    ∀ line, range.start ≤ line → line ≤ range.stop → line ∈ changedLines

/-- A new symbol is modified and wholly changed. -/
theorem mem_candidateNew (ranges : List SymbolRange) (changedLines : List Nat)
    (modifiedSymbols : List String) (name : String) :
    name ∈ candidateNew ranges changedLines modifiedSymbols ↔
      name ∈ modifiedSymbols ∧ WhollyChanged ranges changedLines name := by
  have inside : ∀ (range : SymbolRange) (line : Nat),
      line ∈ List.range' range.start (range.stop + 1 - range.start) ↔
        range.start ≤ line ∧ line ≤ range.stop := by
    intro range line
    rw [List.mem_range'_1]
    omega
  simp only [candidateNew, List.mem_dedup, List.mem_map, List.mem_filter, Bool.and_eq_true,
    decide_eq_true_eq, List.all_eq_true, inside, and_imp, WhollyChanged]
  constructor
  · rintro ⟨range, ⟨member, modified, whole⟩, rfl⟩
    exact ⟨modified, range, member, rfl, whole⟩
  · rintro ⟨modified, range, member, rfl, whole⟩
    exact ⟨range, ⟨member, modified, whole⟩, rfl⟩

/-- A name with a changed line is taken for new: the file is new, or one of the definitions is
wholly changed and the diff deletes nothing or the base version is known not to have the name. -/
def TakenForNew (world : World) (path : Path) (fileStatus : Option FileStatus) (hasDeletions : Bool)
    (ranges : List SymbolRange) (changedLines : List Nat) (name : String) : Prop :=
  fileStatus = some .added ∨ WhollyChanged ranges changedLines name ∧
    (hasDeletions = false ∨ ∃ old, getOldFileSymbols world path = some old ∧ name ∉ old.1)

/-- The classification of a diff that adds lines. It fails exactly when an added
line outside every symbol may be executable. Otherwise the names that a changed line is attributed
to are split into those taken for new and the modified ones. -/
theorem classifyChanges_spec (world : World) (path : Path) (fileStatus : Option FileStatus)
    (source : Text) (tree : List AST) (hasDeletions : Bool) (changedLines : List Nat)
    (ranges : List SymbolRange) (mapped : (buildLineToSymbolMap tree).topLevel = ranges) :
    (classifyChanges world path fileStatus source tree hasDeletions changedLines = none ∧
        ∃ line ∈ changedLines,
          isExecutableLine world.unicode (splitlines source) ranges line = true) ∨
      (∀ line ∈ changedLines,
          isExecutableLine world.unicode (splitlines source) ranges line = false) ∧
        ∃ classification,
          classifyChanges world path fileStatus source tree hasDeletions changedLines =
            some classification ∧
          ∀ name,
            (name ∈ classification.newSymbols ↔ AttributedChange ranges changedLines name ∧
              TakenForNew world path fileStatus hasDeletions ranges changedLines name) ∧
            (name ∈ classification.modifiedSymbols ↔ AttributedChange ranges changedLines name ∧
              ¬ TakenForNew world path fileStatus hasDeletions ranges changedLines name) := by
  have modified : ∀ name, name ∈ (changedLines.filterMap (attributedTo ranges)).dedup ↔
      AttributedChange ranges changedLines name := by
    intro name
    rw [List.mem_dedup, List.mem_filterMap, AttributedChange]
  by_cases executable : changedLines.any
    (isExecutableLine world.unicode (splitlines source) ranges) = true
  · refine Or.inl ⟨?_, List.any_eq_true.mp executable⟩
    simp only [classifyChanges, mapped, executable, ↓reduceIte]
  · refine Or.inr ⟨?_, ?_⟩
    · intro line member
      rw [Bool.eq_false_iff]
      intro found
      exact executable (List.any_eq_true.mpr ⟨line, member, found⟩)
    · simp only [classifyChanges, mapped, executable, Bool.false_eq_true, ↓reduceIte]
      have candidates := mem_candidateNew ranges changedLines
        (changedLines.filterMap (attributedTo ranges)).dedup
      split
      · rename_i added
        refine ⟨_, rfl, fun name => ?_⟩
        simp [modified, TakenForNew, added]
      · rename_i present
        split
        · rename_i empty
          refine ⟨_, rfl, fun name => ?_⟩
          have whole : AttributedChange ranges changedLines name →
              ¬ WhollyChanged ranges changedLines name := by
            intro attributed whole
            have member := (candidates name).mpr ⟨(modified name).mpr attributed, whole⟩
            rw [List.isEmpty_iff.mp empty] at member
            cases member
          simp only [modified, TakenForNew, present, List.not_mem_nil]
          tauto
        · split
          · rename_i additive
            refine ⟨_, rfl, fun name => ?_⟩
            have deletes : hasDeletions = false := by simpa using additive
            simp only [List.mem_filter, candidates, modified, decide_eq_true_eq, deletes,
              TakenForNew, present, true_or, and_true]
            tauto
          · rename_i deleting
            have deletes : hasDeletions = true := by simpa using deleting
            cases old : getOldFileSymbols world path with
            | none =>
              refine ⟨_, rfl, fun name => ?_⟩
              simp [modified, deletes, TakenForNew, present, old]
            | some known =>
              refine ⟨_, rfl, fun name => ?_⟩
              simp only [List.mem_filter, candidates, modified, decide_eq_true_eq, deletes,
                TakenForNew, present, old, Option.some.injEq, exists_eq_left', Bool.true_eq_false,
                false_or]
              tauto

end VirtTestTools.Analyzer
