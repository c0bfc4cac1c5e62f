import VirtTestTools.Joins
import VirtTestTools.Text

/-!
# ReportPortal item names

An item is named by the node id of its test with every separator replaced by a dot
and without the suffix of the file. The components come back by splitting at the
dots; whether the last but one is a class or the file shows in its prefix.
-/

namespace VirtTestTools.Reporter

open Text

/-- `node_id_to_rp_name`. -/
def nodeIdToRpName (nodeId : Text) : Text :=
  let base := nodeId.takeWhile (· ≠ '[')
  let suffix := nodeId.dropWhile (· ≠ '[')
  let withoutExtension :=
    match Text.split "::".toList base with
    | [] => []
    | path :: names =>
      (if Text.endsWith ".py".toList path then path.take (path.length - 3) else path) :: names
  (".".toList.intercalate withoutExtension).map (fun c => if c = '/' then '.' else c) ++ suffix

/-- What a directory or a file stem may be: a part of a path without a dot or a
bracket. The delimiter of node ids is no part of a name. -/
structure IsPathName (name : Text) : Prop where
  noSlash : '/' ∉ name := by decide
  noDot : '.' ∉ name := by decide
  noBracket : '[' ∉ name := by decide
  noDelimiter : contains "::".toList name = false := by decide

/-- What the name of a class or a function may be: none of the characters that
separate components, as in an identifier. -/
structure IsPlainName (name : Text) : Prop where
  noSlash : '/' ∉ name := by decide
  noDot : '.' ∉ name := by decide
  noBracket : '[' ∉ name := by decide
  noColon : ':' ∉ name := by decide

/-- The prefix of a test name. -/
def testPrefix : Text := "test_".toList

/-- The components of a node id. -/
structure NodeId where
  directories : List Text
  stem : Text
  className : Option Text
  function : Text
  parameters : Text
  directoryNames : ∀ name ∈ directories, IsPathName name
  stemName : IsPathName stem
  stemTest : startsWith testPrefix stem = true
  classPlain : ∀ name ∈ className, IsPlainName name
  classNoTest : ∀ name ∈ className, startsWith testPrefix name = false
  functionPlain : IsPlainName function
  functionTest : startsWith testPrefix function = true
  parametersOpen : parameters = [] ∨ parameters.head? = some '['

namespace NodeId

/-- `dir/…/file.py`. -/
def path (id : NodeId) : Text :=
  "/".toList.intercalate (id.directories ++ [id.stem ++ ".py".toList])

/-- The names behind the path. -/
def names (id : NodeId) : List Text := id.className.toList ++ [id.function]

/-- `dir/…/file.py::[Class::]test[params]`. -/
def text (id : NodeId) : Text :=
  "::".toList.intercalate (id.path :: id.names) ++ id.parameters

/-- The components that the dots of an item name separate. -/
def components (id : NodeId) : List Text := id.directories ++ id.stem :: id.names

/-- The components of a node id are those of its file and its names. -/
theorem components_eq (id : NodeId) :
    id.components = (id.directories ++ [id.stem]) ++ id.names := by
  rw [components, List.append_cons]

/-- A component has no separator. -/
theorem components_plain (id : NodeId) :
    ∀ component ∈ id.components, '.' ∉ component ∧ '[' ∉ component ∧ '/' ∉ component := by
  intro component member
  rw [components, List.mem_append, List.mem_cons, names, List.mem_append, Option.mem_toList,
    List.mem_singleton] at member
  rcases member with directory | rfl | isClass | rfl
  · have name := id.directoryNames component directory
    exact ⟨name.noDot, name.noBracket, name.noSlash⟩
  · exact ⟨id.stemName.noDot, id.stemName.noBracket, id.stemName.noSlash⟩
  · have plain := id.classPlain component isClass
    exact ⟨plain.noDot, plain.noBracket, plain.noSlash⟩
  · exact ⟨id.functionPlain.noDot, id.functionPlain.noBracket, id.functionPlain.noSlash⟩

/-- The path is its stem path and the suffix of the file. -/
theorem path_eq (id : NodeId) :
    id.path = "/".toList.intercalate (id.directories ++ [id.stem]) ++ ".py".toList :=
  intercalate_append_last _ _ _ _

/-- The path of a file has no double colon. -/
theorem path_single (id : NodeId) : contains "::".toList (id.path ++ [':']) = false := by
  have single : contains [':', ':'] ("/".toList.intercalate (id.directories ++ [id.stem])) =
      false := by
    refine contains_double_intercalate ':' '/' (by decide) _ ?_
    intro piece member
    rcases List.mem_append.mp member with directory | stem
    · exact (id.directoryNames piece directory).noDelimiter
    · rw [List.mem_singleton.mp stem]
      exact id.stemName.noDelimiter
  rw [path_eq, List.append_assoc]
  change contains [':', ':'] (_ ++ '.' :: ['p', 'y', ':']) = false
  rw [contains_double_separated ':' '.' (by decide), single]
  rfl

/-- Splitting the part before the parameters at the delimiter. -/
theorem split_base (id : NodeId) :
    split "::".toList ("::".toList.intercalate (id.path :: id.names)) = id.path :: id.names := by
  have functionSplit : split "::".toList id.function = [id.function] := by
    apply split_absent
    rw [Bool.eq_false_iff, ne_eq, contains_iff]
    rintro ⟨before, after, shape⟩
    exact id.functionPlain.noColon (by simp [shape])
  have namesSplit : split "::".toList ("::".toList.intercalate id.names) = id.names := by
    cases isClass : id.className with
    | none =>
      rw [names, isClass, Option.toList_none, List.nil_append, List.intercalate_singleton,
        functionSplit]
    | some name =>
      have noColon := (id.classPlain name isClass).noColon
      rw [names, isClass, Option.toList_some, List.singleton_append, List.intercalate_cons_cons,
        List.intercalate_singleton]
      exact (split_double ':' name id.function
        (contains_double_of_not_mem ':' name noColon)).trans (congrArg _ functionSplit)
  obtain ⟨first, rest, shape⟩ := List.exists_cons_of_ne_nil
    (List.append_ne_nil_of_right_ne_nil id.className.toList (List.cons_ne_nil id.function []))
  rw [show id.names = first :: rest from shape] at namesSplit ⊢
  rw [List.intercalate_cons_cons]
  exact (split_double ':' id.path _ id.path_single).trans (congrArg _ namesSplit)

/-- In front of the parameters there is no bracket. -/
theorem base_no_bracket (id : NodeId) :
    '[' ∉ "::".toList.intercalate (id.path :: id.names) := by
  intro member
  rcases mem_intercalate _ _ _ member with delimiter | ⟨piece, inside, found⟩
  · revert delimiter
    decide
  · rcases List.mem_cons.mp inside with rfl | isName
    · rw [path_eq, List.mem_append] at found
      rcases found with inStem | inSuffix
      · rcases mem_intercalate _ _ _ inStem with slash | ⟨name, isPart, bracket⟩
        · revert slash
          decide
        · refine (id.components_plain name ?_).2.1 bracket
          rw [components_eq]
          exact List.mem_append_left _ isPart
      · revert inSuffix
        decide
    · refine (id.components_plain piece ?_).2.1 found
      exact List.mem_append_right _ (List.mem_cons_of_mem _ isName)

/-- A text without bracket before parameters is found by the first bracket. -/
theorem parts_at_bracket (id : NodeId) (base : Text) (plain : '[' ∉ base) :
    (base ++ id.parameters).takeWhile (· ≠ '[') = base ∧
      (base ++ id.parameters).dropWhile (· ≠ '[') = id.parameters := by
  have passes : ∀ character ∈ base, (decide (character ≠ '[')) = true := by
    intro character member
    refine decide_eq_true ?_
    rintro rfl
    exact plain member
  rw [List.takeWhile_append_of_pos passes, List.dropWhile_append_of_pos passes]
  rcases id.parametersOpen with empty | opened
  · simp [empty]
  · obtain ⟨rest, shape⟩ := List.head?_eq_some_iff.mp opened
    simp [shape]

/-- The item name is the components with dots between them, and the parameters. -/
theorem rp_name_eq (id : NodeId) :
    nodeIdToRpName id.text = ".".toList.intercalate id.components ++ id.parameters := by
  have ending : endsWith ".py".toList id.path = true := by
    rw [path_eq, endsWith, List.isSuffixOf_iff_suffix]
    exact List.suffix_append _ _
  have cut : id.path.take (id.path.length - 3) =
      "/".toList.intercalate (id.directories ++ [id.stem]) := by
    rw [path_eq, List.length_append]
    exact List.take_left
  have dotted (pieces : List Text) (plain : ∀ piece ∈ pieces, '/' ∉ piece) :
      pieces.map (List.map (fun c => if c = '/' then '.' else c)) = pieces := by
    refine (List.map_congr_left ?_).trans (List.map_id pieces)
    intro piece member
    refine (List.map_congr_left ?_).trans (List.map_id piece)
    intro character inside
    rw [if_neg]
    · rfl
    · rintro rfl
      exact plain piece member inside
  have noSlash : ∀ piece ∈ id.components, '/' ∉ piece :=
    fun piece member => (id.components_plain piece member).2.2
  have noSlashPath : ∀ piece ∈ id.directories ++ [id.stem], '/' ∉ piece := by
    intro piece member
    refine noSlash piece ?_
    rw [components_eq]
    exact List.mem_append_left _ member
  have noSlashNames : ∀ piece ∈ id.names, '/' ∉ piece :=
    fun piece member => noSlash piece (List.mem_append_right _ (List.mem_cons_of_mem _ member))
  obtain ⟨baseFirst, parametersLast⟩ := id.parts_at_bracket _ id.base_no_bracket
  rw [nodeIdToRpName, text, baseFirst, parametersLast, split_base]
  dsimp only
  rw [if_pos ending, cut, map_intercalate, List.map_cons, map_intercalate, dotted _ noSlashPath,
    dotted _ noSlashNames, components_eq]
  exact congrArg (· ++ id.parameters)
    (intercalate_intercalate ['.'] (id.directories ++ [id.stem]) id.names (by simp))

/-- The components of a node id can be read off their list: the last but one is
the file exactly if it begins like a test. -/
theorem text_eq_of_components (first second : NodeId) (same : first.components = second.components)
    (parameters : first.parameters = second.parameters) : first.text = second.text := by
  -- With as many names the components agree one by one.
  have aligned (sameLength : first.names.length = second.names.length) :
      first.text = second.text := by
    rw [components_eq, components_eq] at same
    obtain ⟨samePath, sameNames⟩ := List.append_inj' same sameLength
    obtain ⟨sameDirectories, sameStem⟩ := List.append_inj' samePath rfl
    rw [List.singleton_inj] at sameStem
    rw [text, text, path, path, sameDirectories, sameStem, sameNames, parameters]
  -- A class stands where the other node id has its file.
  have clash (one other : NodeId) (equal : one.components = other.components) (name : Text)
      (noClass : one.className = none) (hasClass : other.className = some name) : False := by
    have shape : one.directories ++ [one.stem, one.function] =
        (other.directories ++ [other.stem]) ++ [name, other.function] := by
      have left : one.components = one.directories ++ [one.stem, one.function] := by
        rw [components, names, noClass]
        rfl
      have right : other.components =
          (other.directories ++ [other.stem]) ++ [name, other.function] := by
        rw [components_eq, names, hasClass]
        rfl
      rw [← left, equal, right]
    obtain ⟨-, sameNames⟩ := List.append_inj' shape rfl
    have sameName : one.stem = name := (List.cons.inj sameNames).1
    have isTest := one.stemTest
    rw [sameName, other.classNoTest name hasClass] at isTest
    cases isTest
  cases firstClass : first.className with
  | none =>
    cases secondClass : second.className with
    | none => exact aligned (by rw [names, names, firstClass, secondClass]; rfl)
    | some name => exact (clash first second same name firstClass secondClass).elim
  | some name =>
    cases secondClass : second.className with
    | none => exact (clash second first same.symm name secondClass firstClass).elim
    | some other => exact aligned (by rw [names, names, firstClass, secondClass]; rfl)

/-- Two node ids have the same item name only if they are the same. -/
theorem rp_name_eq_iff (first second : NodeId) :
    nodeIdToRpName first.text = nodeIdToRpName second.text ↔ first.text = second.text := by
  have unbracketed (id : NodeId) : '[' ∉ ".".toList.intercalate id.components := by
    intro member
    rcases mem_intercalate _ _ _ member with dot | ⟨piece, inside, found⟩
    · revert dot
      decide
    · exact (id.components_plain piece inside).2.1 found
  have split_name (id : NodeId) :
      split ['.'] (".".toList.intercalate id.components) = id.components :=
    split_intercalate '.' id.components (by simp [components])
      (fun piece member => (id.components_plain piece member).1)
  constructor
  · intro sameName
    rw [rp_name_eq, rp_name_eq] at sameName
    obtain ⟨firstBase, firstParameters⟩ := first.parts_at_bracket _ (unbracketed first)
    obtain ⟨secondBase, secondParameters⟩ := second.parts_at_bracket _ (unbracketed second)
    have sameParameters : first.parameters = second.parameters := by
      rw [← firstParameters, sameName, secondParameters]
    have sameBase : ".".toList.intercalate first.components =
        ".".toList.intercalate second.components := by
      rw [← firstBase, sameName, secondBase]
    refine text_eq_of_components first second ?_ sameParameters
    rw [← split_name first, sameBase, split_name second]
  · exact congrArg nodeIdToRpName

/-- `tests/storage/test_disk.py::TestDisk::test_attach[ocs]`. -/
def attachDisk : NodeId where
  directories := ["tests".toList, "storage".toList]
  stem := "test_disk".toList
  className := some "TestDisk".toList
  function := "test_attach".toList
  parameters := "[ocs]".toList
  directoryNames := List.forall_mem_cons.mpr ⟨{}, List.forall_mem_cons.mpr ⟨{}, List.forall_mem_nil _⟩⟩
  stemName := {}
  stemTest := by decide
  classPlain := by
    rintro name ⟨⟩
    exact {}
  classNoTest := by decide
  functionPlain := {}
  functionTest := by decide
  parametersOpen := Or.inr rfl

/-- `tests/storage/test_disk.py::test_attach[ocs]`. -/
def attachDiskAlone : NodeId :=
  { attachDisk with
    className := none
    classPlain := by rintro name ⟨⟩
    classNoTest := by rintro name ⟨⟩ }

/-- Two node ids, by the general theorem. -/
theorem attachDisk_rp_name_eq_iff :
    nodeIdToRpName attachDisk.text = nodeIdToRpName attachDiskAlone.text ↔
      attachDisk.text = attachDiskAlone.text :=
  rp_name_eq_iff attachDisk attachDiskAlone

end NodeId

end VirtTestTools.Reporter
