import Mathlib.Logic.Relation
import VirtTestTools.Closure
import VirtTestTools.Analyzer.Symbols

/-!
# Narrowing by members

For a modified class the analyzer records the members with changed lines and their
callers, and flags a test only for these. A member that is left out lets a test that
depends on the change go unreported.

Line ranges and calls are kept by name, so of several definitions of one name only the
last one counts, and an edge of the call graph is a call `self.x()`. What depends on a
change is more than that: any definition of a name may have changed, and a member is
used also where it is read as a property or passed as a value. The module compares the
two for every class and every set of changed lines.
-/

namespace VirtTestTools.Analyzer

/-! ## Expansion to callers -/

section Expansion

variable (internalCalls : Dict String (List String)) (directlyModified : List String)

/-- An edge of the call graph. -/
def GraphCalls (caller callee : String) : Prop :=
  ∃ callees, internalCalls.get caller = some callees ∧ callee ∈ callees

/-- One entry of the call graph in a round. -/
def addCaller (current : List String) (entry : String × List String) : List String :=
  if decide (entry.1 ∉ current) && !(intersect entry.2 current).isEmpty then current ++ [entry.1]
  else current

/-- A round goes through the calls once. -/
theorem expandRound_eq (known : List String) :
    expandRound internalCalls known = internalCalls.items.foldl addCaller known := rfl

/-- A caller is added behind those that are known. -/
theorem prefix_addCaller (current : List String) (entry : String × List String) :
    current <+: addCaller current entry := by
  unfold addCaller
  split
  · exact List.prefix_append _ _
  · exact List.prefix_rfl

/-- A round adds callers behind those that are known. -/
theorem prefix_foldl_addCaller (entries : List (String × List String)) (known : List String) :
    known <+: entries.foldl addCaller known := by
  apply List.foldlRecOn (motive := fun current => known <+: current)
  · exact List.prefix_rfl
  · intro current extended entry _
    exact extended.trans (prefix_addCaller current entry)

/-- An entry that calls a known member makes its caller known. -/
theorem caller_mem_addCaller (current : List String) (entry : String × List String)
    (callee : String) (called : callee ∈ entry.2) (known : callee ∈ current) :
    entry.1 ∈ addCaller current entry := by
  have meets : intersect entry.2 current ≠ [] :=
    (intersect_ne_nil entry.2 current).mpr ⟨callee, called, known⟩
  by_cases listed : entry.1 ∈ current
  · exact (prefix_addCaller current entry).subset listed
  · simp [addCaller, listed, meets]

/-- A round makes every caller of a known member known. -/
theorem caller_mem_expandRound (known : List String) (caller callee : String)
    (calls : GraphCalls internalCalls caller callee) (member : callee ∈ known) :
    caller ∈ expandRound internalCalls known := by
  obtain ⟨callees, found, called⟩ := calls
  obtain ⟨before, after, split⟩ :=
    List.append_of_mem ((internalCalls.get_eq_some_iff caller callees).mp found)
  rw [expandRound_eq, split, List.foldl_append, List.foldl_cons]
  -- The entry comes up when the known members are still known.
  apply (prefix_foldl_addCaller after _).subset
  apply caller_mem_addCaller _ (caller, callees) callee called
  exact (prefix_foldl_addCaller before known).subset member

/-- What the rounds keep: the modified members stand first, callers are added once
each, and each of them reaches a modified member. -/
structure Expanded (current : List String) : Prop where
  added : ∃ callers : List String, current = directlyModified ++ callers ∧ callers.Nodup ∧
    callers ⊆ internalCalls.keys
  reaches : ∀ name ∈ current, ∃ target ∈ directlyModified,
    Relation.ReflTransGen (GraphCalls internalCalls) name target

/-- At the beginning there are the members that are modified directly. -/
theorem expanded_start : Expanded internalCalls directlyModified directlyModified := by
  refine ⟨⟨[], (List.append_nil _).symm, List.nodup_nil, List.nil_subset _⟩, ?_⟩
  intro name member
  exact ⟨name, member, .refl⟩

/-- A caller that is added calls an expanded member. -/
theorem expanded_addCaller (current : List String) (entry : String × List String)
    (listed : entry ∈ internalCalls.items)
    (expanded : Expanded internalCalls directlyModified current) :
    Expanded internalCalls directlyModified (addCaller current entry) := by
  unfold addCaller
  split
  · rename_i added
    simp only [Bool.and_eq_true, decide_eq_true_eq, Bool.not_eq_true', List.isEmpty_eq_false_iff,
      intersect_ne_nil] at added
    obtain ⟨fresh, callee, called, known⟩ := added
    constructor
    · obtain ⟨callers, rfl, nodup, inside⟩ := expanded.added
      refine ⟨callers ++ [entry.1], List.append_assoc _ _ _, ?_, ?_⟩
      · rw [← List.concat_eq_append]
        apply List.Nodup.concat _ nodup
        exact fun earlier => fresh (List.mem_append_right _ earlier)
      · intro caller member
        rcases List.mem_append.mp member with old | new
        · exact inside old
        · rw [List.mem_singleton.mp new]
          exact List.mem_map_of_mem listed
    · intro name member
      rcases List.mem_append.mp member with old | new
      · exact expanded.reaches name old
      · rw [List.mem_singleton.mp new]
        obtain ⟨target, modified, path⟩ := expanded.reaches callee known
        have calls : GraphCalls internalCalls entry.1 callee :=
          ⟨entry.2, (internalCalls.get_eq_some_iff entry.1 entry.2).mpr listed, called⟩
        exact ⟨target, modified, path.head calls⟩
  · exact expanded

/-- A round keeps it, -/
theorem expanded_expandRound (current : List String)
    (expanded : Expanded internalCalls directlyModified current) :
    Expanded internalCalls directlyModified (expandRound internalCalls current) := by
  rw [expandRound_eq]
  apply List.foldlRecOn (motive := Expanded internalCalls directlyModified)
  · exact expanded
  · intro known kept entry listed
    exact expanded_addCaller internalCalls directlyModified known entry listed kept

/-- and so do all rounds together. -/
theorem expanded_expandModifiedMembers :
    Expanded internalCalls directlyModified
      (expandModifiedMembersTransitively directlyModified internalCalls) := by
  unfold expandModifiedMembersTransitively
  generalize internalCalls.items.length = rounds
  induction rounds with
  | zero => exact expanded_start internalCalls directlyModified
  | succ rounds inductionHypothesis =>
    rw [Function.iterate_succ_apply']
    exact expanded_expandRound internalCalls directlyModified _ inductionHypothesis

/-- As many rounds as there are callers reach the fixed point. -/
theorem expandRound_expandModifiedMembers :
    expandRound internalCalls (expandModifiedMembersTransitively directlyModified internalCalls) =
      expandModifiedMembersTransitively directlyModified internalCalls := by
  unfold expandModifiedMembersTransitively
  rw [← Closure.close_eq_iterate]
  apply Closure.pass_close (expanded_expandRound internalCalls directlyModified)
    (fun known _ => prefix_foldl_addCaller internalCalls.items known)
  · intro known expanded
    obtain ⟨callers, rfl, nodup, inside⟩ := expanded.added
    rw [List.length_append]
    exact Nat.add_le_add_left (List.subperm_of_subset nodup inside).length_le _
  · exact expanded_start internalCalls directlyModified
  · simp [Dict.keys, Nat.add_comm]

/-- The expansion consists of the members that reach a modified one by calls. -/
theorem mem_expandModifiedMembers (name : String) :
    name ∈ expandModifiedMembersTransitively directlyModified internalCalls ↔
      ∃ target ∈ directlyModified,
        Relation.ReflTransGen (GraphCalls internalCalls) name target := by
  constructor
  · exact (expanded_expandModifiedMembers internalCalls directlyModified).reaches name
  · rintro ⟨target, modified, path⟩
    obtain ⟨callers, split, -, -⟩ :=
      (expanded_expandModifiedMembers internalCalls directlyModified).added
    induction path using Relation.ReflTransGen.head_induction_on with
    | refl =>
      rw [split]
      exact List.mem_append_left _ modified
    | head calls _ inductionHypothesis =>
      rw [← expandRound_expandModifiedMembers]
      exact caller_mem_expandRound internalCalls _ _ _ calls inductionHypothesis

end Expansion

/-! ## What depends on a change -/

/-- The name a statement of a class body defines as a member. -/
def memberName (node : AST) : Option String := (memberRange node).map Prod.fst

/-- Whether a line lies in a member definition, its decorators included. -/
def containsLine (node : AST) (line : Nat) : Bool :=
  (memberRange node).any fun entry => decide (entry.2.1 ≤ line ∧ line ≤ entry.2.2)

/-- The attributes of `self` that a definition refers to: calls, reads and values. -/
def selfReferences (node : AST) : List String :=
  node.preorder.filterMap fun
    | .attribute _ (.name _ "self" _) attr => some attr
    | _ => none

/-- Some definition of the member refers to the other one. -/
def RefersTo (body : List AST) (name target : String) : Prop :=
  ∃ node ∈ body, memberName node = some name ∧ target ∈ selfReferences node

/-- Some definition of the member contains a changed line. -/
def HasChange (body : List AST) (changedLines : List Nat) (name : String) : Prop :=
  ∃ node ∈ body, memberName node = some name ∧
    ∃ line ∈ changedLines, containsLine node line = true

/-- The member contains a changed line, or a chain of references leads from it to one
that does. -/
def DependsOnChange (body : List AST) (changedLines : List Nat) (name : String) : Prop :=
  ∃ target, Relation.ReflTransGen (RefersTo body) name target ∧ HasChange body changedLines target

/-! ## What the analysis follows -/

/-- The definition of a member that its name stands for in the end. -/
def lastDefinition (body : List AST) (name : String) : Option AST :=
  (body.filter (fun node => decide (memberName node = some name))).getLast?

/-- The first member whose last definition contains the line. -/
def attributedMember (body : List AST) (line : Nat) : Option String :=
  (body.filterMap memberName).find? fun name => (lastDefinition body name).any (containsLine · line)

/-- The last definition of the member calls the other one. -/
def LastCalls (body : List AST) (name target : String) : Prop :=
  ∃ node, lastDefinition body name = some node ∧ target ∈ selfCalls node

/-- The body of the last class of the name. -/
def lastClass (tree : List AST) (className : String) : Option (List AST) :=
  (tree.filterMap fun
    | .classDef _ name _ _ body _ => if name = className then some body else none
    | _ => none).getLast?

/-- The same, without statements if there is no such class. -/
def lastClassBody (tree : List AST) (className : String) : List AST :=
  (lastClass tree className).getD []

/-- The changed lines in the range that is listed first for the name. -/
def classLines (tree : List AST) (changedLines : List Nat) (className : String) : List Nat :=
  match (buildLineToSymbolMap tree).topLevel.find? (fun range => decide (range.name = className)) with
  | none => []
  | some range => changedLines.filter range.covers

/-- Some line of the class changed, and every changed one lies in a last definition. -/
def LinesAttributed (tree : List AST) (changedLines : List Nat) (className : String) : Prop :=
  classLines tree changedLines className ≠ [] ∧
    ∀ line ∈ classLines tree changedLines className,
      (attributedMember (lastClassBody tree className) line).isSome = true

/-- Calls lead from the member to one that a changed line is attributed to. -/
def CallsLeadToChange (tree : List AST) (changedLines : List Nat) (className name : String) :
    Prop :=
  ∃ target, Relation.ReflTransGen (LastCalls (lastClassBody tree className)) name target ∧
    ∃ line ∈ classLines tree changedLines className,
      attributedMember (lastClassBody tree className) line = some target

/-- A dictionary that gives each member something of its definition has it from the
last one. -/
theorem get_update_members {ν : Type} (body : List AST) (entry : AST → Option (String × ν))
    (named : ∀ node, (entry node).map Prod.fst = memberName node) (name : String) :
    ((Dict.empty).update (body.filterMap entry)).get name =
      (lastDefinition body name).bind fun node => (entry node).map Prod.snd := by
  have kept : (body.filterMap entry).filter (fun item => decide (item.1 = name)) =
      (body.filter (fun node => decide (memberName node = some name))).filterMap entry := by
    rw [List.filter_filterMap, List.filterMap_filter]
    apply List.filterMap_congr
    intro node _
    rw [← named node]
    cases found : entry node with
    | none => simp
    | some item => by_cases same : item.1 = name <;> simp [same, Option.filter]
  have unset : (Dict.empty : Dict String ν).get name = none := rfl
  rw [Dict.get_update_eq_getLast, kept, unset, Option.or_none, lastDefinition]
  have all : ∀ node ∈ body.filter (fun node => decide (memberName node = some name)),
      memberName node = some name := by
    intro node member
    simpa using (List.mem_filter.mp member).2
  generalize body.filter (fun node => decide (memberName node = some name)) = nodes at all
  rcases List.eq_nil_or_concat nodes with rfl | ⟨before, last, rfl⟩
  · rfl
  · have lastNamed := all last (by simp)
    rw [← named last] at lastNamed
    obtain ⟨item, found, -⟩ := Option.map_eq_some_iff.mp lastNamed
    simp [List.filterMap_append, found]

/-- What is kept of a class: the ranges and the calls of its members. -/
def memberInfo (body : List AST) : ClassMemberInfo where
  members := (Dict.empty).update (body.filterMap memberRange)
  internalCalls := buildIntraClassCallGraph body

/-- The member that a line is mapped to. -/
theorem mappedMember_eq (body : List AST) (line : Nat) :
    ((memberInfo body).members.items.find?
        (fun entry => decide (entry.2.1 ≤ line ∧ line ≤ entry.2.2))).map Prod.fst =
      attributedMember body line := by
  rw [Dict.find_items (memberInfo body).members
    (fun _ range => decide (range.1 ≤ line ∧ line ≤ range.2))]
  have names : (body.filterMap memberRange).map Prod.fst = body.filterMap memberName := by
    rw [List.map_filterMap]
    rfl
  have keys := Dict.find_keys_update (Dict.empty) (body.filterMap memberRange)
    (fun name => ((memberInfo body).members.get name).any
      fun range => decide (range.1 ≤ line ∧ line ≤ range.2))
  rw [names] at keys
  refine keys.trans ?_
  have search : (fun name => ((memberInfo body).members.get name).any
      fun range => decide (range.1 ≤ line ∧ line ≤ range.2)) =
      fun name => (lastDefinition body name).any (containsLine · line) := by
    funext name
    have found := get_update_members body memberRange (fun _ => rfl) name
    rw [memberInfo, found]
    cases lastDefinition body name with
    | none => rfl
    | some node =>
      rw [Option.bind_some, Option.any_map]
      rfl
  rw [search]
  rfl

/-- The calls of a member definition. -/
def memberCalls : AST → Option (String × List String)
  | node@(.functionDef _ _ name _ _ _ _) => some (name, selfCalls node)
  | _ => none

/-- The call graph as an update with the members of the class. -/
theorem buildIntraClassCallGraph_eq (body : List AST) :
    buildIntraClassCallGraph body = (Dict.empty).update (body.filterMap memberCalls) := rfl

/-- A member has its name and its calls. -/
theorem memberCalls_eq (node : AST) :
    memberCalls node = (memberName node).map fun name => (name, selfCalls node) := by
  cases node <;> rfl

/-- An edge of the call graph is a call of a last definition. -/
theorem graphCalls_iff (body : List AST) (name target : String) :
    GraphCalls (memberInfo body).internalCalls name target ↔ LastCalls body name target := by
  have found := get_update_members body memberCalls (fun node => by cases node <;> rfl) name
  rw [← buildIntraClassCallGraph_eq] at found
  unfold GraphCalls LastCalls
  rw [memberInfo, found]
  cases last : lastDefinition body name with
  | none => simp
  | some node =>
    have named : memberName node = some name := by
      simpa using (List.mem_filter.mp (List.mem_of_getLast? last)).2
    simp [memberCalls_eq, named]

/-- The class that is analysed under a name is the last one. -/
theorem get_classMembers (tree : List AST) (className : String) :
    (classMembers tree).get className = (lastClass tree className).map memberInfo := by
  have unset : (Dict.empty : Dict String ClassMemberInfo).get className = none := rfl
  rw [classMembers, Dict.get_update_eq_getLast, unset, Option.or_none, List.filter_filterMap,
    ← List.getLast?_map, List.map_filterMap, lastClass, ← List.getLast?_map, List.map_filterMap]
  congr 1
  apply List.filterMap_congr
  intro node _
  cases node with
  | classDef info name bases keywords body decoratorList =>
    by_cases same : name = className
    · simp [same, Option.filter, memberInfo]
    · simp [same, Option.filter]
  | _ => rfl

/-- The member analysis in these terms. -/
theorem modifiedMembersOf_eq (tree : List AST) (changedLines : List Nat) (className : String) :
    modifiedMembersOf (buildLineToSymbolMap tree) changedLines className =
      if (classLines tree changedLines className).isEmpty ||
          !(classLines tree changedLines className).all fun line =>
            (attributedMember (lastClassBody tree className) line).isSome then none
      else
        some (expandModifiedMembersTransitively
          (((classLines tree changedLines className).filterMap
            (attributedMember (lastClassBody tree className))).dedup)
          (memberInfo (lastClassBody tree className)).internalCalls) := by
  have classInfo : (buildLineToSymbolMap tree).classMembers.get className =
      (lastClass tree className).map memberInfo := get_classMembers tree className
  rw [modifiedMembersOf, classInfo, classLines, lastClassBody]
  cases lastClass tree className with
  | none =>
    -- Without a class there are no members, and no line is attributed to one.
    have unmapped : ∀ lines : List Nat,
        (lines.isEmpty || !lines.all fun line => (attributedMember [] line).isSome) = true := by
      intro lines
      cases lines <;> rfl
    simp [unmapped]
  | some body =>
    cases (buildLineToSymbolMap tree).topLevel.find?
        (fun range => decide (range.name = className)) with
    | none => rfl
    | some range => simp only [Option.map_some, Option.getD_some, mappedMember_eq]

/-- Members of a class are recorded exactly when every changed line is attributed. -/
theorem modifiedMembersOf_isSome (tree : List AST) (changedLines : List Nat) (className : String) :
    (modifiedMembersOf (buildLineToSymbolMap tree) changedLines className).isSome = true ↔
      LinesAttributed tree changedLines className := by
  rw [modifiedMembersOf_eq, LinesAttributed]
  split
  · rename_i skipped
    simp only [Bool.or_eq_true, List.isEmpty_iff, Bool.not_eq_true', List.all_eq_false] at skipped
    simp only [Option.isSome_none, Bool.false_eq_true, false_iff, not_and, not_forall]
    intro nonempty
    rcases skipped with empty | ⟨line, member, unmapped⟩
    · exact absurd empty nonempty
    · exact ⟨line, member, unmapped⟩
  · rename_i mapped
    simp only [Bool.or_eq_true, List.isEmpty_iff, Bool.not_eq_true', not_or, Bool.not_eq_false,
      List.all_eq_true] at mapped
    simpa using mapped

/-- The recorded members are those from which calls lead to a change. -/
theorem mem_modifiedMembersOf (tree : List AST) (changedLines : List Nat) (className : String)
    (recorded : List String)
    (found : modifiedMembersOf (buildLineToSymbolMap tree) changedLines className = some recorded)
    (name : String) :
    name ∈ recorded ↔ CallsLeadToChange tree changedLines className name := by
  have sameCalls : GraphCalls (memberInfo (lastClassBody tree className)).internalCalls =
      LastCalls (lastClassBody tree className) := by
    funext caller callee
    exact propext (graphCalls_iff _ caller callee)
  rw [modifiedMembersOf_eq] at found
  split at found
  · cases found
  · rw [← Option.some.inj found, mem_expandModifiedMembers, sameCalls]
    simp only [List.mem_dedup, List.mem_filterMap, CallsLeadToChange]
    refine exists_congr fun target => ?_
    exact and_comm

/-- What makes the recorded members complete: calls lead to a change from every member
with a changed line in one of its definitions, and from every member that refers to
one that depends on the change. -/
structure ChangeFollowed (tree : List AST) (changedLines : List Nat) (className : String)
    (body : List AST) : Prop where
  changes : ∀ name, HasChange body changedLines name →
    CallsLeadToChange tree changedLines className name
  references : ∀ name target, RefersTo body name target →
    DependsOnChange body changedLines target → CallsLeadToChange tree changedLines className name

/-- Every member that depends on the change is followed exactly when its first step
is. -/
theorem changeFollowed_iff (tree : List AST) (changedLines : List Nat) (className : String)
    (body : List AST) :
    (∀ name, DependsOnChange body changedLines name →
      CallsLeadToChange tree changedLines className name) ↔
      ChangeFollowed tree changedLines className body := by
  constructor
  · intro complete
    refine ⟨?_, ?_⟩
    · intro name changed
      exact complete name ⟨name, .refl, changed⟩
    · rintro name target refers ⟨origin, path, changed⟩
      exact complete name ⟨origin, path.head refers, changed⟩
  · rintro followed name ⟨origin, path, changed⟩
    rcases Relation.ReflTransGen.cases_head path with rfl | ⟨target, refers, rest⟩
    · exact followed.changes name changed
    · exact followed.references name target refers ⟨origin, rest, changed⟩

/-- Soundness of member narrowing. The members recorded for a class contain every
member that depends on the change exactly when nothing is recorded, because not every
changed line is attributed to a member, or the change is followed. -/
theorem recorded_members_complete_iff (tree : List AST) (changedLines : List Nat) (info : Info)
    (className : String) (bases keywords body decoratorList : List AST)
    (_defined : .classDef info className bases keywords body decoratorList ∈ tree) :
    (∀ recorded,
      modifiedMembersOf (buildLineToSymbolMap tree) changedLines className = some recorded →
        ∀ name, DependsOnChange body changedLines name → name ∈ recorded) ↔
      (LinesAttributed tree changedLines className →
        ChangeFollowed tree changedLines className body) := by
  rw [← changeFollowed_iff, ← modifiedMembersOf_isSome, Option.isSome_iff_exists]
  constructor
  · rintro complete ⟨recorded, found⟩ name depends
    exact (mem_modifiedMembersOf tree changedLines className recorded found name).mp
      (complete recorded found name depends)
  · intro followed recorded found name depends
    exact (mem_modifiedMembersOf tree changedLines className recorded found name).mpr
      (followed ⟨recorded, found⟩ name depends)

/-- A member of two lines that returns a value, with its decorators above. -/
def returningMember (line : Nat) (name : String) (decoratorList : List AST) (value : AST) : AST :=
  .functionDef ⟨10 * line, line, line + 1⟩ false name
    (.arguments ⟨10 * line + 1, line, line⟩ [] [.arg ⟨10 * line + 2, line, line⟩ "self" none] none []
      [] none [])
    [.returnStmt ⟨10 * line + 3, line + 1, line + 1⟩ (some value)] decoratorList none

/-- `self.name` on a line. -/
def selfAttribute (line : Nat) (name : String) : AST :=
  .attribute ⟨10 * line + 4, line, line⟩ (.name ⟨10 * line + 5, line, line⟩ "self" .load) name

/-- `self.name()` on a line. -/
def selfCall (line : Nat) (name : String) : AST :=
  .call ⟨10 * line + 6, line, line⟩ (selfAttribute line name) [] []

/-- A module that consists of the class `Vm` with the given members. -/
def vmModule (body : List AST) : List AST :=
  [.classDef ⟨1, 1, 9⟩ "Vm" [] [] body []]

/-- `start` calls `boot`. -/
def callingMembers : List AST :=
  [returningMember 2 "boot" [] (.constant ⟨20, 3, 3⟩ (.int 1)),
    returningMember 4 "start" [] (selfCall 5 "boot")]

/-- `report` reads the property `status`. -/
def readingMembers : List AST :=
  [returningMember 3 "status" [.name ⟨20, 2, 2⟩ "property" .load] (.constant ⟨21, 4, 4⟩ (.int 1)),
    returningMember 5 "report" [] (selfAttribute 6 "status")]

/-- The getter of the property `status` calls `refresh`; its setter does not. -/
def sharedMembers : List AST :=
  [returningMember 2 "refresh" [] (.constant ⟨20, 3, 3⟩ (.int 1)),
    returningMember 5 "status" [.name ⟨21, 4, 4⟩ "property" .load] (selfCall 6 "refresh"),
    returningMember 8 "status" [.attribute ⟨22, 7, 7⟩ (.name ⟨23, 7, 7⟩ "status" .load) "setter"]
      (.constant ⟨24, 9, 9⟩ (.int 1))]

/-- A caller of the changed member is recorded. -/
theorem caller_recorded :
    ∃ recorded, modifiedMembersOf (buildLineToSymbolMap (vmModule callingMembers)) [3] "Vm" =
        some recorded ∧ "start" ∈ recorded := by
  refine ⟨["boot", "start"], by decide +kernel, ?_⟩
  refine (recorded_members_complete_iff (vmModule callingMembers) [3] ⟨1, 1, 9⟩ "Vm" [] []
    callingMembers [] List.mem_cons_self).mpr ?_ _ (by decide +kernel) "start" ?_
  · intro _
    have boot : CallsLeadToChange (vmModule callingMembers) [3] "Vm" "boot" :=
      ⟨"boot", .refl, 3, by decide +kernel, by decide +kernel⟩
    have start : CallsLeadToChange (vmModule callingMembers) [3] "Vm" "start" :=
      ⟨"boot", .single ⟨returningMember 4 "start" [] (selfCall 5 "boot"), rfl, by decide +kernel⟩,
        3, by decide +kernel, by decide +kernel⟩
    have members : ∀ node ∈ callingMembers, ∀ name, memberName node = some name →
        CallsLeadToChange (vmModule callingMembers) [3] "Vm" name := by
      intro node member name named
      simp only [callingMembers, List.mem_cons, List.not_mem_nil, or_false] at member
      rcases member with rfl | rfl
      · cases named
        exact boot
      · cases named
        exact start
    refine ⟨?_, ?_⟩
    · rintro name ⟨node, member, named, -⟩
      exact members node member name named
    · rintro name target ⟨node, member, named, -⟩ -
      exact members node member name named
  · refine ⟨"boot", .single ⟨_, List.mem_of_getElem? (i := 1) rfl, rfl, by decide +kernel⟩, ?_⟩
    exact ⟨_, List.mem_cons_self, rfl, 3, List.mem_singleton.mpr rfl, by decide +kernel⟩

/-- A member that reads the changed one is not recorded, and neither is a property
whose getter calls the changed member when the setter does not. -/
theorem dependent_members_not_recorded :
    (modifiedMembersOf (buildLineToSymbolMap (vmModule readingMembers)) [4] "Vm" =
        some ["status"] ∧
      DependsOnChange readingMembers [4] "report") ∧
    modifiedMembersOf (buildLineToSymbolMap (vmModule sharedMembers)) [3] "Vm" =
        some ["refresh"] ∧
      DependsOnChange sharedMembers [3] "status" := by
  refine ⟨⟨by decide +kernel, ?_⟩, by decide +kernel, ?_⟩
  · refine ⟨"status", .single ⟨_, List.mem_of_getElem? (i := 1) rfl, rfl, by decide +kernel⟩, ?_⟩
    exact ⟨_, List.mem_cons_self, rfl, 4, List.mem_singleton.mpr rfl, by decide +kernel⟩
  · refine ⟨"refresh", .single ⟨_, List.mem_of_getElem? (i := 1) rfl, rfl, by decide +kernel⟩, ?_⟩
    exact ⟨_, List.mem_cons_self, rfl, 3, List.mem_singleton.mpr rfl, by decide +kernel⟩

end VirtTestTools.Analyzer
