import VirtTestTools.Policy.BindingVisits

/-!
# The paths of a module

Every visit of the scope builder follows the paths of its node. So the bindings that it records
at a load of a name in the module scope are those that come there on the paths of the module.
-/

namespace VirtTestTools.Policy

open BindingPaths

/-! ## Every visit -/

namespace Watch

variable {ν : Type} (watch : Watch ν)

/-- The load stands in the tree at most once, as a load of the name, and in no scope that is
opened in the tree. The name is not declared global there. -/
structure Clean (level : Level) (node : AST) : Prop where
  once : watch.tally [node] ≤ 1
  loads : ∀ inner ∈ node.preorder, inner.id = watch.load → ∃ info, inner = .name info watch.name .load
  undeclared : ∀ info names, .globalStmt info names ∈ node.preorder → watch.name ∉ names
  outermost : ∀ inner ∈ node.preorder, watch.tally (nestedParts inner) = 0
  own : level.own = false → watch.tally [node] = 0

variable {watch} {level other : Level} {node inner : AST} {place : Nat}

/-- The loads in one node. -/
theorem tally_singleton (node : AST) :
    watch.tally [node] = node.preorder.countP fun inner => inner.id = watch.load := by
  simp [tally, AST.preorderAll_eq]

/-- A part has no more loads than the node. -/
theorem tally_le_of_mem_preorder (inside : inner ∈ node.preorder) :
    watch.tally [inner] ≤ watch.tally [node] := by
  rw [tally_singleton, tally_singleton]
  exact (AST.preorder_sublist inside).countP_le

/-- A node has no more loads than the list. -/
theorem tally_le_of_mem {nodes : List AST} (inside : node ∈ nodes) :
    watch.tally [node] ≤ watch.tally nodes := by
  obtain ⟨before, after, rfl⟩ := List.append_of_mem inside
  rw [tally_append, tally_cons node after]
  omega

/-- Where the load does not stand, the level does not matter. -/
theorem Clean.below (clean : watch.Clean level node) (inside : inner ∈ node.preorder)
    (own : other.own = false → watch.tally [inner] = 0) : watch.Clean other inner := by
  have within := (AST.preorder_sublist inside).subset
  exact ⟨Nat.le_trans (tally_le_of_mem_preorder inside) clean.once,
    fun deeper here => clean.loads deeper (within here),
    fun info names here => clean.undeclared info names (within here),
    fun deeper here => clean.outermost deeper (within here), own⟩

/-- The outer parts of generators have no more loads than the generators. -/
theorem tally_outerParts_le (generators : List AST) :
    watch.tally (outerParts generators) ≤ watch.tally generators := by
  cases generators with
  | nil => exact Nat.le_refl _
  | cons generator rest =>
    have first : watch.tally (iterableParts generator) ≤ watch.tally [generator] := by
      cases generator with
      | comprehension info isAsync target iter ifs =>
        refine tally_le_of_mem_preorder (AST.descendants_subset _ ?_)
        exact AST.mem_descendants_of_mem_children (by simp [AST.children])
      | _ => simp [iterableParts, tally_nil]
    rw [outerParts, tally_cons]
    omega

/-- A clean name at the point is a load of the name in the module scope. -/
theorem Clean.isLoad {info : Info} {id : String} {ctx : Ctx}
    (clean : watch.Clean level (.name info id ctx)) (watched : info.id = watch.load) :
    id = watch.name ∧ ctx = .load ∧ level.own = true := by
  obtain ⟨found, same⟩ := clean.loads _ (AST.mem_preorder_self _) watched
  obtain ⟨-, rfl, rfl⟩ := AST.name.inj same
  refine ⟨rfl, rfl, Bool.of_not_eq_false fun nested => ?_⟩
  have none := clean.own nested
  rw [tally_name, if_pos watched] at none
  exact Nat.one_ne_zero none

/-- Every visit follows the paths of its node. -/
theorem Clean.follows (clean : watch.Clean level node) (place : Nat) : watch.Follows level place node := by
  induction sized : node.size using Nat.strong_induction_on generalizing node level place with
  | _ size inductionHypothesis =>
  subst sized
  -- what is evaluated in the same scope
  have here (part : AST) (inside : part ∈ node.descendants) : watch.Follows level place part := by
    have within := AST.descendants_subset node inside
    refine inductionHypothesis _ (AST.size_lt_of_mem_descendants inside) ?_ place rfl
    refine clean.below within fun own => ?_
    have none := clean.own own
    have fewer : watch.tally [part] ≤ watch.tally [node] := tally_le_of_mem_preorder within
    omega
  have child (part : AST) (inside : part ∈ node.children) : watch.Follows level place part :=
    here part (AST.mem_descendants_of_mem_children inside)
  -- what is evaluated in a scope of the node
  have silent := clean.outermost node (AST.mem_preorder_self node)
  have nested (other : Level) (inner : Nat) (part : AST) (inside : part ∈ nestedParts node) :
      watch.Follows other inner part := by
    have below := nestedParts_subset node inside
    refine inductionHypothesis _ (AST.size_lt_of_mem_descendants below) ?_ inner rfl
    refine clean.below (AST.descendants_subset node below) fun _ => ?_
    have fewer : watch.tally [part] ≤ watch.tally (nestedParts node) := tally_le_of_mem inside
    omega
  have once := clean.once
  cases node with
  | name info id ctx => exact follows_name clean.isLoad
  | importStmt => exact follows_importStmt once
  | importFrom => exact follows_importFrom once
  | assign info targets value => exact follows_assign (child value (by simp [AST.children])) once
  | annAssign info target annot value =>
    exact follows_annAssign (child annot (by simp [AST.children]))
      (fun part inside => child part (by simp_all [AST.children])) once
  | augAssign info target value => exact follows_augAssign (child value (by simp [AST.children])) once
  | globalStmt info names =>
    refine follows_declaration (fun builder => by rw [ScopeBuilder.visit])
      (walk_globalStmt _ _ _ info names level) (fun info names same => ?_) once
    exact clean.undeclared info names (same ▸ AST.mem_preorder_self _)
  | nonlocalStmt info names =>
    exact follows_declaration (fun builder => by rw [ScopeBuilder.visit])
      (walk_nonlocalStmt _ _ _ info names level) nofun once
  | namedExpr info target value => exact follows_namedExpr (child value (by simp [AST.children])) once
  | lambda info args body =>
    have header : watch.tally (annotationParts args) + watch.tally (defaultParts args) ≤
      watch.tally [args] := tally_annotationParts_le args
    have whole : watch.tally [args] ≤ watch.tally [.lambda info args body] :=
      tally_le_of_mem_preorder (AST.descendants_subset _
        (AST.mem_descendants_of_mem_children (by simp [AST.children])))
    refine follows_lambda (fun part inside => here part ?_)
      (fun inner => nested _ inner body (List.mem_singleton_self _)) (by omega) silent once
    exact AST.mem_descendants_of_mem_preorder (by simp [AST.children]) (AST.descendants_subset args
      (AST.mem_descendants_of_mem_children (defaultParts_subset args inside)))
  | comp info kind elt generators =>
    have within : watch.tally (AST.children (.comp info kind elt generators)) ≤ _ :=
      tally_children_le _
    have outer : watch.tally (outerParts generators) ≤ watch.tally generators :=
      tally_outerParts_le generators
    rw [AST.children, tally_cons] at within
    exact follows_comp (fun part inside => here part (List.mem_append_right _
      (outerParts_subset generators inside))) (fun inner => nested _ inner) (by omega) silent once
  | dictComp info key value generators =>
    have within : watch.tally (AST.children (.dictComp info key value generators)) ≤ _ :=
      tally_children_le _
    have outer : watch.tally (outerParts generators) ≤ watch.tally generators :=
      tally_outerParts_le generators
    rw [AST.children, tally_cons, tally_cons value] at within
    exact follows_dictComp (fun part inside => here part (List.mem_append_right _
      (List.mem_append_right _ (outerParts_subset generators inside)))) (fun inner => nested _ inner)
      (by omega) silent once
  | functionDef info isAsync bound args body decoratorList returns =>
    refine follows_functionDef (fun part inside => child part (by simp [AST.children, inside]))
      (fun part inside => here part ?_) (fun part inside => here part ?_)
      (fun part inside => child part (by simp_all [AST.children])) (fun inner => nested _ inner)
      (fun info names inside => ?_) silent once
    · exact AST.mem_descendants_of_mem_preorder (by simp [AST.children]) (AST.descendants_subset args
        (AST.mem_descendants_of_mem_children (defaultParts_subset args inside)))
    · exact AST.mem_descendants_of_mem_preorder (by simp [AST.children])
        (AST.descendants_subset args (annotationParts_subset args inside))
    · have below := scopeStatements_subset body inside
      obtain ⟨statement, statementInside, deeper⟩ := AST.mem_preorderAll.mp below
      refine clean.undeclared info names (AST.descendants_subset _ ?_)
      exact AST.mem_descendants_of_mem_preorder (by simp [AST.children, statementInside]) deeper
  | classDef info bound bases keywords body decoratorList =>
    exact follows_classDef (fun part inside => child part (by simp [AST.children, inside]))
      (fun part inside => child part (by simp [AST.children, inside]))
      (fun part inside => child part (by simp [AST.children, inside]))
      (fun inner part inside => nested _ inner part inside) silent once
  | ifStmt info test body orelse =>
    exact follows_ifStmt (child test (by simp [AST.children]))
      (fun part inside => child part (by simp [AST.children, inside]))
      (fun part inside => child part (by simp [AST.children, inside])) once
  | forStmt info isAsync target iter body orelse =>
    exact follows_forStmt (child iter (by simp [AST.children]))
      (fun part inside => child part (by simp [AST.children, inside]))
      (fun part inside => child part (by simp [AST.children, inside])) once
  | whileStmt info test body orelse =>
    exact follows_whileStmt (child test (by simp [AST.children]))
      (fun part inside => child part (by simp [AST.children, inside]))
      (fun part inside => child part (by simp [AST.children, inside])) once
  | breakStmt => exact follows_breakStmt once
  | continueStmt => exact follows_continueStmt once
  | tryStmt info isStar body handlers orelse finalbody =>
    refine follows_tryStmt (fun part inside => child part (by simp [AST.children, inside]))
      (fun handler inside part partInside => here part ?_)
      (fun part inside => child part (by simp [AST.children, inside]))
      (fun part inside => child part (by simp [AST.children, inside])) once
    exact AST.mem_descendants_of_mem_preorder (by simp [AST.children, inside])
      (AST.descendants_subset handler (AST.mem_descendants_of_mem_children partInside))
  | matchStmt info subject cases =>
    have below (parts : AST → List AST) (within : ∀ case, parts case ⊆ case.children) (part : AST)
        (inside : part ∈ cases.flatMap parts) : part ∈ AST.descendants (.matchStmt info subject cases) := by
      obtain ⟨case, caseInside, partInside⟩ := List.mem_flatMap.mp inside
      exact AST.mem_descendants_of_mem_preorder (by simp [AST.children, caseInside])
        (AST.descendants_subset case (AST.mem_descendants_of_mem_children (within case partInside)))
    exact follows_matchStmt (child subject (by simp [AST.children]))
      (fun part inside => here part (below patternParts patternParts_subset part inside))
      (fun part inside => here part (below bodyParts bodyParts_subset part inside)) once
  | _ =>
    refine follows_generic (fun builder => ?_) ?_ child once
    · simp [ScopeBuilder.visit, AST.children, ScopeBuilder.visitAll, visitAll_append, visitOpt_eq]
    · simp [path, walk, AST.children, walkAll, pathAll_append, walkOpt_eq]

end Watch

/-! ## A whole module -/

/-- The builder before a module. -/
def emptyBuilder (moduleName : List String) (isPackage : Bool) : ScopeBuilder :=
  { moduleName := moduleName, isPackage := isPackage, scopes := [{ parent := none, kind := .module }] }

/-- A node stands in no scope that is opened in the module. -/
def InModuleScope (tree : List AST) (node : AST) : Prop :=
  ∀ opener ∈ AST.preorderAll tree, ∀ part ∈ nestedParts opener, node ∉ part.preorder

/-- A load of a name in whatever scope. Only statements of the module scope bind the name of the
module: no scope that is opened in the module declares it global. -/
structure TreeLoad (tree : List AST) (info : Info) (name : String) : Prop where
  listed : .name info name .load ∈ AST.preorderAll tree
  undeclared : ∀ declaration names, .globalStmt declaration names ∈ AST.preorderAll tree → name ∉ names

/-- A load of a name in the module scope. -/
structure ModuleLoad (tree : List AST) (info : Info) (name : String) : Prop
    extends TreeLoad tree info name where
  outermost : InModuleScope tree (.name info name .load)

/-- The load of a name, watched from the start. -/
def watchLoad (moduleName : List String) (isPackage : Bool) (info : Info) (name : String) :
    Watch Site where
  name := name
  load := info.id
  importPrefix := (emptyBuilder moduleName isPackage).importPrefix
  wrote := id
  view := Binding.site
  base := 0
  fresh _ _ := rfl

section

variable {tree : List AST} (distinct : AST.Distinct tree) {info : Info} {name : String}
  (moduleName : List String) (isPackage : Bool)

include distinct in
/-- In a tree, the load stands once. -/
theorem tally_tree (listed : .name info name .load ∈ AST.preorderAll tree) :
    (watchLoad moduleName isPackage info name).tally tree = 1 := by
  have counted : (watchLoad moduleName isPackage info name).tally tree =
      ((AST.preorderAll tree).map AST.id).count info.id := by
    rw [List.count, List.countP_map]
    refine List.countP_congr fun node _ => ?_
    change decide (node.id = info.id) = true ↔ (node.id == info.id) = true
    simp
  rw [counted]
  exact List.count_eq_one_of_mem distinct (List.mem_map_of_mem listed)

include distinct in
/-- The nodes of the module are clean for a load of it. -/
theorem ModuleLoad.clean (load : ModuleLoad tree info name) {node : AST} (inside : node ∈ tree) :
    (watchLoad moduleName isPackage info name).Clean .module node := by
  have within : node.preorder ⊆ AST.preorderAll tree :=
    fun inner deeper => AST.mem_preorderAll.mpr ⟨node, inside, deeper⟩
  refine ⟨?_, fun inner deeper same => ?_, fun declaration names deeper => ?_,
    fun inner deeper => ?_, nofun⟩
  · rw [← tally_tree distinct moduleName isPackage load.listed]
    exact Watch.tally_le_of_mem inside
  · exact ⟨info, distinct.eq_of_id (within deeper) load.listed same⟩
  · exact load.undeclared declaration names (within deeper)
  · refine List.countP_eq_zero.mpr fun part partInside same => ?_
    obtain ⟨opened, openedInside, partBelow⟩ := AST.mem_preorderAll.mp partInside
    have below := AST.descendants_subset inner (nestedParts_subset inner openedInside)
    have listedPart : part ∈ AST.preorderAll tree :=
      within ((AST.preorder_sublist deeper).subset ((AST.preorder_sublist below).subset partBelow))
    have isLoad := distinct.eq_of_id listedPart load.listed (of_decide_eq_true same)
    exact load.outermost inner (within deeper) opened openedInside (isLoad ▸ partBelow)

/-- The scopes of the empty builder are ordered. -/
theorem ordered_emptyBuilder : Ordered (emptyBuilder moduleName isPackage).shapes := by
  intro place parent kind found
  cases place with
  | zero => simp [emptyBuilder, ScopeBuilder.shapes] at found
  | succ place => simp [emptyBuilder, ScopeBuilder.shapes] at found

/-- Nothing is bound before the module. -/
theorem good_emptyBuilder :
    (watchLoad moduleName isPackage info name).Good (emptyBuilder moduleName isPackage) where
  root := rfl
  ordered := ordered_emptyBuilder moduleName isPackage
  undeclared place scope nested found := by
    obtain ⟨fuel, rfl⟩ := Nat.exists_eq_succ_of_ne_zero nested
    simp [emptyBuilder] at found
  keyed := fun first inside => absurd inside List.not_mem_nil
  made binding inside := absurd inside List.not_mem_nil
  started := Nat.zero_le _
  known := List.nil_subset _
  tracked := by simp [emptyBuilder]
  named := rfl

/-- The module is the only scope of the empty builder. -/
theorem fits_emptyBuilder : Fits (emptyBuilder moduleName isPackage) .module 0 where
  inside := Nat.one_pos
  own := iff_of_true rfl rfl
  walrus := iff_of_true rfl rfl
  below := iff_of_true rfl rfl

include distinct in
/-- The bindings that are recorded at a load of the module scope are those that come there on
the paths of the module. -/
theorem ModuleLoad.recorded_iff (load : ModuleLoad tree info name) (site : Site) :
    (∃ binding ∈ ((scopes tree moduleName isPackage).nodeBindings.get info.id).getD [],
        binding.site = site) ↔
      (walkAll name (emptyBuilder moduleName isPackage).importPrefix id tree .module).flow
        (.observed info.id) (some (some site)) := by
  let watch := watchLoad moduleName isPackage info name
  have once := tally_tree distinct moduleName isPackage load.listed
  have followed := Watch.tracks_visitAll tree
    (fun node inside => (load.clean distinct moduleName isPackage inside).follows 0) once.le
    (emptyBuilder moduleName isPackage)
  have nothing : watch.Shows ((emptyBuilder moduleName isPackage).active name) ∅ := fun value =>
    iff_of_false (Set.notMem_empty _) fun bound => List.not_mem_nil bound.choose_spec.1
  obtain ⟨trace, -⟩ := followed (good_emptyBuilder moduleName isPackage)
    (by simpa using fits_emptyBuilder moduleName isPackage) ∅ nothing
  have shown := trace.record (by omega) rfl site
  rw [Flow.mem_after] at shown
  exact shown.symm.trans (or_iff_left fun both => both.1)

end

end VirtTestTools.Policy
