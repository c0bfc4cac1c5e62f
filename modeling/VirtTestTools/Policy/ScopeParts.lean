import VirtTestTools.Positions

/-!
# The parts of a node by scope

A lambda, a comprehension and a definition open a scope. Some parts of such a node are
evaluated in the scope, the other ones around it: the header of a definition and the first
iterable of a comprehension. All parts of the other nodes are evaluated where the node is.

In a tree whose nodes have distinct identities a name stands in one scope.
-/

namespace VirtTestTools.Policy

/-- The default values of parameters. -/
def defaultParts : AST → List AST
  | .arguments _ _ _ _ _ kwDefaults _ defaults => defaults ++ kwDefaults
  | _ => []

mutual

/-- The annotations of parameters. -/
def annotationParts : AST → List AST
  | .arguments _ posonlyargs args vararg kwonlyargs _ kwarg _ =>
    annotationPartsAll posonlyargs ++ annotationPartsAll args ++ annotationPartsAll kwonlyargs ++
      annotationPartsOpt vararg ++ annotationPartsOpt kwarg
  | .arg _ _ annot => annot.toList
  | _ => []
termination_by structural node => node

/-- The annotations of a list of parameters. -/
def annotationPartsAll : List AST → List AST
  | [] => []
  | argument :: rest => annotationParts argument ++ annotationPartsAll rest
termination_by structural arguments => arguments

/-- The annotation of a parameter that may be left out. -/
def annotationPartsOpt : Option AST → List AST
  | none => []
  | some argument => annotationParts argument
termination_by structural argument => argument

end

/-- What a generator evaluates in the scope of the comprehension. -/
def generatorParts (first : Bool) : AST → List AST
  | .comprehension _ _ _ iter ifs => if first then ifs else iter :: ifs
  | _ => []

/-- What generators evaluate in the scope of the comprehension. -/
def innerParts : List AST → List AST
  | [] => []
  | first :: rest => generatorParts true first ++ rest.flatMap (generatorParts false)

/-- The iterable of a generator. -/
def iterableParts : AST → List AST
  | .comprehension _ _ _ iter _ => [iter]
  | _ => []

/-- What generators evaluate outside. -/
def outerParts : List AST → List AST
  | [] => []
  | first :: _ => iterableParts first

/-- The pattern and the guard of a case. -/
def patternParts : AST → List AST
  | .matchCase _ pattern guard _ => pattern :: guard.toList
  | _ => []

/-- The body of a case. -/
def bodyParts : AST → List AST
  | .matchCase _ _ _ body => body
  | _ => []

/-- The type and the body of a handler. -/
def handlerParts : AST → List AST
  | .exceptHandler _ type _ body => type.toList ++ body
  | _ => []

/-- What is evaluated in a scope that the node opens. -/
def nestedParts : AST → List AST
  | .lambda _ _ body => [body]
  | .comp _ _ elt generators => elt :: innerParts generators
  | .dictComp _ key value generators => key :: value :: innerParts generators
  | .functionDef _ _ _ _ body _ _ | .classDef _ _ _ _ body _ => body
  | _ => []

/-- What is evaluated in the scope that the node stands in. -/
def ownParts : AST → List AST
  | .assign _ _ value | .augAssign _ _ value | .namedExpr _ _ value => [value]
  | .annAssign _ _ annot value => annot :: value.toList
  | .lambda _ args _ => defaultParts args
  | .comp _ _ _ generators | .dictComp _ _ _ generators => outerParts generators
  | .functionDef _ _ _ args _ decoratorList returns =>
    decoratorList ++ defaultParts args ++ annotationParts args ++ returns.toList
  | .classDef _ _ bases keywords _ decoratorList => decoratorList ++ bases ++ keywords
  | .forStmt _ _ _ iter body orelse => iter :: body ++ orelse
  | .tryStmt _ _ body handlers orelse finalbody =>
    body ++ handlers.flatMap handlerParts ++ orelse ++ finalbody
  | .matchStmt _ subject cases => subject :: (cases.flatMap patternParts ++ cases.flatMap bodyParts)
  | node => node.children

/-! ## The parts of a node are below the node -/

section

open AST

/-- Default values are children of the parameters. -/
theorem defaultParts_subset (argument : AST) : defaultParts argument ⊆ argument.children := by
  cases argument with
  | arguments info posonlyargs args vararg kwonlyargs kwDefaults kwarg defaults =>
    intro part inside
    simp only [defaultParts, List.mem_append] at inside
    simp only [children, List.mem_append]
    obtain here | here := inside
    · exact .inr here
    · exact .inl (.inl (.inr here))
  | _ => exact List.nil_subset _

mutual

/-- Annotations stand below the parameters. -/
theorem annotationParts_subset (argument : AST) : annotationParts argument ⊆ argument.descendants := by
  cases argument with
  | arguments info posonlyargs args vararg kwonlyargs kwDefaults kwarg defaults =>
    have first := annotationPartsAll_subset posonlyargs
    have second := annotationPartsAll_subset args
    have third := annotationPartsAll_subset kwonlyargs
    have fourth := annotationPartsOpt_subset vararg
    have fifth := annotationPartsOpt_subset kwarg
    intro part inside
    simp only [annotationParts, List.mem_append] at inside
    simp only [descendants, children, List.flatMap_append, List.mem_append]
    obtain (((here | here) | here) | here) | here := inside
    · exact .inl (.inl (.inl (.inl (.inl (.inl (first here))))))
    · exact .inl (.inl (.inl (.inl (.inl (.inr (second here))))))
    · exact .inl (.inl (.inl (.inr (third here))))
    · exact .inl (.inl (.inl (.inl (.inr (fourth here)))))
    · exact .inl (.inr (fifth here))
  | arg info name annot =>
    intro part inside
    simp only [annotationParts] at inside
    exact mem_descendants_of_mem_children inside
  | _ =>
    simp only [annotationParts]
    exact List.nil_subset _

/-- So they do for a list of parameters. -/
theorem annotationPartsAll_subset (arguments : List AST) :
    annotationPartsAll arguments ⊆ arguments.flatMap preorder := by
  cases arguments with
  | nil =>
    simp only [annotationPartsAll]
    exact List.nil_subset _
  | cons argument rest =>
    have first := annotationParts_subset argument
    have others := annotationPartsAll_subset rest
    simp only [annotationPartsAll, List.flatMap_cons]
    exact List.append_subset.mpr
      ⟨List.subset_append_of_subset_left _ (List.Subset.trans first (descendants_subset argument)),
        List.subset_append_of_subset_right _ others⟩

/-- So they do for a parameter that may be left out. -/
theorem annotationPartsOpt_subset (argument : Option AST) :
    annotationPartsOpt argument ⊆ argument.toList.flatMap preorder := by
  cases argument with
  | none =>
    simp only [annotationPartsOpt]
    exact List.nil_subset _
  | some argument =>
    have here := annotationParts_subset argument
    simp only [annotationPartsOpt, Option.toList_some, List.flatMap_singleton]
    exact List.Subset.trans here (descendants_subset argument)

end

/-- The pattern and the guard are children of the case. -/
theorem patternParts_subset (case : AST) : patternParts case ⊆ case.children := by
  cases case with
  | matchCase info pattern guard body =>
    exact List.subset_append_left _ _
  | _ => exact List.nil_subset _

/-- So is the body. -/
theorem bodyParts_subset (case : AST) : bodyParts case ⊆ case.children := by
  cases case with
  | matchCase info pattern guard body =>
    exact List.subset_append_right _ _
  | _ => exact List.nil_subset _

/-- The type and the body are children of the handler. -/
theorem handlerParts_subset (handler : AST) : handlerParts handler ⊆ handler.children := by
  cases handler with
  | exceptHandler info type name body => exact List.Subset.refl _
  | _ => exact List.nil_subset _

/-- The conditions, and an iterable inside, are children of the generator. -/
theorem generatorParts_subset (first : Bool) (generator : AST) :
    generatorParts first generator ⊆ generator.children := by
  cases generator with
  | comprehension info isAsync target iter ifs =>
    cases first with
    | true => exact List.subset_cons_of_subset _ (List.subset_cons_self _ _)
    | false => exact List.subset_cons_self _ _
  | _ => exact List.nil_subset _

/-- So is an iterable outside. -/
theorem iterableParts_subset (generator : AST) : iterableParts generator ⊆ generator.children := by
  cases generator with
  | comprehension info isAsync target iter ifs =>
    simp [iterableParts, children]
  | _ => exact List.nil_subset _

/-- What is evaluated in a scope that the node opens stands below the node. -/
theorem innerParts_subset (generators : List AST) :
    innerParts generators ⊆ generators.flatMap preorder := by
  have each (first : Bool) (generator : AST) : generatorParts first generator ⊆ generator.preorder :=
    fun part inside => descendants_subset _
      (mem_descendants_of_mem_children (generatorParts_subset first generator inside))
  cases generators with
  | nil => exact List.nil_subset _
  | cons generator rest =>
    intro part inside
    rw [innerParts, List.mem_append, List.mem_flatMap] at inside
    rw [List.flatMap_cons, List.mem_append, List.mem_flatMap]
    obtain here | ⟨other, otherInside, there⟩ := inside
    · exact .inl (each true generator here)
    · exact .inr ⟨other, otherInside, each false other there⟩

/-- What generators evaluate outside stands below them. -/
theorem outerParts_subset (generators : List AST) :
    outerParts generators ⊆ generators.flatMap preorder := by
  cases generators with
  | nil => exact List.nil_subset _
  | cons generator rest =>
    intro part inside
    rw [List.flatMap_cons, List.mem_append]
    exact .inl (descendants_subset _
      (mem_descendants_of_mem_children (iterableParts_subset generator inside)))

/-- What a node evaluates in a scope that it opens stands below the node. -/
theorem nestedParts_subset (node : AST) : nestedParts node ⊆ node.descendants := by
  have direct (parts : List AST) (within : parts ⊆ node.children) : parts ⊆ node.descendants :=
    fun part inside => mem_descendants_of_mem_children (within inside)
  cases node with
  | lambda info args body => exact direct [body] (by simp [children])
  | comp info kind elt generators =>
    refine List.cons_subset.mpr ⟨mem_descendants_of_mem_children (by simp [children]), ?_⟩
    exact List.subset_append_of_subset_right elt.preorder (innerParts_subset generators)
  | dictComp info key value generators =>
    refine List.cons_subset.mpr ⟨mem_descendants_of_mem_children (by simp [children]), ?_⟩
    refine List.cons_subset.mpr ⟨mem_descendants_of_mem_children (by simp [children]), ?_⟩
    exact List.subset_append_of_subset_right key.preorder
      (List.subset_append_of_subset_right value.preorder (innerParts_subset generators))
  | functionDef info isAsync bound args body decoratorList returns =>
    refine direct body fun part inside => ?_
    simp [children, inside]
  | classDef info bound bases keywords body decoratorList =>
    refine direct body fun part inside => ?_
    simp [children, inside]
  | _ => exact List.nil_subset _

/-! ## One scope for each name -/

/-- A part of a node that is reached through nodes that open no scope. -/
inductive Through (part : AST) : AST → Prop
  | child {node : AST} (inside : part ∈ node.children) : Through part node
  | deeper {node child : AST} (inside : child ∈ node.children) (closed : nestedParts child = [])
      (through : Through part child) : Through part node

section

variable {part node : AST}

/-- What is reached stands below the node. -/
theorem Through.mem_descendants (through : Through part node) : part ∈ node.descendants := by
  induction through with
  | child inside => exact mem_descendants_of_mem_children inside
  | deeper inside closed through inductionHypothesis =>
    exact mem_descendants_of_mem_preorder inside (descendants_subset _ inductionHypothesis)

/-- A part of an auxiliary node among the children. -/
theorem Through.of_parts {parts : AST → List AST} {nodes : List AST} (children : nodes ⊆ node.children)
    (within : ∀ inner, parts inner ⊆ inner.children)
    (closed : ∀ inner, parts inner ≠ [] → nestedParts inner = [])
    (inside : part ∈ nodes.flatMap parts) : Through part node := by
  obtain ⟨inner, innerInside, here⟩ := List.mem_flatMap.mp inside
  exact .deeper (children innerInside) (closed inner (List.ne_nil_of_mem here))
    (.child (within inner here))

/-- A node with default values opens no scope of its own: it is the list of parameters. -/
theorem closed_defaultParts (args : AST) (nonempty : defaultParts args ≠ []) :
    nestedParts args = [] := by
  cases args <;> first | rfl | exact absurd rfl nonempty

mutual

/-- The annotations of parameters are reached through nodes that open no scope. -/
theorem through_annotationParts (argument : AST) (inside : part ∈ annotationParts argument) :
    nestedParts argument = [] ∧ Through part argument := by
  cases argument with
  | arguments info posonlyargs args vararg kwonlyargs kwDefaults kwarg defaults =>
    refine ⟨rfl, ?_⟩
    have grouped {group : List AST} (within : group ⊆ children
          (.arguments info posonlyargs args vararg kwonlyargs kwDefaults kwarg defaults))
        (found : ∃ argument ∈ group, nestedParts argument = [] ∧ Through part argument) :
        Through part (.arguments info posonlyargs args vararg kwonlyargs kwDefaults kwarg defaults) := by
      obtain ⟨argument, listed, closed, through⟩ := found
      exact .deeper (within listed) closed through
    simp only [annotationParts, List.mem_append] at inside
    obtain (((here | here) | here) | here) | here := inside
    · exact grouped (fun _ listed => by simp [children, listed])
        (through_annotationPartsAll posonlyargs here)
    · exact grouped (fun _ listed => by simp [children, listed]) (through_annotationPartsAll args here)
    · exact grouped (fun _ listed => by simp [children, listed])
        (through_annotationPartsAll kwonlyargs here)
    · exact grouped (fun _ listed => by simp_all [children]) (through_annotationPartsOpt vararg here)
    · exact grouped (fun _ listed => by simp_all [children]) (through_annotationPartsOpt kwarg here)
  | arg info name annot =>
    simp only [annotationParts] at inside
    exact ⟨rfl, .child inside⟩
  | _ =>
    simp only [annotationParts] at inside
    cases inside

/-- So are those of a list of parameters. -/
theorem through_annotationPartsAll (arguments : List AST)
    (inside : part ∈ annotationPartsAll arguments) :
    ∃ argument ∈ arguments, nestedParts argument = [] ∧ Through part argument := by
  cases arguments with
  | nil =>
    simp only [annotationPartsAll] at inside
    cases inside
  | cons argument rest =>
    simp only [annotationPartsAll, List.mem_append] at inside
    obtain here | here := inside
    · exact ⟨argument, List.mem_cons_self .., through_annotationParts argument here⟩
    · obtain ⟨other, listed, through⟩ := through_annotationPartsAll rest here
      exact ⟨other, List.mem_cons_of_mem _ listed, through⟩

/-- So is that of a parameter that may be left out. -/
theorem through_annotationPartsOpt (argument : Option AST)
    (inside : part ∈ annotationPartsOpt argument) :
    ∃ there ∈ argument.toList, nestedParts there = [] ∧ Through part there := by
  cases argument with
  | none =>
    simp only [annotationPartsOpt] at inside
    cases inside
  | some argument =>
    simp only [annotationPartsOpt] at inside
    exact ⟨argument, List.mem_singleton_self _, through_annotationParts argument inside⟩

end

/-- What is evaluated in the same scope is reached through nodes that open no scope. -/
theorem through_of_mem_ownParts (inside : part ∈ ownParts node) : Through part node := by
  have defaults (args : AST) (listed : args ∈ node.children) (here : part ∈ defaultParts args) :
      Through part node :=
    .deeper listed (closed_defaultParts args (List.ne_nil_of_mem here))
      (.child (defaultParts_subset args here))
  have iterated (generators : List AST) (listed : generators ⊆ node.children)
      (here : part ∈ outerParts generators) : Through part node := by
    cases generators with
    | nil => cases here
    | cons generator rest =>
      refine .deeper (listed (List.mem_cons_self ..)) ?_ (.child (iterableParts_subset generator here))
      cases generator <;> first | rfl | cases here
  cases node with
  | assign | augAssign | namedExpr | annAssign | forStmt =>
    refine .child ?_
    simp only [ownParts, children, List.mem_append, List.mem_cons, List.cons_append] at inside ⊢
    tauto
  | lambda info args body => exact defaults args (by simp [children]) inside
  | comp info kind elt generators => exact iterated generators (by simp [children]) inside
  | dictComp info key value generators =>
    exact iterated generators (by simp [children]) inside
  | functionDef info isAsync name args body decoratorList returns =>
    simp only [ownParts, List.mem_append] at inside
    obtain ((decorates | default) | annotates) | returned := inside
    · exact .child (by simp [children, decorates])
    · exact defaults args (by simp [children]) default
    · obtain ⟨closed, through⟩ := through_annotationParts args annotates
      exact .deeper (by simp [children]) closed through
    · exact .child (by simp [children, returned])
  | classDef info name bases keywords body decoratorList =>
    refine .child ?_
    simp only [ownParts, children, List.mem_append] at inside ⊢
    tauto
  | tryStmt info isStar body handlers orelse finalbody =>
    simp only [ownParts, List.mem_append] at inside
    obtain ((stated | handled) | otherwise) | finishes := inside
    · exact .child (by simp [children, stated])
    · refine .of_parts (fun _ listed => ?_) handlerParts_subset (fun inner nonempty => ?_) handled
      · simp [children, listed]
      · cases inner <;> first | rfl | exact absurd rfl nonempty
    · exact .child (by simp [children, otherwise])
    · exact .child (by simp [children, finishes])
  | matchStmt info subject cases =>
    obtain rfl | inside := List.mem_cons.mp inside
    · exact .child (by simp [children])
    · have listed : cases ⊆ children (.matchStmt info subject cases) := by simp [children]
      obtain pattern | body := List.mem_append.mp inside
      · refine .of_parts listed patternParts_subset (fun inner nonempty => ?_) pattern
        cases inner <;> first | rfl | exact absurd rfl nonempty
      · refine .of_parts listed bodyParts_subset (fun inner nonempty => ?_) body
        cases inner <;> first | rfl | exact absurd rfl nonempty
  | _ => exact .child inside

/-- What a node evaluates in the same scope stands below it. -/
theorem ownParts_subset (node : AST) : ownParts node ⊆ node.descendants :=
  fun _ inside => (through_of_mem_ownParts inside).mem_descendants

variable {point : Nat}

/-- In a tree a point stands below one of the nodes. -/
theorem eq_of_mem_points {nodes : List AST} {first second : AST} (distinct : Distinct nodes)
    (firstInside : first ∈ nodes) (secondInside : second ∈ nodes) (below : point ∈ points [first])
    (belowToo : point ∈ points [second]) : first = second := by
  obtain ⟨before, after, rfl⟩ := List.append_of_mem firstInside
  obtain ⟨-, rest, apartBefore⟩ := distinct_append.mp distinct
  obtain ⟨-, -, apartAfter⟩ :=
    distinct_append.mp (List.singleton_append ▸ rest : Distinct ([first] ++ after))
  obtain inside | inside := List.mem_append.mp secondInside
  · refine absurd ?_ (apartBefore point (points_mono (preorderAll_singleton_subset inside) belowToo))
    exact points_mono (preorderAll_singleton_subset (List.mem_cons_self ..)) below
  · obtain same | inside := List.mem_cons.mp inside
    · exact same.symm
    · exact absurd (points_mono (preorderAll_singleton_subset inside) belowToo) (apartAfter point below)

/-- The identities in the scopes of a node are identities of the node. -/
theorem points_nestedParts_subset (node : AST) : points (nestedParts node) ⊆ points [node] :=
  points_mono (preorderAll_descendants_subset (nestedParts_subset node))

/-- Where a point is reached through nodes that open no scope, no node around the way has it in a scope
of its own. -/
theorem Through.outside (through : Through part node) (distinct : Distinct [node])
    (placed : point ∈ points [part]) {opener : AST} (inside : opener ∈ node.descendants) :
    opener ∈ part.preorder ∨ point ∉ points (nestedParts opener) := by
  have elsewhere {child : AST} (deeper : opener ∈ child.preorder) (outside : point ∉ points [child]) :
      point ∉ points (nestedParts opener) := by
    refine fun nested => outside (points_mono ?_ (points_nestedParts_subset opener nested))
    rw [preorderAll_eq, preorderAll_eq, List.flatMap_singleton, List.flatMap_singleton]
    exact (preorder_sublist deeper).subset
  induction through with
  | @child node partInside =>
    obtain ⟨other, otherInside, deeper⟩ := List.mem_flatMap.mp inside
    by_cases there : point ∈ points [other]
    · left
      rwa [eq_of_mem_points (distinct_children distinct) partInside otherInside placed there]
    · exact .inr (elsewhere deeper there)
  | @deeper node child childInside closed through inductionHypothesis =>
    have belowChild : point ∈ points [child] := points_mono (preorderAll_descendants_subset
      (List.cons_subset.mpr ⟨through.mem_descendants, List.nil_subset _⟩)) placed
    obtain ⟨other, otherInside, deeper⟩ := List.mem_flatMap.mp inside
    by_cases there : point ∈ points [other]
    · obtain rfl :=
        eq_of_mem_points (distinct_children distinct) childInside otherInside belowChild there
      rw [preorder_eq, List.mem_cons] at deeper
      obtain rfl | deeper := deeper
      · right
        rw [closed]
        exact List.not_mem_nil
      · have alone : Distinct [child] := List.Nodup.sublist ((preorderAll_sublist
          (List.singleton_sublist.mpr childInside)).map AST.id) (distinct_children distinct)
        exact inductionHypothesis alone deeper
    · exact .inr (elsewhere deeper there)

/-- The first iterable stands elsewhere than the other parts of the generators. -/
theorem outside_innerParts {generators : List AST} (distinct : Distinct generators)
    (placed : point ∈ points (outerParts generators)) : point ∉ points (innerParts generators) := by
  cases generators with
  | nil => exact List.not_mem_nil
  | cons generator rest =>
    obtain ⟨alone, -, fromRest⟩ :=
      distinct_append.mp (List.singleton_append ▸ distinct : Distinct ([generator] ++ rest))
    rw [outerParts] at placed
    have below : point ∈ points [generator] := (points_subset (iterableParts_subset generator)).trans
      (points_children_subset generator) placed
    rw [innerParts, points_append, Set.mem_union]
    rintro (conditions | behind)
    · cases generator with
      | comprehension info isAsync target iter ifs =>
        obtain ⟨-, apart, -⟩ := distinct_append.mp
          (List.singleton_append ▸ distinct_children alone : Distinct ([target] ++ iter :: ifs))
        obtain ⟨-, -, fromIfs⟩ := distinct_append.mp
          (List.singleton_append ▸ apart : Distinct ([iter] ++ ifs))
        exact fromIfs point placed conditions
      | _ => cases placed
    · refine fromRest point below (points_mono (fun inner listed => ?_) behind)
      obtain ⟨part, partInside, deeper⟩ := mem_preorderAll.mp listed
      obtain ⟨other, otherInside, here⟩ := List.mem_flatMap.mp partInside
      refine mem_preorderAll.mpr ⟨other, otherInside, (preorder_sublist ?_).subset deeper⟩
      exact descendants_subset _
        (mem_descendants_of_mem_children (generatorParts_subset false other here))

/-- What is evaluated in the same scope stands elsewhere than what is evaluated in a scope of the
node. -/
theorem outside_nestedParts (distinct : Distinct [node]) (placed : point ∈ points (ownParts node)) :
    point ∉ points (nestedParts node) := by
  have apart := distinct_children distinct
  have header (args : AST) (rest : List AST) (separate : ∀ point ∈ points [args], point ∉ points rest)
      (parts : List AST) (within : parts ⊆ args.descendants) (inside : point ∈ points parts) :
      point ∉ points rest :=
    separate point (points_mono (preorderAll_descendants_subset within) inside)
  have generated (elements generators : List AST) (separate : Distinct (elements ++ generators))
      (inside : point ∈ points (outerParts generators)) :
      point ∉ points (elements ++ innerParts generators) := by
    obtain ⟨-, alone, fromElements⟩ := distinct_append.mp separate
    rw [points_append, Set.mem_union, not_or]
    refine ⟨fun element => fromElements point element ?_, outside_innerParts alone inside⟩
    refine points_mono (fun inner listed => ?_) inside
    obtain ⟨part, partInside, deeper⟩ := mem_preorderAll.mp listed
    obtain ⟨other, otherInside, here⟩ := List.mem_flatMap.mp (outerParts_subset generators partInside)
    exact mem_preorderAll.mpr ⟨other, otherInside, (preorder_sublist here).subset deeper⟩
  cases node with
  | lambda info args body =>
    obtain ⟨-, -, fromArguments⟩ := distinct_append.mp (show Distinct ([args] ++ [body]) from apart)
    exact header args [body] fromArguments _ (fun part inside =>
      mem_descendants_of_mem_children (defaultParts_subset args inside)) placed
  | comp info kind elt generators => exact generated [elt] generators apart placed
  | dictComp info key value generators => exact generated [key, value] generators apart placed
  | functionDef info isAsync bound args body decoratorList returns =>
    obtain ⟨decorated, -, fromReturns⟩ := distinct_append.mp apart
    obtain ⟨bodied, -, fromDecorators⟩ := distinct_append.mp decorated
    obtain ⟨-, -, fromArguments⟩ := distinct_append.mp (List.singleton_append ▸ bodied)
    intro inBody
    have below : point ∈ points (args :: body) := points_cons args body ▸ .inr inBody
    simp only [ownParts, points_append, Set.mem_union] at placed
    obtain ((decorates | defaults) | annotates) | returned := placed
    · exact fromDecorators point below decorates
    · exact header args body fromArguments _ (fun part inside =>
        mem_descendants_of_mem_children (defaultParts_subset args inside)) defaults inBody
    · exact header args body fromArguments _ (annotationParts_subset args) annotates inBody
    · exact fromReturns point (points_append ▸ .inl below) returned
  | classDef info bound bases keywords body decoratorList =>
    obtain ⟨bodied, -, fromDecorators⟩ := distinct_append.mp apart
    obtain ⟨-, -, fromHeader⟩ := distinct_append.mp bodied
    intro inBody
    simp only [ownParts, points_append, Set.mem_union] at placed
    obtain (decorates | based) | keyed := placed
    · exact fromDecorators point (points_append ▸ .inr inBody) decorates
    · exact fromHeader point (points_append ▸ .inl based) inBody
    · exact fromHeader point (points_append ▸ .inr keyed) inBody
  | _ => exact List.not_mem_nil

end

end

end VirtTestTools.Policy
