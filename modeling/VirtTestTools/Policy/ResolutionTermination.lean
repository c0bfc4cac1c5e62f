import VirtTestTools.Recursions
import VirtTestTools.Policy.SkipMarkers

/-!
# Termination of name resolution

`resolved_names`, the search for skip markers and the search for added lines of
`check_policy.py` call themselves and each other: with the parts of an expression, and
with the value of a binding, which may stand anywhere in the tree. A set of nodes that
are being resolved keeps them from following a binding twice.

Here the functions are recursions over their calls, written as in the source and run
with a bound on the depth. The bindings may refer to each other in any way. Every call
returns: the expression gets smaller, or a binding is followed and fewer remain.
-/

namespace VirtTestTools.Policy

open Recursions Traversal

/-- What the recursions read. A scope is made behind its parent; the bindings and the
values they refer to are arbitrary. -/
structure BindingGraph where
  scopes : ScopeBuilder
  ordered : Ordered scopes.shapes

/-- The bindings of a module. -/
def BindingGraph.ofModule (tree : List AST) (moduleName : List String) (isPackage : Bool) :
    BindingGraph :=
  ⟨Policy.scopes tree moduleName isPackage, ordered_scopes tree moduleName isPackage⟩

/-- The variables that the loop of `_bindings_for_name` changes. -/
structure BindingSearch where
  firstScope : Bool
  currentScope : Option Nat

/-- The calls of the search for skip markers, each with the nodes that are being
resolved. -/
inductive MarkerCall
  | skipDecorator (resolving : List Nat) (node : AST)
  | boundName (resolving : List Nat) (node : AST)
  | pytestmarkValue (resolving : List Nat) (node : AST)

/-- The calls of the search for added lines. -/
inductive LineCall
  | name (resolving : List Nat) (node : AST)
  | value (resolving : List Nat) (node : AST)

namespace ScopeBuilder

variable (scopes : ScopeBuilder)

/-! ## The functions, call by call -/

/-- A turn of the loop of `_bindings_for_name`. -/
def bindingsTurn (name : String) (reference : AST) (search : BindingSearch) :
    Turn BindingSearch (List Binding) :=
  match search.currentScope.bind (scopes.scopes[·]?) with
  | none => .leave []
  | some scope =>
    let recorded := if search.firstScope then (rootName reference).map scopes.recordedAt else none
    let deferred := isDeferred (scopes.kindAt (scopes.scopeOf reference))
    let bindings := visibleIn (scopes.nodePhases.get reference.id)
      (bindingsAt name deferred recorded scope)
    if bindings ≠ [] then .leave bindings
    else if isLocalTo name scope then .leave (ownBindings name reference scope)
    else .again ⟨false, scope.parent⟩

/-- `_bindings_for_name`. -/
def bindingsForNameWithin (bound : Nat) (name : String) (reference : AST) : Option (List Binding) :=
  loop (scopes.bindingsTurn name reference) bound ⟨true, some (scopes.scopeOf reference)⟩

/-- What the loop of `resolved_names` adds for a binding. -/
def bindingNamesBody (resolve : List Nat × AST → Option (List (List String)))
    (resolving : List Nat) (suffix : List String) (binding : Binding) :
    Option (List (List String)) :=
  if binding.node.id ∈ resolving then some []
  else
    match binding.importedName, binding.value with
    | some name, _ => some [name ++ suffix]
    | none, some value =>
      (resolve (binding.node.id :: resolving, value)).map fun names => names.map (· ++ suffix)
    | none, none => some []

/-- The part of `resolved_names` for a dotted name. -/
def dottedNamesBody (bound : Nat) (resolve : List Nat × AST → Option (List (List String)))
    (resolving : List Nat) (node : AST) : Option (List (List String)) :=
  match dottedName node with
  | none | some [] => some []
  | some (root :: suffix) =>
    (scopes.bindingsForNameWithin bound root node).bind fun bindings =>
      if bindings.isEmpty then some [root :: suffix]
      else (bindings.mapM (bindingNamesBody resolve resolving suffix)).map List.flatten

/-- The value of a walrus, as the first statement of `resolved_names` takes it. -/
def unwrapped : AST → AST
  | .namedExpr _ _ value => value
  | node => node

/-- The body of `resolved_names`. -/
def resolvedNamesBody (bound : Nat) (resolve : List Nat × AST → Option (List (List String)))
    (call : List Nat × AST) : Option (List (List String)) :=
  match unwrapped call.2 with
  | .ifExp _ _ body orelse =>
    (resolve (call.1, body)).bind fun names =>
      (resolve (call.1, orelse)).map fun others => names ++ others
  | node => scopes.dottedNamesBody bound resolve call.1 node

/-- `resolved_names`. -/
def resolvedNamesWithin (bound : Nat) (resolving : List Nat) (node : AST) :
    Option (List (List String)) :=
  run scopes.resolvedNamesBody bound (resolving, node)

/-- Whether a name has a binding that is not being resolved and is a hit itself or has
a value that is one. -/
def anyBindingBody (bound : Nat) (hit : Binding → Bool) (follow : List Nat → AST → Option Bool)
    (resolving : List Nat) : AST → Option Bool
  | node@(.name _ id _) =>
    (scopes.bindingsForNameWithin bound id node).bind fun bindings =>
      bindings.anyM fun binding =>
        if binding.node.id ∈ resolving then some false
        else if hit binding then some true
        else
          match binding.value with
          | none => some false
          | some value => follow (binding.node.id :: resolving) value
  | _ => some false

/-- The body of `_is_forbidden_skip_decorator`. It resolves the marker anew, with
nothing being resolved. -/
def skipDecoratorBody (bound : Nat) (recur : MarkerCall → Option Bool) (resolving : List Nat)
    (node : AST) : Option Bool :=
  let named := (scopes.resolvedNamesWithin bound [] (markerOf node)).map fun names =>
    names.any (forbiddenSkipMarkers.contains ·)
  named.bind fun forbidden =>
    if forbidden then some true else recur (.boundName resolving (markerOf node))

/-- Whether a binding is an imported marker that is forbidden. -/
def importsForbidden (binding : Binding) : Bool :=
  match binding.importedName with
  | none => false
  | some name => forbiddenSkipMarkers.contains name

/-- The body of `_is_forbidden_bound_name`. -/
def boundNameBody (bound : Nat) (recur : MarkerCall → Option Bool) (resolving : List Nat)
    (node : AST) : Option Bool :=
  scopes.anyBindingBody bound importsForbidden
    (fun resolving value => recur (.pytestmarkValue resolving value)) resolving node

/-- The body of `_is_forbidden_pytestmark_value`. -/
def pytestmarkValueBody (recur : MarkerCall → Option Bool) (resolving : List Nat) (node : AST) :
    Option Bool :=
  (recur (.skipDecorator resolving node)).bind fun forbidden =>
    if forbidden then some true
    else (pytestmarkValueChildren node).anyM fun child => recur (.pytestmarkValue resolving child)

/-- The body of the search for skip markers. -/
def markerBody (bound : Nat) (recur : MarkerCall → Option Bool) : MarkerCall → Option Bool
  | .skipDecorator resolving node => scopes.skipDecoratorBody bound recur resolving node
  | .boundName resolving node => scopes.boundNameBody bound recur resolving node
  | .pytestmarkValue resolving node => pytestmarkValueBody recur resolving node

/-- `_is_forbidden_skip_decorator`, `_is_forbidden_bound_name` and
`_is_forbidden_pytestmark_value`. -/
def forbiddenWithin (bound : Nat) (call : MarkerCall) : Option Bool :=
  run scopes.markerBody bound call

/-- The body of `_name_intersects_added_lines`. -/
def nameIntersectsBody (lines : List Nat) (bound : Nat) (recur : LineCall → Option Bool)
    (resolving : List Nat) (node : AST) : Option Bool :=
  scopes.anyBindingBody bound (fun binding => intersects (some lines) binding.node)
    (fun resolving value => recur (.value resolving value)) resolving node

/-- The body of `_value_intersects_added_lines` for a set of added lines. -/
def valueIntersectsBody (recur : LineCall → Option Bool) (resolving : List Nat) (node : AST) :
    Option Bool :=
  let named := match node with
    | .name .. => recur (.name resolving node)
    | _ => some false
  named.bind fun hit =>
    if hit then some true
    else node.children.anyM fun child => recur (.value resolving child)

/-- The body of the search for added lines. -/
def lineBody (lines : List Nat) (bound : Nat) (recur : LineCall → Option Bool) :
    LineCall → Option Bool
  | .name resolving node => scopes.nameIntersectsBody lines bound recur resolving node
  | .value resolving node => valueIntersectsBody recur resolving node

/-- `_name_intersects_added_lines`. -/
def nameIntersectsWithin (lines : List Nat) (bound : Nat) (resolving : List Nat) (node : AST) :
    Option Bool :=
  run (scopes.lineBody lines) bound (.name resolving node)

/-- `_value_intersects_added_lines`. -/
def valueIntersectsWithin (added : AddedLines) (bound : Nat) (resolving : List Nat) (node : AST) :
    Option Bool :=
  match added with
  | none => some true
  | some lines => run (scopes.lineBody lines) bound (.value resolving node)

/-! ## The bindings of a name -/

/-- What the loop of `_bindings_for_name` comes to from a state. -/
def searchFrom (name : String) (reference : AST) (search : BindingSearch) : List Binding :=
  searchScopes name reference (scopes.nodePhases.get reference.id)
    (isDeferred (scopes.kindAt (scopes.scopeOf reference)))
    (if search.firstScope then (rootName reference).map scopes.recordedAt else none)
    (search.currentScope.elim [] scopes.scopesFrom)

/-- Outside of the scopes there are none around. -/
theorem scopesFrom_eq_nil {place : Nat} (nothing : scopes.scopes[place]? = none) :
    scopes.scopesFrom place = [] := by
  simp [scopesFrom, chain, chainFrom, nothing]

section

variable {scopes} (ordered : Ordered scopes.shapes)

include ordered

/-- A turn finds what the loop comes to, or it goes on with the scope around. -/
theorem bindingsTurn_spec (name : String) (reference : AST) (search : BindingSearch) :
    match scopes.bindingsTurn name reference search with
    | .leave bindings => bindings = scopes.searchFrom name reference search
    | .again next =>
        scopes.searchFrom name reference next = scopes.searchFrom name reference search ∧
          next.currentScope.elim 0 (· + 1) < search.currentScope.elim 0 (· + 1) := by
  obtain ⟨firstScope, _ | place⟩ := search
  · rfl
  unfold bindingsTurn
  rw [Option.bind_some]
  cases found : scopes.scopes[place]? with
  | none => simp [searchFrom, scopes.scopesFrom_eq_nil found, searchScopes]
  | some scope =>
    have chained := scopes.scopesFrom_eq ordered place scope found
    unfold searchFrom
    dsimp only
    rw [Option.elim_some, chained, searchScopes]
    generalize (if firstScope then (rootName reference).map scopes.recordedAt else none) = recorded
    split_ifs
    · exact rfl
    · exact rfl
    · -- nothing is found here, and the parent comes before the scope
      cases above : scope.parent with
      | none => exact ⟨rfl, Nat.succ_pos place⟩
      | some parent =>
        have earlier := scopes.parent_lt ordered place parent scope found above
        exact ⟨rfl, Nat.succ_lt_succ earlier⟩

/-- The loop of `_bindings_for_name` ends. -/
theorem returns_bindingsForName (name : String) (reference : AST) :
    Returns (fun bound => scopes.bindingsForNameWithin bound name reference)
      (· = scopes.bindingsForName name reference) := by
  have turns := bindingsTurn_spec ordered name reference
  refine returns_loop (fun search => search.currentScope.elim 0 (· + 1))
    (fun search => scopes.searchFrom name reference search = scopes.bindingsForName name reference)
    ?_ ?_ _ rfl
  · intro search next holds ending
    have turned := turns search
    rw [ending] at turned
    exact ⟨turned.1.trans holds, turned.2⟩
  · intro search bindings holds ending
    have turned := turns search
    rw [ending] at turned
    exact turned.trans holds

end

/-! ## Dotted names -/

/-- What `resolved_names` finds while some nodes are being resolved. -/
def resolvedWhile (resolving : List Nat) (node : AST) : List (List String) :=
  scopes.resolvedFrom (scopes.allBindings.length + 1) resolving node

variable {scopes}

/-- The names of a leaf depend on what is followed behind it. -/
theorem leafNames_congr {follow other : List Nat → AST → List (List String)} {resolving : List Nat}
    {leaf : AST}
    (same : ∀ binding ∈ scopes.allBindings, binding.node.id ∉ resolving →
      ∀ value, follow (binding.node.id :: resolving) value =
        other (binding.node.id :: resolving) value) :
    scopes.leafNames follow resolving leaf = scopes.leafNames other resolving leaf := by
  unfold leafNames
  split
  · rfl
  · rfl
  · rename_i root suffix _
    dsimp only
    congr 2
    apply List.flatMap_congr
    intro binding member
    unfold bindingNames
    split_ifs with old
    · rfl
    cases imported : binding.importedName with
    | some name => rfl
    | none =>
      have known := scopes.mem_allBindings root leaf binding member imported
      cases binding.value with
      | none => rfl
      | some value => exact same binding known old value

/-- The fuel makes no difference as long as it is enough.

Proof: by induction on the fuel; where a binding is followed, fewer remain. -/
theorem resolvedFrom_congr {fuel other : Nat} {resolving : List Nat} (node : AST)
    (enough : scopes.remaining resolving < fuel)
    (enoughOther : scopes.remaining resolving < other) :
    scopes.resolvedFrom fuel resolving node = scopes.resolvedFrom other resolving node := by
  induction fuel generalizing other resolving node with
  | zero => exact absurd enough (Nat.not_lt_zero _)
  | succ fuel inductionHypothesis =>
    obtain ⟨rest, rfl⟩ : ∃ rest, other = rest + 1 := ⟨other - 1, by omega⟩
    rw [resolvedFrom, resolvedFrom]
    apply List.flatMap_congr
    intro leaf _
    refine leafNames_congr fun binding known new value => ?_
    have fewer := scopes.remaining_lt resolving binding known new
    exact inductionHypothesis value (by omega) (by omega)

variable (scopes) in
/-- No more bindings remain than there are. -/
theorem remaining_le (resolving : List Nat) :
    scopes.remaining resolving ≤ scopes.allBindings.length := List.length_filter_le _ _

/-- The equation of `resolved_names`. -/
theorem resolvedWhile_eq (resolving : List Nat) (node : AST) :
    scopes.resolvedWhile resolving node =
      (alternatives node).flatMap (scopes.leafNames scopes.resolvedWhile resolving) := by
  unfold resolvedWhile
  rw [resolvedFrom]
  apply List.flatMap_congr
  intro leaf _
  refine leafNames_congr fun binding known new value => ?_
  have fewer := scopes.remaining_lt resolving binding known new
  have bounded := scopes.remaining_le resolving
  exact resolvedFrom_congr value (by omega) (by omega)

/-- The alternatives of a conditional expression, or the node itself. -/
theorem alternatives_eq (node : AST) :
    alternatives node = match unwrapped node with
      | .ifExp _ _ body orelse => alternatives body ++ alternatives orelse
      | leaf => [leaf] := by
  cases node with
  | namedExpr info target value => cases value <;> rfl
  | _ => rfl

/-- An unwrapped node is no larger. -/
theorem size_unwrapped_le (node : AST) : (unwrapped node).size ≤ node.size := by
  cases node with
  | namedExpr info target value =>
    exact Nat.le_of_lt (AST.size_lt_of_mem_children (by simp [unwrapped, AST.children]))
  | _ => exact Nat.le_refl _

variable (scopes) in
/-- Something holds of every value that a binding of a name is followed to, with the nodes
that are then being resolved. -/
def EachFollowed (holds : List Nat × AST → Prop) (resolving : List Nat) (reference : AST) : Prop :=
  ∀ root, ∀ binding ∈ scopes.bindingsForName root reference, binding.node.id ∉ resolving →
    ∀ value, binding.value = some value → holds (binding.node.id :: resolving, value)

/-- Such a value is smaller than any expression that is looked at before. -/
theorem eachFollowed {holds : List Nat × AST → Prop} {resolving : List Nat} {node : AST}
    (smaller : ∀ next, scopes.pendingSize next < scopes.pendingSize (resolving, node) → holds next)
    (reference : AST) : scopes.EachFollowed holds resolving reference := by
  intro root binding member new value hasValue
  have known := known_of_value member hasValue
  exact smaller _ (pendingSize_lt_of_value known new hasValue node)

/-- What is added for a binding, if the value it is followed to returns. -/
theorem returns_bindingNames {recur : Nat → List Nat × AST → Option (List (List String))}
    {resolving : List Nat} (suffix : List String) {binding : Binding}
    (followed : binding.node.id ∉ resolving → ∀ value, binding.value = some value →
      Returns (fun bound => recur bound (binding.node.id :: resolving, value))
        (· = scopes.resolvedWhile (binding.node.id :: resolving) value)) :
    Returns (fun bound => bindingNamesBody (recur bound) resolving suffix binding)
      (· = (bindingNames scopes.resolvedWhile resolving binding).map (· ++ suffix)) := by
  unfold bindingNamesBody bindingNames
  split_ifs with old
  · exact .pure rfl
  cases binding.importedName with
  | some name => exact .pure rfl
  | none =>
    cases hasValue : binding.value with
    | none => exact .pure rfl
    | some value =>
      refine (followed old value hasValue).map fun names found => ?_
      rw [found]

/-- The names of a leaf are returned when what it follows is. -/
theorem returns_dottedNames (ordered : Ordered scopes.shapes)
    {recur : Nat → List Nat × AST → Option (List (List String))} {resolving : List Nat} {node : AST}
    (followed : scopes.EachFollowed (fun next =>
      Returns (fun bound => recur bound next) (· = scopes.resolvedWhile next.1 next.2)) resolving
      node) :
    Returns (fun bound => scopes.dottedNamesBody bound (recur bound) resolving node)
      (· = scopes.leafNames scopes.resolvedWhile resolving node) := by
  unfold dottedNamesBody leafNames
  cases dottedName node with
  | none => exact .pure rfl
  | some names =>
    cases names with
    | nil => exact .pure rfl
    | cons root suffix =>
      refine (returns_bindingsForName ordered root node).bind fun bindings found => ?_
      rw [found]
      dsimp only
      split_ifs
      · exact .pure rfl
      · have each := returns_mapM fun binding member =>
          returns_bindingNames suffix (followed root binding member)
        refine each.map fun resolved areNames => ?_
        rw [areNames, List.map_flatMap, List.flatMap_def]

/-- `resolved_names` returns what the model of it finds.

Proof: the branches of a conditional expression are smaller, and so is what remains
when a binding is followed. -/
theorem returns_resolvedNames (ordered : Ordered scopes.shapes) (resolving : List Nat)
    (node : AST) :
    Returns (fun bound => scopes.resolvedNamesWithin bound resolving node)
      (· = scopes.resolvedWhile resolving node) := by
  refine returns_run scopes.pendingSize
    (fun call names => names = scopes.resolvedWhile call.1 call.2) (fun call smaller => ?_)
    (resolving, node)
  obtain ⟨resolving, node⟩ := call
  have part {inner : AST} (inside : inner.size < node.size) :=
    smaller (resolving, inner) (by unfold pendingSize; dsimp only; omega)
  have bounded := size_unwrapped_le node
  dsimp only
  rw [resolvedWhile_eq, alternatives_eq]
  unfold resolvedNamesBody
  dsimp only
  split
  · rename_i info test body orelse shape
    have inBody : body.size < (unwrapped node).size :=
      AST.size_lt_of_mem_children (by simp [shape, AST.children])
    have inElse : orelse.size < (unwrapped node).size :=
      AST.size_lt_of_mem_children (by simp [shape, AST.children])
    refine (part (Nat.lt_of_lt_of_le inBody bounded)).bind fun names found =>
      (part (Nat.lt_of_lt_of_le inElse bounded)).map fun others foundOthers => ?_
    rw [found, foundOthers, List.flatMap_append, resolvedWhile_eq, resolvedWhile_eq]
  · rw [List.flatMap_singleton]
    exact returns_dottedNames ordered (eachFollowed smaller _)

/-! ## Hits behind names -/

/-- What is looked up binding by binding is looked up among the hits and among the values. -/
theorem any_fresh_or_bound (hit : Binding → Bool) (value : List Nat × AST → Bool)
    (resolving : List Nat) (bindings : List Binding) :
    (bindings.any fun binding => decide (binding.node.id ∉ resolving) && (hit binding ||
        binding.value.any fun inner => value (binding.node.id :: resolving, inner))) =
      ((bindings.filter fun binding => decide (binding.node.id ∉ resolving)).any hit ||
        ((bindings.filter fun binding => decide (binding.node.id ∉ resolving)).filterMap
          fun binding => binding.value.map fun inner =>
            (binding.node.id :: resolving, inner)).any value) := by
  induction bindings with
  | nil => rfl
  | cons binding rest inductionHypothesis =>
    rw [List.any_cons, inductionHypothesis, List.filter_cons]
    by_cases new : binding.node.id ∉ resolving
    · rw [if_pos (decide_eq_true new), List.any_cons, List.filterMap_cons]
      cases binding.value with
      | none => simp [new, Bool.or_assoc]
      | some inner => simp [new, Bool.or_assoc, Bool.or_left_comm]
    · rw [if_neg (by simpa using new)]
      simp [new]

/-- The bindings of a name are looked through, if what is followed returns. -/
theorem returns_anyBinding (ordered : Ordered scopes.shapes) (hit : Binding → Bool)
    (value : List Nat × AST → Bool) (follow : Nat → List Nat → AST → Option Bool)
    {resolving : List Nat} {node : AST}
    (followed : scopes.EachFollowed (fun next =>
      Returns (fun bound => follow bound next.1 next.2) (· = value next)) resolving node) :
    Returns (fun bound => scopes.anyBindingBody bound hit (follow bound) resolving node)
      (· = ((scopes.freshBindings resolving node).any hit ||
        (scopes.boundValues resolving node).any value)) := by
  cases node with
  | name info id ctx =>
    have looked := any_fresh_or_bound hit value resolving
      (scopes.bindingsForName id (.name info id ctx))
    unfold boundValues freshBindings
    rw [← looked]
    refine (returns_bindingsForName ordered id _).bind fun bindings found => ?_
    rw [found]
    refine returns_anyM fun binding member => ?_
    by_cases old : binding.node.id ∈ resolving
    · simp only [old, if_true, not_true, decide_false, Bool.false_and]
      exact .pure rfl
    simp only [old, if_false, not_false_iff, decide_true, Bool.true_and]
    cases hit binding with
    | true => exact .pure rfl
    | false =>
      rw [Bool.false_or]
      cases hasValue : binding.value with
      | none => exact .pure rfl
      | some inner => exact followed id binding member old inner hasValue
  | _ => exact .pure rfl

/-! ## The two searches -/

variable (scopes) in
/-- What a call of the search for skip markers finds. -/
def markerResult : MarkerCall → Bool
  | .skipDecorator resolving node => scopes.forbiddenHere (resolving, node) ||
      (scopes.boundValues resolving (markerOf node)).any scopes.forbiddenValueFrom
  | .boundName resolving node => (scopes.freshBindings resolving node).any importsForbidden ||
      (scopes.boundValues resolving node).any scopes.forbiddenValueFrom
  | .pytestmarkValue resolving node => scopes.forbiddenValueFrom (resolving, node)

variable (scopes) in
/-- The size of a call: a value calls for a decorator, and that for a bound name. -/
def markerSize : MarkerCall → Nat
  | .skipDecorator resolving node => 3 * scopes.pendingSize (resolving, node) + 1
  | .boundName resolving node => 3 * scopes.pendingSize (resolving, node)
  | .pytestmarkValue resolving node => 3 * scopes.pendingSize (resolving, node) + 2

/-- The result for a decorator by its names and its bound names. -/
theorem markerResult_skipDecorator (resolving : List Nat) (node : AST) :
    scopes.markerResult (.skipDecorator resolving node) =
      (scopes.namesForbiddenSkip (markerOf node) ||
        scopes.markerResult (.boundName resolving (markerOf node))) := Bool.or_assoc _ _ _

/-- The result for a value of `pytestmark` by the value and its children. -/
theorem markerResult_pytestmarkValue (resolving : List Nat) (node : AST) :
    scopes.markerResult (.pytestmarkValue resolving node) =
      (scopes.markerResult (.skipDecorator resolving node) ||
        (pytestmarkValueChildren node).any fun child =>
          scopes.markerResult (.pytestmarkValue resolving child)) :=
  forbiddenValueFrom_eq resolving node

variable (scopes) in
/-- The marker of a node is no larger. -/
theorem pendingSize_markerOf_le (resolving : List Nat) (node : AST) :
    scopes.pendingSize (resolving, markerOf node) ≤ scopes.pendingSize (resolving, node) := by
  have smaller : (markerOf node).size ≤ node.size := by
    cases node with
    | call info func args keywords =>
      exact Nat.le_of_lt (AST.size_lt_of_mem_children (by simp [markerOf, AST.children]))
    | _ => exact Nat.le_refl _
  unfold pendingSize
  dsimp only
  omega

variable (scopes) in
/-- A smaller node with the same bindings is smaller. -/
theorem pendingSize_lt_of_size_lt (resolving : List Nat) {inner node : AST}
    (smaller : inner.size < node.size) :
    scopes.pendingSize (resolving, inner) < scopes.pendingSize (resolving, node) := by
  unfold pendingSize
  dsimp only
  omega

/-- The search for skip markers returns what the model of it finds, whichever of its
functions is called. -/
theorem returns_forbidden (ordered : Ordered scopes.shapes) (call : MarkerCall) :
    Returns (fun bound => scopes.forbiddenWithin bound call) (· = scopes.markerResult call) := by
  refine returns_run scopes.markerSize (fun call found => found = scopes.markerResult call)
    (fun call smaller => ?_) call
  cases call with
  | skipDecorator resolving node =>
    have marked := scopes.pendingSize_markerOf_le resolving node
    have named : Returns (fun bound => (scopes.resolvedNamesWithin bound [] (markerOf node)).map
        fun names => names.any (forbiddenSkipMarkers.contains ·))
        (· = scopes.namesForbiddenSkip (markerOf node)) := by
      refine (returns_resolvedNames ordered [] (markerOf node)).map fun names found => ?_
      rw [found]
      rfl
    have bound := smaller (.boundName resolving (markerOf node))
      (Nat.lt_succ_of_le (Nat.mul_le_mul_left 3 marked))
    rw [markerResult_skipDecorator]
    exact named.orElse bound
  | boundName resolving node =>
    have values (next : List Nat × AST)
        (fewer : scopes.pendingSize (next.1, next.2) < scopes.pendingSize (resolving, node)) :=
      smaller (.pytestmarkValue next.1 next.2) (by unfold markerSize; dsimp only; omega)
    exact returns_anyBinding ordered importsForbidden scopes.forbiddenValueFrom
      (fun bound resolving inner => run scopes.markerBody bound (.pytestmarkValue resolving inner))
      (eachFollowed values node)
  | pytestmarkValue resolving node =>
    have decorated := smaller (.skipDecorator resolving node) (Nat.lt_succ_self _)
    have each (child : AST) (inside : child ∈ pytestmarkValueChildren node) :=
      have fewer := scopes.pendingSize_lt_of_size_lt resolving
        (size_lt_of_mem_pytestmarkValueChildren inside)
      smaller (.pytestmarkValue resolving child) (by unfold markerSize; dsimp only; omega)
    rw [markerResult_pytestmarkValue]
    exact decorated.orElse (returns_anyM each)

variable (scopes) in
/-- What a call of the search for added lines finds. -/
def lineResult (lines : List Nat) : LineCall → Bool
  | .name resolving node => scopes.boundOn lines (resolving, node) ||
      (scopes.boundValues resolving node).any
        (search scopes.pendingSize scopes.valueNext (scopes.boundOn lines))
  | .value resolving node =>
    search scopes.pendingSize scopes.valueNext (scopes.boundOn lines) (resolving, node)

variable (scopes) in
/-- The size of a call: a value calls for a name. -/
def lineSize : LineCall → Nat
  | .name resolving node => 2 * scopes.pendingSize (resolving, node)
  | .value resolving node => 2 * scopes.pendingSize (resolving, node) + 1

/-- The result for a value by its names and its children. -/
theorem lineResult_value (lines : List Nat) (resolving : List Nat) (node : AST) :
    scopes.lineResult lines (.value resolving node) =
      (scopes.lineResult lines (.name resolving node) ||
        node.children.any fun child => scopes.lineResult lines (.value resolving child)) :=
  search_boundOn_eq lines resolving node

/-- The search for added lines returns what the model of it finds. -/
theorem returns_intersects (ordered : Ordered scopes.shapes) (lines : List Nat) (call : LineCall) :
    Returns (fun bound => run (scopes.lineBody lines) bound call)
      (· = scopes.lineResult lines call) := by
  refine returns_run scopes.lineSize (fun call found => found = scopes.lineResult lines call)
    (fun call smaller => ?_) call
  cases call with
  | name resolving node =>
    have values (next : List Nat × AST)
        (fewer : scopes.pendingSize (next.1, next.2) < scopes.pendingSize (resolving, node)) :=
      smaller (.value next.1 next.2) (by unfold lineSize; dsimp only; omega)
    exact returns_anyBinding ordered _ _
      (fun bound resolving inner => run (scopes.lineBody lines) bound (.value resolving inner))
      (eachFollowed values node)
  | value resolving node =>
    have named : Returns (fun bound =>
        match node with
        | .name .. => run (scopes.lineBody lines) bound (.name resolving node)
        | _ => some false) (· = scopes.lineResult lines (.name resolving node)) := by
      cases node with
      | name info id ctx => exact smaller (.name resolving _) (Nat.lt_succ_self _)
      | _ => exact .pure rfl
    have each (child : AST) (inside : child ∈ node.children) :=
      have fewer := scopes.pendingSize_lt_of_size_lt resolving (AST.size_lt_of_mem_children inside)
      smaller (.value resolving child) (by unfold lineSize; dsimp only; omega)
    rw [lineResult_value]
    exact named.orElse (returns_anyM each)

/-- The search for added lines in a value returns its result. -/
theorem returns_valueIntersects (ordered : Ordered scopes.shapes) (added : AddedLines)
    (resolving : List Nat) (node : AST) :
    Returns (fun bound => scopes.valueIntersectsWithin added bound resolving node)
      (· = added.elim true fun lines => scopes.lineResult lines (.value resolving node)) := by
  cases added with
  | none => exact .pure rfl
  | some lines => exact returns_intersects ordered lines (.value resolving node)

end ScopeBuilder

open ScopeBuilder in
/-- Whatever the bindings refer to, every function returns for every node and every set
of nodes that are being resolved. -/
theorem name_resolution_terminates (graph : BindingGraph) (resolving : List Nat) (node : AST) :
    Terminates (graph.scopes.resolvedNamesWithin · resolving node) ∧
      Terminates (graph.scopes.forbiddenWithin · (.skipDecorator resolving node)) ∧
      Terminates (graph.scopes.forbiddenWithin · (.boundName resolving node)) ∧
      Terminates (graph.scopes.forbiddenWithin · (.pytestmarkValue resolving node)) ∧
      (∀ lines, Terminates (graph.scopes.nameIntersectsWithin lines · resolving node)) ∧
      ∀ added, Terminates (graph.scopes.valueIntersectsWithin added · resolving node) := by
  have ordered := graph.ordered
  refine ⟨?_, ?_, ?_, ?_, fun lines => ?_, fun added => ?_⟩
  · exact (returns_resolvedNames ordered resolving node).terminates
  · exact (returns_forbidden ordered _).terminates
  · exact (returns_forbidden ordered _).terminates
  · exact (returns_forbidden ordered _).terminates
  · exact (returns_intersects ordered lines _).terminates
  · exact (returns_valueIntersects ordered added resolving node).terminates

end VirtTestTools.Policy
