import VirtTestTools.Policy.SourceChecks
import VirtTestTools.Positions

/-!
# The ratchet of cache comments

A call of `cache_admin_client` without comment passes if the version in `HEAD` has the
same call without comment. Which call is the same is decided by the definitions around
it, its expression, and its number among the calls with these, in the order of
`ast.walk`. Calls with a comment are counted as well, so a statement that is inserted
with such a call gives the calls behind it other numbers.

The results say when statements can be inserted without a violation: every call without
comment must find one at its new place in `HEAD`.
-/

namespace VirtTestTools.Policy

section

variable {base : AST → List String × Text}

/-- The call stands in the list behind a number of calls with the same base. -/
def StandsAt (base : AST → List String × Text) (calls : List AST) (call : AST) (place : Nat) :
    Prop :=
  ∃ before after, calls = before ++ call :: after ∧
    before.countP (fun other => decide (base other = base call)) = place

/-- A call stands first, or at a later place among the rest. -/
theorem standsAt_cons {first call : AST} {rest : List AST} {place : Nat} :
    StandsAt base (first :: rest) call place ↔
      first = call ∧ place = 0 ∨ ∃ later, StandsAt base rest call later ∧
        place = later + if base call = base first then 1 else 0 := by
  constructor
  · rintro ⟨before, after, split, rfl⟩
    cases before with
    | nil => exact .inl ⟨(List.cons.inj split).1, rfl⟩
    | cons other before =>
      obtain ⟨rfl, rfl⟩ := List.cons.inj split
      refine .inr ⟨_, ⟨before, after, rfl, rfl⟩, ?_⟩
      rw [List.countP_cons, if_congr (decide_eq_true_iff.trans eq_comm) rfl rfl]
  · rintro (⟨rfl, rfl⟩ | ⟨later, ⟨before, after, rfl, rfl⟩, rfl⟩)
    · exact ⟨[], rest, rfl, rfl⟩
    · refine ⟨first :: before, after, rfl, ?_⟩
      rw [List.countP_cons, if_congr (decide_eq_true_iff.trans eq_comm) rfl rfl]

/-- Each call is numbered by its place. -/
theorem mem_numberIdentities_iff (base : AST → List String × Text)
    (occurrences : Counter (List String × Text)) (calls : List AST) (call : AST)
    (identity : CacheIdentity) :
    (call, identity) ∈ numberIdentities base occurrences calls ↔
      ∃ place, StandsAt base calls call place ∧
        identity = (base call, occurrences.count (base call) + place + 1) := by
  induction calls generalizing occurrences with
  | nil => simp [numberIdentities, StandsAt]
  | cons first rest inductionHypothesis =>
    simp only [numberIdentities, List.mem_cons, inductionHypothesis, standsAt_cons,
      Counter.count_add]
    constructor
    · rintro (here | ⟨later, stands, rfl⟩)
      · obtain ⟨rfl, rfl⟩ := Prod.mk.inj here
        exact ⟨0, .inl ⟨rfl, rfl⟩, by simp⟩
      · exact ⟨_, .inr ⟨later, stands, rfl⟩, congrArg (Prod.mk _) (by omega)⟩
    · rintro ⟨_, (⟨rfl, rfl⟩ | ⟨later, stands, rfl⟩), rfl⟩
      · exact .inl (by simp)
      · exact .inr ⟨later, stands, congrArg (Prod.mk _) (by omega)⟩

/-- No two calls have the same identity. -/
theorem nodup_numberIdentities (base : AST → List String × Text)
    (occurrences : Counter (List String × Text)) (calls : List AST) :
    ((numberIdentities base occurrences calls).map Prod.snd).Nodup := by
  induction calls generalizing occurrences with
  | nil => exact List.nodup_nil
  | cons first rest inductionHypothesis =>
    rw [numberIdentities, List.map_cons, List.nodup_cons]
    refine ⟨?_, inductionHypothesis _⟩
    intro again
    obtain ⟨⟨call, identity⟩, inside, same⟩ := List.mem_map.mp again
    obtain ⟨place, -, rfl⟩ := (mem_numberIdentities_iff ..).mp inside
    -- a later call of the same base has a larger number
    obtain ⟨sameBase, number⟩ := Prod.mk.inj same
    rw [sameBase] at number
    omega

/-- The numbered calls are the calls. -/
theorem map_fst_numberIdentities (base : AST → List String × Text)
    (occurrences : Counter (List String × Text)) (calls : List AST) :
    (numberIdentities base occurrences calls).map Prod.fst = calls := by
  induction calls generalizing occurrences with
  | nil => rfl
  | cons first rest inductionHypothesis =>
    rw [numberIdentities, List.map_cons, inductionHypothesis]

end

/-! ## The loop over the calls -/

section

variable (filePath : Path) (source : ParsedSource) (scopes : ScopeBuilder) (added : AddedLines)
  (resources : List (List String)) (identities : List (AST × CacheIdentity))

/-- A call of `cache_admin_client` that no comment explains. -/
def isUncommented (node : AST) : Bool :=
  match node with
  | .call _ func _ _ => isUndocumented source scopes node func
  | _ => false

/-- No violation of the first rule has the message of the second. -/
theorem checkResourceCall_message (node func : AST) (keywords : List AST) :
    ∀ violation ∈ checkResourceCall filePath scopes added resources node func keywords,
      violation.message ≠ FsText.ofString cacheCommentMessage := by
  intro violation inside same
  unfold checkResourceCall at inside
  split at inside
  · obtain ⟨message, given, rfl⟩ := List.mem_map.mp inside
    have texts : message = cacheCommentMessage :=
      String.toList_inj.mp (FsText.ofText_injective same)
    rw [Option.mem_toList, texts] at given
    unfold resourceCallMessage at given
    split at given
    · exact absurd (Option.some.inj given) (by decide)
    · split at given
      · exact absurd (Option.some.inj given) (by decide)
      · cases given
  · cases inside

/-- The loop reports no cache comment exactly if each call without comment lies on no added line
and is allowed. The calls have different identities, so none uses up what another one needs. -/
theorem cacheClean_iff (legacy : Counter CacheIdentity) (nodes : List AST)
    (distinct : ((nodes.filter (isUncommented source scopes)).map (identityOf identities)).Nodup) :
    (∀ violation ∈ checkResourceCalls filePath source scopes added resources identities legacy nodes,
        violation.message ≠ FsText.ofString cacheCommentMessage) ↔
      ∀ node ∈ nodes, isUncommented source scopes node = true →
        intersects added node = false ∧ legacy.count (identityOf identities node) ≠ 0 := by
  induction nodes generalizing legacy with
  | nil => simp [checkResourceCalls]
  | cons node rest inductionHypothesis =>
    rw [List.forall_mem_cons]
    have restDistinct : ((rest.filter (isUncommented source scopes)).map
        (identityOf identities)).Nodup := by
      refine distinct.sublist ((List.Sublist.filter _ ?_).map _)
      exact List.sublist_cons_self node rest
    unfold checkResourceCalls
    split
    · rename_i info func args keywords
      have first := checkResourceCall_message filePath scopes added resources
        (AST.call info func args keywords) func keywords
      rw [List.forall_mem_append, and_iff_right first]
      by_cases uncommented : isUndocumented source scopes (AST.call info func args keywords) func
      · have here : isUncommented source scopes (AST.call info func args keywords) = true :=
          uncommented
        rw [if_pos uncommented]
        dsimp only
        by_cases allowed : (!intersects added (AST.call info func args keywords) &&
            legacy.count (identityOf identities (AST.call info func args keywords)) ≠ 0) = true
        · -- the call uses up an identity that no other call has
          rw [if_pos allowed, inductionHypothesis _ restDistinct]
          rw [List.filter_cons_of_pos here, List.map_cons, List.nodup_cons] at distinct
          have untouched (node : AST) (inside : node ∈ rest)
              (uncommented : isUncommented source scopes node = true) :
              (legacy.take (identityOf identities (AST.call info func args keywords))).count
                  (identityOf identities node) =
                legacy.count (identityOf identities node) := by
            rw [Counter.count_take, if_neg, Nat.sub_zero]
            intro same
            exact distinct.1 (same ▸ List.mem_map_of_mem (List.mem_filter.mpr ⟨inside, uncommented⟩))
          rw [Bool.and_eq_true, Bool.not_eq_true', decide_eq_true_eq] at allowed
          constructor
          · intro holds
            refine ⟨fun _ => allowed, fun node inside uncommented => ?_⟩
            rw [← untouched node inside uncommented]
            exact holds node inside uncommented
          · rintro ⟨-, holds⟩ node inside uncommented
            rw [untouched node inside uncommented]
            exact holds node inside uncommented
        · rw [if_neg allowed]
          constructor
          · intro clean
            exact absurd (message_violationAt filePath _ _) (clean _ List.mem_cons_self)
          · rintro ⟨holds, -⟩
            obtain ⟨outside, known⟩ := holds here
            simp [outside, known] at allowed
      · have commented : isUncommented source scopes (AST.call info func args keywords) ≠ true :=
          uncommented
        rw [if_neg uncommented, inductionHypothesis legacy restDistinct,
          and_iff_right fun holds => absurd holds commented]
    · rename_i other
      have commented : isUncommented source scopes node ≠ true := by
        unfold isUncommented
        split
        · exact absurd rfl (other _ _ _ _)
        · simp
      rw [inductionHypothesis legacy restDistinct,
        and_iff_right fun holds => absurd holds commented]

end

/-! ## The identities of a source -/

section

variable {resolve : AST → List (List String)} {source : ParsedSource}

/-- No node is walked twice. -/
theorem nodup_walked {tree : List AST} (distinct : AST.Distinct tree) :
    ((walked tree).map AST.id).Nodup := by
  have once := AST.walkFrom_subperm (AST.preorderAll tree).length
    (tree.map fun node => (none, node))
  have whole : (tree.map fun node => ((none : Option AST), node)).map Prod.snd = tree := by
    rw [List.map_map]
    exact List.map_id tree
  rw [whole] at once
  obtain ⟨part, same, inside⟩ := once
  exact (same.map AST.id).nodup_iff.mp (distinct.sublist (inside.map AST.id))

/-- A call of `cache_admin_client`. -/
def isCacheCall (resolve : AST → List (List String)) : AST → Bool
  | .call _ func _ _ => (resolve func).contains cacheAdminClient
  | _ => false

/-- The cached reads are those among the walked nodes. -/
theorem cacheCalls_eq (resolve : AST → List (List String)) (tree : List AST) :
    cacheCalls resolve tree = (walked tree).filter (isCacheCall resolve) := by
  rw [cacheCalls, calls]
  generalize walked tree = nodes
  induction nodes with
  | nil => rfl
  | cons node rest inductionHypothesis =>
    cases node with
    | call info func args keywords =>
      rw [List.filterMap_cons]
      dsimp only
      by_cases called : (resolve func).contains cacheAdminClient = true
      · have here : isCacheCall resolve (AST.call info func args keywords) = true := called
        rw [List.filter_cons_of_pos (by exact called), List.map_cons, inductionHypothesis,
          List.filter_cons_of_pos here]
      · have here : ¬isCacheCall resolve (AST.call info func args keywords) = true := called
        rw [List.filter_cons_of_neg (by exact called), inductionHypothesis,
          List.filter_cons_of_neg here]
    | _ => exact inductionHypothesis

/-- The cached reads are in the order of the walk. -/
theorem cacheCalls_sublist (resolve : AST → List (List String)) (tree : List AST) :
    (cacheCalls resolve tree).Sublist (walked tree) := by
  rw [cacheCalls_eq]
  exact List.filter_sublist

/-- No cached read comes twice. -/
theorem nodup_cacheCalls (resolve : AST → List (List String)) {tree : List AST}
    (distinct : AST.Distinct tree) : (cacheCalls resolve tree).Nodup := by
  have once : (walked tree).Nodup := List.Nodup.of_map _ (nodup_walked distinct)
  exact once.sublist (cacheCalls_sublist resolve tree)

/-- The calls without comment, once from the nodes and once from the calls. -/
theorem filter_cacheCalls (scopes : ScopeBuilder) (source : ParsedSource) :
    (cacheCalls scopes.resolvedNames source.tree).filter
        (fun call => !hasExplanatoryComment source call) =
      (walked source.tree).filter (isUncommented source scopes) := by
  rw [cacheCalls_eq, List.filter_filter]
  apply List.filter_congr
  intro node _
  cases node with
  | call info func args keywords => exact Bool.and_comm _ _
  | _ => exact Bool.and_false _

/-- The identity that is looked up is the one the call was given. -/
theorem identityOf_eq (distinct : AST.Distinct source.tree) {call : AST} {identity : CacheIdentity}
    (inside : (call, identity) ∈ cacheIdentities resolve source) :
    identityOf (cacheIdentities resolve source) call = identity := by
  have once : ((cacheIdentities resolve source).map (AST.id ∘ Prod.fst)).Nodup := by
    rw [← List.map_map, cacheIdentities, map_fst_numberIdentities]
    exact (nodup_walked distinct).sublist ((cacheCalls_sublist resolve source.tree).map AST.id)
  have found : ((cacheIdentities resolve source).find? (·.1.id = call.id)).isSome := by
    rw [List.find?_isSome]
    exact ⟨(call, identity), inside, by simp⟩
  obtain ⟨entry, entryFound⟩ := Option.isSome_iff_exists.mp found
  have sameId : entry.1.id = call.id := by simpa using List.find?_some entryFound
  have same := List.inj_on_of_nodup_map once (List.mem_of_find?_eq_some entryFound) inside sameId
  rw [identityOf, entryFound, same]
  rfl

/-- The identities of the calls without comment are different. -/
theorem nodup_identityOf (distinct : AST.Distinct source.tree) (keep : AST → Bool) :
    (((cacheCalls resolve source.tree).filter keep).map
      (identityOf (cacheIdentities resolve source))).Nodup := by
  have looked : (cacheCalls resolve source.tree).map
        (identityOf (cacheIdentities resolve source)) =
      (cacheIdentities resolve source).map Prod.snd := by
    have given : cacheCalls resolve source.tree = (cacheIdentities resolve source).map Prod.fst :=
      (map_fst_numberIdentities ..).symm
    rw [given, List.map_map]
    apply List.map_congr_left
    intro entry inside
    exact identityOf_eq distinct inside
  have all := nodup_numberIdentities (cacheIdentityBase source) ∅ (cacheCalls resolve source.tree)
  rw [← cacheIdentities, ← looked] at all
  exact all.sublist (List.filter_sublist.map _)

/-- The identity of a cached read is its base with its place. -/
theorem mem_cacheIdentities_iff {call : AST} {identity : CacheIdentity} :
    (call, identity) ∈ cacheIdentities resolve source ↔
      ∃ place, StandsAt (cacheIdentityBase source) (cacheCalls resolve source.tree) call place ∧
        identity = (cacheIdentityBase source call, place + 1) := by
  rw [cacheIdentities, mem_numberIdentities_iff]
  have empty (key : List String × Text) :
      (∅ : Counter (List String × Text)).count key = 0 := rfl
  simp only [empty, Nat.zero_add]

/-- A call is allowed if `HEAD` has one with its identity and without comment. -/
theorem count_undocumentedCacheCalls {identity : CacheIdentity} :
    (undocumentedCacheCalls resolve source).count identity ≠ 0 ↔
      ∃ call, (call, identity) ∈ cacheIdentities resolve source ∧
        hasExplanatoryComment source call = false := by
  rw [undocumentedCacheCalls, Counter.count_ofList, ← Nat.pos_iff_ne_zero, Multiset.count_pos,
    Multiset.mem_coe, List.mem_map]
  constructor
  · rintro ⟨⟨call, _⟩, inside, rfl⟩
    obtain ⟨listed, uncommented⟩ := List.mem_filter.mp inside
    exact ⟨call, listed, by simpa using uncommented⟩
  · rintro ⟨call, listed, uncommented⟩
    exact ⟨(call, identity), List.mem_filter.mpr ⟨listed, by simpa using uncommented⟩, rfl⟩

end

/-! ## The walk over what stays -/

/-- The nodes of `ast.walk` for a number of levels. -/
def nodesFrom : Nat → List AST → List AST
  | 0, _ => []
  | depth + 1, level => level ++ nodesFrom depth (level.flatMap AST.children)

/-- The nodes of a walk from a level. -/
theorem map_walkFrom (depth : Nat) (level : List (Option AST × AST)) :
    (AST.walkFrom depth level).map Prod.snd = nodesFrom depth (level.map Prod.snd) := by
  induction depth generalizing level with
  | zero => rfl
  | succ depth inductionHypothesis =>
    rw [AST.walkFrom, nodesFrom, List.map_append, inductionHypothesis]
    congr 2
    simp only [List.map_flatMap, List.map_map, List.flatMap_map, Function.comp_def, List.map_id']

/-- The number of nodes is enough. -/
theorem nodesFrom_eq (depth : Nat) (level : List AST)
    (enough : (AST.preorderAll level).length ≤ depth) :
    nodesFrom depth level = nodesFrom (AST.preorderAll level).length level := by
  induction depth using Nat.strongRecOn generalizing level with
  | ind depth inductionHypothesis =>
    cases level with
    | nil =>
      cases depth with
      | zero => rfl
      | succ depth => exact inductionHypothesis depth (Nat.lt_succ_self _) [] (Nat.zero_le _)
    | cons node rest =>
      have below : (AST.preorderAll ((node :: rest).flatMap AST.children)).length + (rest.length + 1) =
          (AST.preorderAll (node :: rest)).length := by
        rw [AST.preorderAll_eq, AST.preorderAll_eq, List.flatMap_assoc]
        have apart := List.map_append_flatMap_perm (node :: rest) (fun node => node)
          (fun node => node.children.flatMap AST.preorder)
        have whole : (node :: rest).flatMap AST.preorder =
            (node :: rest).flatMap fun node => node :: node.children.flatMap AST.preorder :=
          List.flatMap_congr fun node _ => AST.preorder_eq node
        rw [whole, ← apart.length_eq, List.length_append, List.length_map, List.length_cons,
          Nat.add_comm]
      obtain ⟨own, ownEq⟩ : ∃ own, (AST.preorderAll (node :: rest)).length = own + 1 :=
        ⟨(AST.preorderAll (node :: rest)).length - 1, by omega⟩
      obtain ⟨more, rfl⟩ : ∃ more, depth = more + 1 := ⟨depth - 1, by omega⟩
      rw [ownEq, nodesFrom, nodesFrom, inductionHypothesis more (by omega) _ (by omega),
        inductionHypothesis own (by omega) _ (by omega)]

/-- With enough depth the walk is the one by levels. -/
theorem walked_eq (tree : List AST) (depth : Nat)
    (enough : (AST.preorderAll tree).length ≤ depth) : walked tree = nodesFrom depth tree := by
  have whole : (tree.map fun node => ((none : Option AST), node)).map Prod.snd = tree := by
    rw [List.map_map]
    exact List.map_id tree
  rw [walked, AST.walk, map_walkFrom, whole, nodesFrom_eq depth tree enough]

/-- The index comes from `HEAD` by inserting statements. `origin` gives the node of `HEAD` that a
node of the index is, and nothing for the nodes of an inserted statement. Statements that are
inserted change neither the definitions around a call nor its expression. -/
structure Insertion (head index : ParsedSource) (origin : AST → Option AST) : Prop where
  roots : index.tree.filterMap origin = head.tree
  below : ∀ node ∈ walked index.tree, ∀ old, origin node = some old →
    node.children.filterMap origin = old.children
  whole : ∀ node ∈ walked index.tree, origin node = none →
    ∀ child ∈ node.children, origin child = none
  statements : ∀ node ∈ index.tree, origin node = none → isStatement node = true
  nested : ∀ node ∈ walked index.tree, origin node ≠ none →
    ∀ child ∈ node.children, origin child = none → isStatement child = true
  base : ∀ info func args keywords, .call info func args keywords ∈ walked index.tree →
    ∀ old, origin (.call info func args keywords) = some old →
      cacheIdentityBase index (.call info func args keywords) = cacheIdentityBase head old

section

variable {head index : ParsedSource} {origin : AST → Option AST}

/-- An origin of the nodes carries the walk over to the old tree. -/
theorem filterMap_nodesFrom (depth : Nat) (level : List AST)
    (below : ∀ node ∈ nodesFrom depth level, ∀ old, origin node = some old →
      node.children.filterMap origin = old.children)
    (whole : ∀ node ∈ nodesFrom depth level, origin node = none →
      ∀ child ∈ node.children, origin child = none) :
    (nodesFrom depth level).filterMap origin = nodesFrom depth (level.filterMap origin) := by
  induction depth generalizing level with
  | zero => rfl
  | succ depth inductionHypothesis =>
    have next : (level.flatMap AST.children).filterMap origin =
        (level.filterMap origin).flatMap AST.children := by
      have belowHere : ∀ node ∈ level, ∀ old, origin node = some old →
          node.children.filterMap origin = old.children :=
        fun node inside => below node (List.mem_append_left _ inside)
      have wholeHere : ∀ node ∈ level, origin node = none →
          ∀ child ∈ node.children, origin child = none :=
        fun node inside => whole node (List.mem_append_left _ inside)
      clear below whole
      induction level with
      | nil => rfl
      | cons node rest restHypothesis =>
        have later := restHypothesis
          (fun other inside => belowHere other (List.mem_cons_of_mem _ inside))
          (fun other inside => wholeHere other (List.mem_cons_of_mem _ inside))
        rw [List.flatMap_cons, List.filterMap_append, later]
        cases found : origin node with
        | none =>
          rw [List.filterMap_cons_none found,
            List.filterMap_eq_nil_iff.mpr (wholeHere node List.mem_cons_self found),
            List.nil_append]
        | some old =>
          rw [List.filterMap_cons_some found, List.flatMap_cons,
            belowHere node List.mem_cons_self old found]
    rw [nodesFrom, nodesFrom, List.filterMap_append, ← next, inductionHypothesis]
    · exact fun node inside => below node (List.mem_append_right _ inside)
    · exact fun node inside => whole node (List.mem_append_right _ inside)

/-- `ast.walk` meets what stays in the same order. -/
theorem Insertion.filterMap_walked (insertion : Insertion head index origin) :
    (walked index.tree).filterMap origin = walked head.tree := by
  have below := insertion.below
  have whole := insertion.whole
  have enough := Nat.le_max_left (AST.preorderAll index.tree).length
    (AST.preorderAll head.tree).length
  rw [walked_eq index.tree _ enough] at below whole ⊢
  rw [filterMap_nodesFrom _ _ below whole, insertion.roots,
    walked_eq head.tree _ (Nat.le_max_right ..)]

end

/-! ## The result -/

section

variable (filePath : Path) (head index : ParsedSource) (headScopes scopes : ScopeBuilder)
  (added : AddedLines) (knownResources : List (List String)) (origin : AST → Option AST)

/-- The check reports no cache comment. -/
def CacheClean : Prop :=
  ∀ violation ∈ checkResourceClients filePath index scopes added (some (head, headScopes))
      knownResources,
    violation.message ≠ FsText.ofString cacheCommentMessage

/-- `HEAD` has a call without comment at a place among the calls with the same definitions around
and the same expression. -/
def HasUncommented (base : List String × Text) (place : Nat) : Prop :=
  ∃ old, StandsAt (cacheIdentityBase head) (cacheCalls headScopes.resolvedNames head.tree) old
      place ∧
    cacheIdentityBase head old = base ∧ hasExplanatoryComment head old = false

/-- Each call of the index without comment finds one at its place in `HEAD`. -/
def Matched : Prop :=
  ∀ call place,
    StandsAt (cacheIdentityBase index) (cacheCalls scopes.resolvedNames index.tree) call place →
    hasExplanatoryComment index call = false →
      HasUncommented head headScopes (cacheIdentityBase index call) place

/-- How many of the calls are inserted and have the base of a call. -/
def insertedLike (calls : List AST) (call : AST) : Nat :=
  calls.countP fun other => decide (origin other = none ∧
    cacheIdentityBase index other = cacheIdentityBase index call)

/-- Each call of `HEAD` without comment finds one in `HEAD` as many places further on as there are
inserted calls with its base before it. -/
def MovedMatched : Prop :=
  ∀ before call after old place,
    cacheCalls scopes.resolvedNames index.tree = before ++ call :: after →
    origin call = some old → hasExplanatoryComment head old = false →
    StandsAt (cacheIdentityBase head) (cacheCalls headScopes.resolvedNames head.tree) old place →
      HasUncommented head headScopes (cacheIdentityBase head old)
        (place + insertedLike index origin before call)

/-- The insertion changes neither what calls resolve to nor their comments. -/
structure LeavesAlone : Prop where
  resolved : ∀ node ∈ walked index.tree, ∀ old, origin node = some old →
    isCacheCall headScopes.resolvedNames old = isCacheCall scopes.resolvedNames node
  comments : ∀ node ∈ walked index.tree, ∀ old, origin node = some old →
    isCacheCall scopes.resolvedNames node = true →
      hasExplanatoryComment head old = hasExplanatoryComment index node

variable {filePath head index headScopes scopes added knownResources origin}

/-- If every call without comment lies on no added line, the check asks for each of them whether
`HEAD` has a call without comment at its place. -/
theorem cacheClean_iff_places (distinct : AST.Distinct index.tree)
    (unchanged : ∀ call ∈ cacheCalls scopes.resolvedNames index.tree,
      hasExplanatoryComment index call = false → intersects added call = false) :
    CacheClean filePath head index headScopes scopes added knownResources ↔
      Matched head index headScopes scopes := by
  have loop := cacheClean_iff filePath index scopes added
    (knownResources ++ localResourceClasses scopes.resolvedNames index.tree knownResources)
    (cacheIdentities scopes.resolvedNames index)
    (undocumentedCacheCalls headScopes.resolvedNames head) (walked index.tree)
    (by
      rw [← filter_cacheCalls]
      exact nodup_identityOf distinct _)
  have sorted : CacheClean filePath head index headScopes scopes added knownResources ↔
      ∀ node ∈ walked index.tree, isUncommented index scopes node = true →
        intersects added node = false ∧
          (undocumentedCacheCalls headScopes.resolvedNames head).count
            (identityOf (cacheIdentities scopes.resolvedNames index) node) ≠ 0 := by
    rw [← loop]
    unfold CacheClean checkResourceClients
    simp only [List.mem_mergeSort]
  rw [sorted]
  have listed (call : AST) : call ∈ walked index.tree ∧ isUncommented index scopes call = true ↔
      call ∈ cacheCalls scopes.resolvedNames index.tree ∧
        hasExplanatoryComment index call = false := by
    rw [← List.mem_filter, ← filter_cacheCalls, List.mem_filter, Bool.not_eq_true']
  constructor
  · intro clean call place stands uncommented
    obtain ⟨before, after, split, -⟩ := id stands
    have inside : call ∈ cacheCalls scopes.resolvedNames index.tree := by
      rw [split]
      exact List.mem_append_right _ List.mem_cons_self
    obtain ⟨walkedInside, uncommentedNode⟩ := (listed call).mpr ⟨inside, uncommented⟩
    obtain ⟨-, allowed⟩ := clean call walkedInside uncommentedNode
    rw [identityOf_eq distinct (mem_cacheIdentities_iff.mpr ⟨place, stands, rfl⟩),
      count_undocumentedCacheCalls] at allowed
    obtain ⟨old, oldListed, oldUncommented⟩ := allowed
    obtain ⟨oldPlace, oldStands, same⟩ := mem_cacheIdentities_iff.mp oldListed
    obtain ⟨sameBase, samePlace⟩ := Prod.mk.inj same
    obtain rfl : place = oldPlace := Nat.succ.inj samePlace
    exact ⟨old, oldStands, sameBase.symm, oldUncommented⟩
  · intro found node walkedInside uncommentedNode
    obtain ⟨inside, uncommented⟩ := (listed node).mp ⟨walkedInside, uncommentedNode⟩
    refine ⟨unchanged node inside uncommented, ?_⟩
    obtain ⟨before, after, split⟩ := List.append_of_mem inside
    have stands : StandsAt (cacheIdentityBase index) (cacheCalls scopes.resolvedNames index.tree)
        node _ := ⟨before, after, split, rfl⟩
    obtain ⟨old, oldStands, sameBase, oldUncommented⟩ := found node _ stands uncommented
    rw [identityOf_eq distinct (mem_cacheIdentities_iff.mpr ⟨_, stands, rfl⟩),
      count_undocumentedCacheCalls]
    exact ⟨old, mem_cacheIdentities_iff.mpr ⟨_, oldStands, by rw [sameBase]⟩, oldUncommented⟩

/-- The calls of `HEAD` are those calls of the index that stay. -/
theorem filterMap_cacheCalls (insertion : Insertion head index origin)
    (alone : LeavesAlone head index headScopes scopes origin) :
    (cacheCalls scopes.resolvedNames index.tree).filterMap origin =
      cacheCalls headScopes.resolvedNames head.tree := by
  rw [cacheCalls_eq, cacheCalls_eq, ← insertion.filterMap_walked]
  have resolved := alone.resolved
  generalize walked index.tree = nodes at resolved
  induction nodes with
  | nil => rfl
  | cons node rest inductionHypothesis =>
    have later := inductionHypothesis
      fun other inside => resolved other (List.mem_cons_of_mem _ inside)
    cases found : origin node with
    | none =>
      rw [List.filterMap_cons_none found, ← later, List.filter_cons]
      split
      · exact List.filterMap_cons_none found
      · rfl
    | some old =>
      have same := resolved node List.mem_cons_self old found
      rw [List.filterMap_cons_some found, List.filter_cons, List.filter_cons, same, ← later]
      split
      · exact List.filterMap_cons_some found
      · rfl

/-- A call stands at one place. -/
theorem standsAt_unique {base : AST → List String × Text} {calls : List AST} (once : calls.Nodup)
    {call : AST} {first second : Nat} (atFirst : StandsAt base calls call first)
    (atSecond : StandsAt base calls call second) : first = second := by
  obtain ⟨before, after, rfl, rfl⟩ := atFirst
  obtain ⟨otherBefore, otherAfter, same, rfl⟩ := atSecond
  have fresh := (List.nodup_middle.mp once)
  rw [List.nodup_cons, List.mem_append, not_or] at fresh
  obtain ⟨rfl, -, -⟩ := (List.append_cons_inj_of_notMem fresh.1.1 fresh.1.2).mp same
  rfl

/-- A call that stays keeps its base. -/
theorem Insertion.base_eq (insertion : Insertion head index origin) {call old : AST}
    (inside : call ∈ cacheCalls scopes.resolvedNames index.tree)
    (found : origin call = some old) :
    cacheIdentityBase index call = cacheIdentityBase head old := by
  rw [cacheCalls_eq] at inside
  obtain ⟨walkedInside, isCall⟩ := List.mem_filter.mp inside
  cases call with
  | call info func args keywords => exact insertion.base _ _ _ _ walkedInside old found
  | _ => cases isCall

/-- The place of a call that stays: its place in `HEAD`, and the inserted calls before it. -/
theorem place_eq (insertion : Insertion head index origin) {before : List AST} {call old : AST}
    (inside : ∀ other ∈ before, other ∈ cacheCalls scopes.resolvedNames index.tree)
    (sameBase : cacheIdentityBase index call = cacheIdentityBase head old) :
    before.countP (fun other =>
        decide (cacheIdentityBase index other = cacheIdentityBase index call)) =
      (before.filterMap origin).countP (fun other =>
        decide (cacheIdentityBase head other = cacheIdentityBase head old)) +
      insertedLike index origin before call := by
  unfold insertedLike
  induction before with
  | nil => rfl
  | cons other rest inductionHypothesis =>
    have later := inductionHypothesis fun member below => inside member (List.mem_cons_of_mem _ below)
    cases found : origin other with
    | none =>
      rw [List.filterMap_cons_none found, List.countP_cons, List.countP_cons, later, Nat.add_assoc]
      simp only [found, true_and]
    | some old' =>
      have kept := insertion.base_eq (inside other List.mem_cons_self) found
      rw [List.filterMap_cons_some found, List.countP_cons, List.countP_cons, List.countP_cons,
        later]
      simp only [found, kept, sameBase, reduceCtorEq, false_and, decide_false, Bool.false_eq_true,
        if_false]
      omega

/-- Where an insertion leaves the calls alone, they are matched when the moved ones are. -/
theorem matched_iff_movedMatched (insertion : Insertion head index origin)
    (distinct : AST.Distinct index.tree) (headDistinct : AST.Distinct head.tree)
    (alone : LeavesAlone head index headScopes scopes origin)
    (commented : ∀ call ∈ cacheCalls scopes.resolvedNames index.tree, origin call = none →
      hasExplanatoryComment index call = true) :
    Matched head index headScopes scopes ↔ MovedMatched head index headScopes scopes origin := by
  have headOnce := nodup_cacheCalls headScopes.resolvedNames headDistinct
  have once := nodup_cacheCalls scopes.resolvedNames distinct
  have calls := filterMap_cacheCalls insertion alone
  -- what a call that stays keeps, and its place
  have kept {before after : List AST} {call old : AST}
      (split : cacheCalls scopes.resolvedNames index.tree = before ++ call :: after)
      (found : origin call = some old) :
      cacheIdentityBase index call = cacheIdentityBase head old ∧
        hasExplanatoryComment head old = hasExplanatoryComment index call ∧
        ∃ place, StandsAt (cacheIdentityBase head)
            (cacheCalls headScopes.resolvedNames head.tree) old place ∧
          StandsAt (cacheIdentityBase index) (cacheCalls scopes.resolvedNames index.tree) call
            (place + insertedLike index origin before call) := by
    have inside : call ∈ cacheCalls scopes.resolvedNames index.tree := by
      rw [split]
      exact List.mem_append_right _ List.mem_cons_self
    have sameBase := insertion.base_eq inside found
    obtain ⟨walkedInside, isCall⟩ := List.mem_filter.mp (cacheCalls_eq .. ▸ inside)
    refine ⟨sameBase, alone.comments call walkedInside old found isCall,
      (before.filterMap origin).countP (fun other =>
        decide (cacheIdentityBase head other = cacheIdentityBase head old)), ?_, ?_⟩
    · refine ⟨before.filterMap origin, after.filterMap origin, ?_, rfl⟩
      rw [← calls, split, List.filterMap_append, List.filterMap_cons_some found]
    · have inCalls : ∀ other ∈ before, other ∈ cacheCalls scopes.resolvedNames index.tree := by
        intro other member
        rw [split]
        exact List.mem_append_left _ member
      exact ⟨before, after, split, place_eq insertion inCalls sameBase⟩
  constructor
  · intro matched before call after old place split found uncommented stands
    obtain ⟨sameBase, sameComment, oldPlace, oldStands, moved⟩ := kept split found
    rw [standsAt_unique headOnce stands oldStands, ← sameBase]
    exact matched call _ moved (sameComment ▸ uncommented)
  · intro matched call place stands uncommented
    obtain ⟨before, after, split, -⟩ := id stands
    have inside : call ∈ cacheCalls scopes.resolvedNames index.tree := by
      rw [split]
      exact List.mem_append_right _ List.mem_cons_self
    cases found : origin call with
    | none =>
      rw [commented call inside found] at uncommented
      cases uncommented
    | some old =>
      obtain ⟨sameBase, sameComment, oldPlace, oldStands, moved⟩ := kept split found
      rw [standsAt_unique once stands moved, sameBase]
      exact matched before call after old oldPlace split found (sameComment.trans uncommented)
        oldStands

/-- Statements are inserted; the calls in them have comments, and the other calls lie on no added
line. The check reports no cache comment if and only if each call without comment finds a call
without comment at its place in `HEAD`. If the insertion leaves the other calls alone, this is the
place that the call had in `HEAD`, moved by the inserted calls with the same definitions around
and the same expression that come before it.

Proof: the identities of a source are different and a place is what numbers a call; `ast.walk`
meets what stays in the same order. -/
theorem insertion_tolerated_iff (insertion : Insertion head index origin)
    (distinct : AST.Distinct index.tree) (headDistinct : AST.Distinct head.tree)
    (commented : ∀ call ∈ cacheCalls scopes.resolvedNames index.tree, origin call = none →
      hasExplanatoryComment index call = true)
    (unchanged : ∀ call ∈ cacheCalls scopes.resolvedNames index.tree, origin call ≠ none →
      intersects added call = false) :
    (CacheClean filePath head index headScopes scopes added knownResources ↔
      Matched head index headScopes scopes) ∧
    (LeavesAlone head index headScopes scopes origin →
      (CacheClean filePath head index headScopes scopes added knownResources ↔
        MovedMatched head index headScopes scopes origin)) := by
  have general : CacheClean filePath head index headScopes scopes added knownResources ↔
      Matched head index headScopes scopes := by
    apply cacheClean_iff_places distinct
    intro call inside uncommented
    apply unchanged call inside
    intro inserted
    rw [commented call inside inserted] at uncommented
    cases uncommented
  exact ⟨general, fun alone =>
    general.trans (matched_iff_movedMatched insertion distinct headDistinct alone commented)⟩

end

/-! ## A statement with the same call -/

/-- `from utilities.cluster import cache_admin_client`. -/
def cacheImport : AST :=
  .importFrom ⟨0, 1, 1⟩ (some "utilities.cluster") [⟨"cache_admin_client", none⟩] 0

/-- `name = cache_admin_client()` on a line. -/
def cacheAssignment (id line : Nat) (name : String) : AST :=
  .assign ⟨id, line, line⟩ [.name ⟨id + 1, line, line⟩ name .store]
    (.call ⟨id + 2, line, line⟩ (.name ⟨id + 3, line, line⟩ "cache_admin_client" .load) [] [])

/-- The dump of the calls in these statements. -/
def cacheDump : AST → Text
  | .call .. => "Call(func=Name(id='cache_admin_client', ctx=Load()))".toList
  | _ => []

/-- The import and one call without comment. -/
def callHead : ParsedSource where
  tree := [cacheImport, cacheAssignment 1 2 "client"]
  tokens := []
  colOffset := fun _ => 0
  dump := cacheDump

/-- A statement with a commented call is inserted before the other one. -/
def callIndex : ParsedSource where
  tree := [cacheImport, cacheAssignment 5 3 "admin", cacheAssignment 1 4 "client"]
  tokens := [⟨.comment, "# for the setup".toList, (2, 0), (2, 15), "# for the setup\n".toList⟩]
  colOffset := fun _ => 0
  dump := cacheDump

/-- The node of `HEAD` with the same identity. -/
def callOrigin (node : AST) : Option AST :=
  (AST.preorderAll callHead.tree).find? fun old => old.id = node.id

/-- A file. -/
def callPath : Path := Path.ofText "utilities/example.py".toList

/-- The nodes of the index, in the order of `ast.walk`. -/
theorem walked_callIndex : walked callIndex.tree =
    [cacheImport, cacheAssignment 5 3 "admin", cacheAssignment 1 4 "client"] ++
      ((cacheAssignment 5 3 "admin").children ++ (cacheAssignment 1 4 "client").children) ++
      [.name ⟨8, 3, 3⟩ "cache_admin_client" .load, .name ⟨4, 4, 4⟩ "cache_admin_client" .load] :=
  rfl

/-- The sample staged tree is an insertion into the one of HEAD. -/
theorem insertion_callIndex : Insertion callHead callIndex callOrigin := by
  have nodes := walked_callIndex
  simp only [cacheAssignment, AST.children, List.cons_append, List.nil_append] at nodes
  -- a node is the one of `HEAD`, or new
  have kept {property : AST → Prop} {node stays : AST} (found : callOrigin node = some stays)
      (holds : property stays) : ∀ old, callOrigin node = some old → property old := by
    intro old again
    rwa [← Option.some.inj (found.symm.trans again)]
  have added {property : AST → Prop} {node : AST} (found : callOrigin node = none) :
      ∀ old, callOrigin node = some old → property old :=
    fun old again => absurd (found.symm.trans again) (Option.some_ne_none old).symm
  constructor
  · rfl
  · rw [nodes]
    simp only [List.forall_mem_cons]
    refine ⟨kept rfl rfl, added rfl, kept rfl rfl, added rfl, added rfl, kept rfl rfl, kept rfl rfl,
      added rfl, kept rfl rfl, List.forall_mem_nil _⟩
  · rw [nodes]
    decide
  · decide
  · rw [nodes]
    decide
  · have every : ∀ node ∈ walked callIndex.tree, ∀ old, callOrigin node = some old →
        (∃ info func args keywords, node = .call info func args keywords) →
          cacheIdentityBase callIndex node = cacheIdentityBase callHead old := by
      rw [nodes]
      simp only [List.forall_mem_cons]
      refine ⟨kept rfl (by simp [cacheImport]), added rfl, kept rfl (by simp), added rfl, added rfl,
        kept rfl (by simp), kept rfl fun _ => ?_, added rfl, kept rfl (by simp),
        List.forall_mem_nil _⟩
      decide
    exact fun info func args keywords inside old found =>
      every _ inside old found ⟨info, func, args, keywords, rfl⟩

/-- The call behind the inserted one has no comment in both versions, and lies on no added line. -/
theorem inserted_call_renumbers :
    Insertion callHead callIndex callOrigin ∧
    (∀ call ∈ cacheCalls (fileScopes callPath callIndex.tree).resolvedNames callIndex.tree,
      callOrigin call = none → hasExplanatoryComment callIndex call = true) ∧
    (∀ call ∈ cacheCalls (fileScopes callPath callIndex.tree).resolvedNames callIndex.tree,
      callOrigin call ≠ none → intersects (some [2, 3]) call = false) ∧
    ¬CacheClean callPath callHead callIndex (fileScopes callPath callHead.tree)
      (fileScopes callPath callIndex.tree) (some [2, 3]) [] := by
  refine ⟨insertion_callIndex, by decide +kernel, by decide +kernel, ?_⟩
  unfold CacheClean
  decide +kernel

/-- The sample insertion, by the general theorem. -/
theorem callIndex_tolerated_iff :
    (CacheClean callPath callHead callIndex (fileScopes callPath callHead.tree)
        (fileScopes callPath callIndex.tree) (some [2, 3]) [] ↔
      Matched callHead callIndex (fileScopes callPath callHead.tree)
        (fileScopes callPath callIndex.tree)) ∧
    (LeavesAlone callHead callIndex (fileScopes callPath callHead.tree)
        (fileScopes callPath callIndex.tree) callOrigin →
      (CacheClean callPath callHead callIndex (fileScopes callPath callHead.tree)
          (fileScopes callPath callIndex.tree) (some [2, 3]) [] ↔
        MovedMatched callHead callIndex (fileScopes callPath callHead.tree)
          (fileScopes callPath callIndex.tree) callOrigin)) :=
  insertion_tolerated_iff insertion_callIndex (by decide) (by decide) (by decide +kernel)
    (by decide +kernel)

end VirtTestTools.Policy
