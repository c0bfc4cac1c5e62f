import Mathlib.Data.List.Lex
import Mathlib.Data.Nat.Basic
import VirtTestTools.Closure
import VirtTestTools.Counter
import VirtTestTools.Policy.ScopeStatements
import VirtTestTools.Policy.SkipMarkers

/-!
# Clients of resources

`check_resource_clients.py` asks for an explicit client at each construction of a
resource and for a comment at each call of `cache_admin_client`. The second rule is a
ratchet: a call without comment that lies on no added line is allowed as often as the
version in `HEAD` has the same call without comment.

Comments come from the tokens of the source. Tokens, column offsets and the dump of a
call are not part of the tree; they belong to the parsed source.
-/

namespace VirtTestTools.Policy

open Text
open AST (decorators)

/-- The types of tokens that are told apart. -/
inductive TokenType
  | op
  | comment
  | other
deriving DecidableEq

/-- `TokenInfo`. Positions are line and column. -/
structure TokenInfo where
  type : TokenType
  string : Text
  start : Nat × Nat
  stop : Nat × Nat
  line : Text

/-- A parsed source: the statements of the module, its tokens, and of each node the column offset
and `ast.dump`. -/
structure ParsedSource where
  tree : List AST
  tokens : List TokenInfo
  colOffset : AST → Nat
  dump : AST → Text

/-- `_SourceComment`. -/
structure SourceComment where
  line : Nat
  column : Nat
  text : Text
  commentOnly : Bool

/-- The comments of `_source_layout`. -/
def sourceComments (tokens : List TokenInfo) : List SourceComment :=
  (tokens.filter (·.type = .comment)).map fun token =>
    { line := token.start.1
      column := token.start.2
      text := strip (token.string.dropWhile (· = '#'))
      commentOnly := (strip (token.line.take token.start.2)).isEmpty }

/-- `_parents`. The module itself is no node of the tree, so its statements have no parent. -/
def parentsOf (tree : List AST) : Dict Nat AST :=
  Dict.empty.update ((AST.walk tree).filterMap fun entry =>
    entry.1.map fun parent => (entry.2.id, parent))

/-- The nodes around a node, inner ones first. The fuel bounds their number. -/
def ancestorsFrom (parents : Dict Nat AST) : Nat → Nat → List AST
  | 0, _ => []
  | fuel + 1, id =>
    match parents.get id with
    | none => []
    | some parent => parent :: ancestorsFrom parents fuel parent.id

/-- The nodes around a node of a tree. -/
def ancestors (tree : List AST) (node : AST) : List AST :=
  ancestorsFrom (parentsOf tree) (walked tree).length node.id

/-- `_containing_statement`. -/
def containingStatement (tree : List AST) (call : AST) : AST :=
  ((ancestors tree call).find? isStatement).getD call

/-- `body`, where it is a list. -/
def bodyOf : AST → Option (List AST)
  | .functionDef _ _ _ _ body .. | .classDef _ _ _ _ body _ | .ifStmt _ _ body _
  | .forStmt _ _ _ _ body _ | .whileStmt _ _ body _ | .tryStmt _ _ body .. => some body
  | .other _ .withStmt children | .other _ .asyncWith children => some (children.filter isStatement)
  | _ => none

/-- The search for the colon that ends the header of a statement: its line, and the column behind
it if the body begins on that line. -/
def headerEnd (position : Nat × Nat) (body : List AST) : Int → List TokenInfo →
    Option (Nat × Option Nat)
  | _, [] => none
  | depth, token :: rest =>
    if token.start.1 < position.1 ∨ token.start.1 = position.1 ∧ token.start.2 < position.2 then
      headerEnd position body depth rest
    else if token.type = .op then
      if contains token.string ['(', '[', '{'] then headerEnd position body (depth + 1) rest
      else if contains token.string [')', ']', '}'] then headerEnd position body (depth - 1) rest
      else if token.string = [':'] ∧ depth = 0 then
        some (token.start.1,
          if body.any (·.info.lineno = token.start.1) then some token.stop.2 else none)
      else headerEnd position body depth rest
    else headerEnd position body depth rest

/-- `_statement_header`: the first and the last line of the header, and the column that ends it. -/
def statementHeader (source : ParsedSource) (statement : AST) : Nat × Nat × Option Nat :=
  let start := ((decorators statement).map (·.info.lineno)).min?.getD statement.info.lineno
  match bodyOf statement with
  | none => (start, statement.info.endLineno, none)
  | some body =>
    match headerEnd (statement.info.lineno, source.colOffset statement) body 0 source.tokens with
    | some (line, column) => (start, line, column)
    | none => (start, statement.info.lineno, none)

/-- `_has_explanatory_comment`. -/
def hasExplanatoryComment (source : ParsedSource) (call : AST) : Bool :=
  let (start, stop, column) := statementHeader source (containingStatement source.tree call)
  (sourceComments source.tokens).any fun comment =>
    !comment.text.isEmpty &&
      ((comment.commentOnly && comment.line + 1 = start) ||
        (start ≤ comment.line && comment.line ≤ stop &&
          (comment.line < stop || column.all (comment.column ≤ ·))))

/-- `_has_explicit_client`. -/
def hasExplicitClient (keywords : List AST) : Bool :=
  keywords.any fun
    | .keyword _ (some "client") (.constant _ .none) => false
    | .keyword _ (some "client") _ => true
    | _ => false

/-- `_resource_call_message`. -/
def resourceCallMessage (keywords : List AST) (resolvedNames resources : List (List String)) :
    Option String :=
  if resolvedNames.any (resources.contains ·) && !hasExplicitClient keywords then
    some "resource-clients: pass an existing non-None client= to this Resource constructor"
  else if (resolvedNames.any fun name =>
      name.getLast? = some "get" && resources.contains name.dropLast) &&
      !hasExplicitClient keywords then
    some "resource-clients: pass an existing non-None client= to this Resource class .get()"
  else none

/-- `_CACHE_ADMIN_CLIENT`. -/
def cacheAdminClient : List String := ["utilities", "cluster", "cache_admin_client"]

/-- `_CACHE_COMMENT_MESSAGE`. -/
def cacheCommentMessage : String :=
  "resource-clients/cache-admin-client: add an immediate or inline comment explaining why " ++
    "cache_admin_client() is required at this call site"

/-- `_CacheIdentity`: the names of the definitions around a call, its dump, and which of the calls
with these it is. -/
abbrev CacheIdentity := (List String × Text) × Nat

/-- The name of a definition. -/
def definitionName : AST → Option String
  | .classDef _ name .. | .functionDef _ _ name .. => some name
  | _ => none

/-- `_cache_identity_base`. -/
def cacheIdentityBase (source : ParsedSource) (call : AST) : List String × Text :=
  (((ancestors source.tree call).filterMap definitionName).reverse, source.dump call)

/-- The calls of a module in the order of `ast.walk`, with the called function. -/
def calls (tree : List AST) : List (AST × AST) :=
  (walked tree).filterMap fun node =>
    match node with
    | .call _ func .. => some (node, func)
    | _ => none

section

variable (resolve : AST → List (List String))

/-- The calls of `cache_admin_client`. -/
def cacheCalls (tree : List AST) : List AST :=
  ((calls tree).filter fun call => (resolve call.2).contains cacheAdminClient).map Prod.fst

/-- The loop of `_cache_identities`: each base counts its occurrences. -/
def numberIdentities (base : AST → List String × Text) :
    Counter (List String × Text) → List AST → List (AST × CacheIdentity)
  | _, [] => []
  | occurrences, call :: rest =>
    let occurrences := occurrences.add (base call)
    (call, base call, occurrences.count (base call)) :: numberIdentities base occurrences rest

/-- `_cache_identities`. -/
def cacheIdentities (source : ParsedSource) : List (AST × CacheIdentity) :=
  numberIdentities (cacheIdentityBase source) ∅ (cacheCalls resolve source.tree)

/-- `_undocumented_cache_calls`. -/
def undocumentedCacheCalls (source : ParsedSource) : Counter CacheIdentity :=
  Counter.ofList (((cacheIdentities resolve source).filter fun entry =>
    !hasExplanatoryComment source entry.1).map Prod.snd)

/-- `cache_identities[node]`. The nodes asked for are those that have an identity. -/
def identityOf (identities : List (AST × CacheIdentity)) (call : AST) : CacheIdentity :=
  ((identities.find? (·.1.id = call.id)).map Prod.snd).getD (([], []), 0)

/-- One statement in a turn of the loop of `_local_resource_classes`. -/
def addLocal (resources known : List (List String)) (statement : AST) : List (List String) :=
  match statement with
  | .classDef _ name bases .. =>
    if known.contains ["<local>", name] then known
    else if bases.any fun base => (resolve base).any (resources ++ known).contains then
      known ++ [["<local>", name]]
    else known
  | _ => known

/-- One turn of the loop over the statements of the module. -/
def localPass (tree : List AST) (resources known : List (List String)) : List (List String) :=
  (AST.scopeStatements tree).foldl (addLocal resolve resources) known

/-- `_local_resource_classes`. Each turn but the last adds a class. -/
def localResourceClasses (tree : List AST) (resources : List (List String)) : List (List String) :=
  Closure.close (localPass resolve tree resources) ((AST.scopeStatements tree).length + 1) []

end

/-- The order by line and message. -/
def byLineAndMessage (left right : PolicyViolation) : Bool :=
  decide (left.lineNumber.getD 0 < right.lineNumber.getD 0 ∨
    left.lineNumber.getD 0 = right.lineNumber.getD 0 ∧ left.message.codes ≤ right.message.codes)

section

variable (filePath : Path) (source : ParsedSource) (scopes : ScopeBuilder) (added : AddedLines)
  (resources : List (List String)) (identities : List (AST × CacheIdentity))

/-- The first rule at a call. -/
def checkResourceCall (node func : AST) (keywords : List AST) : List PolicyViolation :=
  if scopes.nodeOrDependencyIntersects added node func then
    (resourceCallMessage keywords (scopes.resolvedNames func) resources).toList.map
      (violationAt filePath node)
  else []

/-- Whether a call of `cache_admin_client` has no comment that explains it. -/
def isUndocumented (node func : AST) : Bool :=
  (scopes.resolvedNames func).contains cacheAdminClient && !hasExplanatoryComment source node

/-- The loop of `check_resource_clients` over the nodes. A call on no added line uses up one of the
undocumented calls of `HEAD`. -/
def checkResourceCalls : Counter CacheIdentity → List AST → List PolicyViolation
  | _, [] => []
  | legacy, node :: rest =>
    match node with
    | .call _ func _ keywords =>
      checkResourceCall filePath scopes added resources node func keywords ++
        if isUndocumented source scopes node func then
          let identity := identityOf identities node
          if !intersects added node && legacy.count identity ≠ 0 then
            checkResourceCalls (legacy.take identity) rest
          else violationAt filePath node cacheCommentMessage :: checkResourceCalls legacy rest
        else checkResourceCalls legacy rest
    | _ => checkResourceCalls legacy rest

end

/-- `check_resource_clients`, as `check_policy.py` calls it: the resource classes are given, and
names are resolved by the analysis of the source and of the one in `HEAD`. -/
def checkResourceClients (filePath : Path) (source : ParsedSource) (scopes : ScopeBuilder)
    (added : AddedLines) (head : Option (ParsedSource × ScopeBuilder))
    (knownResources : List (List String)) : List PolicyViolation :=
  let resources := knownResources ++
    localResourceClasses scopes.resolvedNames source.tree knownResources
  let legacy :=
    match head with
    | none => ∅
    | some (headSource, headScopes) =>
      undocumentedCacheCalls headScopes.resolvedNames headSource
  (checkResourceCalls filePath source scopes added resources
    (cacheIdentities scopes.resolvedNames source) legacy (walked source.tree)).mergeSort
      byLineAndMessage

/-! ## The local resource classes are closed -/

section

variable (resolve : AST → List (List String)) (resources : List (List String))

/-- The local name of a class. -/
def localName : AST → Option (List String)
  | .classDef _ name .. => some ["<local>", name]
  | _ => none

/-- What is collected are different local names of classes of the module. -/
def LocalNames (statements : List AST) (known : List (List String)) : Prop :=
  known.Nodup ∧ known ⊆ statements.filterMap localName

/-- A statement adds at most the local name of its class. -/
theorem addLocal_cases (known : List (List String)) (statement : AST) :
    addLocal resolve resources known statement = known ∨
      ∃ name, localName statement = some name ∧ name ∉ known ∧
        addLocal resolve resources known statement = known ++ [name] := by
  unfold addLocal
  split
  · split
    · exact Or.inl rfl
    · rename_i new
      split
      · refine Or.inr ⟨_, rfl, ?_, rfl⟩
        simpa using new
      · exact Or.inl rfl
  · exact Or.inl rfl

/-- A statement of the module keeps it, -/
theorem localNames_addLocal (statements : List AST) (known : List (List String)) (statement : AST)
    (inside : statement ∈ statements) (start : LocalNames statements known) :
    LocalNames statements (addLocal resolve resources known statement) := by
  obtain same | ⟨name, isLocal, new, added⟩ := addLocal_cases resolve resources known statement
  · rw [same]
    exact start
  · rw [added]
    refine ⟨?_, ?_⟩
    · rw [← List.concat_eq_append]
      exact start.1.concat new
    · intro other here
      obtain isKnown | isName := List.mem_append.mp here
      · exact start.2 isKnown
      · rw [List.mem_singleton.mp isName]
        exact List.mem_filterMap.mpr ⟨statement, inside, isLocal⟩

/-- A local class is added behind those that are known. -/
theorem prefix_addLocal (known : List (List String)) (statement : AST) :
    known <+: addLocal resolve resources known statement := by
  obtain same | ⟨name, -, -, added⟩ := addLocal_cases resolve resources known statement
  · simp only [same, List.prefix_rfl]
  · rw [added]
    exact List.prefix_append known [name]

/-- and a turn extends what is collected by local names. -/
theorem foldl_addLocal (statements : List AST) (known : List (List String))
    (start : LocalNames statements known) :
    LocalNames statements (statements.foldl (addLocal resolve resources) known) ∧
      known <+: statements.foldl (addLocal resolve resources) known := by
  apply List.foldlRecOn (motive := fun current => LocalNames statements current ∧ known <+: current)
  · exact ⟨start, List.prefix_rfl⟩
  · rintro current ⟨kept, grown⟩ statement inside
    refine ⟨localNames_addLocal resolve resources statements current statement inside kept, ?_⟩
    exact grown.trans (prefix_addLocal resolve resources current statement)

/-- Another turn of the loop finds no further class. -/
theorem localPass_localResourceClasses (tree : List AST) :
    localPass resolve tree resources (localResourceClasses resolve tree resources) =
      localResourceClasses resolve tree resources := by
  have turn := foldl_addLocal resolve resources (AST.scopeStatements tree)
  apply Closure.pass_close (fun known holds => (turn known holds).1)
    (fun known holds => (turn known holds).2)
  · rintro known ⟨distinct, inside⟩
    have fits := (List.subperm_of_subset distinct inside).length_le
    exact fits.trans (List.length_filterMap_le _ _)
  · exact ⟨List.nodup_nil, List.nil_subset _⟩
  · simp

end

/-! ## Fewer added lines -/

section

variable (filePath : Path) (source : ParsedSource) (scopes : ScopeBuilder)
  (resources : List (List String)) (identities : List (AST × CacheIdentity))

/-- With more added lines more calls are reported. -/
theorem checkResourceCall_subset {narrow wide : AddedLines} (within : narrow.Within wide)
    (node func : AST) (keywords : List AST) :
    checkResourceCall filePath scopes narrow resources node func keywords ⊆
      checkResourceCall filePath scopes wide resources node func keywords := by
  intro violation found
  unfold checkResourceCall at found ⊢
  split at found
  · rename_i hit
    rw [if_pos (ScopeBuilder.nodeOrDependencyIntersects_mono within _ _ hit)]
    exact found
  · exact absurd found List.not_mem_nil

/-- The calls that pass with more added lines pass with fewer.

Proof: by induction on the nodes. If nothing is reported with more lines, each undocumented call
lies on none of them and uses up an allowance; then it lies on none of fewer lines, and the same
allowances are used up. -/
theorem checkResourceCalls_eq_nil {narrow wide : AddedLines} (within : narrow.Within wide)
    (legacy : Counter CacheIdentity) (nodes : List AST)
    (clean : checkResourceCalls filePath source scopes wide resources identities legacy nodes = []) :
    checkResourceCalls filePath source scopes narrow resources identities legacy nodes = [] := by
  induction nodes generalizing legacy with
  | nil => rfl
  | cons node rest inductionHypothesis =>
    unfold checkResourceCalls at clean ⊢
    split at clean
    · rename_i info func args keywords
      obtain ⟨resourceClean, cacheClean⟩ := List.append_eq_nil_iff.mp clean
      have resourceNarrow := List.eq_nil_of_subset_nil (resourceClean ▸
        checkResourceCall_subset filePath scopes resources within
          (AST.call info func args keywords) func keywords)
      rw [resourceNarrow, List.nil_append]
      dsimp only at cacheClean ⊢
      split at cacheClean
      · split at cacheClean
        · rename_i undocumented allowed
          have outside : intersects narrow (AST.call info func args keywords) = false := by
            rw [Bool.eq_false_iff]
            intro hit
            simp [intersects_mono within _ hit] at allowed
          rw [if_pos undocumented, if_pos (by simp_all)]
          exact inductionHypothesis _ cacheClean
        · exact absurd cacheClean (by simp)
      · rename_i documented
        rw [if_neg documented]
        exact inductionHypothesis _ cacheClean
    · exact inductionHypothesis _ clean

/-- With fewer added lines nothing more is reported. -/
theorem checkResourceClients_eq_nil {narrow wide : AddedLines} (within : narrow.Within wide)
    (head : Option (ParsedSource × ScopeBuilder)) (knownResources : List (List String))
    (clean : checkResourceClients filePath source scopes wide head knownResources = []) :
    checkResourceClients filePath source scopes narrow head knownResources = [] := by
  unfold checkResourceClients at clean ⊢
  rw [mergeSort_eq_nil_iff] at clean ⊢
  exact checkResourceCalls_eq_nil _ _ _ _ _ within _ _ clean

end

end VirtTestTools.Policy
