import VirtTestTools.Outcome
import VirtTestTools.Policy.Violations

/-!
# Suppression directives and the exception manifest

The first half of `check_linter_directives.py`: the suppression directives of a
Python source with their fingerprints, and the strict validation of the manifest
`exceptions.toml`.

The parts of Python's library that decide nothing here are collected in
`Library`: the parser and the tokenizer, the TOML reader, the URL reader, the
hash and the printed form of a text. Of a syntax tree the module reads the
extent of each statement and its attribute-free dump; these, and the comment
tokens, are what a parsed module consists of.
-/

namespace VirtTestTools.Policy

open Text

/-- A statement of a parsed module: its extent and its attribute-free dump. -/
structure Statement where
  lineno : Nat
  endLineno : Option Nat
  colOffset : Nat
  dump : Text

/-- A comment token. -/
structure Comment where
  line : Nat
  string : Text

/-- What the module reads of a source that parses: its statements in the order
of `ast.walk` and its comments in source order. -/
structure ParsedModule where
  statements : List Statement
  comments : List Comment

/-- A TOML value; numbers, Booleans and dates are not told apart. -/
inductive Toml
  | string (value : Text)
  | array (elements : List Toml)
  | table (entries : List (Text × Toml))
  | other

/-- How `tomllib.loads` fails: with its `TOMLDecodeError`, or with another exception, as an integer with
too many digits or arrays nested too deeply have it. -/
inductive TomlError
  | decodeError (message : Text)
  | other

/-- The library functions that the module calls. -/
structure Library where
  /-- The word characters of regular expressions. -/
  unicode : Unicode
  /-- `ast.parse` and `tokenize.generate_tokens`; `none` is a `SyntaxError`. -/
  parse : Text → Option ParsedModule
  /-- `tomllib.loads`. -/
  loads : Text → Except TomlError (List (Text × Toml))
  /-- The scheme and the network location of `urlparse`; `none` is a `ValueError`. -/
  urlparse : Text → Option (Text × Text)
  /-- `sha256(text.encode()).hexdigest()`. -/
  hexdigest : Text → Text
  /-- `repr` of a text. -/
  repr : FsText → FsText

/-- What the checks raise. -/
inductive HookError
  /-- `ExceptionManifestError`. -/
  | manifest (message : FsText)
  /-- `_InvalidDirectiveError`. -/
  | invalidDirective (lineNumber : Nat) (directive : Text)
  /-- What the libraries raise and nothing catches: the `ValueError` of `urlparse`, or an exception of
  `tomllib.loads` that is no `TOMLDecodeError`. -/
  | libraryError
  | syntaxError
  | runtimeError
  | keyError
  | unboundLocal
deriving DecidableEq

/-- The keys of `_DIRECTIVE_PATTERNS`. -/
inductive Rule
  | noqa
  | typeIgnore
  | pylintDisable
deriving DecidableEq

namespace Rule

/-- The rules in the order of the dictionary. -/
def all : List Rule := [.noqa, .typeIgnore, .pylintDisable]

/-- The name of a rule in a directive. -/
def name : Rule → Text
  | .noqa => "noqa".toList
  | .typeIgnore => "type-ignore".toList
  | .pylintDisable => "pylint-disable".toList

/-- The literals of the pattern, between which white space is allowed. -/
def literals : Rule → List Text
  | .noqa => ["#".toList, "noqa".toList]
  | .typeIgnore => ["#".toList, "type".toList, ":".toList, "ignore".toList]
  | .pylintDisable => ["#".toList, "pylint".toList, ":".toList, "disable".toList]

end Rule

/-- The text behind the literals. The white space between two literals is matched
greedily, and no literal begins with white space. -/
def matchLiterals : List Text → Text → Option Text
  | [], text => some text
  | expected :: rest, text =>
    (literalIgnoringCase expected text).bind fun behind =>
      match rest with
      | [] => some behind
      | _ :: _ => matchLiterals rest (behind.dropWhile isSpace)

/-- `pattern.search`, with the word boundary that each pattern ends in. -/
def Rule.search (unicode : Unicode) (rule : Rule) : Text → Bool
  | [] => false
  | character :: rest =>
    (match matchLiterals rule.literals (character :: rest) with
      | none => false
      | some [] => true
      | some (next :: _) => !unicode.word next) || rule.search unicode rest

/-- `_Directive`. -/
structure Directive where
  rule : Rule
  text : Text
  lineNumber : Nat
  fingerprint : Text

/-- `_Directive.identity`. -/
def Directive.identity (directive : Directive) : Rule × Text × Text :=
  (directive.rule, directive.text, directive.fingerprint)

/-- The identity of an exception record: a directive bound to a path. -/
abbrev Identity := Rule × FsText × Text × Text

/-- The identity that a record needs to allow the directive in a file. -/
def Directive.identityAt (directive : Directive) (filePath : Path) : Identity :=
  (directive.rule, filePath.asPosix, directive.text, directive.fingerprint)

/-- `_normalized_directive`. -/
def normalizedDirective (comment : Text) : Text := [' '].intercalate (fields (strip comment))

/-- The rules whose pattern occurs in the text. -/
def matchingRules (unicode : Unicode) (directive : Text) : List Rule :=
  Rule.all.filter fun rule => rule.search unicode directive

/-- The last line of a statement. -/
def Statement.lastLine (statement : Statement) : Nat :=
  match statement.endLineno with
  | none | some 0 => statement.lineno
  | some line => line

/-- Whether the first statement comes before the second by `min`'s key: fewer
lines, then the larger column. -/
def Statement.smaller (left right : Statement) : Bool :=
  let leftSpan := left.lastLine - left.lineno
  let rightSpan := right.lastLine - right.lineno
  decide (leftSpan < rightSpan ∨ leftSpan = rightSpan ∧ right.colOffset < left.colOffset)

/-- `_statement_fingerprint_source`. -/
def statementFingerprintSource (module : ParsedModule) (lineNumber : Nat) : Text :=
  match module.statements.filter fun statement =>
      decide (statement.lineno ≤ lineNumber ∧ lineNumber ≤ statement.lastLine) with
  | [] => "comment".toList
  | first :: rest =>
    (rest.foldl (fun best statement => if statement.smaller best then statement else best)
      first).dump

section Library

variable (library : Library)

/-- `_compute_source_fingerprint`. -/
def computeSourceFingerprint (module : ParsedModule) (lineNumber : Nat) (directive : Text)
    (rule : Rule) : Text :=
  "sha256:".toList ++ library.hexdigest (rule.name ++ ['\x00'] ++ normalizedDirective directive ++
    ['\x00'] ++ statementFingerprintSource module lineNumber)

/-- The directive of one comment, if it has one. -/
def commentDirective (module : ParsedModule) (comment : Comment) :
    Except HookError (Option Directive) :=
  let normalized := normalizedDirective comment.string
  match matchingRules library.unicode normalized with
  | [] => .ok none
  | [rule] => .ok (some
      { rule := rule
        text := normalized
        lineNumber := comment.line
        fingerprint := computeSourceFingerprint library module comment.line normalized rule })
  | _ => .error (.invalidDirective comment.line normalized)

/-- `_directives`. -/
def directives (source : Text) : Except HookError (List Directive) :=
  match library.parse source with
  | none => .error .syntaxError
  | some module => do
    let found ← module.comments.mapM (commentDirective library module)
    return found.filterMap id

/-- `DirectiveException`. -/
structure DirectiveException where
  rule : Rule
  path : Text
  directive : Text
  sourceFingerprint : Text
  reason : Text
  approvalUrl : Text
deriving DecidableEq

/-- The identity of a record. -/
def DirectiveException.identity (record : DirectiveException) : Identity :=
  (record.rule, FsText.ofText record.path, record.directive, record.sourceFingerprint)

/-- An `ExceptionManifestError`. -/
def reject {α : Type} (message : FsText) : Except HookError α := .error (.manifest message)

/-- An `ExceptionManifestError` about a field of a record. -/
def rejectField {α : Type} (index : Nat) (message : String) : Except HookError α :=
  reject (FsText.ofString ("exceptions[" ++ toString index ++ "]" ++ message))

/-- `_rule_for_directive`. -/
def ruleForDirective (directive : Text) : Except HookError Rule :=
  match matchingRules library.unicode directive with
  | [rule] => .ok rule
  | _ => reject (FsText.ofString "directive must contain exactly one supported suppression: " ++
      library.repr (FsText.ofText directive))

/-- `_PLACEHOLDER_VALUES`. -/
def placeholderValues : List Text :=
  ["", "-", ".", "n/a", "none", "tba", "tbd"].map String.toList

/-- `_required_string`. No character outside ASCII is lowered to one of the
placeholders. -/
def requiredString (record : List (Text × Toml)) (field : String) (index : Nat) :
    Except HookError Text :=
  match record.lookup field.toList with
  | some (.string value) =>
    if (strip value).map Char.toLower ∈ placeholderValues then
      rejectField index ("." ++ field ++ " must be a non-placeholder string")
    else .ok (strip value)
  | _ => rejectField index ("." ++ field ++ " must be a non-placeholder string")

/-- `_validate_path`. -/
def validatePath (path : Text) (index : Nat) : Except HookError Text :=
  if FsText.ofText path ≠ (Path.ofText path).asPosix ∨ (Path.ofText path).root ≠ 0 ∨
      FsText.ofString ".." ∈ (Path.ofText path).parts then
    rejectField index ".path must be a normalized repository-relative path"
  else if path.any (fun character => decide (character ∈ "*?[]".toList)) then
    rejectField index ".path cannot contain wildcards"
  else .ok path

/-- `_validate_approval_url`. -/
def validateApprovalUrl (url : Text) (index : Nat) : Except HookError Text :=
  match library.urlparse url with
  | none => .error .libraryError
  | some (scheme, netloc) =>
    if scheme ∉ ["http".toList, "https".toList] ∨ netloc = [] then
      rejectField index ".approval_url must be an http(s) review URL"
    else .ok url

/-- `fullmatch(r"sha256:[0-9a-f]{64}", fingerprint)`. -/
def isFingerprint (fingerprint : Text) : Bool :=
  match literal "sha256:".toList fingerprint with
  | none => false
  | some digest =>
    decide (digest.length = 64) &&
      digest.all fun character => decide (character ∈ "0123456789abcdef".toList)

/-- The fields of a record. -/
def expectedFields : List Text :=
  ["rule", "path", "directive", "source_fingerprint", "reason", "approval_url"].map String.toList

/-- Whether a table has exactly the given keys. -/
def hasFields (entries : List (Text × Toml)) (fields : List Text) : Bool :=
  entries.all (fun entry => decide (entry.1 ∈ fields)) &&
    fields.all fun field => decide (field ∈ entries.map Prod.fst)

/-- The rule of a record. -/
def ruleNamed (name : Text) (index : Nat) : Except HookError Rule :=
  match Rule.all.find? (fun rule => decide (rule.name = name)) with
  | some rule => .ok rule
  | none => rejectField index ".rule must be one of: noqa, pylint-disable, type-ignore"

/-- Reject a record unless the condition holds. -/
def require (condition : Bool) (index : Nat) (message : String) : Except HookError Unit :=
  if condition then .ok () else rejectField index message

/-- One record of the manifest. -/
def loadRecord (index : Nat) (raw : Toml) : Except HookError DirectiveException :=
  match raw with
  | .table record =>
    if hasFields record expectedFields then do
      let ruleName ← requiredString record "rule" index
      let rule ← ruleNamed ruleName index
      let directive ← requiredString record "directive" index
      let matched ← ruleForDirective library directive
      require (decide (matched = rule)) index ".directive does not match its rule"
      let fingerprint ← requiredString record "source_fingerprint" index
      require (isFingerprint fingerprint) index ".source_fingerprint must be a sha256 fingerprint"
      let path ← validatePath (← requiredString record "path" index) index
      let reason ← requiredString record "reason" index
      let approvalUrl ← validateApprovalUrl library (← requiredString record "approval_url" index)
        index
      return {
        rule := rule
        path := path
        directive := normalizedDirective directive
        sourceFingerprint := fingerprint
        reason := reason
        approvalUrl := approvalUrl }
    else
      rejectField index (" must contain exactly: approval_url, directive, path, reason, rule, " ++
        "source_fingerprint")
  | _ =>
    rejectField index (" must contain exactly: approval_url, directive, path, reason, rule, " ++
      "source_fingerprint")

/-- The loop of `load_exceptions`. -/
def loadRecords : Nat → List Toml → Except HookError (List DirectiveException)
  | _, [] => .ok []
  | index, raw :: rest => do
    let record ← loadRecord library index raw
    let records ← loadRecords (index + 1) rest
    return record :: records

/-- `load_exceptions`. -/
def loadExceptions (source : Text) : Except HookError (List DirectiveException) :=
  match library.loads source with
  | .error .other => .error .libraryError
  | .error (.decodeError error) =>
    reject (FsText.ofString "invalid TOML: " ++ FsText.ofText error)
  | .ok data =>
    match hasFields data ["exceptions".toList], data.lookup "exceptions".toList with
    | true, some (.array raw) => do
      let records ← loadRecords library 0 raw
      if (records.map DirectiveException.identity).Nodup then return records
      else reject (FsText.ofString "duplicate exception records are not allowed")
    | _, _ => reject (FsText.ofString "manifest must contain only an 'exceptions' array")

/-- An accepted manifest has one record for each identity. -/
theorem nodup_of_loadExceptions (source : Text) (records : List DirectiveException)
    (loaded : loadExceptions library source = .ok records) :
    (records.map DirectiveException.identity).Nodup := by
  unfold loadExceptions at loaded
  split at loaded
  · cases loaded
  · cases loaded
  · split at loaded
    · obtain ⟨all, -, checked⟩ := (Outcome.bind_eq_ok _ _ _).mp loaded
      split at checked
      · rename_i distinct
        cases checked
        exact distinct
      · cases checked
    · cases loaded

section Raises

/-- The computation raises no more than `load_exceptions` may raise. -/
def RaisesManifest {α : Type} (computation : Except HookError α) : Prop :=
  ∀ error, computation = .error error → error = .libraryError ∨ ∃ message, error = .manifest message

/-- A rejection is an error of the manifest. -/
theorem raisesManifest_reject {α : Type} (message : FsText) :
    RaisesManifest (reject message : Except HookError α) := by
  intro error raised
  cases raised
  exact Or.inr ⟨message, rfl⟩

/-- The rejection of a field is an error of the manifest. -/
theorem raisesManifest_rejectField {α : Type} (index : Nat) (message : String) :
    RaisesManifest (rejectField index message : Except HookError α) :=
  raisesManifest_reject _

/-- A value is no error. -/
theorem raisesManifest_ok {α : Type} (value : α) : RaisesManifest (.ok value) := by
  intro error raised
  cases raised

/-- Two steps raise errors of the manifest when each does. -/
theorem raisesManifest_bind {α β : Type} (computation : Except HookError α)
    (next : α → Except HookError β) (first : RaisesManifest computation)
    (later : ∀ value, RaisesManifest (next value)) : RaisesManifest (computation >>= next) := by
  intro error raised
  rcases (Outcome.bind_eq_error _ _ _).mp raised with here | ⟨value, -, after⟩
  · exact first error here
  · exact later value error after

/-- A missing string is an error of the manifest. -/
theorem raisesManifest_requiredString (record : List (Text × Toml)) (field : String)
    (index : Nat) : RaisesManifest (requiredString record field index) := by
  unfold requiredString
  split
  · split
    · exact raisesManifest_rejectField _ _
    · exact raisesManifest_ok _
  · exact raisesManifest_rejectField _ _

/-- A path that is not valid is an error of the manifest. -/
theorem raisesManifest_validatePath (path : Text) (index : Nat) :
    RaisesManifest (validatePath path index) := by
  unfold validatePath
  split
  · exact raisesManifest_rejectField _ _
  · split
    · exact raisesManifest_rejectField _ _
    · exact raisesManifest_ok _

/-- A URL that is not valid is an error of the manifest. -/
theorem raisesManifest_validateApprovalUrl (url : Text) (index : Nat) :
    RaisesManifest (validateApprovalUrl library url index) := by
  unfold validateApprovalUrl
  split
  · intro error raised
    cases raised
    exact Or.inl rfl
  · split
    · exact raisesManifest_rejectField _ _
    · exact raisesManifest_ok _

/-- A directive without a rule is an error of the manifest. -/
theorem raisesManifest_ruleForDirective (directive : Text) :
    RaisesManifest (ruleForDirective library directive) := by
  unfold ruleForDirective
  split
  · exact raisesManifest_ok _
  · exact raisesManifest_reject _

/-- An unknown rule is an error of the manifest. -/
theorem raisesManifest_ruleNamed (name : Text) (index : Nat) :
    RaisesManifest (ruleNamed name index) := by
  unfold ruleNamed
  split
  · exact raisesManifest_ok _
  · exact raisesManifest_rejectField _ _

/-- A condition that fails is an error of the manifest. -/
theorem raisesManifest_require (condition : Bool) (index : Nat) (message : String) :
    RaisesManifest (require condition index message) := by
  unfold require
  split
  · exact raisesManifest_ok _
  · exact raisesManifest_rejectField _ _

/-- A record that is not valid is an error of the manifest. -/
theorem raisesManifest_loadRecord (index : Nat) (raw : Toml) :
    RaisesManifest (loadRecord library index raw) := by
  unfold loadRecord
  split
  · split
    · refine raisesManifest_bind _ _ (raisesManifest_requiredString _ _ _) fun ruleName => ?_
      refine raisesManifest_bind _ _ (raisesManifest_ruleNamed _ _) fun rule => ?_
      refine raisesManifest_bind _ _ (raisesManifest_requiredString _ _ _) fun directive => ?_
      refine raisesManifest_bind _ _ (raisesManifest_ruleForDirective library _) fun matched => ?_
      refine raisesManifest_bind _ _ (raisesManifest_require _ _ _) fun _ => ?_
      refine raisesManifest_bind _ _ (raisesManifest_requiredString _ _ _) fun fingerprint => ?_
      refine raisesManifest_bind _ _ (raisesManifest_require _ _ _) fun _ => ?_
      refine raisesManifest_bind _ _ (raisesManifest_requiredString _ _ _) fun path => ?_
      refine raisesManifest_bind _ _ (raisesManifest_validatePath _ _) fun validated => ?_
      refine raisesManifest_bind _ _ (raisesManifest_requiredString _ _ _) fun reason => ?_
      refine raisesManifest_bind _ _ (raisesManifest_requiredString _ _ _) fun url => ?_
      refine raisesManifest_bind _ _ (raisesManifest_validateApprovalUrl library _ _) fun _ => ?_
      exact raisesManifest_ok _
    · exact raisesManifest_rejectField _ _
  · exact raisesManifest_rejectField _ _

/-- Records that are not valid are errors of the manifest. -/
theorem raisesManifest_loadRecords (index : Nat) (raw : List Toml) :
    RaisesManifest (loadRecords library index raw) := by
  induction raw generalizing index with
  | nil => exact raisesManifest_ok _
  | cons first rest inductionHypothesis =>
    refine raisesManifest_bind _ _ (raisesManifest_loadRecord library index first) fun record => ?_
    refine raisesManifest_bind _ _ (inductionHypothesis (index + 1)) fun records => ?_
    exact raisesManifest_ok _

/-- A manifest is accepted, rejected with a message, or its loading ends in the
`ValueError` of a URL. -/
theorem raisesManifest_loadExceptions (source : Text) :
    RaisesManifest (loadExceptions library source) := by
  unfold loadExceptions
  split
  · intro error raised
    cases raised
    exact Or.inl rfl
  · exact raisesManifest_reject _
  · split
    · refine raisesManifest_bind _ _ (raisesManifest_loadRecords library 0 _) fun records => ?_
      split
      · exact raisesManifest_ok _
      · exact raisesManifest_reject _
    · exact raisesManifest_reject _

end Raises

end Library

end VirtTestTools.Policy
