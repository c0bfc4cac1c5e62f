import VirtTestTools.Analyzer.Model

/-!
# The syntax visitors of the analyzer

Import extraction, function calls, attribute accesses, fixture usage and
fixture definitions, each over the tree of one file, and the resolution of
imported modules to files of the checkout.

A visitor that continues with `generic_visit` at every node collects over the
preorder of the tree. Only the import visitor leaves a subtree out, at the body
of a `TYPE_CHECKING` guard; expressions contain no import statement, so it
descends through statements alone.
-/

namespace VirtTestTools.Analyzer

/-- The accumulators of `ImportVisitor`. -/
structure ImportVisitor where
  imports : List String := []
  symbolImports : Dict String (List String) := ∅
  opaqueImports : List String := []

/-- `visit_Import`: a bare import is opaque. -/
def ImportVisitor.visitImport (visitor : ImportVisitor) (names : List Alias) : ImportVisitor :=
  { visitor with
    imports := visitor.imports ++ names.map Alias.name
    opaqueImports := visitor.opaqueImports ++ names.map Alias.name }

/-- `visit_ImportFrom`: relative imports are skipped, star imports are opaque,
and a named import may also name a submodule. -/
def ImportVisitor.visitImportFrom (visitor : ImportVisitor) (module : Option String)
    (names : List Alias) (level : Nat) : ImportVisitor :=
  match module with
  | none => visitor
  | some module =>
    if module = "" || 0 < level then visitor
    else if names.any (fun imported => decide (imported.name = "*")) then
      { visitor with
        imports := visitor.imports ++ [module]
        opaqueImports := visitor.opaqueImports ++ [module] }
    else
      { visitor with
        imports := visitor.imports ++
          module :: names.map (fun imported => module ++ "." ++ imported.name)
        symbolImports := visitor.symbolImports.set module
          ((visitor.symbolImports.get module).getD [] ++ names.map Alias.name) }

/-- `_is_type_checking_guard`. -/
def isTypeCheckingGuard : AST → Bool
  | .name _ id _ => decide (id = "TYPE_CHECKING")
  | .attribute _ (.name _ id _) attr => decide (id = "typing" ∧ attr = "TYPE_CHECKING")
  | _ => false

mutual

/-- `ImportVisitor.visit`. The body of a type-checking guard is never executed
and contributes nothing; its `else` branch does. -/
def visitImports : AST → ImportVisitor → ImportVisitor
  | .importStmt _ names, visitor => visitor.visitImport names
  | .importFrom _ module names level, visitor => visitor.visitImportFrom module names level
  | .ifStmt _ test body orelse, visitor =>
    if isTypeCheckingGuard test then visitImportsAll orelse visitor
    else visitImportsAll orelse (visitImportsAll body visitor)
  | .functionDef _ _ _ _ body _ _, visitor => visitImportsAll body visitor
  | .classDef _ _ _ _ body _, visitor => visitImportsAll body visitor
  | .forStmt _ _ _ _ body orelse, visitor => visitImportsAll orelse (visitImportsAll body visitor)
  | .whileStmt _ _ body orelse, visitor => visitImportsAll orelse (visitImportsAll body visitor)
  | .tryStmt _ _ body handlers orelse finalbody, visitor =>
    visitImportsAll finalbody
      (visitImportsAll orelse (visitImportsAll handlers (visitImportsAll body visitor)))
  | .exceptHandler _ _ _ body, visitor => visitImportsAll body visitor
  | .matchStmt _ _ cases, visitor => visitImportsAll cases visitor
  | .matchCase _ _ _ body, visitor => visitImportsAll body visitor
  | .other _ _ children, visitor => visitImportsAll children visitor
  | _, visitor => visitor

/-- The visit of a list of nodes. -/
def visitImportsAll : List AST → ImportVisitor → ImportVisitor
  | [], visitor => visitor
  | node :: rest, visitor => visitImportsAll rest (visitImports node visitor)

end

/-- The files a dotted module name may stand for, in the order they are tried: a
package or module below the root, else below `tests/`. -/
def moduleFiles (module : String) : List Path :=
  let modulePath := Path.ofModule module
  let testsModulePath : Path := "tests" :: modulePath
  [modulePath.initPy, modulePath.withPy, testsModulePath.initPy, testsModulePath.withPy]

/-- `_resolve_module_to_path`: the first of these files that exists in the
checkout. -/
def resolveModuleToPath (world : World) (module : String) : Option Path :=
  (moduleFiles module).find? world.present

/-- `_resolve_imports_helper`. -/
def resolveImportsHelper (world : World) (imports : List String) : List Path :=
  imports.filterMap (resolveModuleToPath world)

/-- One step of `_resolve_visitor_symbol_imports`: the symbols of a module that
is not imported opaquely are recorded under its file. -/
def recordSymbolImports (world : World) (opaqueImports : List String)
    (resolved : Dict Path (List String)) (entry : String × List String) :
    Dict Path (List String) :=
  if entry.1 ∈ opaqueImports then resolved
  else
    match resolveModuleToPath world entry.1 with
    | none => resolved
    | some path => resolved.set path ((resolved.get path).getD [] ++ entry.2)

/-- `_resolve_visitor_symbol_imports`: imports by name and opaque imports, each
by resolved file. -/
def resolveVisitorSymbolImports (world : World) (visitor : ImportVisitor) :
    Dict Path (List String) × List Path :=
  (visitor.symbolImports.items.foldl (recordSymbolImports world visitor.opaqueImports) ∅,
    visitor.opaqueImports.filterMap (resolveModuleToPath world))

/-- `_extract_imports_from_file`; a file that cannot be read or parsed has no
imports. -/
def extractImportsFromFile (world : World) (path : Path) : List String :=
  match world.tree path with
  | none => []
  | some tree => (visitImportsAll tree {}).imports

/-- `_extract_symbol_imports_from_file`. -/
def extractSymbolImportsFromFile (world : World) (path : Path) : Dict Path (List String) :=
  match world.tree path with
  | none => ∅
  | some tree => (resolveVisitorSymbolImports world (visitImportsAll tree {})).1

/-- The name a call is recorded under by `FunctionCallVisitor.visit_Call`. -/
def callName : AST → Option String
  | .call _ (.name _ id _) _ _ => some id
  | .call _ (.attribute _ _ attr) _ _ => some attr
  | _ => none

/-- `FunctionCallVisitor`: names of the functions called anywhere below the
given nodes. -/
def functionCalls (nodes : List AST) : List String :=
  (AST.preorderAll nodes).filterMap callName

/-- The accessed attributes and whether `getattr`, `setattr` or `delattr` is
called, as `AttributeAccessCollector` collects them. -/
def attributeAccesses (node : AST) : List String × Bool :=
  (node.preorder.filterMap fun
      | .attribute _ _ attr => some attr
      | _ => none,
    node.preorder.any fun
      | .call _ (.name _ id _) _ _ => decide (id ∈ ["getattr", "setattr", "delattr"])
      | _ => false)

/-- `_is_fixture_decorator_standalone`. -/
def isFixtureDecorator : AST → Bool
  | .name _ id _ => decide (id = "fixture")
  | .attribute _ (.name _ id _) attr => decide (id = "pytest" ∧ attr = "fixture")
  | .call _ func _ _ => isFixtureDecorator func
  | _ => false

/-- The ordinary positional parameters `node.args.args`, by name. -/
def ordinaryParameters : AST → List String
  | .arguments _ _ args _ _ _ _ _ =>
    args.filterMap fun
      | .arg _ name _ => some name
      | _ => none
  | _ => []

/-- The fixture a synchronous function definition declares, if any. -/
def fixtureOf (path : Path) : AST → Option Fixture
  | .functionDef _ false name args body decoratorList _ =>
    if decoratorList.any isFixtureDecorator then
      some
        { name := name
          filePath := path
          fixtureDeps := (ordinaryParameters args).filter
            (fun parameter => decide (parameter ∉ ["self", "request"]))
          functionCalls := functionCalls body }
    else none
  | _ => none

/-- `FixtureDefinitionVisitor`: a later definition replaces an earlier one of
the same name. -/
def fixtureDefinitions (path : Path) (tree : List AST) : Dict String Fixture :=
  (Dict.empty).update
    (((AST.preorderAll tree).filterMap (fixtureOf path)).map (fun fixture => (fixture.name, fixture)))

/-- Fixture names of a `pytest.mark.usefixtures` decorator. -/
def extractUsefixturesFromDecorator : AST → List String
  | .call _ (.attribute _ (.attribute _ (.name _ "pytest" _) "mark") "usefixtures") args _ =>
    args.filterMap fun
      | .constant _ (.str value) => some value
      | _ => none
  | _ => []

/-- `FixtureVisitor`: the fixtures named by `usefixtures` decorators, and the
parameters of synchronous functions that are tests by name or by marker. The
test `hasMarker` is `is_marker` for the names of the marker expression. -/
def fixtureUses (hasMarker : AST → Bool) : AST → List String
  | .functionDef _ false name args _ decoratorList _ =>
    decoratorList.flatMap extractUsefixturesFromDecorator ++
      if decoratorList.any hasMarker || Text.startsWith "test_".toList name.toList then
        (ordinaryParameters args).filter (· != "self")
      else []
  | .classDef _ _ _ _ _ decoratorList => decoratorList.flatMap extractUsefixturesFromDecorator
  | _ => []

/-- `_parse_test_name`: the class, if the name is qualified, and the function
without its parametrization suffix. -/
def parseTestName (testName : String) : Option String × String :=
  let parts := Text.split "::".toList testName.toList
  let qualified := Text.contains "::".toList testName.toList
  let methodName := if qualified then parts.getD 1 [] else testName.toList
  (if qualified then some (String.ofList (parts.getD 0 [])) else none,
    String.ofList (methodName.takeWhile (· != '[')))

/-- `_find_test_function_node`: the first function of that name in breadth-first
order, inside a class of the given name when one is given. -/
def findTestFunctionNode (tree : List AST) (actualTestName : String)
    (classNamePrefix : Option String) : Option AST :=
  ((AST.walk tree).find? fun entry =>
    match entry.2 with
    | .functionDef _ _ name _ _ _ _ =>
      decide (name = actualTestName) &&
        match classNamePrefix with
        | none => true
        | some className =>
          match entry.1 with
          | some (.classDef _ parent _ _ _ _) => decide (parent = className)
          | _ => false
    | _ => false).map Prod.snd

/-- The node of a test in its own file. -/
def testFunctionNode (world : World) (testFile : Path) (testName : String) : Option AST :=
  (world.tree testFile).bind fun tree =>
    let (classNamePrefix, actualTestName) := parseTestName testName
    findTestFunctionNode tree actualTestName classNamePrefix

/-- `_collect_test_function_calls`. -/
def collectTestFunctionCalls (world : World) (testFile : Path) (testName : String) :
    Option (List String) :=
  (testFunctionNode world testFile testName).map fun node => functionCalls [node]

/-- Whether the first character is upper case, `name[0].isupper()`. -/
def startsUpper (unicode : Text.Unicode) (name : String) : Bool :=
  (name.toList.head?.map unicode.upper).getD false

/-- `_collect_test_attribute_accesses`: `none` when the test is not found or
accesses attributes dynamically. A constructor call counts as `__init__`. -/
def collectTestAttributeAccesses (world : World) (testFile : Path) (testName : String) :
    Option (List String) :=
  (testFunctionNode world testFile testName).bind fun node =>
    let (accessed, dynamic) := attributeAccesses node
    if dynamic then none
    else if (functionCalls [node]).any (startsUpper world.unicode) then
      some (accessed ++ ["__init__"])
    else some accessed

end VirtTestTools.Analyzer
