import VirtTestTools.Text

/-!
# Python syntax trees

One inductive type for the nodes of the `ast` module, with the classes the
tools distinguish as constructors of their own and the remaining ones under
`other`. Each node carries an identity, because Python compares nodes by
identity and the tools key dictionaries by them, and the two line numbers the
tools read.

Parsing itself is not modelled. A `Source` pairs a text with the tree `ast.parse`
gives for it, or with `none` when the parser raises `SyntaxError`. Type
parameters, type comments and the names bound by match patterns are left out;
no modelled function reads them.
-/

namespace VirtTestTools

/-- Membership in lists of dotted names is decided with this instance in every module. -/
instance lawfulBEqNames : LawfulBEq (List String) := inferInstance

/-- Identity and position of a node. -/
structure Info where
  id : Nat
  lineno : Nat
  endLineno : Nat
deriving DecidableEq

/-- The context of a name: read, bound or deleted. -/
inductive Ctx
  | load
  | store
  | del
deriving DecidableEq

/-- Literal values. Of bytes only the length is kept; floating-point and complex
numbers are not told apart. -/
inductive Literal
  | str (value : String)
  | bool (value : Bool)
  | int (value : Int)
  | bytes (length : Nat)
  | ellipsis
  | none
  | other
deriving DecidableEq

/-- The operators of a comparison. -/
inductive CompareOp
  | eq
  | notEq
  | other
deriving DecidableEq

/-- One `name [as asname]` of an import statement. -/
structure Alias where
  name : String
  asname : Option String
deriving DecidableEq

/-- The three comprehensions with a single element expression. -/
inductive CompKind
  | list
  | set
  | generator
deriving DecidableEq

/-- Node classes that have no constructor of their own in the tree. The
expressions come first, then the statements, then the auxiliary classes. A binary
operation says whether it is an addition, a formatted value whether it has neither
a conversion nor a format specification. -/
inductive OtherClass
  | boolOp | binOp (isAdd : Bool) | unaryOp | dict | set | await | yield | yieldFrom
  | compare (ops : List CompareOp) | formattedValue (isPlain : Bool) | joinedStr | subscript
  | slice
  | delete | assert | pass | withStmt | asyncWith | typeAlias
  | withitem | pattern
deriving DecidableEq

/-- A node of the syntax tree. Fields stand in the order of the `ast` classes,
which is the order in which `iter_child_nodes` yields them. -/
inductive AST where
  | name (info : Info) (id : String) (ctx : Ctx)
  | attribute (info : Info) (value : AST) (attr : String)
  | call (info : Info) (func : AST) (args keywords : List AST)
  | keyword (info : Info) (arg : Option String) (value : AST)
  | constant (info : Info) (value : Literal)
  | starred (info : Info) (value : AST)
  | list (info : Info) (elts : List AST)
  | tuple (info : Info) (elts : List AST)
  | namedExpr (info : Info) (target value : AST)
  | ifExp (info : Info) (test body orelse : AST)
  | lambda (info : Info) (args body : AST)
  | comp (info : Info) (kind : CompKind) (elt : AST) (generators : List AST)
  | dictComp (info : Info) (key value : AST) (generators : List AST)
  | comprehension (info : Info) (isAsync : Bool) (target iter : AST) (ifs : List AST)
  | arguments (info : Info) (posonlyargs args : List AST) (vararg : Option AST)
      (kwonlyargs kwDefaults : List AST) (kwarg : Option AST) (defaults : List AST)
  | arg (info : Info) (arg : String) (annot : Option AST)
  | importStmt (info : Info) (names : List Alias)
  | importFrom (info : Info) (module : Option String) (names : List Alias) (level : Nat)
  | assign (info : Info) (targets : List AST) (value : AST)
  | annAssign (info : Info) (target annot : AST) (value : Option AST)
  | augAssign (info : Info) (target value : AST)
  | globalStmt (info : Info) (names : List String)
  | nonlocalStmt (info : Info) (names : List String)
  | functionDef (info : Info) (isAsync : Bool) (name : String) (args : AST) (body : List AST)
      (decoratorList : List AST) (returns : Option AST)
  | classDef (info : Info) (name : String) (bases keywords body decoratorList : List AST)
  | ifStmt (info : Info) (test : AST) (body orelse : List AST)
  | forStmt (info : Info) (isAsync : Bool) (target iter : AST) (body orelse : List AST)
  | whileStmt (info : Info) (test : AST) (body orelse : List AST)
  | breakStmt (info : Info)
  | continueStmt (info : Info)
  | returnStmt (info : Info) (value : Option AST)
  | raiseStmt (info : Info) (exc cause : Option AST)
  | tryStmt (info : Info) (isStar : Bool) (body handlers orelse finalbody : List AST)
  | exceptHandler (info : Info) (type : Option AST) (name : Option String) (body : List AST)
  | matchStmt (info : Info) (subject : AST) (cases : List AST)
  | matchCase (info : Info) (pattern : AST) (guard : Option AST) (body : List AST)
  | exprStmt (info : Info) (value : AST)
  | other (info : Info) (cls : OtherClass) (children : List AST)

namespace AST

/-- Identity and position of a node. -/
def info : AST → Info
  | .name info .. | .attribute info .. | .call info .. | .keyword info .. | .constant info ..
  | .starred info .. | .list info .. | .tuple info .. | .namedExpr info .. | .ifExp info ..
  | .lambda info .. | .comp info .. | .dictComp info .. | .comprehension info ..
  | .arguments info .. | .arg info .. | .importStmt info .. | .importFrom info .. | .assign info ..
  | .annAssign info .. | .augAssign info .. | .globalStmt info .. | .nonlocalStmt info ..
  | .functionDef info .. | .classDef info .. | .ifStmt info .. | .forStmt info .. | .whileStmt info ..
  | .breakStmt info | .continueStmt info | .returnStmt info .. | .raiseStmt info .. | .tryStmt info ..
  | .exceptHandler info .. | .matchStmt info .. | .matchCase info .. | .exprStmt info ..
  | .other info .. => info

/-- The identity by which dictionaries and sets of nodes compare them. -/
def id (node : AST) : Nat := node.info.id

/-- `ast.iter_child_nodes`, without the context markers. -/
def children : AST → List AST
  | .name .. | .constant .. | .importStmt .. | .importFrom .. | .globalStmt .. | .nonlocalStmt ..
  | .breakStmt .. | .continueStmt .. => []
  | .attribute _ value _ | .keyword _ _ value | .starred _ value | .exprStmt _ value => [value]
  | .call _ func args keywords => func :: args ++ keywords
  | .list _ elts | .tuple _ elts => elts
  | .namedExpr _ target value => [target, value]
  | .ifExp _ test body orelse => [test, body, orelse]
  | .lambda _ args body => [args, body]
  | .comp _ _ elt generators => elt :: generators
  | .dictComp _ key value generators => key :: value :: generators
  | .comprehension _ _ target iter ifs => target :: iter :: ifs
  | .arguments _ posonlyargs args vararg kwonlyargs kwDefaults kwarg defaults =>
    posonlyargs ++ args ++ vararg.toList ++ kwonlyargs ++ kwDefaults ++ kwarg.toList ++ defaults
  | .arg _ _ annot => annot.toList
  | .assign _ targets value => targets ++ [value]
  | .annAssign _ target annot value => target :: annot :: value.toList
  | .augAssign _ target value => [target, value]
  | .functionDef _ _ _ args body decoratorList returns =>
    args :: body ++ decoratorList ++ returns.toList
  | .classDef _ _ bases keywords body decoratorList => bases ++ keywords ++ body ++ decoratorList
  | .ifStmt _ test body orelse | .whileStmt _ test body orelse => test :: body ++ orelse
  | .forStmt _ _ target iter body orelse => target :: iter :: body ++ orelse
  | .returnStmt _ value => value.toList
  | .raiseStmt _ exc cause => exc.toList ++ cause.toList
  | .tryStmt _ _ body handlers orelse finalbody => body ++ handlers ++ orelse ++ finalbody
  | .exceptHandler _ type _ body => type.toList ++ body
  | .matchStmt _ subject cases => subject :: cases
  | .matchCase _ pattern guard body => pattern :: guard.toList ++ body
  | .other _ _ children => children

mutual

/-- The node and everything below it, parents before children and children in
field order: the order in which a `NodeVisitor` that always continues with
`generic_visit` meets the nodes. -/
def preorder : AST → List AST
  | node@(.name ..) | node@(.constant ..) | node@(.importStmt ..) | node@(.importFrom ..)
  | node@(.globalStmt ..) | node@(.nonlocalStmt ..) | node@(.breakStmt ..)
  | node@(.continueStmt ..) => [node]
  | node@(.attribute _ value _) | node@(.keyword _ _ value) | node@(.starred _ value)
  | node@(.exprStmt _ value) => node :: preorder value
  | node@(.call _ func args keywords) =>
    node :: preorder func ++ preorderAll args ++ preorderAll keywords
  | node@(.list _ elts) | node@(.tuple _ elts) => node :: preorderAll elts
  | node@(.namedExpr _ target value) => node :: preorder target ++ preorder value
  | node@(.ifExp _ test body orelse) => node :: preorder test ++ preorder body ++ preorder orelse
  | node@(.lambda _ args body) => node :: preorder args ++ preorder body
  | node@(.comp _ _ elt generators) => node :: preorder elt ++ preorderAll generators
  | node@(.dictComp _ key value generators) =>
    node :: preorder key ++ preorder value ++ preorderAll generators
  | node@(.comprehension _ _ target iter ifs) =>
    node :: preorder target ++ preorder iter ++ preorderAll ifs
  | node@(.arguments _ posonlyargs args vararg kwonlyargs kwDefaults kwarg defaults) =>
    node :: preorderAll posonlyargs ++ preorderAll args ++ preorderOpt vararg ++
      preorderAll kwonlyargs ++ preorderAll kwDefaults ++ preorderOpt kwarg ++ preorderAll defaults
  | node@(.arg _ _ annot) => node :: preorderOpt annot
  | node@(.assign _ targets value) => node :: preorderAll targets ++ preorder value
  | node@(.annAssign _ target annot value) =>
    node :: preorder target ++ preorder annot ++ preorderOpt value
  | node@(.augAssign _ target value) => node :: preorder target ++ preorder value
  | node@(.functionDef _ _ _ args body decoratorList returns) =>
    node :: preorder args ++ preorderAll body ++ preorderAll decoratorList ++ preorderOpt returns
  | node@(.classDef _ _ bases keywords body decoratorList) =>
    node :: preorderAll bases ++ preorderAll keywords ++ preorderAll body ++
      preorderAll decoratorList
  | node@(.ifStmt _ test body orelse) | node@(.whileStmt _ test body orelse) =>
    node :: preorder test ++ preorderAll body ++ preorderAll orelse
  | node@(.forStmt _ _ target iter body orelse) =>
    node :: preorder target ++ preorder iter ++ preorderAll body ++ preorderAll orelse
  | node@(.returnStmt _ value) => node :: preorderOpt value
  | node@(.raiseStmt _ exc cause) => node :: preorderOpt exc ++ preorderOpt cause
  | node@(.tryStmt _ _ body handlers orelse finalbody) =>
    node :: preorderAll body ++ preorderAll handlers ++ preorderAll orelse ++
      preorderAll finalbody
  | node@(.exceptHandler _ type _ body) => node :: preorderOpt type ++ preorderAll body
  | node@(.matchStmt _ subject cases) => node :: preorder subject ++ preorderAll cases
  | node@(.matchCase _ pattern guard body) =>
    node :: preorder pattern ++ preorderOpt guard ++ preorderAll body
  | node@(.other _ _ children) => node :: preorderAll children

/-- The parts of a list of nodes, in preorder. -/
def preorderAll : List AST → List AST
  | [] => []
  | node :: rest => preorder node ++ preorderAll rest

/-- The parts of a node that may be missing, in preorder. -/
def preorderOpt : Option AST → List AST
  | none => []
  | some node => preorder node

end

/-- Visiting a list is visiting its members in turn. -/
theorem preorderAll_eq (nodes : List AST) : preorderAll nodes = nodes.flatMap preorder := by
  induction nodes with
  | nil => rfl
  | cons node rest inductionHypothesis =>
    simp only [preorderAll, List.flatMap_cons, inductionHypothesis]

/-- `decorator_list`, where there is one. -/
def decorators : AST → List AST
  | .classDef _ _ _ _ _ decoratorList | .functionDef _ _ _ _ _ decoratorList _ => decoratorList
  | _ => []

/-- The worker of `walk`: the nodes of one depth, then those one level deeper,
each with its parent. -/
def walkFrom : Nat → List (Option AST × AST) → List (Option AST × AST)
  | 0, _ => []
  | depth + 1, level =>
    level ++ walkFrom depth
      (level.flatMap (fun entry => entry.2.children.map (fun child => (some entry.2, child))))

/-- `ast.walk` over the statements of a module: breadth first, each node paired
with the parent it was reached from. The number of nodes bounds the depth. -/
def walk (tree : List AST) : List (Option AST × AST) :=
  walkFrom (preorderAll tree).length (tree.map (fun node => (none, node)))

end AST

/-- A source text with its syntax tree: the statements of the module, or `none`
when the text does not parse. -/
structure Source where
  text : Text
  tree : Option (List AST)

end VirtTestTools
