import Dashboard.Json.Basic
import Dashboard.Script.Token
import Dashboard.Text.Position

/-!
Syntax trees of scripts. One type holds expressions, statements and their parts; `Node.view` shows
a node as its kind, its scalars and its named branches, and everything that goes through a whole
tree is defined over that view.
-/
namespace Dashboard

/-- What a node of a syntax tree carries besides other nodes. -/
inductive Scalar where
  | null
  | bool (value : Bool)
  | number (value : Binary64)
  | str (value : String)
  deriving DecidableEq, Repr, Inhabited

def Scalar.toJson : Scalar → Json
  | null => .null
  | bool value => .bool value
  | number value => .ofNumber value
  | str value => .str value

/-- The nodes under one field: a single node, or a list. -/
structure Branch (α : Type) where
  field : String
  isList : Bool
  nodes : List α
  deriving Repr

namespace Branch

variable {α : Type}

def one (field : String) (node : α) : Branch α := ⟨field, false, [node]⟩

def many (field : String) (nodes : List α) : Branch α := ⟨field, true, nodes⟩

/-- No branch where there is no node. -/
def optional (field : String) (node : Option α) : List (Branch α) :=
  (node.map (one field)).toList

theorem mem_optional {field : String} {node : Option α} {branch : Branch α} :
    branch ∈ optional field node ↔ ∃ n, node = some n ∧ branch = one field n := by
  cases node <;> simp [optional]

end Branch

/-- A node as its kind, its place, its scalars, and its branches in the order of their names. -/
structure View (α : Type) where
  kind : String
  position : Position
  scalars : List (String × Scalar) := []
  branches : List (Branch α) := []
  deriving Repr

namespace Script

inductive DeclarationKind where
  | letKind | constKind | varKind
  deriving DecidableEq, Repr

def DeclarationKind.text : DeclarationKind → String
  | letKind => "let"
  | constKind => "const"
  | varKind => "var"

inductive UnaryOperator where
  | not | minus | plus | complement | typeof
  deriving DecidableEq, Repr

def UnaryOperator.text : UnaryOperator → String
  | not => "!"
  | minus => "-"
  | plus => "+"
  | complement => "~"
  | typeof => "typeof"

inductive Node where
  | literal (position : Position) (value : Scalar)
  | template (position : Position) (raw : String)
  | identifier (position : Position) (name : String)
  | array (position : Position) (elements : List Node)
  | object (position : Position) (properties : List Node)
  | property (position : Position) (key value : Node) (shorthand : Bool)
  | spread (position : Position) (argument : Node)
  | function (position : Position) (isDeclaration : Bool) (name : Option Node)
      (params : List Node) (body : Node)
  | arrow (position : Position) (params : List Node) (body : Node)
  | unary (position : Position) (operator : UnaryOperator) (argument : Node)
  | update (position : Position) (operator : Operator) (before : Bool) (argument : Node)
  | binary (position : Position) (operator : Operator) (left right : Node)
  | assignment (position : Position) (operator : Operator) (left right : Node)
  | conditional (position : Position) (test consequent alternate : Node)
  | member (position : Position) (owner name : Node) (computed : Bool)
  | call (position : Position) (callee : Node) (arguments : List Node)
  | construct (position : Position) (callee : Node) (arguments : List Node)
  | declarations (position : Position) (kind : DeclarationKind) (declarators : List Node)
  | declarator (position : Position) (name : Node) (value : Option Node)
  | imports (position : Position) (specifiers : List Node) (source : Node)
  | defaultSpecifier (position : Position) (binding : Node)
  | namespaceSpecifier (position : Position) (binding : Node)
  | namedSpecifier (position : Position) (imported binding : Node)
  | exported (position : Position) (declaration : Node)
  | returned (position : Position) (argument : Option Node)
  | branching (position : Position) (test consequent : Node) (alternate : Option Node)
  | block (position : Position) (body : List Node)
  | empty (position : Position)
  | expression (position : Position) (expression : Node)
  | program (position : Position) (body : List Node)
  deriving Repr, Inhabited

namespace Node

def view : Node → View Node
  | literal p value => ⟨"Literal", p, [("value", value)], []⟩
  | template p raw => ⟨"TemplateLiteral", p, [("raw", .str raw)], []⟩
  | identifier p name => ⟨"Identifier", p, [("name", .str name)], []⟩
  | array p elements => ⟨"ArrayExpression", p, [], [.many "elements" elements]⟩
  | object p properties => ⟨"ObjectExpression", p, [], [.many "properties" properties]⟩
  | property p key value shorthand =>
    ⟨"Property", p, [("shorthand", .bool shorthand)], [.one "key" key, .one "value" value]⟩
  | spread p argument => ⟨"SpreadElement", p, [], [.one "argument" argument]⟩
  | function p isDeclaration name params body =>
    ⟨if isDeclaration then "FunctionDeclaration" else "FunctionExpression", p, [],
      .one "body" body :: Branch.optional "id" name ++ [.many "params" params]⟩
  | arrow p params body =>
    ⟨"ArrowFunctionExpression", p, [], [.one "body" body, .many "params" params]⟩
  | unary p operator argument =>
    ⟨"UnaryExpression", p, [("operator", .str operator.text)], [.one "argument" argument]⟩
  | update p operator before argument =>
    ⟨"UpdateExpression", p, [("operator", .str operator.text), ("prefix", .bool before)],
      [.one "argument" argument]⟩
  | binary p operator left right =>
    ⟨if operator.isLogical then "LogicalExpression" else "BinaryExpression", p,
      [("operator", .str operator.text)], [.one "left" left, .one "right" right]⟩
  | assignment p operator left right =>
    ⟨"AssignmentExpression", p, [("operator", .str operator.text)],
      [.one "left" left, .one "right" right]⟩
  | conditional p test consequent alternate =>
    ⟨"ConditionalExpression", p, [],
      [.one "alternate" alternate, .one "consequent" consequent, .one "test" test]⟩
  | member p owner name computed =>
    ⟨"MemberExpression", p, [("computed", .bool computed)],
      [.one "object" owner, .one "property" name]⟩
  | call p callee arguments =>
    ⟨"CallExpression", p, [], [.many "arguments" arguments, .one "callee" callee]⟩
  | construct p callee arguments =>
    ⟨"NewExpression", p, [], [.many "arguments" arguments, .one "callee" callee]⟩
  | declarations p kind declarators =>
    ⟨"VariableDeclaration", p, [("kind", .str kind.text)], [.many "declarations" declarators]⟩
  | declarator p name value =>
    ⟨"VariableDeclarator", p, [], .one "id" name :: Branch.optional "init" value⟩
  | imports p specifiers source =>
    ⟨"ImportDeclaration", p, [], [.one "source" source, .many "specifiers" specifiers]⟩
  | defaultSpecifier p binding => ⟨"ImportDefaultSpecifier", p, [], [.one "local" binding]⟩
  | namespaceSpecifier p binding => ⟨"ImportNamespaceSpecifier", p, [], [.one "local" binding]⟩
  | namedSpecifier p imported binding =>
    ⟨"ImportSpecifier", p, [], [.one "imported" imported, .one "local" binding]⟩
  | exported p declaration =>
    ⟨"ExportNamedDeclaration", p, [], [.one "declaration" declaration]⟩
  | returned p argument => ⟨"ReturnStatement", p, [], Branch.optional "argument" argument⟩
  | branching p test consequent alternate =>
    ⟨"IfStatement", p, [],
      Branch.optional "alternate" alternate ++ [.one "consequent" consequent, .one "test" test]⟩
  | block p body => ⟨"BlockStatement", p, [], [.many "body" body]⟩
  | empty p => ⟨"EmptyStatement", p, [], []⟩
  | expression p e => ⟨"ExpressionStatement", p, [], [.one "expression" e]⟩
  | program p body => ⟨"Program", p, [], [.many "body" body]⟩

def kind (node : Node) : String := node.view.kind

def position (node : Node) : Position := node.view.position

def children (node : Node) : List Node := node.view.branches.flatMap Branch.nodes

theorem sizeOf_lt_of_mem_branches {node child : Node} {branch : Branch Node}
    (hb : branch ∈ node.view.branches) (hc : child ∈ branch.nodes) :
    sizeOf child < sizeOf node := by
  have list : ∀ xs : List Node, child ∈ xs → sizeOf child < sizeOf xs :=
    fun _ h => List.sizeOf_lt_of_mem h
  cases node
  all_goals
    simp only [view] at hb
    grind [Branch.mem_optional, Branch.one, Branch.many]

end Node

end Script

end Dashboard
