import Dashboard.Outline

/-!
Syntax trees of documents: elements, text, expression tags, conditional blocks, comments and style
regions. The script region is not part of the tree; a document holds it apart.
-/
namespace Dashboard.Markup

/-- An expression between braces. -/
structure Mustache where
  position : Position
  raw : String
  expression : Script.Node
  deriving Repr

inductive AttributeValue where
  | bare
  | text (position : Position) (data : String)
  | mustache (tag : Mustache)
  deriving Repr

structure Attribute where
  position : Position
  name : String
  value : AttributeValue
  deriving Repr

mutual

inductive Node where
  | element (position : Position) (name : String) (attributes : List Attribute)
      (children : List Node)
  | text (position : Position) (data : String)
  | mustache (tag : Mustache)
  | ifBlock (position : Position) (raw : String) (condition : Script.Node)
      (children : List Node) (alternative : Alternative)
  | comment (position : Position) (data : String)
  | style (position : Position) (attributes : List Attribute) (raw : String)

/-- What follows when the condition of a block does not hold. -/
inductive Alternative where
  | absent
  | otherwise (position : Position) (children : List Node)
  | elseIf (position : Position) (block : Node)

end

/-- The script region of a document: its attributes, and its body as text with the place where
the body begins. -/
structure ScriptRegion where
  position : Position
  attributes : List Attribute
  origin : Position
  raw : String
  deriving Repr

structure Document where
  script : Option ScriptRegion
  children : List Node

/-- Components are written with a capital letter, other elements without. -/
def isComponentName (name : String) : Bool :=
  name.toList.head?.any fun c => 'A' ≤ c && c ≤ 'Z'

namespace Mustache

def outline (tag : Mustache) : Outline :=
  .node "MustacheTag" tag.position [("raw", .str tag.raw)]
    [.one "expression" tag.expression.outline]

end Mustache

namespace Attribute

def outline (a : Attribute) : Outline :=
  let name := ("name", Scalar.str a.name)
  let holding := fun part => Outline.node "Attribute" a.position [name] [.many "value" [part]]
  match a.value with
  | .bare => .node "Attribute" a.position [name, ("value", .bool true)] []
  | .text position data => holding (.node "Text" position [("data", .str data)] [])
  | .mustache tag => holding tag.outline

end Attribute

mutual

def Node.outline : Node → Outline
  | .element position name attributes children =>
    .node (if isComponentName name then "InlineComponent" else "Element") position
      [("name", .str name)]
      [.many "attributes" (attributes.map Attribute.outline),
        .many "children" (outlines children)]
  | .text position data => .node "Text" position [("data", .str data)] []
  | .mustache tag => tag.outline
  | .ifBlock position raw condition children alternative =>
    .node "IfBlock" position [("raw", .str raw)]
      (.many "children" (outlines children) :: alternative.branches ++
        [.one "expression" condition.outline])
  | .comment position data => .node "Comment" position [("data", .str data)] []
  | .style position attributes raw =>
    .node "Style" position [("raw", .str raw)]
      [.many "attributes" (attributes.map Attribute.outline)]

def Alternative.branches : Alternative → List (Branch Outline)
  | .absent => []
  | .otherwise position children =>
    [.one "else" (.node "ElseBlock" position [] [.many "children" (outlines children)])]
  | .elseIf position block =>
    [.one "else" (.node "ElseBlock" position [("elseif", .bool true)]
      [.many "children" [block.outline]])]

def outlines : List Node → List Outline
  | [] => []
  | first :: more => first.outline :: outlines more

end

namespace ScriptRegion

def outline (region : ScriptRegion) : Outline :=
  let number := fun n : Nat => Scalar.number (.ofNat n)
  .node "Script" region.position
    [("content_start", number region.origin.offset), ("content_line", number region.origin.line),
      ("content_column", number region.origin.column), ("raw", .str region.raw)]
    [.many "attributes" (region.attributes.map Attribute.outline)]

end ScriptRegion

namespace Document

def outline (document : Document) : Outline :=
  .node "Fragment" .start [] [.many "children" (outlines document.children)]

end Document

end Dashboard.Markup
