import Dashboard.Markup.Tree
import Dashboard.Placeholder
import Dashboard.Registry

/-!
Components: the elements of a document that the registry knows. They are numbered in document
order; a component knows its parent and children by number. Everything that a document may not hold
is reported, and the search goes on behind it.
-/
namespace Dashboard

inductive Role where
  | input | display
  deriving DecidableEq, Repr

def Role.text : Role → String
  | input => "input"
  | display => "display"

structure Component where
  id : Nat
  tag : String
  role : Role
  attributes : Dictionary Json
  parent : Option Nat
  children : List Nat
  isContainer : Bool
  insideGrid : Bool
  deriving Repr

inductive ComponentFault where
  | unknownComponent (tag : String)
  | directive (name tag : String)
  | styleRegion
  | placeholder (violation : Placeholder.Violation)
  deriving DecidableEq, Repr

def ComponentFault.message : ComponentFault → String
  | unknownComponent tag => "Unknown component: " ++ tag
  | directive name tag => "Directive '" ++ name ++ "' not allowed on <" ++ tag ++ ">"
  | styleRegion => "Style blocks not allowed"
  | placeholder violation => violation.message

inductive ComponentWarning where
  | duplicateInput (name : String)
  | unsupportedExpression (kind attributeName tag : String)
  deriving DecidableEq, Repr

def ComponentWarning.message : ComponentWarning → String
  | duplicateInput name => "Duplicate input name '" ++ name ++ "'"
  | unsupportedExpression kind attributeName tag =>
    "Unsupported expression '" ++ kind ++ "' in attribute '" ++ attributeName ++ "' of <" ++ tag ++
      ">; value set to null"

structure Classification where
  components : List Component := []
  inputs : List Nat := []
  displays : List Nat := []
  faults : List ComponentFault := []
  warnings : List ComponentWarning := []
  deriving Repr

namespace Classification

def report (c : Classification) (faults : List ComponentFault) : Classification :=
  { c with faults := c.faults ++ faults }

def warn (c : Classification) (warnings : List ComponentWarning) : Classification :=
  { c with warnings := c.warnings ++ warnings }

def get? (c : Classification) (id : Nat) : Option Component := c.components[id]?

def inputComponents (c : Classification) : List Component := c.inputs.filterMap c.get?

def displayComponents (c : Classification) : List Component := c.displays.filterMap c.get?

def addChild (child : Nat) (component : Component) : Component :=
  { component with children := component.children ++ [child] }

/-- A new component takes the next number and is added to the children of its parent. -/
def push (c : Classification) (tag : String) (role : Role) (attributes : Dictionary Json)
    (parent : Option Nat) (isContainer insideGrid : Bool) : Classification :=
  let id := c.components.length
  let component : Component :=
    { id, tag, role, attributes, parent, children := [], isContainer, insideGrid }
  let components := match parent with
    | none => c.components
    | some p => c.components.modify p (addChild id)
  { c with
    components := components ++ [component]
    inputs := if role = .input then c.inputs ++ [id] else c.inputs
    displays := if role = .display then c.displays ++ [id] else c.displays }

/-- The names of the inputs so far, where they are text. -/
def inputName? (attributes : Dictionary Json) : Option String :=
  (Dictionary.find? attributes "name").bind Json.string?

def hasInput (c : Classification) (name : String) : Bool :=
  c.inputComponents.any fun component => inputName? component.attributes = some name

end Classification

namespace Component

mutual

/-- The faults of all texts in a value, keys of objects excepted. -/
def textFaults : Json → List ComponentFault
  | .str text => (Placeholder.violations text).map .placeholder
  | .arr items => itemFaults items
  | .obj entries => entryFaults entries
  | _ => []

def itemFaults : List Json → List ComponentFault
  | [] => []
  | first :: more => textFaults first ++ itemFaults more

def entryFaults : List (String × Json) → List ComponentFault
  | [] => []
  | (_, value) :: more => textFaults value ++ entryFaults more

end

def isDirective (name : String) : Bool := name.toList.contains ':'

/-- The value of one attribute; null, with a warning, for an expression of another kind. -/
def attributeValue (tag : String) (a : Markup.Attribute) : Json × List ComponentWarning :=
  match a.value with
  | .bare => (.bool true, [])
  | .text _ data => (.str data, [])
  | .mustache t =>
    match t.expression.value? with
    | some value => (value, [])
    | none => (.null, [.unsupportedExpression t.expression.kind a.name tag])

/-- What the attributes of an element come to. Of two with one name the later counts. -/
structure Attributes where
  values : Dictionary Json := []
  faults : List ComponentFault := []
  warnings : List ComponentWarning := []

def Attributes.add (tag : String) (found : Attributes) (a : Markup.Attribute) : Attributes :=
  if isDirective a.name then { found with faults := found.faults ++ [.directive a.name tag] }
  else
    let (value, warnings) := attributeValue tag a
    { values := Dictionary.insert a.name value found.values
      faults := found.faults ++ textFaults value
      warnings := found.warnings ++ warnings }

def attributesOf (tag : String) (attributes : List Markup.Attribute) : Attributes :=
  attributes.foldl (Attributes.add tag) {}

/-- The type that a chart alias implies, where none is written. -/
def withImpliedType (implied : Option String) (attributes : Dictionary Json) : Dictionary Json :=
  match implied with
  | none => attributes
  | some kind =>
    if Dictionary.contains attributes "type" then attributes
    else Dictionary.insert "type" (.str kind) attributes

def referenceFaults (raw : String) : List ComponentFault :=
  (Placeholder.violations ("\x7b" ++ Text.trimmed raw ++ "\x7d")).map .placeholder

/-- Enters an element into the classification, and says whose child its children are. -/
def enter (c : Classification) (tag : String) (attributes : List Markup.Attribute)
    (parent : Option Nat) (insideGrid : Bool) : Classification × Option Nat × Bool :=
  let found := attributesOf tag attributes
  let c := (c.report found.faults).warn found.warnings
  match Registry.lookup tag with
  | .unknown => (c.report [.unknownComponent tag], parent, insideGrid)
  | .input _ =>
    let duplicate := match Classification.inputName? found.values with
      | some name => if c.hasInput name then [.duplicateInput name] else []
      | none => []
    let id := c.components.length
    ((c.warn duplicate).push tag .input found.values parent false insideGrid, some id, false)
  | .display spec implied =>
    let id := c.components.length
    let values := withImpliedType implied found.values
    (c.push tag .display values parent spec.isContainer insideGrid, some id, spec.isContainer)

mutual

def classifyNode (parent : Option Nat) (insideGrid : Bool) (c : Classification) :
    Markup.Node → Classification
  | .element _ tag attributes children =>
    let (c, parent, insideGrid) := enter c tag attributes parent insideGrid
    classifyAll parent insideGrid c children
  | .ifBlock _ raw _ children alternative =>
    let c := classifyAll parent insideGrid (c.report (referenceFaults raw)) children
    classifyAlternative parent insideGrid c alternative
  | .mustache tag => c.report (referenceFaults tag.raw)
  | .style .. => c.report [.styleRegion]
  | .text .. | .comment .. => c

def classifyAll (parent : Option Nat) (insideGrid : Bool) (c : Classification) :
    List Markup.Node → Classification
  | [] => c
  | first :: more => classifyAll parent insideGrid (classifyNode parent insideGrid c first) more

def classifyAlternative (parent : Option Nat) (insideGrid : Bool) (c : Classification) :
    Markup.Alternative → Classification
  | .absent => c
  | .otherwise _ children => classifyAll parent insideGrid c children
  | .elseIf _ block => classifyNode parent insideGrid c block

end

/-- The values that inputs begin with. Inputs without a name or a value are left out, and a later
input replaces an earlier one of the same name. -/
def initialState (components : List Component) : InputState :=
  Dictionary.ofList (components.filterMap fun component => do
    let spec ← Registry.input? component.tag
    let name ← Classification.inputName? component.attributes
    let value ← Dictionary.find? component.attributes "value"
    some (name, value.coerce spec.generates))

end Component

namespace Markup.Document

def classify (document : Document) : Classification :=
  Component.classifyAll none false {} document.children

end Markup.Document

end Dashboard
