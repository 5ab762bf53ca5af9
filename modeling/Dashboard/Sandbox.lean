import Dashboard.Failure
import Dashboard.Module.Reader
import Dashboard.Registry

/-!
The sandbox: loading a module against a set of widgets, within limits, and rendering it. A module
can mount only widgets that it has imported, and import only widgets of the sandbox.
-/
namespace Dashboard

/-- A widget renders itself from its props and children. A standard widget is hidden when its
visibility is false; a plain one always shows. -/
structure Widget where
  name : String
  isStandard : Bool
  deriving DecidableEq, Repr

inductive RenderNode where
  | widget (name : String) (props : Dictionary Json) (children : List RenderNode)
  | text (data : String)
  deriving Repr

namespace Widget

def hides (props : Dictionary Json) : Bool :=
  match Dictionary.find? props "visible" with
  | some (.bool b) => !b
  | some (.str text) => text = "false"
  | _ => false

def render (w : Widget) (props : Dictionary Json) (children : List RenderNode) :
    Option RenderNode :=
  if w.isStandard && hides props then none else some (.widget w.name props children)

end Widget

abbrev Capabilities := Dictionary Widget

/-- One standard widget for each display of the registry. -/
def Capabilities.standard : Capabilities :=
  Registry.displays.map fun spec => (spec.name, ⟨spec.name, true⟩)

def Capabilities.with (c : Capabilities) (w : Widget) : Capabilities :=
  Dictionary.insert w.name w c

structure SandboxLimits where
  maxInstructions : Nat := 10000
  maxDepth : Nat := 64
  deriving DecidableEq, Repr, Inhabited

/-- The content of a loaded module. -/
inductive Content where
  | mount (binding : String) (props : Dictionary Json) (children : List Content)
  | choice (name : String) (consequent alternate : List Content)
  | text (data : String)
  | shown (name : String)
  deriving Repr

structure ParamDeclaration where
  component : String
  valueType : ValueType
  props : Dictionary Json
  deriving Repr

def ParamDeclaration.name? (p : ParamDeclaration) : Option String :=
  (Dictionary.find? p.props "name").bind Json.string?

/-- A module that has been loaded, bound to its widgets. -/
structure LoadedModule where
  filename : String := ""
  imports : Dictionary Widget := []
  params : List ParamDeclaration := []
  constants : Dictionary Json := []
  body : List Content := []
  deriving Repr

namespace LoadedModule

/-- The values that the parameters begin with; a later one replaces an earlier one. -/
def initialState (m : LoadedModule) : InputState :=
  Dictionary.ofList (m.params.filterMap fun param => do
    let name ← param.name?
    let value ← Dictionary.find? param.props "value"
    some (name, value.coerce param.valueType))

mutual

/-- Placeholders in all texts of a value give way to what their inputs show; keys stay. -/
def resolveValue (state : InputState) : Json → Json
  | .str text => .str (Placeholder.resolve text state)
  | .arr items => .arr (resolveItems state items)
  | .obj entries => .obj (resolveEntries state entries)
  | value => value

def resolveItems (state : InputState) : List Json → List Json
  | [] => []
  | first :: more => resolveValue state first :: resolveItems state more

def resolveEntries (state : InputState) : List (String × Json) → List (String × Json)
  | [] => []
  | (key, value) :: more => (key, resolveValue state value) :: resolveEntries state more

end

mutual

def renderContent (imports : Dictionary Widget) (state : InputState) : Content → List RenderNode
  | .mount binding props children =>
    match Dictionary.find? imports binding with
    | none => []
    | some widget =>
      (widget.render (resolveEntries state props) (renderAll imports state children)).toList
  | .choice name consequent alternate =>
    if state.isTruthy name then renderAll imports state consequent
    else renderAll imports state alternate
  | .text data => [.text data]
  | .shown name => [.text (state.shown name)]

def renderAll (imports : Dictionary Widget) (state : InputState) :
    List Content → List RenderNode
  | [] => []
  | first :: more => renderContent imports state first ++ renderAll imports state more

end

def render (m : LoadedModule) (state : InputState) : List RenderNode :=
  renderAll m.imports state m.body

end LoadedModule

/-- A block that is still open, with what it holds so far. -/
inductive Frame where
  | widget (binding : String) (props : Dictionary Json) (children : List Content)
  | choice (name : String) (consequent : List Content) (alternate : Option (List Content))
  deriving Repr

namespace Frame

def add (content : Content) : Frame → Frame
  | widget binding props children => .widget binding props (children ++ [content])
  | choice name consequent none => .choice name (consequent ++ [content]) none
  | choice name consequent (some alternate) =>
    .choice name consequent (some (alternate ++ [content]))

end Frame

/-- A module while it is read: what it declares so far, and the open blocks, innermost first. -/
structure Loader where
  loaded : LoadedModule := {}
  stack : List Frame := []
  instructions : Nat := 0
  deriving Repr

open Dashboard.Module (Instruction LoadError)

namespace Loader

def push (l : Loader) (content : Content) : Loader :=
  match l.stack with
  | [] => { l with loaded := { l.loaded with body := l.loaded.body ++ [content] } }
  | frame :: outer => { l with stack := frame.add content :: outer }

def enter (limits : SandboxLimits) (l : Loader) (frame : Frame) : Except LoadError Loader :=
  if limits.maxDepth ≤ l.stack.length then .error (.tooDeep limits.maxDepth)
  else .ok { l with stack := frame :: l.stack }

def execute (capabilities : Capabilities) (limits : SandboxLimits) (number : Nat) (l : Loader) :
    Instruction → Except LoadError Loader
  | .title filename => .ok { l with loaded := { l.loaded with filename := filename } }
  | .bind name source =>
    match Dictionary.find? capabilities source with
    | none => .error (.moduleNotFound source)
    | some widget =>
      .ok { l with loaded := { l.loaded with imports := Dictionary.insert name widget l.loaded.imports } }
  | .param component valueType props =>
    .ok { l with loaded := { l.loaded with params := l.loaded.params ++ [⟨component, valueType, props⟩] } }
  | .constant name value =>
    .ok { l with loaded := { l.loaded with constants := Dictionary.insert name value l.loaded.constants } }
  | .mount binding props => .ok (l.push (.mount binding props []))
  | .openWidget binding props => l.enter limits (.widget binding props [])
  | .closeWidget =>
    match l.stack with
    | .widget binding props children :: outer =>
      .ok (push { l with stack := outer } (.mount binding props children))
    | _ => .error (.unbalanced "close" number)
  | .whenInput name => l.enter limits (.choice name [] none)
  | .otherwise =>
    match l.stack with
    | .choice name consequent none :: outer =>
      .ok { l with stack := .choice name consequent (some []) :: outer }
    | _ => .error (.unbalanced "else" number)
  | .endWhen =>
    match l.stack with
    | .choice name consequent alternate :: outer =>
      .ok (push { l with stack := outer } (.choice name consequent (alternate.getD [])))
    | _ => .error (.unbalanced "end" number)
  | .text data => .ok (l.push (.text data))
  | .shown name => .ok (l.push (.shown name))

/-- One line, trimmed. Lines without an instruction do not count against the limit. -/
def line (capabilities : Capabilities) (limits : SandboxLimits) (number : Nat) (l : Loader)
    (text : List Char) : Except LoadError Loader :=
  if !Module.holdsInstruction text then .ok l
  else if limits.maxInstructions < l.instructions + 1 then
    .error (.tooManyInstructions limits.maxInstructions)
  else do
    let instruction ← Instruction.read (Dictionary.contains l.loaded.imports) number text
    execute capabilities limits number { l with instructions := l.instructions + 1 } instruction

def lines (capabilities : Capabilities) (limits : SandboxLimits) (number : Nat) (l : Loader) :
    List (List Char) → Except LoadError Loader
  | [] => .ok l
  | first :: more => do
    let next ← line capabilities limits number l (Text.trim first)
    lines capabilities limits (number + 1) next more

def finish (l : Loader) : Except LoadError LoadedModule :=
  if l.stack.isEmpty then .ok l.loaded else .error .unclosedBlock

end Loader

structure Sandbox where
  capabilities : Capabilities := .standard
  limits : SandboxLimits := {}
  deriving Repr

def Sandbox.load (s : Sandbox) (code : String) : Except LoadError LoadedModule := do
  let l ← Loader.lines s.capabilities s.limits 1 {} (Text.lines code.toList)
  l.finish

def Failure.ofLoadError (e : LoadError) : Failure := .runtimeLoad e.message

end Dashboard
