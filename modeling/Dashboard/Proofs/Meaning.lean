import Dashboard.Component
import Dashboard.Sandbox
import Dashboard.Proofs.Script.Places

/-!
What a document means, read off its tree: the constants of its script, and what each node shows for
given values of the inputs. Nothing here knows of modules or of text formats.
-/
namespace Dashboard.Meaning

/-- What a declarator binds: its literal, or null without an initial value. -/
def entry? : Script.Node → Option (String × Json)
  | .declarator _ (.identifier _ name) none => some (name, .null)
  | .declarator _ (.identifier _ name) (some init) => init.literal?.map fun value => (name, value)
  | _ => none

def declarators : Script.Node → List Script.Node
  | .declarations _ _ all => all
  | _ => []

/-- The constants that the statements of a script declare. -/
def constants (statements : List Script.Node) : Dictionary Json :=
  Dictionary.ofList ((statements.flatMap declarators).filterMap entry?)

/-- The value of an expression: a name stands for the constant of that name. -/
def expressionValue (constants : Dictionary Json) (node : Script.Node) : Json :=
  match node.literal?, node.inputName?, node.bareName? with
  | some literal, _, _ => literal
  | none, some name, _ => .str (Script.Node.placeholder name)
  | none, none, some name => (Dictionary.find? constants name).getD .null
  | none, none, none => .null

def value (constants : Dictionary Json) (a : Markup.Attribute) : Json :=
  match a.value with
  | .bare => .bool true
  | .text _ data => .str data
  | .mustache tag => expressionValue constants tag.expression

def props (constants : Dictionary Json) (attributes : List Markup.Attribute) : Dictionary Json :=
  Dictionary.ofList (attributes.map fun a => (a.name, value constants a))

mutual

/-- What a node shows. A display is one widget with its props resolved, unless these hide it; the
branch of a block is chosen by the truth of its input. -/
def evaluate (constants : Dictionary Json) (state : InputState) : Markup.Node → List RenderNode
  | .element _ tag attributes children =>
    match Registry.lookup tag with
    | .display spec implied =>
      let resolved := LoadedModule.resolveEntries state
        (Component.withImpliedType implied (props constants attributes))
      if Widget.hides resolved then []
      else [.widget spec.name resolved (evaluateAll constants state children)]
    | .input _ | .unknown => []
  | .text _ data => if Text.isAllBlank data then [] else [.text (Text.collapsed data)]
  | .mustache tag =>
    match tag.expression.inputName?, tag.expression.literal? with
    | some name, _ => [.text (state.shown name)]
    | none, some (.str text) => [.text text]
    | none, _ => []
  | .ifBlock _ _ condition children alternative =>
    if condition.inputName?.any state.isTruthy then evaluateAll constants state children
    else evaluateAlternative constants state alternative
  | .comment .. | .style .. => []

def evaluateAll (constants : Dictionary Json) (state : InputState) :
    List Markup.Node → List RenderNode
  | [] => []
  | first :: more => evaluate constants state first ++ evaluateAll constants state more

def evaluateAlternative (constants : Dictionary Json) (state : InputState) :
    Markup.Alternative → List RenderNode
  | .absent => []
  | .otherwise _ children => evaluateAll constants state children
  | .elseIf _ block => evaluate constants state block

end

/-- The constants that the script of a document declares. -/
def declared (document : Markup.Document) : Dictionary Json :=
  match document.scriptProgram? with
  | .ok (some (.program _ statements)) => constants statements
  | _ => []

/-- What a document shows. -/
def ofDocument (document : Markup.Document) (state : InputState) : List RenderNode :=
  evaluateAll (declared document) state document.children

end Dashboard.Meaning
