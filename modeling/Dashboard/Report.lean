import Dashboard.Compiler
import Dashboard.Json.Printer

/-!
JSON records of what the program finds and makes. Fields stand in the order in which they are
written; values by name stand in the order of their names.
-/
namespace Dashboard

def Json.ofNat (n : Nat) : Json := .int n

def Json.text? : Option String → Json
  | some text => .str text
  | none => .null

def Component.toJson (c : Component) : Json :=
  .obj [("id", .ofNat c.id), ("type", .str c.tag), ("role", .str c.role.text),
    ("attributes", .obj c.attributes),
    ("parent", match c.parent with | some id => .ofNat id | none => .null),
    ("children", .arr (c.children.map .ofNat)),
    ("isContainer", .bool c.isContainer), ("insideGrid", .bool c.insideGrid)]

def Analysis.toJson (a : Analysis) : Json :=
  .obj [("inputComponents", .arr (a.inputs.map Component.toJson)),
    ("displayComponents", .arr (a.displays.map Component.toJson)),
    ("inputState", .obj a.state),
    ("errors", .strings (a.violations.map Violation.shown)),
    ("warnings", .strings (a.warnings.map ComponentWarning.message))]

def Verdict.toJson (v : Verdict) : Json :=
  .obj [("valid", .bool v.isValid), ("violations", .strings v.violations)]

def InputSpec.toJson (spec : InputSpec) : Json :=
  .obj [("name", .str spec.name), ("props", .strings spec.props),
    ("generates", .str spec.generates.text), ("example", .str spec.sample)]

def DisplaySpec.toJson (spec : DisplaySpec) : Json :=
  .obj [("name", .str spec.name), ("props", .strings spec.props),
    ("consumes", .strings spec.consumes), ("example", .str spec.sample),
    ("container", .bool spec.isContainer)]

def Registry.toJson : Json :=
  .obj [("inputs", .obj (inputs.map fun spec => (spec.name, spec.toJson))),
    ("displays", .obj (displays.map fun spec => (spec.name, spec.toJson)))]

def Artifact.toJson (a : Artifact) : Json :=
  let always := [("success", Json.bool a.success), ("code", Json.text? a.code?),
    ("warnings", .strings (a.warnings.map Warning.message)),
    ("error", .text? (a.failure?.map Failure.authorMessage))]
  match a.failure? with
  | none => .obj always
  | some f => .obj (always ++ [("errorCategory", .str f.category)])

mutual

def RenderNode.toJson : RenderNode → Json
  | .widget name props children =>
    .obj [("kind", .str "widget"), ("name", .str name), ("props", .obj props),
      ("children", .arr (renderNodesJson children))]
  | .text data => .obj [("kind", .str "text"), ("text", .str data)]

def renderNodesJson : List RenderNode → List Json
  | [] => []
  | first :: more => first.toJson :: renderNodesJson more

end

def ParamDeclaration.toJson (p : ParamDeclaration) : Json :=
  .obj [("component", .str p.component), ("valueType", .str p.valueType.text),
    ("props", .obj p.props)]

end Dashboard
