import Dashboard.Component
import Dashboard.Failure
import Dashboard.Policy
import Dashboard.Prefilter

/-!
Everything that can be held against a document before it is compiled, and the analysis that the
authoring view shows: the components, the values that the inputs begin with, and what is wrong.
-/
namespace Dashboard

inductive Violation where
  | forbidden (violation : Prefilter.Violation)
  | malformed (error : ParseError)
  | script (violation : Policy.Violation)
  | component (fault : ComponentFault)
  deriving DecidableEq, Repr

namespace Violation

def message : Violation → String
  | forbidden violation => violation.message
  | malformed error => error.message
  | script violation => violation.message
  | component fault => fault.message

/-- In an analysis a parse error is shown with its category. -/
def shown : Violation → String
  | malformed error => error.failure.display
  | other => other.message

end Violation

structure Analysis where
  inputs : List Component := []
  displays : List Component := []
  state : InputState := []
  violations : List Violation := []
  warnings : List ComponentWarning := []
  deriving Repr

/-- Scripts are judged by the strict policy; a document with a script shows no components. -/
def analyze (source : String) : Analysis :=
  let forbidden := (Prefilter.scan source).map Violation.forbidden
  match Markup.parse source with
  | .error e => { violations := forbidden ++ [.malformed e] }
  | .ok document =>
    match ScriptPolicy.strict.enforce document.script with
    | .error e => { violations := forbidden ++ [.malformed e] }
    | .ok outcome =>
      if outcome.violations.isEmpty then
        let c := document.classify
        { inputs := c.inputComponents
          displays := c.displayComponents
          state := Component.initialState c.inputComponents
          violations := forbidden ++ c.faults.map .component
          warnings := c.warnings }
      else { violations := forbidden ++ outcome.violations.map .script }

end Dashboard
