import Dashboard.Json.Reader
import Dashboard.Report

/-!
What an editor asks of the program, with JSON text on both sides: compile, analyze, resolve, render.
-/
namespace Dashboard.Editor

def compileText (source filename : String) : String :=
  (compile source filename).toJson.text

def analyzeText (source : String) : String :=
  (analyze source).toJson.text

/-- The inputs given as the text of a JSON object. -/
def readInputs (inputs : String) : Except Failure InputState :=
  match Json.ofText? inputs with
  | some (.obj entries) => .ok entries
  | _ => .error (.json "Invalid inputs")

def resolveText (value inputs : String) : Except Failure String := do
  return Placeholder.resolve value (← readInputs inputs)

/-- Renders with the values that the inputs begin with, replaced by those given; blank text gives
none. -/
def renderText (source inputs : String) : Except Failure String := do
  let compiled ← (compile source "Dashboard.dash").outcome
  let start := compiled.component.initialState
  let overrides ← if Text.isAllBlank inputs then pure [] else readInputs inputs
  let state := Dictionary.override start overrides
  return (Json.arr (renderNodesJson (compiled.component.render state))).text

end Dashboard.Editor
