import Dashboard.Decimal.Numeral
import Dashboard.Json.Printer
import Dashboard.Json.Reader
import Dashboard.Text.Blank

/-!
The values of the inputs of a dashboard, by name; and how a value becomes one of the type that an
input declares.
-/
namespace Dashboard

inductive ValueType where
  | boolean | number | string | object
  deriving DecidableEq, Repr

namespace ValueType

def all : List ValueType := [.boolean, .number, .string, .object]

def text : ValueType → String
  | boolean => "boolean"
  | number => "number"
  | string => "string"
  | object => "object"

def ofText? (text : String) : Option ValueType :=
  all.find? fun t => t.text = text

end ValueType

namespace Json

def toDouble? : Json → Option Binary64
  | int n => some (.ofInt n)
  | float x => some x
  | _ => none

def string? : Json → Option String
  | str text => some text
  | _ => none

/-- False, null, zero and the empty text are false. -/
def isTruthy : Json → Bool
  | null => false
  | bool b => b
  | int n => n ≠ 0
  | float x => !x.isZero
  | str text => text ≠ ""
  | arr _ | obj _ => true

/-- The text that stands for a value inside other text. -/
def stringified : Json → String
  | null => ""
  | str text => text
  | value => value.text

/-- The value that an input of the type takes from a given one. -/
def coerce (value : Json) : ValueType → Json
  | .boolean =>
    match value with
    | bool b => .bool b
    | str text => .bool (text = "true")
    | _ => .bool false
  | .number =>
    let number := match value with
      | str text => Decimal.numeral? (Text.trim text.toList)
      | other => other.toDouble?
    match number with
    | some x => if x.isFinite then .ofNumber x else .int 0
    | none => .int 0
  | .object =>
    match value with
    | str text => (ofText? text).getD (.obj [])
    | other => other
  | .string => .str value.stringified

end Json

/-- Values by name, in the order of the names. -/
abbrev InputState := Dictionary Json

namespace InputState

def isTruthy (state : InputState) (name : String) : Bool :=
  (Dictionary.find? state name).any Json.isTruthy

/-- What a reference to the input shows; nothing for a missing input. -/
def shown (state : InputState) (name : String) : String :=
  match Dictionary.find? state name with
  | some value => value.stringified
  | none => ""

end InputState

end Dashboard
