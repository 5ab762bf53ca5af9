import Dashboard.Json.Printer
import Dashboard.Script.Tree

/-!
Reducing expressions to JSON values. A literal is built from literals alone; an attribute value may
also hold names and references to inputs, and puts null for parts it cannot reduce.
-/
namespace Dashboard.Script.Node

/-- The text of a property key: a name, or a literal string or number. -/
def key? : Node → Option String
  | identifier _ name => some name
  | literal _ (.str text) => some text
  | literal _ (.number value) => some (Json.ofNumber value).text
  | _ => none

/-- The name in `inputs.name`, written with a dot. -/
def inputName? : Node → Option String
  | member _ (identifier _ "inputs") (identifier _ name) false => some name
  | _ => none

/-- The text that stands for the current value of an input. -/
def placeholder (name : String) : String :=
  "\x7binputs." ++ name ++ "\x7d"

mutual

def literal? : Node → Option Json
  | literal _ value => some value.toJson
  | array _ elements => (literals? elements).map .arr
  | object _ properties => (literalEntries? properties).map .object
  | _ => none

def literals? : List Node → Option (List Json)
  | [] => some []
  | first :: more =>
    match literal? first, literals? more with
    | some value, some values => some (value :: values)
    | _, _ => none

def literalEntries? : List Node → Option (List (String × Json))
  | [] => some []
  | .property _ key value _ :: more =>
    match key? key, literal? value, literalEntries? more with
    | some k, some v, some entries => some ((k, v) :: entries)
    | _, _, _ => none
  | _ :: _ => none

end

mutual

/-- The value of an attribute expression: a name stands for its own text, and a reference to an
input for its placeholder. -/
def value? : Node → Option Json
  | literal _ value => some value.toJson
  | identifier _ name => some (.str name)
  | node@(member ..) => (inputName? node).map fun name => .str (placeholder name)
  | array _ elements => some (.arr (valuesOrNull elements))
  | object _ properties => some (.object (valueEntries properties))
  | _ => none

def valuesOrNull : List Node → List Json
  | [] => []
  | first :: more => .ofOption (value? first) :: valuesOrNull more

/-- Spreads and keys without a text are left out. -/
def valueEntries : List Node → List (String × Json)
  | [] => []
  | .property _ key value _ :: more =>
    match key? key with
    | some k => (k, .ofOption (value? value)) :: valueEntries more
    | none => valueEntries more
  | _ :: more => valueEntries more

end

end Dashboard.Script.Node
