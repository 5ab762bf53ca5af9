import Dashboard.Inputs

/-!
The registry: the components that a document may use. Inputs declare a value of one type; displays
render content; a chart alias is a chart with a type of its own.
-/
namespace Dashboard

structure InputSpec where
  name : String
  props : List String
  generates : ValueType
  sample : String
  deriving DecidableEq, Repr

structure DisplaySpec where
  name : String
  props : List String
  consumes : List String
  sample : String
  isContainer : Bool
  deriving DecidableEq, Repr

/-- What a tag names. A chart alias implies the type of the chart. -/
inductive Lookup where
  | input (spec : InputSpec)
  | display (spec : DisplaySpec) (impliedType : Option String)
  | unknown
  deriving DecidableEq, Repr

/-- The version of the program. -/
def version : String := "0.1.0"

namespace Registry

/-- The inputs in the order of their names. -/
def inputs : List InputSpec :=
  [⟨"DateRange", ["name", "label", "start", "end"], .object,
      "<DateRange name=\"dateRange\" start=\"2024-01-01\" end=\"2024-12-31\" />"⟩,
    ⟨"Dropdown", ["name", "label", "options", "value"], .string,
      "<Dropdown name=\"region\" options=\"North,South,East,West\" value=\"North\" />"⟩,
    ⟨"NumberInput", ["name", "label", "value", "min", "max"], .number,
      "<NumberInput name=\"threshold\" label=\"Threshold\" value=\"100\" min=\"0\" max=\"1000\" />"⟩,
    ⟨"RadioGroup", ["name", "label", "options", "value"], .string,
      "<RadioGroup name=\"chartType\" options=\"bar,line,pie\" value=\"bar\" />"⟩,
    ⟨"TextInput", ["name", "label", "value", "placeholder"], .string,
      "<TextInput name=\"searchTerm\" label=\"Search\" placeholder=\"Enter keywords\" />"⟩,
    ⟨"Toggle", ["name", "label", "value"], .boolean,
      "<Toggle name=\"showFilters\" label=\"Show Filters\" value=\"true\" />"⟩]

def chart : DisplaySpec :=
  ⟨"Chart", ["type", "title", "source", "visible", "filter", "data"], ["inputs.*"],
    "<Chart type=\"bar\" source=\"sales\" visible=\"\x7binputs.showCharts\x7d\" />", false⟩

/-- The displays in the order of their names. -/
def displays : List DisplaySpec :=
  [chart,
    ⟨"Filter", ["title", "visible"], ["inputs.*"],
      "<Filter title=\"Filters\" visible=\"\x7binputs.showFilters\x7d\" />", false⟩,
    ⟨"Grid", ["cols", "rows", "visible"], ["inputs.*"],
      "<Grid cols=\"3\" visible=\"\x7binputs.showFilters\x7d\">...</Grid>", true⟩]

def chartAliases : List (String × String) :=
  [("BarChart", "bar"), ("LineChart", "line"), ("PieChart", "pie")]

def input? (name : String) : Option InputSpec :=
  inputs.find? fun spec => spec.name = name

def display? (name : String) : Option DisplaySpec :=
  displays.find? fun spec => spec.name = name

/-- Inputs first, then displays, then chart aliases. -/
def lookup (tag : String) : Lookup :=
  match input? tag with
  | some spec => .input spec
  | none =>
    match display? tag with
    | some spec => .display spec none
    | none =>
      match List.lookup tag chartAliases with
      | some implied => .display chart (some implied)
      | none => .unknown

/-- The names that every script can use without importing them. -/
def displayNames : List String := displays.map DisplaySpec.name

def inputNames : List String := inputs.map InputSpec.name

end Registry

end Dashboard
