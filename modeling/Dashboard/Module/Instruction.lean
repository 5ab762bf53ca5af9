import Dashboard.Inputs

/-!
Instructions of a module, one to a line. A module names itself, binds widgets, declares parameters
and constants, and then builds its content.
-/
namespace Dashboard.Module

inductive Instruction where
  | title (filename : String)
  | bind (name source : String)
  | param (component : String) (valueType : ValueType) (props : Dictionary Json)
  | constant (name : String) (value : Json)
  | mount (binding : String) (props : Dictionary Json)
  | openWidget (binding : String) (props : Dictionary Json)
  | closeWidget
  | whenInput (name : String)
  | otherwise
  | endWhen
  | text (data : String)
  | shown (name : String)
  deriving Repr

namespace Instruction

def quoted (text : String) : String := (Json.str text).text

def props (entries : Dictionary Json) : String := (Json.obj entries).text

def line : Instruction → String
  | title filename => "module " ++ quoted filename
  | bind name source => "import " ++ name ++ " from " ++ quoted source
  | param component valueType entries =>
    "param " ++ component ++ " " ++ valueType.text ++ " " ++ props entries
  | constant name value => "let " ++ name ++ " " ++ value.text
  | mount binding entries => "mount " ++ binding ++ " " ++ props entries
  | openWidget binding entries => "open " ++ binding ++ " " ++ props entries
  | closeWidget => "close"
  | whenInput name => "if inputs." ++ name
  | otherwise => "else"
  | endWhen => "end"
  | text data => "text " ++ quoted data
  | shown name => "expr inputs." ++ name

end Instruction

/-- An instruction at a depth of nesting, which only indents it. -/
structure Line where
  depth : Nat
  instruction : Instruction
  deriving Repr

def Line.text (line : Line) : String :=
  String.ofList (List.replicate (2 * line.depth) ' ') ++ line.instruction.line

/-- The text of a module: a comment, then a line for every instruction. -/
def text (lines : List Line) : String :=
  String.join (("// dashc module" :: lines.map Line.text).map (· ++ "\n"))

end Dashboard.Module
