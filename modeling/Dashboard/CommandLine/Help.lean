import Dashboard.CommandLine.Arguments
import Dashboard.Registry

/-!
Usage texts. What can be given stands in two columns: how it is written, and what it is for.
-/
namespace Dashboard.CommandLine

def OptionSpec.shown (option : OptionSpec) : String :=
  let short := match option.short with
    | some c => String.ofList ['-', c, ',', ' ']
    | none => "    "
  let value := match option.action.valueName? with
    | some name => " <" ++ name ++ ">"
    | none => ""
  short ++ "--" ++ option.long ++ value

def OperandSpec.shown (operand : OperandSpec) : String :=
  let name := if operand.isRequired then "<" ++ operand.name ++ ">" else "[" ++ operand.name ++ "]"
  if operand.isRepeatable then name ++ "..." else name

/-- A titled block of two columns; nothing where it has no rows. -/
def block (title : String) (rows : List (String × String)) : List String :=
  let width := (rows.map fun row => row.1.length).foldl max 0
  let padded := fun (text : String) =>
    text ++ String.ofList (List.replicate (width - text.length) ' ')
  if rows.isEmpty then []
  else [(title ++ ":") ++ String.join (rows.map fun row => "\n  " ++ padded row.1 ++ "  " ++ row.2)]

def usageLine (spec : CommandSpec) (options : List OptionSpec) : String :=
  let name := if spec.name = program.name then [] else [spec.name]
  let optional := if options.isEmpty then [] else ["[OPTIONS]"]
  let command := if spec.name = program.name then ["<COMMAND>"] else []
  "Usage: " ++ " ".intercalate
    (program.name :: name ++ optional ++ spec.operands.map OperandSpec.shown ++ command)

def helpText (spec : CommandSpec) (options : List OptionSpec) (commands : List CommandSpec) :
    String :=
  "\n\n".intercalate
    ([spec.help, usageLine spec options] ++
      block "Commands" (commands.map fun command => (command.name, command.help)) ++
      block "Arguments" (spec.operands.map fun operand => (operand.shown, operand.help)) ++
      block "Options" (options.map fun option => (option.shown, option.help))) ++ "\n"

/-- The help on the program or on the command with a name. -/
def help : Option String → String
  | none => helpText program program.options (commands ++ [helpCommand])
  | some name =>
    match command? name with
    | some spec => helpText spec spec.allOptions []
    | none => helpText helpCommand [] []

def versionText : String := program.name ++ " " ++ version

end Dashboard.CommandLine
