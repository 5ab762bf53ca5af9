/-!
The commands of the program, and what each of them takes. An option takes a value or is a flag; an
operand stands at its place without a name.
-/
namespace Dashboard.CommandLine

/-- What an option does; a value has a name in usage texts. -/
inductive Action where
  | flag
  | value (name : String)
  | values (name : String)
  | showHelp
  | showVersion
  deriving DecidableEq, Repr

namespace Action

def valueName? : Action → Option String
  | value name | values name => some name
  | _ => none

end Action

structure OptionSpec where
  long : String
  short : Option Char := none
  action : Action := .flag
  /-- Paths are not empty. -/
  isPath : Bool := false
  /-- Whether it is given in place of the operands. -/
  replacesOperands : Bool := false
  help : String
  deriving DecidableEq, Repr

structure OperandSpec where
  name : String
  isRequired : Bool := true
  isRepeatable : Bool := false
  isPath : Bool := false
  help : String
  deriving DecidableEq, Repr

/-- What the arguments give: flags and values by the long names of options, and operands. -/
structure Given where
  flags : List String := []
  values : List (String × String) := []
  operands : List String := []
  deriving DecidableEq, Repr

namespace Given

def hasFlag (g : Given) (name : String) : Bool := g.flags.contains name

def valuesOf (g : Given) (name : String) : List String :=
  g.values.filterMap fun entry => if entry.1 = name then some entry.2 else none

def value? (g : Given) (name : String) : Option String := (g.valuesOf name).head?

end Given

inductive Command where
  | check (file : String) (asJson : Bool)
  | compile (file : String) (asJson : Bool) (output : Option String)
  | inspect (file : String)
  | render (file : String) (overrides : List String)
  | hash (file : String)
  | save (document page file : String)
  | load (document page : String) (asJson : Bool)
  | list (asJson : Bool)
  | queries (file document : Option String) (asJson : Bool)
  | version
  deriving DecidableEq, Repr

structure CommandSpec where
  name : String
  help : String
  operands : List OperandSpec := []
  options : List OptionSpec := []
  build : Given → Option Command

def asJson (help : String) : OptionSpec := { long := "json", help := help }

def dashFile : OperandSpec := { name := "FILE", isPath := true, help := "Path to .dash file" }

def documentName : OperandSpec := { name := "DOC", help := "Document name" }

def pageName : OperandSpec := { name := "PAGE", help := "Page name" }

def onFile (make : String → Given → Command) (g : Given) : Option Command :=
  match g.operands with
  | [file] => some (make file g)
  | _ => none

def commands : List CommandSpec :=
  [{ name := "check"
     help := "Validate a document without printing code"
     operands := [dashFile]
     options := [asJson "Output as JSON"]
     build := onFile fun file g => .check file (g.hasFlag "json") },
   { name := "compile"
     help := "Compile a document to a dashc module"
     operands := [dashFile]
     options := [asJson "Print the full artifact as JSON",
       { long := "output", short := some 'o', action := .value "OUTPUT", isPath := true
         help := "Write the module to a file instead of stdout" }]
     build := onFile fun file g => .compile file (g.hasFlag "json") (g.value? "output") },
   { name := "inspect"
     help := "Show classified components and initial input state as JSON"
     operands := [dashFile]
     build := onFile fun file _ => .inspect file },
   { name := "render"
     help := "Render a document against its input state"
     operands := [dashFile]
     options := [{ long := "set", action := .values "NAME=VALUE"
                   help := "Override an input: --set name=value (repeatable)" }]
     build := onFile fun file g => .render file (g.valuesOf "set") },
   { name := "hash"
     help := "SHA-256 of the compiled module"
     operands := [dashFile]
     build := onFile fun file _ => .hash file },
   { name := "save"
     help := "Compile and store a page"
     operands := [documentName, pageName, dashFile]
     build := fun g =>
       match g.operands with
       | [document, page, file] => some (.save document page file)
       | _ => none },
   { name := "load"
     help := "Print a stored page's source"
     operands := [documentName, pageName]
     options := [asJson "Print the whole record as JSON"]
     build := fun g =>
       match g.operands with
       | [document, page] => some (.load document page (g.hasFlag "json"))
       | _ => none },
   { name := "list"
     help := "List stored documents and pages"
     options := [asJson "Output as JSON"]
     build := fun g => some (.list (g.hasFlag "json")) },
   { name := "queries"
     help := "List the named queries in a query file"
     operands := [{ name := "FILE", isRequired := false, isPath := true
                    help := "Path to a query file (default: the configured query file)" }]
     options := [{ long := "doc", action := .value "DOC", replacesOperands := true
                   help := "Read the query file of a stored document instead" },
       asJson "Output as JSON"]
     build := fun g => some (.queries g.operands.head? (g.value? "doc") (g.hasFlag "json")) },
   { name := "version"
     help := "Show version information"
     build := fun _ => some .version }]

/-- Options of every command, which may also stand before it. -/
def globalOptions : List OptionSpec :=
  [{ long := "config", action := .value "CONFIG", isPath := true
     help := "Configuration file (default: ./dashc.toml if present)" },
   { long := "verbose", short := some 'v', help := "Debug logging on stderr" },
   { long := "quiet", short := some 'q'
     help := "Suppress normal output; rely on the exit code" }]

def helpOption : OptionSpec :=
  { long := "help", short := some 'h', action := .showHelp, help := "Print help" }

def versionOption : OptionSpec :=
  { long := "version", short := some 'V', action := .showVersion, help := "Print version" }

/-- The program itself: what stands before a command. -/
def program : CommandSpec :=
  { name := "dashc"
    help := "dashc - command-line interface"
    options := globalOptions ++ [helpOption, versionOption]
    build := fun _ => none }

def CommandSpec.allOptions (spec : CommandSpec) : List OptionSpec :=
  spec.options ++ globalOptions ++ [helpOption]

/-- The command that shows help on the others; it takes their names and no options. -/
def helpCommand : CommandSpec :=
  { name := "help"
    help := "Print this message or the help of the given subcommand(s)"
    operands := [{ name := "COMMAND", isRequired := false, isRepeatable := true
                   help := "Print help for the subcommand(s)" }]
    build := fun _ => none }

def command? (name : String) : Option CommandSpec :=
  commands.find? fun spec => spec.name = name

end Dashboard.CommandLine
