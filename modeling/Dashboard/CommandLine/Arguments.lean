import Dashboard.CommandLine.Command
import Dashboard.Text.Blank

/-!
Reading arguments. Options of the program may stand before the command and after it; those after it
count more. Reading stops at the first argument that asks for help or for the version, or that does
not fit.
-/
namespace Dashboard.CommandLine

inductive UsageError where
  | unknownOption (text : String)
  | unknownCommand (text : String)
  | missingValue (option : String)
  | unexpectedValue (option : String)
  | emptyValue (name : String)
  | repeated (option : String)
  | excessOperand (text : String)
  | missingOperand (name : String)
  | conflict (option : String)
  | missingCommand
  deriving DecidableEq, Repr

def UsageError.message : UsageError → String
  | unknownOption text | excessOperand text => "unexpected argument '" ++ text ++ "' found"
  | unknownCommand text => "unrecognized subcommand '" ++ text ++ "'"
  | missingValue option => "a value is required for '--" ++ option ++ "' but none was supplied"
  | unexpectedValue option => "unexpected value for '--" ++ option ++ "' found; no more were expected"
  | emptyValue name => "a value is required for '" ++ name ++ "' but none was supplied"
  | repeated option => "the argument '--" ++ option ++ "' cannot be used multiple times"
  | missingOperand name => "the required argument '" ++ name ++ "' was not provided"
  | conflict option => "the argument '--" ++ option ++ "' cannot be used with the given operands"
  | missingCommand => "a subcommand is required but one was not provided"

/-- Why reading stops before there is a command to run; help is on the program or on a command. -/
inductive Stop where
  | help (command : Option String)
  | version
  | usage (error : UsageError)
  deriving DecidableEq, Repr

/-- A command with the options that every command has. -/
structure Invocation where
  command : Command
  config : Option String := none
  isVerbose : Bool := false
  isQuiet : Bool := false
  deriving DecidableEq, Repr

inductive Argument where
  /-- Two dashes alone: what follows are operands. -/
  | separator
  | long (name : String) (attached : Option String)
  | cluster (letters : List Char)
  | plain (text : String)
  deriving DecidableEq, Repr

def Argument.ofText (text : String) : Argument :=
  match text.toList with
  | ['-', '-'] => .separator
  | '-' :: '-' :: rest =>
    match rest.dropWhile (· ≠ '=') with
    | _ :: value => .long (String.ofList (rest.takeWhile (· ≠ '='))) (some (String.ofList value))
    | [] => .long (String.ofList rest) none
  | '-' :: c :: rest => .cluster (c :: rest)
  | _ => .plain text

/-- What has been read, and the option that waits for its value. -/
structure Reading where
  given : Given := {}
  pending : Option OptionSpec := none
  onlyOperands : Bool := false
  deriving DecidableEq, Repr

namespace Reading

def refuse {α : Type} (e : UsageError) : Except Stop α := .error (.usage e)

def addValue (r : Reading) (option : OptionSpec) (value : String) : Except Stop Reading :=
  if option.isPath && value.isEmpty then refuse (.emptyValue option.long)
  else
    let isSingle := match option.action with
      | .value _ => true
      | _ => false
    if isSingle && (r.given.value? option.long).isSome then refuse (.repeated option.long)
    else
      .ok { r with
        given := { r.given with values := r.given.values ++ [(option.long, value)] }
        pending := none }

/-- An option without a value. -/
def addFlag (command : Option String) (r : Reading) (option : OptionSpec) : Except Stop Reading :=
  match option.action with
  | .showHelp => .error (.help command)
  | .showVersion => .error .version
  | _ =>
    if r.given.hasFlag option.long then refuse (.repeated option.long)
    else .ok { r with given := { r.given with flags := r.given.flags ++ [option.long] } }

def addOperand (operands : List OperandSpec) (r : Reading) (text : String) :
    Except Stop Reading :=
  match operands[r.given.operands.length]? with
  | none => refuse (.excessOperand text)
  | some operand =>
    if operand.isPath && text.isEmpty then refuse (.emptyValue operand.name)
    else .ok { r with given := { r.given with operands := r.given.operands ++ [text] } }

variable (options : List OptionSpec) (command : Option String)

def long (r : Reading) (name : String) (attached : Option String) : Except Stop Reading :=
  match options.find? fun option => option.long = name with
  | none => refuse (.unknownOption ("--" ++ name))
  | some option =>
    match option.action.valueName?, attached with
    | some _, some value => r.addValue option value
    | some _, none => .ok { r with pending := some option }
    | none, some _ => refuse (.unexpectedValue option.long)
    | none, none => r.addFlag command option

/-- Letters behind one dash: flags, and at last an option that takes the rest as its value. -/
def cluster (r : Reading) : List Char → Except Stop Reading
  | [] => .ok r
  | c :: rest =>
    match options.find? fun option => option.short = some c with
    | none => refuse (.unknownOption (String.ofList ['-', c]))
    | some option =>
      match option.action.valueName?, rest with
      | some _, [] => .ok { r with pending := some option }
      | some _, '=' :: value => r.addValue option (String.ofList value)
      | some _, value => r.addValue option (String.ofList value)
      | none, rest => do cluster (← r.addFlag command option) rest

/-- One argument, where operands are expected in this order. -/
def argument (operands : List OperandSpec) (r : Reading) (text : String) : Except Stop Reading :=
  if r.onlyOperands then r.addOperand operands text
  else
    match Argument.ofText text, r.pending with
    | .plain text, some option => r.addValue option text
    | .plain text, none => r.addOperand operands text
    | _, some option => refuse (.missingValue option.long)
    | .separator, none => .ok { r with onlyOperands := true }
    | .long name attached, none => r.long options command name attached
    | .cluster letters, none => r.cluster options command letters

end Reading

open Reading (refuse)

/-- What a command has been given, if that is enough and fits together. -/
def finish (spec : CommandSpec) (outer : Given) (r : Reading) : Except Stop Invocation := do
  if let some option := r.pending then refuse (.missingValue option.long)
  let given := r.given
  let replacing := spec.allOptions.find? fun option =>
    option.replacesOperands && (given.value? option.long).isSome
  if let some option := replacing then
    if !given.operands.isEmpty then refuse (.conflict option.long)
  let missing := (spec.operands.drop given.operands.length).find? OperandSpec.isRequired
  if let some operand := missing then refuse (.missingOperand operand.name)
  match spec.build given with
  | none => refuse .missingCommand
  | some command =>
    return { command := command
             config := given.value? "config" <|> outer.value? "config"
             isVerbose := given.hasFlag "verbose" || outer.hasFlag "verbose"
             isQuiet := given.hasFlag "quiet" || outer.hasFlag "quiet" }

def readCommand (spec : CommandSpec) (outer : Given) (arguments : List String) :
    Except Stop Invocation := do
  let r ← arguments.foldlM
    (Reading.argument spec.allOptions (some spec.name) spec.operands) {}
  finish spec outer r

/-- Help on the program or on one command, which has no commands of its own. -/
def readHelp : List String → Stop
  | [] => .help none
  | [name] =>
    if name = helpCommand.name || (command? name).isSome then .help (some name)
    else .usage (.unknownCommand name)
  | _ :: name :: _ => .usage (.unknownCommand name)

/-- The arguments before the command, and then the command. -/
def readFrom (r : Reading) : List String → Except Stop Invocation
  | [] =>
    match r.pending with
    | some option => refuse (.missingValue option.long)
    | none => refuse .missingCommand
  | text :: more =>
    match r.onlyOperands, r.pending, Argument.ofText text with
    | false, none, .plain name =>
      if name = helpCommand.name then .error (readHelp more)
      else
        match command? name with
        | some spec => readCommand spec r.given more
        | none => refuse (.unknownCommand name)
    | _, _, _ =>
      match r.argument program.options none [] text with
      | .ok next => readFrom next more
      | .error stop => .error stop

def read (arguments : List String) : Except Stop Invocation := readFrom {} arguments

end Dashboard.CommandLine
