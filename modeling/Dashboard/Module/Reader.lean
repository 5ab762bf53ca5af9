import Dashboard.Module.Instruction
import Dashboard.Placeholder

/-!
Reading the lines of a module. A line is an operator and what follows its first space.
-/
namespace Dashboard.Module

inductive LoadError where
  | tooManyInstructions (limit : Nat)
  | malformed (number : Nat) (line : String)
  | invalidString (number : Nat)
  | invalidProps (number : Nat)
  | invalidValue (number : Nat)
  | moduleNotFound (source : String)
  | undefinedBinding (name : String)
  | unbalanced (operator : String) (number : Nat)
  | unknownInstruction (operator : String) (number : Nat)
  | tooDeep (limit : Nat)
  | unclosedBlock
  deriving DecidableEq, Repr

def LoadError.message : LoadError → String
  | tooManyInstructions limit =>
    "Module exceeds the limit of " ++ toString limit ++ " instructions"
  | malformed number line =>
    "Malformed instruction at line " ++ toString number ++ ": " ++ line
  | invalidString number => "Invalid string at line " ++ toString number
  | invalidProps number => "Invalid props at line " ++ toString number
  | invalidValue number => "Invalid value at line " ++ toString number
  | moduleNotFound source => "Module not found: " ++ source
  | undefinedBinding name => name ++ " is not defined"
  | unbalanced operator number => "Unbalanced '" ++ operator ++ "' at line " ++ toString number
  | unknownInstruction operator number =>
    "Unknown instruction '" ++ operator ++ "' at line " ++ toString number
  | tooDeep limit => "Module nesting exceeds the limit of " ++ toString limit
  | unclosedBlock => "Module ended inside an unclosed block"

/-- The text before and after the first occurrence of a mark. -/
def splitAt? (mark : List Char) : List Char → Option (List Char × List Char)
  | [] => none
  | c :: rest =>
    if mark.isPrefixOf (c :: rest) then some ([], (c :: rest).drop mark.length)
    else (splitAt? mark rest).map fun parts => (c :: parts.1, parts.2)

/-- The text before and after the first space; all of it before where there is none. -/
def splitSpace (text : List Char) : List Char × List Char :=
  (splitAt? [' '] text).getD (text, [])

def readString (number : Nat) (text : List Char) : Except LoadError String :=
  match Json.ofChars? text with
  | some (.str value) => .ok value
  | _ => .error (.invalidString number)

def readProps (number : Nat) (text : List Char) : Except LoadError (Dictionary Json) :=
  match Json.ofChars? (Text.trim text) with
  | some (.obj entries) => .ok entries
  | _ => .error (.invalidProps number)

namespace Instruction

section Operands

/-! The operands of each operator. `number` and `line` say which line is read, and `rest` is what
follows the operator, trimmed. -/

variable (number : Nat) (line : List Char) (rest : List Char)

def malformedLine : LoadError := .malformed number (String.ofList line)

def readBind : Except LoadError Instruction :=
  match splitAt? " from ".toList rest with
  | none => .error (malformedLine number line)
  | some (name, source) =>
    (readString number (Text.trim source)).map (.bind (String.ofList (Text.trim name)))

def readParam : Except LoadError Instruction :=
  match splitAt? [' '] rest with
  | none => .error (malformedLine number line)
  | some (component, rest) =>
    match splitAt? [' '] rest with
    | none => .error (malformedLine number line)
    | some (valueType, entries) =>
      match ValueType.ofText? (String.ofList valueType) with
      | none => .error (malformedLine number line)
      | some t => (readProps number entries).map (.param (String.ofList component) t)

def readConstant : Except LoadError Instruction :=
  match splitAt? [' '] rest with
  | none => .error (malformedLine number line)
  | some (name, value) =>
    match Json.ofChars? (Text.trim value) with
    | some v => .ok (.constant (String.ofList name) v)
    | none => .error (.invalidValue number)

/-- The binding of a widget has to be known before its props are read. -/
def readWidget (isBound : String → Bool) (make : String → Dictionary Json → Instruction) :
    Except LoadError Instruction :=
  let (name, entries) := (splitAt? [' '] rest).getD (rest, "\x7b\x7d".toList)
  let binding := String.ofList name
  if isBound binding then (readProps number entries).map (make binding)
  else .error (.undefinedBinding binding)

def readReference (make : String → Instruction) : Except LoadError Instruction :=
  match Placeholder.reference? (String.ofList rest) with
  | some name => .ok (make name)
  | none => .error (malformedLine number line)

end Operands

/-- The instruction on a line that is trimmed and not empty. -/
def read (isBound : String → Bool) (number : Nat) (line : List Char) :
    Except LoadError Instruction :=
  let parts := splitSpace line
  let rest := Text.trim parts.2
  match String.ofList parts.1 with
  | "module" => (readString number rest).map .title
  | "import" => readBind number line rest
  | "param" => readParam number line rest
  | "let" => readConstant number line rest
  | "mount" => readWidget number rest isBound .mount
  | "open" => readWidget number rest isBound .openWidget
  | "close" => .ok .closeWidget
  | "if" => readReference number line rest .whenInput
  | "else" => .ok .otherwise
  | "end" => .ok .endWhen
  | "text" => (readString number rest).map .text
  | "expr" => readReference number line rest .shown
  | operator => .error (.unknownInstruction operator number)

end Instruction

/-- Blank lines and comments hold no instruction. -/
def holdsInstruction (line : List Char) : Bool :=
  !line.isEmpty && !"//".toList.isPrefixOf line

end Dashboard.Module
