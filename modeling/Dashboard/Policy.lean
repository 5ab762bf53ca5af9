import Dashboard.Markup.Parser
import Dashboard.Script.Literal
import Dashboard.Text.Pattern

/-!
The script policy: what the script region of a document may hold. The strict policy allows no
region at all. The permissive one allows declarations of variables with conventional names and
bounded literals, and calls of a few functions; it reports everything else that it knows.
-/
namespace Dashboard

inductive ScriptPolicy where
  | strict | permissive
  deriving DecidableEq, Repr, Inhabited

def ScriptPolicy.text : ScriptPolicy → String
  | strict => "strict"
  | permissive => "permissive"

namespace Policy

inductive Violation where
  | scriptRegion
  | functionDeclaration
  | call (name : String)
  | imports
  | variableName (name : String)
  | longString
  | largeNumber
  | longArray
  | arrayElement
  | largeObject
  | complexObject
  | objectValue
  | initializer (kind : String)
  deriving DecidableEq, Repr

def maxStringLength : Nat := 100

def maxArrayLength : Nat := 100

def maxObjectSize : Nat := 20

def maxMagnitude : Nat := 1000000

def Violation.message : Violation → String
  | scriptRegion => "Script not allowed: use input components for parameters"
  | functionDeclaration => "Function declarations not allowed"
  | call name => "Function call '" ++ name ++ "' not allowed"
  | imports => "Imports not allowed in dashboard code"
  | variableName name => "Variable name '" ++ name ++ "' doesn't match allowed patterns"
  | longString => "String values must be at most 100 characters"
  | largeNumber => "Number values must be reasonable (-1M to 1M)"
  | longArray => "Arrays must have at most 100 elements"
  | arrayElement => "Array contains non-literal values"
  | largeObject => "Objects must have at most 20 properties"
  | complexObject => "Complex object structures not allowed"
  | objectValue => "Object contains non-literal values"
  | initializer kind => "Variable initialization type '" ++ kind ++ "' not allowed"

section Names

open Text Pattern

def letters : Pattern := seq (char isAsciiLetter) (many isAsciiLetter)

/-- A flag: a word for a state, then a name in capitals. -/
def flagName : Pattern :=
  sequence [choice (["show", "hide", "visible", "enabled", "disabled", "active", "inactive"].map
      fun word => literal word.toList),
    char fun c => 'A' ≤ c && c ≤ 'Z', many isAsciiLetter]

def namePatterns : List Pattern :=
  flagName :: ["Data", "Config", "Title", "Label", "Count", "Value"].map
    fun ending => seq letters (literal ending.toList)

/-- Whether a name follows one of the conventions for variables. -/
def isAllowedName (name : String) : Bool :=
  namePatterns.any fun pattern => pattern.matchesWhole name.toList

end Names

def allowedCalls : List String :=
  ["Math.round", "Math.floor", "Math.ceil", "Math.max", "Math.min"]

/-- The name under which a call is reported: `name`, or `object.property` without brackets. -/
def calleeName : Script.Node → String
  | .identifier _ name => name
  | .member _ owner property computed =>
    let left := match owner with
      | .identifier _ name => name
      | _ => "unknown"
    let right := match property, computed with
      | .identifier _ name, false => name
      | _, _ => "unknown"
    left ++ "." ++ right
  | _ => "unknown"

abbrev Bounded (α : Type) := Except (List Violation) α

def boundedScalar : Scalar → Bounded Json
  | .str text =>
    if maxStringLength < text.length then .error [.longString] else .ok (.str text)
  | .number value =>
    if value.magnitudeAbove maxMagnitude then .error [.largeNumber] else .ok (.ofNumber value)
  | scalar => .ok scalar.toJson

/-- The truth value that a name spells. -/
def truthValue? (name : String) : Option Bool :=
  if name = "true" then some true else if name = "false" then some false else none

mutual

/-- The value of a bounded literal, or all reasons why it is none. A name that spells a truth value
stands for it. -/
def bounded : Script.Node → Bounded Json
  | .literal _ value => boundedScalar value
  | node@(.identifier _ name) =>
    match truthValue? name with
    | some value => .ok (.bool value)
    | none => .error [.initializer node.kind]
  | .array _ elements =>
    if maxArrayLength < elements.length then .error [.longArray]
    else (boundedItems elements).map .arr
  | .object _ properties =>
    if maxObjectSize < properties.length then .error [.largeObject]
    else (boundedEntries properties).map .object
  | node => .error [.initializer node.kind]

def boundedItems : List Script.Node → Bounded (List Json)
  | [] => .ok []
  | first :: more =>
    match bounded first with
    | .error reasons => .error (reasons ++ [.arrayElement])
    | .ok value => (boundedItems more).map (value :: ·)

def boundedEntries : List Script.Node → Bounded (List (String × Json))
  | [] => .ok []
  | .property _ key value _ :: more =>
    match key.key? with
    | none => .error [.complexObject]
    | some name =>
      match bounded value with
      | .error reasons => .error (reasons ++ [.objectValue])
      | .ok v => (boundedEntries more).map ((name, v) :: ·)
  | _ :: _ => .error [.complexObject]

end

/-- What the permissive policy finds in a program: violations in order, and the variables whose
declarations it accepts. -/
structure Outcome where
  violations : List Violation := []
  declared : Dictionary Json := []
  deriving Repr

namespace Outcome

def add (o : Outcome) (violations : List Violation) : Outcome :=
  { o with violations := o.violations ++ violations }

def declare (o : Outcome) : Script.Node → Outcome
  | .declarator _ (.identifier _ name) (some value) =>
    if isAllowedName name then
      match bounded value with
      | .ok v => { o with declared := Dictionary.insert name v o.declared }
      | .error reasons => o.add reasons
    else o.add [.variableName name]
  | _ => o

/-- Imports are reported once, however many there are. -/
def visit (o : Outcome) : Script.Node → Outcome
  | .declarations _ _ declarators => declarators.foldl declare o
  | .function _ true _ _ _ => o.add [.functionDeclaration]
  | .call _ callee _ =>
    let name := calleeName callee
    if allowedCalls.contains name then o else o.add [.call name]
  | .imports .. => if o.violations.contains .imports then o else o.add [.imports]
  | _ => o

end Outcome

def permissive (program : Script.Node) : Outcome :=
  program.subnodes.foldl Outcome.visit {}

end Policy

namespace ScriptPolicy

/-- The strict policy never looks inside the region; the permissive one has to parse it. -/
def enforce (policy : ScriptPolicy) (region : Option Markup.ScriptRegion) :
    Except ParseError Policy.Outcome :=
  match region with
  | none => .ok {}
  | some region =>
    match policy with
    | .strict => .ok { violations := [.scriptRegion] }
    | .permissive => region.program.map Policy.permissive

end ScriptPolicy

end Dashboard
