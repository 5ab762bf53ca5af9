import Dashboard.Component
import Dashboard.Failure
import Dashboard.Markup.Parser
import Dashboard.Module.Instruction

/-!
Generation of modules. Inputs become parameters, displays become widgets, conditions on inputs
become conditional blocks, text and references become text; literal declarations become constants,
whose values stand where attributes name them.
-/
namespace Dashboard

inductive CompileFault where
  | unsupportedStatement (kind : String)
  | namedImport
  | redeclared (name : String)
  | initializer (name : String)
  | htmlElement (tag : String)
  | markupExpression
  | condition
  | styleRegion
  | undefinedComponent (tag : String)
  | directive (name : String)
  | repeatedAttribute (name tag : String)
  | undefinedName (name : String)
  deriving DecidableEq, Repr

structure CompileError where
  fault : CompileFault
  position : Position
  deriving DecidableEq, Repr

def CompileFault.lead : CompileFault → String
  | unsupportedStatement kind => "Unsupported statement '" ++ kind ++ "'"
  | namedImport => "Only default imports are supported"
  | redeclared name => "Identifier '" ++ name ++ "' has already been declared"
  | initializer name => "Initializer for '" ++ name ++ "' must be a literal"
  | htmlElement tag => "HTML element <" ++ tag ++ "> is not supported"
  | markupExpression => "Only \x7binputs.name\x7d may appear in markup"
  | condition => "\x7b#if\x7d conditions must be an input reference"
  | styleRegion => "Style blocks are not supported"
  | undefinedComponent tag => "<" ++ tag ++ "> is not defined"
  | directive name => "Directive '" ++ name ++ "' is not supported"
  | repeatedAttribute name tag =>
    "Attributes need to be unique ('" ++ name ++ "' on <" ++ tag ++ ">)"
  | undefinedName name => "'" ++ name ++ "' is not defined"

def CompileError.message (e : CompileError) : String :=
  e.fault.lead ++ " at " ++ e.position.text

inductive GenerateWarning where
  | statementSkipped (position : Position)
  | childrenIgnored (tag : String) (position : Position)
  deriving DecidableEq, Repr

def GenerateWarning.message : GenerateWarning → String
  | statementSkipped position =>
    "Statement at " ++ position.text ++ " has no effect in a dashboard and was skipped"
  | childrenIgnored tag position =>
    "Children of <" ++ tag ++ "> at " ++ position.text ++ " were ignored"

namespace Generate

open Dashboard.Module (Instruction Line)

/-- What a script binds: imports in order, constants by name. -/
structure Bindings where
  imports : List (String × String) := []
  constants : Dictionary Json := []
  warnings : List GenerateWarning := []
  deriving Repr

namespace Bindings

def isImported (b : Bindings) (name : String) : Bool :=
  b.imports.any fun entry => entry.1 = name

def isBound (b : Bindings) (name : String) : Bool :=
  b.isImported name || Dictionary.contains b.constants name

/-- A name can be bound once. -/
def checkFree (b : Bindings) (name : String) (position : Position) : Except CompileError Unit :=
  if b.isBound name then .error ⟨.redeclared name, position⟩ else .ok ()

def addSpecifier (source : String) (b : Bindings) : Script.Node → Except CompileError Bindings
  | .defaultSpecifier position (.identifier _ name) => do
    b.checkFree name position
    return { b with imports := b.imports ++ [(name, source)] }
  | specifier => .error ⟨.namedImport, specifier.position⟩

def addDeclarator (b : Bindings) : Script.Node → Except CompileError Bindings
  | .declarator position (.identifier _ name) value => do
    b.checkFree name position
    let constant ← match value with
      | none => pure Json.null
      | some init =>
        match init.literal? with
        | some v => pure v
        | none => throw ⟨.initializer name, init.position⟩
    return { b with constants := Dictionary.insert name constant b.constants }
  | _ => .ok b

def addStatement (b : Bindings) : Script.Node → Except CompileError Bindings
  | .imports _ specifiers (.literal _ (.str source)) => specifiers.foldlM (addSpecifier source) b
  | .declarations _ _ declarators => declarators.foldlM addDeclarator b
  | .expression position _ => .ok { b with warnings := b.warnings ++ [.statementSkipped position] }
  | .empty _ => .ok b
  | statement => .error ⟨.unsupportedStatement statement.kind, statement.position⟩

def ofProgram : Script.Node → Except CompileError Bindings
  | .program _ body => body.foldlM addStatement {}
  | _ => .ok {}

end Bindings

/-- What a part of a document adds to the module. -/
structure Output where
  params : List Instruction := []
  body : List Line := []
  warnings : List GenerateWarning := []
  deriving Repr

def Output.append (a b : Output) : Output :=
  ⟨a.params ++ b.params, a.body ++ b.body, a.warnings ++ b.warnings⟩

def emit (depth : Nat) (instruction : Instruction) : Output :=
  { body := [⟨depth, instruction⟩] }

/-- The value of an attribute. A name stands for the constant of that name; expressions of another
kind become null. -/
def attributeValue (b : Bindings) (a : Markup.Attribute) : Except CompileError Json :=
  match a.value with
  | .bare => .ok (.bool true)
  | .text _ data => .ok (.str data)
  | .mustache tag =>
    match tag.expression.literal? with
    | some value => .ok value
    | none =>
      match tag.expression.inputName?, tag.expression with
      | some name, _ => .ok (.str (Script.Node.placeholder name))
      | none, .identifier position name =>
        match Dictionary.find? b.constants name with
        | some value => .ok value
        | none => .error ⟨.undefinedName name, position⟩
      | none, _ => .ok .null

def addProp (b : Bindings) (tag : String) (found : Dictionary Json) (a : Markup.Attribute) :
    Except CompileError (Dictionary Json) := do
  if Component.isDirective a.name then throw ⟨.directive a.name, a.position⟩
  let value ← attributeValue b a
  if Dictionary.contains found a.name then throw ⟨.repeatedAttribute a.name tag, a.position⟩
  return Dictionary.insert a.name value found

def props (b : Bindings) (tag : String) (attributes : List Markup.Attribute) :
    Except CompileError (Dictionary Json) :=
  attributes.foldlM (addProp b tag) []

/-- Comments and blank text leave a widget without children. -/
def isBlankNode : Markup.Node → Bool
  | .comment .. => true
  | .text _ data => Text.isAllBlank data
  | _ => false

def reference (depth : Nat) (tag : Markup.Mustache) : Except CompileError Output :=
  match tag.expression.inputName?, tag.expression.literal? with
  | some name, _ => .ok (emit depth (.shown name))
  | none, some (.str text) => .ok (emit depth (.text text))
  | none, _ => .error ⟨.markupExpression, tag.position⟩

def plainText (depth : Nat) (data : String) : Output :=
  let text := Text.collapsed data
  if text.isEmpty then {} else emit depth (.text text)

/-- The name under which a display is mounted, and its props with the type that its tag implies. -/
def displayBinding (tag : String) (found : Dictionary Json) : String × Dictionary Json :=
  match Registry.lookup tag with
  | .display spec (some implied) => (spec.name, Component.withImpliedType (some implied) found)
  | _ => (tag, found)

mutual

def node (b : Bindings) (depth : Nat) : Markup.Node → Except CompileError Output
  | .element position tag attributes children =>
    if Markup.isComponentName tag then do
      let found ← props b tag attributes
      match Registry.lookup tag with
      | .input spec =>
        return {
          params := [.param spec.name spec.generates found]
          warnings := if children.isEmpty then [] else [.childrenIgnored tag position] }
      | _ =>
        let (binding, entries) := displayBinding tag found
        if !b.isImported binding then throw ⟨.undefinedComponent tag, position⟩
        if children.all isBlankNode then return emit depth (.mount binding entries)
        let inner ← nodes b (depth + 1) children
        return ((emit depth (.openWidget binding entries)).append inner).append
          (emit depth .closeWidget)
    else .error ⟨.htmlElement tag, position⟩
  | .text _ data => .ok (plainText depth data)
  | .mustache tag => reference depth tag
  | .ifBlock position _ condition children alternative =>
    match condition.inputName? with
    | none => .error ⟨.condition, position⟩
    | some name => do
      let first ← nodes b (depth + 1) children
      let second ← alternativeNodes b depth alternative
      return (((emit depth (.whenInput name)).append first).append second).append
        (emit depth .endWhen)
  | .comment .. => .ok {}
  | .style position .. => .error ⟨.styleRegion, position⟩

def nodes (b : Bindings) (depth : Nat) : List Markup.Node → Except CompileError Output
  | [] => .ok {}
  | first :: more => do
    let a ← node b depth first
    let rest ← nodes b depth more
    return a.append rest

def alternativeNodes (b : Bindings) (depth : Nat) :
    Markup.Alternative → Except CompileError Output
  | .absent => .ok {}
  | .otherwise _ children => do
    let inner ← nodes b (depth + 1) children
    return (emit depth .otherwise).append inner
  | .elseIf _ block => do
    let inner ← node b (depth + 1) block
    return (emit depth .otherwise).append inner

end

/-- The lines of a module in order: its name, imports, parameters, constants, body. -/
def lines (filename : String) (b : Bindings) (out : Output) : List Line :=
  ((.title filename :: b.imports.map fun entry => Instruction.bind entry.1 entry.2) ++ out.params ++
      b.constants.map fun entry => Instruction.constant entry.1 entry.2).map (Line.mk 0) ++
    out.body

end Generate

/-- A module as text, with what was left out of it. -/
structure GeneratedModule where
  lines : List Module.Line
  warnings : List GenerateWarning
  deriving Repr

def GeneratedModule.code (m : GeneratedModule) : String := Module.text m.lines

def Failure.ofCompileError (e : CompileError) : Failure := .compile e.message

/-- Compiles the text of a document into a module. -/
def generate (source filename : String) : Except Failure GeneratedModule := do
  let document ← (Markup.parse source).mapError ParseError.failure
  let program ← document.scriptProgram?.mapError ParseError.failure
  let bindings ← (match program with
    | some node => Generate.Bindings.ofProgram node
    | none => .ok {}).mapError .ofCompileError
  let out ← (Generate.nodes bindings 0 document.children).mapError .ofCompileError
  return ⟨Generate.lines filename bindings out, bindings.warnings ++ out.warnings⟩

/-- The imports that every document starts from, one for each display. -/
def standardImports : String :=
  "\n".intercalate (Registry.displayNames.map fun name =>
    "import " ++ name ++ " from \"" ++ name ++ "\";")

/-- Puts the imports at the start of the script region, or into a new one before the markup. -/
def preprocess (source : String) : Except ParseError String := do
  let document ← Markup.parse source
  match document.script with
  | some region =>
    let text := source.toList
    let start := region.origin.offset
    return String.ofList (text.take start) ++ "\n" ++ standardImports ++ "\n" ++
      String.ofList (text.drop start)
  | none => return "<script>\n" ++ standardImports ++ "\n</script>\n" ++ source

end Dashboard
