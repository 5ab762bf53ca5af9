import Dashboard.Compiler
import Dashboard.Files.Program
import Dashboard.Toml.Printer
import Dashboard.Toml.Reader

/-!
Settings: a TOML file with four sections, each setting of which may be left out. Unknown keys are
refused.
-/
namespace Dashboard

structure Config where
  policy : ScriptPolicy := .strict
  defaultFilename : String := "Dashboard.dash"
  limits : SandboxLimits := {}
  root : String := "dashboards"
  queryFile : String := "Overview.sql"
  deriving DecidableEq, Repr

/-- Why settings are refused: the text is no TOML, it holds a key or a value that no setting takes,
or the settings do not do. -/
inductive ConfigError where
  | malformed
  | unknownKey (key : String)
  | wrongValue (key : String)
  | noInstructions
  | noDepth
  | emptyFilename
  | queryFile (name : String)
  | unreadable (path : String) (fault : FileFault)
  deriving DecidableEq, Repr

namespace ConfigError

/-- Whether the text could not be read as settings at all. -/
def isFromReading : ConfigError → Bool
  | malformed | unknownKey _ | wrongValue _ => true
  | _ => false

def message : ConfigError → String
  | malformed => "TOML parse error: malformed document"
  | unknownKey key => "TOML parse error: unknown key '" ++ key ++ "'"
  | wrongValue key => "TOML parse error: invalid value for '" ++ key ++ "'"
  | noInstructions => "sandbox.max_instructions must be greater than 0"
  | noDepth => "sandbox.max_depth must be greater than 0"
  | emptyFilename => "compiler.default_filename must not be empty"
  | queryFile name => "data.query_file must be a plain file name, got '" ++ name ++ "'"
  | unreadable path fault => "Cannot read " ++ path ++ ": " ++ fault.text

def failure (e : ConfigError) : Failure := .config e.message

end ConfigError

namespace Toml.Value

/-- The values of a record's fields: by name from a table, or in order from an array, in which
items beyond the fields do not count. -/
def fields? (key : String) (names : List String) :
    Value → Except ConfigError (List (Option Value))
  | .table _ entries =>
    match entries.find? fun entry => !names.contains entry.1 with
    | some entry => .error (.unknownKey entry.1)
    | none => .ok (names.map (Dictionary.find? entries))
  | .array items | .tables items => .ok (names.zipIdx.map fun entry => items[entry.2]?)
  | .moment _ => .error (.unknownKey key)
  | _ => .error (.wrongValue key)

/-- The value of a setting if it is there, else what the setting is without it. -/
def setting {α : Type} (key : String) (read : Value → Option α) (absent : α) :
    Option Value → Except ConfigError α
  | none => .ok absent
  | some value =>
    match read value with
    | some found => .ok found
    | none => .error (.wrongValue key)

def string? : Value → Option String
  | .text value => some value
  | _ => none

def nat? : Value → Option Nat
  | .integer n => if 0 ≤ n then some n.toNat else none
  | _ => none

def isEmpty : Value → Bool
  | .table _ entries => entries.isEmpty
  | .array items | .tables items => items.isEmpty
  | _ => false

end Toml.Value

def ScriptPolicy.ofText? (text : String) : Option ScriptPolicy :=
  [strict, permissive].find? fun policy => policy.text = text

/-- A policy by its name, or by a table with that name alone and nothing in it. -/
def ScriptPolicy.ofToml? : Toml.Value → Option ScriptPolicy
  | .text text => ofText? text
  | .table _ [(text, inside)] => if inside.isEmpty then ofText? text else none
  | _ => none

namespace Config

open Toml (Value Entries)
open Toml.Value (fields? setting string? nat?)

def sections : List String := ["compiler", "sandbox", "store", "data"]

/-- The section of a document with that number; the fields of one that is absent are too. -/
def sectionFields (found : List (Option Value)) (number : Nat) (names : List String) :
    Except ConfigError (List (Option Value)) :=
  match found[number]?.join with
  | some value => fields? (sections.getD number "") names value
  | none => .ok (names.map fun _ => none)

def field (found : List (Option Value)) (number : Nat) : Option Value := found[number]?.join

/-- The settings of a document, before they are checked. -/
def ofEntries (entries : Entries) : Except ConfigError Config := do
  let found ← fields? "" sections (.table .header entries)
  let compiler ← sectionFields found 0 ["policy", "default_filename"]
  let policy ← setting "policy" ScriptPolicy.ofToml? .strict (field compiler 0)
  let filename ← setting "default_filename" string? "Dashboard.dash" (field compiler 1)
  let sandbox ← sectionFields found 1 ["max_instructions", "max_depth"]
  let instructions ← setting "max_instructions" nat? 10000 (field sandbox 0)
  let depth ← setting "max_depth" nat? 64 (field sandbox 1)
  let store ← sectionFields found 2 ["root"]
  let root ← setting "root" string? "dashboards" (field store 0)
  let data ← sectionFields found 3 ["query_file"]
  let queryFile ← setting "query_file" string? "Overview.sql" (field data 0)
  return ⟨policy, filename, ⟨instructions, depth⟩, root, queryFile⟩

/-- A plain file name: not empty, without slashes, and without a dot in front. -/
def isPlainName (name : String) : Bool :=
  !name.isEmpty && name.toList.all (fun c => c ≠ '/' && c ≠ '\\') && name.toList.head? ≠ some '.'

def validate (c : Config) : Except ConfigError Unit :=
  if c.limits.maxInstructions = 0 then .error .noInstructions
  else if c.limits.maxDepth = 0 then .error .noDepth
  else if Text.isAllBlank c.defaultFilename then .error .emptyFilename
  else if !isPlainName c.queryFile then .error (.queryFile c.queryFile)
  else .ok ()

def ofText (text : String) : Except ConfigError Config := do
  match Toml.ofText? text with
  | none => .error .malformed
  | some entries =>
    let config ← ofEntries entries
    config.validate
    return config

/-- The settings as a document; every setting is written. -/
def toText (c : Config) : String :=
  "[compiler]\npolicy = " ++ Toml.stringText c.policy.text ++
    "\ndefault_filename = " ++ Toml.stringText c.defaultFilename ++
    "\n\n[sandbox]\nmax_instructions = " ++ toString c.limits.maxInstructions ++
    "\nmax_depth = " ++ toString c.limits.maxDepth ++
    "\n\n[store]\nroot = " ++ Toml.stringText c.root ++
    "\n\n[data]\nquery_file = " ++ Toml.stringText c.queryFile ++ "\n"

def compiler (c : Config) : Compiler := ⟨c.policy, c.limits⟩

def fileName : String := "dashc.toml"

def load (path : Path) : FileProgram (Except ConfigError Config) :=
  .read path fun answer => .done <|
    match answer with
    | .error fault => .error (.unreadable path.text fault)
    | .ok text => ofText text

/-- The settings at a path if one is given, else those in a directory if it holds any. -/
def discover (path : Option Path) (directory : Path) : FileProgram (Except ConfigError Config) :=
  match path with
  | some path => load path
  | none =>
    let candidate := directory.join fileName
    .isFile candidate fun isThere => if isThere then load candidate else .done (.ok {})

end Config

end Dashboard
