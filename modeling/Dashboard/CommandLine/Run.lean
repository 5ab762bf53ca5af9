import Dashboard.CommandLine.Help
import Dashboard.Query
import Dashboard.Store

/-!
Running a command. Its outcome is an exit code and what it writes: the code tells a document that
was rejected from a command that failed.
-/
namespace Dashboard.CommandLine

inductive ExitCode where
  | success | rejected | failed
  deriving DecidableEq, Repr

def ExitCode.number : ExitCode → Nat
  | success => 0
  | rejected => 1
  | failed => 2

/-- Normal output and messages, which go to different places. -/
structure Outcome where
  code : ExitCode := .success
  output : String := ""
  messages : String := ""
  deriving DecidableEq, Repr

namespace Outcome

def line (text : String) : Outcome := { output := text ++ "\n" }

def json (value : Json) : Outcome := line value.spread

def withWarnings (o : Outcome) (warnings : List String) : Outcome :=
  { o with messages := o.messages ++ String.join (warnings.map fun w => "warning: " ++ w ++ "\n") }

/-- A document is rejected: what it is, and the lines of the reason. -/
def rejection (label : String) (f : Failure) : Outcome :=
  let reasons := (Text.lines f.authorMessage.toList).map String.ofList
  { code := .rejected
    messages := "error: " ++ label ++ " (" ++ toString reasons.length ++ " found)\n" ++
      String.join (reasons.map fun reason => "  - " ++ reason ++ "\n") }

def rejected (f : Failure) : Outcome := rejection f.category f

def failure (f : Failure) : Outcome :=
  { code := .failed, messages := "error: " ++ f.display ++ "\n" }

def coded (o : Outcome) (isSuccess : Bool) : Outcome :=
  { o with code := if isSuccess then .success else .rejected }

/-- Without its normal output. -/
def quiet (o : Outcome) : Outcome := { o with output := "" }

end Outcome

/-- The text of a file; a fault is reported with the path. -/
def readSource (path : Path) : FileTask String :=
  .mk (.read path fun answer => .done (answer.mapError fun fault =>
    .io (path.text ++ ": " ++ fault.text)))

/-- The name of a document in its module: that of its file. -/
def logicalName (path : Path) (config : Config) : String :=
  path.name?.getD config.defaultFilename

def compileFile (config : Config) (file : String) : FileTask Artifact := do
  let path : Path := ⟨file, []⟩
  let source ← readSource path
  return config.compiler.compile source (logicalName path config)

def check (file : String) (asJson : Bool) (a : Artifact) : Outcome :=
  let warnings := a.warnings.map Warning.message
  if asJson then
    let reasons := match a.failure? with
      | some f => (Text.lines f.authorMessage.toList).map String.ofList
      | none => []
    (Outcome.json (.object [("valid", .bool a.success), ("errors", .ofNat reasons.length),
      ("category", .text? (a.failure?.map Failure.category)),
      ("violations", .strings reasons), ("warnings", .strings warnings)])).coded a.success
  else
    match a.failure? with
    | some f => .rejected f
    | none => (Outcome.line ("✓ " ++ file ++ " is valid")).withWarnings warnings

/-- A failed compilation writes no file. -/
def compileTo (asJson : Bool) (output : Option String) (a : Artifact) : FileTask Outcome := do
  if asJson then return (Outcome.json a.toJson).coded a.success
  match a.outcome with
  | .error f => return .rejected f
  | .ok built =>
    let warnings := a.warnings.map Warning.message
    match output with
    | none => return { output := built.code : Outcome }.withWarnings warnings
    | some file =>
      FileTask.write ⟨file, []⟩ built.code
      return (Outcome.line ("✓ wrote " ++ file)).withWarnings warnings

/-- The name and the value of an override, with an equals sign between them. -/
def nameAndValue? (text : String) : Option (String × String) :=
  let isName := fun c => c ≠ '='
  match text.toList.dropWhile isName with
  | _ :: value => some (String.ofList (text.toList.takeWhile isName), String.ofList value)
  | [] => none

/-- An override takes the type of the first parameter of its name. -/
def override (m : LoadedModule) (state : InputState) (text : String) :
    Except Failure InputState :=
  match nameAndValue? text with
  | none => .error (.config ("Invalid --set '" ++ text ++ "': expected NAME=VALUE"))
  | some (name, value) =>
    match m.params.find? fun param => param.name? = some name with
    | none => .error (.config ("Unknown input '" ++ name ++ "'"))
    | some param =>
      .ok (Dictionary.insert name ((Json.str value).coerce param.valueType) state)

def render (overrides : List String) (a : Artifact) : Except Failure Outcome :=
  match a.outcome with
  | .error f => .ok (.rejected f)
  | .ok built => do
    let state ← overrides.foldlM (override built.component) built.component.initialState
    let tree := Json.arr (renderNodesJson (built.component.render state))
    return .json (.object [("inputs", .obj state), ("tree", tree.ordered)])

def hash (a : Artifact) : Outcome :=
  match a.outcome with
  | .error f => .rejected f
  | .ok built => .line (Digest.ofText built.code)

def inspection (a : Analysis) : Outcome :=
  (Outcome.json a.toJson).coded a.violations.isEmpty

def saved : SaveOutcome → Outcome
  | .saved document page warnings =>
    (Outcome.line ("✓ " ++ SaveOutcome.message document page)).withWarnings
      (warnings.map Warning.message)
  | .rejected f _ => .rejection "error" f

def loaded (asJson : Bool) (r : Record) : Outcome :=
  if asJson then .json r.toJson else { output := r.source }

def listed (asJson : Bool) (documents : Dictionary (List String)) : Outcome :=
  if asJson then .json (.obj (Dictionary.mapValues Json.strings documents))
  else
    { output := String.join (documents.map fun entry =>
        entry.1 ++ ": " ++ ", ".intercalate entry.2 ++ "\n") }

def queried (asJson : Bool) (text : String) : Outcome :=
  let queries := Query.parseFile text
  if asJson then .json (.obj (Dictionary.mapValues Json.str queries))
  else
    { output := String.join (queries.map fun query =>
        "-- " ++ query.1 ++ "\n" ++ query.2 ++ "\n") }

/-- Where the queries come from: a stored document, a file, or the configured file. -/
def queryText (config : Config) (file document : Option String) : FileTask String :=
  match document, file with
  | some document, _ => (Store.ofConfig config).loadQueries document
  | none, some file => readSource ⟨file, []⟩
  | none, none => readSource ⟨config.queryFile, []⟩

def versionOutcome (config : Config) : Outcome :=
  .line (versionText ++ " (dashc-core " ++ version ++ ")\nScript policy: " ++ config.policy.text)

def execute (config : Config) : Command → FileTask Outcome
  | .check file asJson => return check file asJson (← compileFile config file)
  | .compile file asJson output => do compileTo asJson output (← compileFile config file)
  | .inspect file => return inspection (analyze (← readSource ⟨file, []⟩))
  | .render file overrides => do
    FileTask.ofExcept (render overrides (← compileFile config file))
  | .hash file => return hash (← compileFile config file)
  | .save document page file => do
    let source ← readSource ⟨file, []⟩
    return saved (← (Store.ofConfig config).save document page source)
  | .load document page asJson =>
    return loaded asJson (← (Store.ofConfig config).load document page)
  | .list asJson => return listed asJson (← (Store.ofConfig config).list)
  | .queries file document asJson => return queried asJson (← queryText config file document)
  | .version => return versionOutcome config

/-- The version is shown however quiet the program has to be. -/
def Command.isQuietable : Command → Bool
  | .version => false
  | _ => true

/-- Settings come first; a failure of the command is its only output. -/
def run (i : Invocation) : FileProgram Outcome := do
  let task : FileTask Outcome := do
    let found ← Config.discover (i.config.map fun file => ⟨file, []⟩) .here
    let config ← FileTask.ofExcept (found.mapError ConfigError.failure)
    let outcome ← execute config i.command
    return if i.isQuiet && i.command.isQuietable then outcome.quiet else outcome
  match ← task.run with
  | .ok outcome => return outcome
  | .error f => return .failure f

/-- The outcome of arguments that do not lead to a command. -/
def stopped : Stop → Outcome
  | .help command => { output := help command }
  | .version => .line versionText
  | .usage e => { code := .failed, messages := "error: " ++ e.message ++ "\n" }

end Dashboard.CommandLine
