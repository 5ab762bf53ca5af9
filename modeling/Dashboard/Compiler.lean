import Dashboard.Analysis
import Dashboard.Digest
import Dashboard.Generate
import Dashboard.Sandbox

/-!
Compilation of a document. A gate collects every violation; a document that passes it gets the
standard imports, is generated into a module, and the module is loaded in the sandbox. Every failure
is part of the artifact.
-/
namespace Dashboard

inductive Warning where
  | component (warning : ComponentWarning)
  | generation (warning : GenerateWarning)
  deriving DecidableEq, Repr

def Warning.message : Warning → String
  | component warning => warning.message
  | generation warning => warning.message

/-- What the gate has to say of a document: violations in order, and whether any of them is more
than malformed text. -/
structure GateReport where
  violations : List Violation := []
  isSecurity : Bool := false
  warnings : List ComponentWarning := []
  deriving Repr

/-- A failed gate as a failure: malformed text alone is a parse error. -/
def GateReport.failure (report : GateReport) : Failure :=
  let messages := report.violations.map Violation.message
  if report.isSecurity then .security messages else .parse ("\n".intercalate messages)

/-- The pre-filter, then the script policy, then the components. A script that the policy cannot
parse is reported last. -/
def gate (policy : ScriptPolicy) (source : String) : GateReport :=
  let forbidden := (Prefilter.scan source).map Violation.forbidden
  match Markup.parse source with
  | .error e => ⟨forbidden ++ [.malformed e], !forbidden.isEmpty, []⟩
  | .ok document =>
    let c := document.classify
    let components := c.faults.map Violation.component
    match policy.enforce document.script with
    | .ok outcome =>
      let found := forbidden ++ outcome.violations.map .script ++ components
      ⟨found, !found.isEmpty, c.warnings⟩
    | .error e =>
      let found := forbidden ++ components
      ⟨found ++ [.malformed e], !found.isEmpty, c.warnings⟩

structure CompiledModule where
  code : String
  component : LoadedModule
  deriving Repr

/-- The outcome of a compilation with its warnings. -/
structure Artifact where
  warnings : List Warning
  outcome : Except Failure CompiledModule

namespace Artifact

def success (a : Artifact) : Bool :=
  match a.outcome with
  | .ok _ => true
  | .error _ => false

def code? (a : Artifact) : Option String :=
  match a.outcome with
  | .ok m => some m.code
  | .error _ => none

def failure? (a : Artifact) : Option Failure :=
  match a.outcome with
  | .ok _ => none
  | .error f => some f

def digest? (a : Artifact) : Option String := a.code?.map Digest.ofText

/-- The failure as a caller gets it: security violations are read back from the lines of the
author's message. -/
def result (a : Artifact) : Except Failure CompiledModule :=
  match a.outcome with
  | .ok m => .ok m
  | .error (.security violations) =>
    .error (.security
      ((Text.lines (Failure.security violations).authorMessage.toList).map String.ofList))
  | .error f => .error f

end Artifact

structure Compiler where
  policy : ScriptPolicy := .strict
  limits : SandboxLimits := {}
  deriving Repr

namespace Compiler

def sandbox (compiler : Compiler) : Sandbox := { limits := compiler.limits }

/-- Generates and loads a document that has passed the gate. -/
def build (compiler : Compiler) (source filename : String) :
    Except Failure (CompiledModule × List GenerateWarning) := do
  let processed ← (preprocess source).mapError ParseError.failure
  let generated ← generate processed filename
  let code := generated.code
  let component ← (compiler.sandbox.load code).mapError .ofLoadError
  return (⟨code, component⟩, generated.warnings)

def compile (compiler : Compiler) (source filename : String) : Artifact :=
  let report := gate compiler.policy source
  let warnings := report.warnings.map Warning.component
  if !report.violations.isEmpty then ⟨warnings, .error report.failure⟩
  else
    match compiler.build source filename with
    | .ok (compiled, more) => ⟨warnings ++ more.map .generation, .ok compiled⟩
    | .error f => ⟨warnings, .error f⟩

/-- What keeps a document from compiling, line by line. -/
def check (compiler : Compiler) (source : String) : Verdict :=
  match (compiler.compile source "check.dash").failure? with
  | none => {}
  | some f => Verdict.extend {} ((Text.lines f.authorMessage.toList).map String.ofList)

end Compiler

/-- Compiles with the strict policy and the usual limits. -/
def compile (source filename : String) : Artifact := Compiler.compile {} source filename

end Dashboard
