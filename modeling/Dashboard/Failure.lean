import Dashboard.ParseError

/-!
Failures as they are reported: a category and what goes with it. The author's message is without
the category; the displayed text names it, except for failures of files and of JSON text.
-/
namespace Dashboard

inductive Failure where
  | parse (message : String)
  | security (violations : List String)
  | compile (message : String)
  | runtimeLoad (message : String)
  | config (message : String)
  | storage (message : String)
  | dataSource (message : String)
  | io (message : String)
  | json (message : String)
  deriving DecidableEq, Repr

namespace Failure

def category : Failure → String
  | parse _ => "ParseError"
  | security _ => "SecurityViolation"
  | compile _ => "CompileError"
  | runtimeLoad _ => "RuntimeLoadError"
  | config _ => "ConfigError"
  | storage _ => "StorageError"
  | dataSource _ => "DataSourceError"
  | io _ => "IoError"
  | json _ => "JsonError"

def authorMessage : Failure → String
  | parse message | compile message | runtimeLoad message | config message | storage message
  | dataSource message | io message | json message => message
  | security violations => "\n".intercalate violations

def display : Failure → String
  | parse message => "Parse error: " ++ message
  | security violations => "Security violation: " ++ "; ".intercalate violations
  | compile message => "Compile error: " ++ message
  | runtimeLoad message => "Runtime load error: " ++ message
  | config message => "Configuration error: " ++ message
  | storage message => "Storage error: " ++ message
  | dataSource message => "Data source error: " ++ message
  | io message | json message => message

end Failure

def ParseError.failure (e : ParseError) : Failure := .parse e.message

/-- What a check has found; it is passed where nothing was found. -/
structure Verdict where
  violations : List String := []
  deriving DecidableEq, Repr

namespace Verdict

def isValid (v : Verdict) : Bool := v.violations.isEmpty

def add (v : Verdict) (violation : String) : Verdict := ⟨v.violations ++ [violation]⟩

def extend (v : Verdict) (violations : List String) : Verdict := violations.foldl add v

def merge (v other : Verdict) : Verdict := v.extend other.violations

@[simp] theorem extend_violations (v : Verdict) (xs : List String) :
    (v.extend xs).violations = v.violations ++ xs := by
  induction xs generalizing v with
  | nil => simp [extend]
  | cons x xs ih => simp [extend, add] at ih ⊢; simp [ih]

end Verdict

end Dashboard
