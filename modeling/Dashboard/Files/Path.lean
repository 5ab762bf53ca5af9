import Dashboard.Text.Blank

/-!
Paths: a base as it was given, and names below it. A path is walked step by step from a directory.
-/
namespace Dashboard

structure Path where
  base : String
  below : List String := []
  deriving DecidableEq, Repr

namespace Path

/-- Where a walk begins that has nowhere to go. -/
def here : Path := ⟨"", []⟩

def join (p : Path) (name : String) : Path := { p with below := p.below ++ [name] }

/-- A path as seen from another one, whose place it takes if it is absolute. -/
def push (p : Path) (path : String) : Path :=
  if path.toList.head? = some '/' then ⟨path, []⟩ else p.join path

def endsInSlash (text : String) : Bool := text.toList.getLast? = some '/'

/-- A slash stands before a name, unless there is nothing before it or a slash already. -/
def text (p : Path) : String :=
  p.below.foldl (fun text name =>
    if text.isEmpty || endsInSlash text then text ++ name else text ++ "/" ++ name) p.base

/-- A step stays in a directory, goes up from it, or down to one of its entries. -/
inductive Step where
  | stay | up
  | down (name : String)
  deriving DecidableEq, Repr

def Step.ofPiece : List Char → Step
  | [] | ['.'] => .stay
  | ['.', '.'] => .up
  | piece => .down (String.ofList piece)

def steps (p : Path) : List Step :=
  (Text.pieces '/' p.base.toList).map Step.ofPiece ++ p.below.map .down

def isAbsolute (p : Path) : Bool := p.base.toList.head? = some '/'

/-- The name that the path ends with. -/
def name? (p : Path) : Option String :=
  match (p.steps.filter (· ≠ .stay)).getLast? with
  | some (.down name) => some name
  | _ => none

/-- A name without its extension, which is what stands behind the last dot, unless that dot is where
the name begins. -/
def stem (name : String) : String :=
  match name.toList.reverse.dropWhile (· ≠ '.') with
  | [] | [_] => name
  | _ :: front => String.ofList front.reverse

def withExtension (name extension : String) : String := stem name ++ "." ++ extension

/-- The longest name of an entry, and the longest path, in bytes. -/
def maxName : Nat := 255

def maxPath : Nat := 4095

end Path

end Dashboard
