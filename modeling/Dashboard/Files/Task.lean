import Dashboard.Failure
import Dashboard.Files.Program

/-!
Work with files that can fail. A fault of the file system is a failure as soon as it is met.
-/
namespace Dashboard

abbrev FileTask (α : Type) := ExceptT Failure FileProgram α

namespace FileTask

variable {α : Type}

def ofAnswer (answer : Except FileFault α) : FileProgram (Except Failure α) :=
  .done (answer.mapError fun fault => .io fault.text)

def ofExcept (result : Except Failure α) : FileTask α := .mk (.done result)

def write (path : Path) (text : String) : FileTask Unit := .mk (.write path text ofAnswer)

def makeDirectories (path : Path) : FileTask Unit := .mk (.makeDirectories path ofAnswer)

def move (source target : Path) : FileTask Unit := .mk (.move source target ofAnswer)

def now : FileTask Nat := .mk (.time fun time => .done (.ok time))

/-- The text of a file; where there is none, what stands for it. -/
def readOr (absent : Except Failure String) (path : Path) : FileTask String :=
  .mk (.read path fun answer =>
    match answer with
    | .error .missing => .done absent
    | answer => ofAnswer answer)

/-- The entries of a directory; none where there is no directory. -/
def entriesIfThere (path : Path) : FileTask (List DirectoryEntry) :=
  .mk (.entries path fun answer =>
    match answer with
    | .error .missing => .done (.ok [])
    | answer => ofAnswer answer)

def entries (path : Path) : FileTask (List DirectoryEntry) := .mk (.entries path ofAnswer)

end FileTask

end Dashboard
