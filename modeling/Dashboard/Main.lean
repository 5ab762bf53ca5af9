import Dashboard.CommandLine.Run
import Std.Time.DateTime.Timestamp

/-!
The program on real files: it answers what a command asks for, writes the outcome, and ends with
its code.
-/
open Dashboard

namespace Dashboard.Main

def faultOf : IO.Error → FileFault
  | .noFileOrDirectory .. => .missing
  | .alreadyExists .. => .alreadyThere
  | e => .other (toString e)

def answerOf {α : Type} (action : IO α) : IO (Except FileFault α) := do
  match ← action.toBaseIO with
  | .ok value => return .ok value
  | .error e => return .error (faultOf e)

/-- A path as a directory that may hold entries. -/
def place (path : Path) : IO.FS.DirEntry := ⟨path.text, ""⟩

def entriesOf (path : Path) : IO (List DirectoryEntry) := do
  let entries ← (place path).root.readDir
  entries.toList.mapM fun entry => do
    return ⟨entry.fileName, ← entry.path.isDir⟩

def isFile (path : Path) : IO Bool := do
  match ← answerOf (place path).root.metadata with
  | .ok found => return (found.type matches .file)
  | .error _ => return false

def perform {α : Type} : FileProgram α → IO α
  | .done value => return value
  | .read path next => do perform (next (← answerOf (IO.FS.readFile path.text)))
  | .write path text next => do perform (next (← answerOf (IO.FS.writeFile path.text text)))
  | .makeDirectories path next => do
    perform (next (← answerOf (IO.FS.createDirAll path.text)))
  | .move source target next => do
    perform (next (← answerOf (IO.FS.rename source.text target.text)))
  | .entries path next => do perform (next (← answerOf (entriesOf path)))
  | .isFile path next => do perform (next (← isFile path))
  | .time next => do
    let now ← Std.Time.Timestamp.now
    perform (next now.toMillisecondsSinceUnixEpoch.val.toNat)

end Dashboard.Main

def main (arguments : List String) : IO UInt32 := do
  let outcome ← match CommandLine.read arguments with
    | .error stop => pure (CommandLine.stopped stop)
    | .ok invocation => Main.perform (CommandLine.run invocation)
  IO.print outcome.output
  IO.eprint outcome.messages
  return outcome.code.number.toUInt32
