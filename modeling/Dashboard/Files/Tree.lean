import Dashboard.Files.Program

/-!
A tree of files in memory: directories and files by place, a place being the names that lead there
from the root. Relative paths are walked from the home directory.
-/
namespace Dashboard

abbrev Place := List String

inductive FileNode where
  | file (text : String)
  | directory
  deriving DecidableEq, Repr

structure FileTree where
  nodes : List (Place × FileNode) := []
  home : Place := []
  deriving Repr

namespace FileTree

/-- A tree that holds nothing but a home directory in the root. -/
def ofHome (name : String) : FileTree :=
  ⟨[([name], .directory)], [name]⟩

/-- The root is always there. -/
def node? (t : FileTree) (place : Place) : Option FileNode :=
  if place = [] then some .directory else List.lookup place t.nodes

def set (t : FileTree) (place : Place) (node : FileNode) : FileTree :=
  { t with nodes := (place, node) :: t.nodes.filter (fun entry => entry.1 ≠ place) }

def erase (t : FileTree) (place : Place) : FileTree :=
  { t with nodes := t.nodes.filter (fun entry => entry.1 ≠ place) }

def start (t : FileTree) (path : Path) : Place :=
  if path.isAbsolute then [] else t.home

/-- Every step is taken from a directory that is there; the last one may lead to nothing. -/
def walk (t : FileTree) (place : Place) : List Path.Step → Except FileFault Place
  | [] => .ok place
  | step :: more =>
    match t.node? place with
    | none => .error .missing
    | some (.file _) => .error .notDirectory
    | some .directory =>
      match step with
      | .stay => walk t place more
      | .up => walk t place.dropLast more
      | .down name =>
        if Path.maxName < name.utf8ByteSize then .error .tooLong else walk t (place ++ [name]) more

/-- What is wrong with a path whatever files there are. -/
def checkPath (path : Path) : Except FileFault Unit :=
  if path.text.toList.contains '\x00' then .error .badName
  else if path.text.isEmpty then .error .missing
  else if Path.maxPath < path.text.utf8ByteSize then .error .tooLong
  else .ok ()

def resolve (t : FileTree) (path : Path) : Except FileFault Place := do
  checkPath path
  t.walk (t.start path) path.steps

def read (t : FileTree) (path : Path) : Except FileFault String := do
  match t.node? (← t.resolve path) with
  | none => .error .missing
  | some .directory => .error .isDirectory
  | some (.file text) => .ok text

/-- Where a file can be written; a path that ends in a slash means a directory. -/
def target (t : FileTree) (path : Path) : Except FileFault Place := do
  checkPath path
  if path.below.isEmpty && Path.endsInSlash path.base then
    let _ ← t.walk (t.start path) (path.steps.reverse.dropWhile (· = .stay)).reverse
    .error .isDirectory
  else
    let place ← t.walk (t.start path) path.steps
    match t.node? place with
    | some .directory => .error .isDirectory
    | _ => .ok place

/-- Replaces a file or makes one. -/
def write (t : FileTree) (path : Path) (text : String) : FileTree × Except FileFault Unit :=
  match t.target path with
  | .ok place => (t.set place (.file text), .ok ())
  | .error fault => (t, .error fault)

def makeAll (t : FileTree) (place : Place) : List Path.Step → FileTree × Except FileFault Unit
  | [] => (t, .ok ())
  | .stay :: more => makeAll t place more
  | .up :: more => makeAll t place.dropLast more
  | .down name :: more =>
    if Path.maxName < name.utf8ByteSize then (t, .error .tooLong)
    else
      match t.node? (place ++ [name]) with
      | some .directory => makeAll t (place ++ [name]) more
      | some (.file _) => (t, .error (if more.isEmpty then .alreadyThere else .notDirectory))
      | none => makeAll (t.set (place ++ [name]) .directory) (place ++ [name]) more

/-- Makes each directory on the path that is not there. Those made before a failure stay. -/
def makeDirectories (t : FileTree) (path : Path) : FileTree × Except FileFault Unit :=
  match checkPath path with
  | .ok () => t.makeAll (t.start path) path.steps
  | .error .missing => (t, .ok ())
  | .error fault => (t, .error fault)

/-- Makes the directories above the end of the path. -/
def makeParents (t : FileTree) (path : Path) : FileTree :=
  (t.makeAll (t.start path) path.steps.dropLast).1

/-- Gives a file another place, and replaces what file was there. -/
def move (t : FileTree) (source target : Path) : FileTree × Except FileFault Unit :=
  match t.resolve source, t.read source, t.target target with
  | .ok place, .ok text, .ok goal => ((t.erase place).set goal (.file text), .ok ())
  | .error fault, _, _ | _, .error fault, _ | _, _, .error fault => (t, .error fault)

/-- The entries of a directory, in no order. -/
def entriesOf (t : FileTree) (place : Place) : List DirectoryEntry :=
  t.nodes.filterMap fun entry =>
    match entry.1.getLast? with
    | some name =>
      if entry.1.dropLast = place then some ⟨name, entry.2 = .directory⟩ else none
    | none => none

def entries (t : FileTree) (path : Path) : Except FileFault (List DirectoryEntry) := do
  let place ← t.resolve path
  match t.node? place with
  | none => .error .missing
  | some (.file _) => .error .notDirectory
  | some .directory => .ok (t.entriesOf place)

def isFile (t : FileTree) (path : Path) : Bool :=
  match t.read path with
  | .ok _ => true
  | .error _ => false

/-- The files below a place, by the names that lead from it. -/
def filesBelow (t : FileTree) (place : Place) : List (Place × String) :=
  t.nodes.filterMap fun entry =>
    match entry.2 with
    | .directory => none
    | .file text =>
      if place.isPrefixOf entry.1 then some (entry.1.drop place.length, text) else none

end FileTree

/-- Runs a program on a tree, at a time that does not pass. -/
def FileProgram.run {α : Type} (now : Nat) : FileProgram α → FileTree → α × FileTree
  | done value, t => (value, t)
  | read path next, t => run now (next (t.read path)) t
  | write path text next, t => run now (next (t.write path text).2) (t.write path text).1
  | makeDirectories path next, t =>
    run now (next (t.makeDirectories path).2) (t.makeDirectories path).1
  | move source target next, t => run now (next (t.move source target).2) (t.move source target).1
  | entries path next, t => run now (next (t.entries path)) t
  | isFile path next, t => run now (next (t.isFile path)) t
  | time next, t => run now (next now) t

end Dashboard
