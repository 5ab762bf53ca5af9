import Dashboard.Config
import Dashboard.Files.Task
import Dashboard.Instant
import Dashboard.Report

/-!
The store of compiled pages. A page is a file below the directory of its document, and holds the
source next to the compiled module; only a page that compiles is written. Names are checked before
any file is touched.
-/
namespace Dashboard

/-- A stored page. -/
structure Record where
  source : String
  compiled : String
  warnings : List String
  lastModified : String
  deriving DecidableEq, Repr

namespace Record

def fieldNames : List String := ["source", "compiled", "warnings", "lastModified"]

def toJson (r : Record) : Json :=
  .obj [("source", .str r.source), ("compiled", .str r.compiled),
    ("warnings", .strings r.warnings), ("lastModified", .str r.lastModified)]

def ofFields? : List Json → Option Record
  | [.str source, .str compiled, .arr warnings, .str lastModified] => do
    some ⟨source, compiled, ← warnings.mapM Json.string?, lastModified⟩
  | _ => none

/-- The value of the only member with a name. -/
def member? (members : List (Option String × Json.Form)) (name : String) : Option Json :=
  match members.filter fun member => member.1 = some name with
  | [(_, form)] => form.toJson?
  | _ => none

/-- A record from an object with each of its fields once, or from an array of them in order. Of
other members of an object only the form counts, not whether they have a value. -/
def ofForm? : Json.Form → Option Record
  | .array items => do ofFields? (← items.mapM Json.Form.toJson?)
  | .object members => do
    if members.any fun member => member.1.isNone then none
    ofFields? (← fieldNames.mapM (member? members))
  | _ => none

def ofText? (text : String) : Option Record := do
  ofForm? (← Json.Form.ofChars? text.toList)

end Record

/-- What a name in the store is for. -/
inductive NameKind where
  | document | page
  deriving DecidableEq, Repr

def NameKind.text : NameKind → String
  | document => "document"
  | page => "page"

inductive StoreError where
  | badName (kind : NameKind) (name : String)
  | notFound
  | unreadableRecord
  | noQueries (document : String)
  deriving DecidableEq, Repr

namespace StoreError

def message : StoreError → String
  | badName kind name =>
    "Invalid " ++ kind.text ++ " name '" ++ name ++ "': use letters, digits, '-' and '_'"
  | notFound => "Dashboard not found"
  | unreadableRecord => "Failed to parse dashboard data"
  | noQueries document => "Query file not found for " ++ document

def failure (e : StoreError) : Failure := .storage e.message

end StoreError

/-- What became of a page that was to be saved. -/
inductive SaveOutcome where
  | saved (document page : String) (warnings : List Warning)
  | rejected (failure : Failure) (warnings : List Warning)
  deriving DecidableEq, Repr

namespace SaveOutcome

def warnings : SaveOutcome → List String
  | saved _ _ warnings | rejected _ warnings => warnings.map Warning.message

def message (document page : String) : String := "Saved " ++ document ++ "/" ++ page

def toJson (o : SaveOutcome) : Json :=
  let last := match o with
    | saved document page _ => ("message", Json.str (message document page))
    | rejected failure _ => ("error", .str failure.authorMessage)
  let success := match o with
    | saved .. => true
    | rejected .. => false
  .obj [("success", .bool success), ("warnings", .strings o.warnings), last]

end SaveOutcome

structure Store where
  root : Path
  compiler : Compiler := {}
  queryFile : String := "Overview.sql"
  deriving Repr

namespace Store

def ofConfig (c : Config) : Store := ⟨⟨c.root, []⟩, c.compiler, c.queryFile⟩

def isNameChar (c : Char) : Bool :=
  ('a' ≤ c && c ≤ 'z') || ('A' ≤ c && c ≤ 'Z') || ('0' ≤ c && c ≤ '9') || c = '-' || c = '_'

def isName (text : String) : Bool := !text.isEmpty && text.toList.all isNameChar

def checkName (kind : NameKind) (name : String) : Except StoreError Unit :=
  if isName name then .ok () else .error (.badName kind name)

def directory (s : Store) (document : String) : Except StoreError Path := do
  checkName .document document
  return s.root.push document

def pageFile (page : String) : String := page ++ ".json"

/-- The file of a page, and the one it is written to first. -/
structure PagePaths where
  directory : Path
  file : Path
  staging : Path

def pagePaths (s : Store) (document page : String) : Except StoreError PagePaths := do
  checkName .page page
  let directory ← s.directory document
  return ⟨directory, directory.push (pageFile page),
    directory.push (Path.withExtension (pageFile page) "json.tmp")⟩

def checked {α : Type} (result : Except StoreError α) : FileTask α :=
  .ofExcept (result.mapError StoreError.failure)

/-- A page that compiles is written whole to a file beside its own, which then takes its place. -/
def save (s : Store) (document page source : String) : FileTask SaveOutcome := do
  let paths ← checked (s.pagePaths document page)
  let artifact := s.compiler.compile source (page ++ ".dash")
  match artifact.outcome with
  | .error failure => return .rejected failure artifact.warnings
  | .ok built =>
    let time ← FileTask.now
    let record : Record :=
      ⟨source, built.code, artifact.warnings.map Warning.message, Instant.text time⟩
    FileTask.makeDirectories paths.directory
    FileTask.write paths.staging record.toJson.spread
    FileTask.move paths.staging paths.file
    return .saved document page artifact.warnings

def load (s : Store) (document page : String) : FileTask Record := do
  let paths ← checked (s.pagePaths document page)
  let text ← FileTask.readOr (.error StoreError.notFound.failure) paths.file
  match Record.ofText? text with
  | some record => return record
  | none => throw StoreError.unreadableRecord.failure

/-- The text of the query file of a document. -/
def loadQueries (s : Store) (document : String) : FileTask String := do
  let directory ← checked (s.directory document)
  FileTask.readOr (.error (StoreError.noQueries document).failure) (directory.push s.queryFile)

/-- The page that an entry of a document's directory is the file of. -/
def pageOf? (entry : DirectoryEntry) : Option String :=
  let name := entry.name.toList
  let page := String.ofList (name.take (name.length - 5))
  if ".json".toList.isSuffixOf name && isName page then some page else none

/-- The documents among the entries of the root, each with its pages in order. -/
def pagesOf (root : Path) (documents : Dictionary (List String)) :
    List DirectoryEntry → FileTask (Dictionary (List String))
  | [] => return documents
  | entry :: more => do
    if entry.isDirectory && isName entry.name then
      let inside ← FileTask.entries (root.join entry.name)
      let pages := Dictionary.ordered (inside.filterMap pageOf?)
      pagesOf root (Dictionary.insert entry.name pages documents) more
    else pagesOf root documents more

/-- A root that is not there holds no documents. -/
def list (s : Store) : FileTask (Dictionary (List String)) := do
  pagesOf s.root [] (← FileTask.entriesIfThere s.root)

end Store

end Dashboard
