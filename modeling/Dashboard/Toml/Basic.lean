import Dashboard.Dictionary

/-!
TOML values, and the tables that a document builds up line by line. How a table came about decides
whether it can still be extended.
-/
namespace Dashboard.Toml

/-- A table is written out in braces, opened by a header, implied by the header of a table inside
it, or by a key with dots. -/
inductive Origin where
  | braces | header | implied | dotted
  deriving DecidableEq, Repr

inductive Value where
  | text (value : String)
  | integer (value : Int)
  | boolean (value : Bool)
  /-- Floats and points in time keep their text. -/
  | float (written : String)
  | moment (written : String)
  | array (items : List Value)
  | table (origin : Origin) (entries : List (String × Value))
  /-- An array of tables, each opened by a header of its own. -/
  | tables (items : List Value)
  deriving Repr, Inhabited

abbrev Entries := List (String × Value)

namespace Value

/-- Where a change goes on inside a table: in one that is there, or in a new one. Keys with dots
do not reach into tables with headers, and nothing reaches into braces. -/
def inner? (isDotted : Bool) : Option Value → Option (Origin × Entries)
  | none => some (if isDotted then .dotted else .implied, [])
  | some (.table origin entries) =>
    if origin = .braces || (isDotted && origin = .header) then none else some (origin, entries)
  | some (.tables items) =>
    match items.getLast? with
    | some (.table origin entries) => some (origin, entries)
    | _ => none
  | some _ => none

/-- The value with the table inside it changed. -/
def withInner (origin : Origin) (entries : Entries) : Option Value → Value
  | some (.tables items) => .tables (items.dropLast ++ [.table origin entries])
  | _ => .table origin entries

/-- Changes the table at a path; tables on the way there are made. -/
def change? (isDotted : Bool) (change : Origin → Entries → Option Entries) :
    List String → Origin → Entries → Option Entries
  | [], origin, entries => change origin entries
  | key :: path, _, entries => do
    let found := Dictionary.find? entries key
    let (origin, inside) ← inner? isDotted found
    let changed ← change? isDotted change path origin inside
    some (Dictionary.insert key (withInner origin changed found) entries)

/-- A key of a table gets its value once, and a table that keys with dots have made takes values
from such keys only. -/
def assign? (path : List String) (value : Value) (origin : Origin) (entries : Entries) :
    Option Entries :=
  change? true (fun owner inside =>
    match path.getLast? with
    | none => none
    | some key =>
      if decide (owner = .dotted) = path.dropLast.isEmpty || Dictionary.contains inside key then none
      else some (Dictionary.insert key value inside)) path.dropLast origin entries

/-- A header opens a table that is new or only implied so far. -/
def openTable? (key : String) (_ : Origin) (entries : Entries) : Option Entries :=
  match Dictionary.find? entries key with
  | none => some (Dictionary.insert key (.table .header []) entries)
  | some (.table .implied inside) => some (Dictionary.insert key (.table .header inside) entries)
  | some _ => none

/-- A header in double brackets opens one more table of an array. -/
def openItem? (key : String) (_ : Origin) (entries : Entries) : Option Entries :=
  match Dictionary.find? entries key with
  | none => some (Dictionary.insert key (.tables [.table .header []]) entries)
  | some (.tables items) =>
    some (Dictionary.insert key (.tables (items ++ [.table .header []])) entries)
  | some _ => none

end Value

/-- What a line of a document says; every path has at least one key. -/
inductive Line where
  | entry (path : List String) (value : Value)
  | table (path : List String)
  | item (path : List String)
  deriving Repr

/-- A document so far, and the path of the table that entries go into. -/
structure Document where
  entries : Entries := []
  current : List String := []
  deriving Repr

namespace Document

def open? (d : Document) (path : List String)
    (change : String → Origin → Entries → Option Entries) : Option Document := do
  let key ← path.getLast?
  let entries ← Value.change? false (change key) path.dropLast .header d.entries
  some ⟨entries, path⟩

def line? (d : Document) : Line → Option Document
  | .entry path value => do
    let entries ← Value.change? false (Value.assign? path value) d.current .header d.entries
    some { d with entries := entries }
  | .table path => d.open? path Value.openTable?
  | .item path => d.open? path Value.openItem?

end Document

end Dashboard.Toml
