import Dashboard.Failure
import Dashboard.Inputs

/-!
Query files and query results. A query file names each query on a line that begins with two dashes;
a result set becomes rows of a label and a value.
-/
namespace Dashboard

namespace Query

/-- The queries read so far, and the one whose body is being read. -/
structure Reading where
  found : Dictionary String := []
  current : Option (String × List (List Char)) := none
  deriving Repr

/-- A query is complete: it is kept unless its body is empty, in place of an earlier one. -/
def Reading.close (r : Reading) : Reading :=
  match r.current with
  | none => r
  | some (name, body) =>
    let text := Text.trim (List.intercalate ['\n'] body)
    { found := if text.isEmpty then r.found else Dictionary.insert name (String.ofList text) r.found
      current := none }

/-- The name on a marker line; a marker without a name is a comment. -/
def markerName? (line : List Char) : Option (List Char) :=
  if "--".toList.isPrefixOf (Text.trim line) then some (Text.trim ((Text.trim line).drop 2)) else none

/-- Blank lines, comments, and what stands before the first marker do not belong to any query. -/
def Reading.line (r : Reading) (line : List Char) : Reading :=
  match markerName? line with
  | some [] => r
  | some name => { r.close with current := some (String.ofList name, []) }
  | none =>
    if (Text.trim line).isEmpty then r
    else { r with current := r.current.map fun query => (query.1, query.2 ++ [line]) }

/-- The queries of a file by name. -/
def parseFile (text : String) : Dictionary String :=
  ((Text.lines text.toList).foldl Reading.line {}).close.found

end Query

abbrev Rows := List Json

structure ResultSet where
  columns : List String
  results : List (List Json)
  deriving Repr, Inhabited

namespace ResultSet

/-- A result set from an object with its two fields, or from an array of both. -/
def ofJson? (value : Json) : Option ResultSet := do
  let (columns, results) ← match value with
    | .arr [columns, results] => some (columns, results)
    | .obj _ =>
      match value.field? "columns", value.field? "results" with
      | some columns, some results => some (columns, results)
      | _, _ => none
    | _ => none
  let items := fun v : Json => match v with
    | .arr xs => some xs
    | _ => none
  let names ← (← items columns).mapM Json.string?
  let rows ← (← items results).mapM items
  some ⟨names, rows⟩

/-- Pairs of brackets are taken out of a column name, from left to right. -/
def withoutBrackets : List Char → List Char
  | '(' :: ')' :: rest => withoutBrackets rest
  | c :: rest => c :: withoutBrackets rest
  | [] => []

/-- Rows of the first two columns; missing cells are null. A value column of the same name as the
label column replaces it. -/
def rows (set : ResultSet) : Except Failure Rows :=
  match set.columns with
  | label :: value :: _ =>
    let name := String.ofList (withoutBrackets value.toList)
    .ok (set.results.map fun row =>
      .object [(label, row.getD 0 .null), (name, row.getD 1 .null)])
  | columns =>
    .error (.dataSource
      ("Result set needs at least two columns, got " ++ toString columns.length))

end ResultSet

end Dashboard
