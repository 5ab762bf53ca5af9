import Dashboard.Dictionary
import Dashboard.Decimal.Shortest

/-!
JSON values. Integers from `-2 ^ 63` to `2 ^ 64 - 1` keep their kind; every other number is a
double. Objects are dictionaries: one entry for a key, keys in order.
-/
namespace Dashboard

inductive Json where
  | null
  | bool (value : Bool)
  | int (value : Int)
  | float (value : Binary64)
  | str (value : String)
  | arr (items : List Json)
  | obj (entries : List (String × Json))
  deriving Repr, Inhabited

namespace Json

def isInteger (n : Int) : Bool := -(twoTo 63 : Int) ≤ n && n < (twoTo 64 : Int)

/-- The number a program text means: integral values below `9 · 10 ^ 15` in magnitude are written
as integers, those without a finite value as null. -/
def ofNumber (x : Binary64) : Json :=
  match x.toInt? with
  | some n =>
    if n.natAbs < 9 * tenTo 15 then .int n else .float x
  | none => if x.isFinite then .float x else .null

def ofOption : Option Json → Json
  | some value => value
  | none => .null

def strings (texts : List String) : Json := .arr (texts.map .str)

def field? (key : String) : Json → Option Json
  | .obj entries => List.lookup key entries
  | _ => none

/-- An object from entries in any order; of two with one key the later counts. -/
def object (entries : List (String × Json)) : Json :=
  .obj (Dictionary.ofList entries)

mutual

/-- The value with the entries of all records in the order of their keys. -/
def ordered : Json → Json
  | .arr items => .arr (orderedItems items)
  | .obj entries => .object (orderedEntries entries)
  | value => value

def orderedItems : List Json → List Json
  | [] => []
  | first :: more => ordered first :: orderedItems more

def orderedEntries : List (String × Json) → List (String × Json)
  | [] => []
  | (key, value) :: more => (key, ordered value) :: orderedEntries more

end

end Json

end Dashboard
