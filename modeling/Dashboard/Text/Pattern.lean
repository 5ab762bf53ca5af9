import Dashboard.Text.Letter

/-!
Patterns over characters. A pattern that is tried at a place of a text has several ways to match;
`ends` lists the places where they end, the preferred way first, and a search reports the first way
at the leftmost place where there is one.
-/
namespace Dashboard.Text

/-- A letter without its case. Two letters outside ASCII fold to ASCII ones. -/
def foldCase (c : Char) : Char :=
  if c = '\u017f' then 's' else if c = '\u212a' then 'k' else c.toLower

/-- A place in a text: the character before it, and the text that follows it. -/
structure Place where
  before : Option Char
  rest : List Char
  deriving DecidableEq, Repr

namespace Place

def ofText (text : List Char) : Place := ⟨none, text⟩

def isWord (c : Option Char) : Bool := c.any isWordChar

/-- A boundary lies where exactly one neighbour is a word character. -/
def isBoundary (p : Place) : Bool := isWord p.before != isWord p.rest.head?

/-- The place behind a mark, if the text goes on with it. -/
def behind? (same : Char → Char → Bool) : (mark : List Char) → Place → Option Place
  | [], p => some p
  | m :: mark, ⟨_, c :: rest⟩ => if same m c then behind? same mark ⟨some c, rest⟩ else none
  | _ :: _, ⟨_, []⟩ => none

/-- The places along a run of characters, the nearest first. -/
def run (accepts : Char → Bool) : (before : Option Char) → List Char → List Place
  | before, [] => [⟨before, []⟩]
  | before, c :: more => ⟨before, c :: more⟩ :: if accepts c then run accepts (some c) more else []

/-- The text between a place and a later one. -/
def upTo (start stop : Place) : List Char :=
  start.rest.take (start.rest.length - stop.rest.length)

end Place

inductive Pattern where
  | char (accepts : Char → Bool)
  | literal (text : List Char)
  | anyCase (text : List Char)
  | many (accepts : Char → Bool)
  | few (accepts : Char → Bool)
  | boundary
  | seq (first second : Pattern)
  | alt (first second : Pattern)

namespace Pattern

def sequence : List Pattern → Pattern
  | [] => literal []
  | [p] => p
  | p :: more => seq p (sequence more)

def choice : List Pattern → Pattern
  | [] => char fun _ => false
  | [p] => p
  | p :: more => alt p (choice more)

/-- The places where the ways to match end. A run prefers to be long (`many`) or short (`few`). -/
def ends : Pattern → Place → List Place
  | char accepts, p =>
    match p.rest with
    | [] => []
    | c :: rest => if accepts c then [⟨some c, rest⟩] else []
  | literal mark, p => (p.behind? (fun m c => m = c) mark).toList
  | anyCase mark, p => (p.behind? (fun m c => foldCase m = foldCase c) mark).toList
  | many accepts, p => (Place.run accepts p.before p.rest).reverse
  | few accepts, p => Place.run accepts p.before p.rest
  | boundary, p => if p.isBoundary then [p] else []
  | seq first second, p => (first.ends p).flatMap second.ends
  | alt first second, p => first.ends p ++ second.ends p

/-- The leftmost match: where it begins and where it ends. -/
def find? (pattern : Pattern) (before : Option Char) : List Char → Option (Place × Place)
  | [] => (pattern.ends ⟨before, []⟩).head?.map fun stop => (⟨before, []⟩, stop)
  | c :: more =>
    match (pattern.ends ⟨before, c :: more⟩).head? with
    | some stop => some (⟨before, c :: more⟩, stop)
    | none => find? pattern (some c) more

/-- The text of the leftmost match. -/
def firstMatch? (pattern : Pattern) (text : List Char) : Option (List Char) :=
  (pattern.find? none text).map fun found => found.1.upTo found.2

/-- The texts of the matches from left to right, each search beginning where the last match ended.
Empty matches are left out. -/
def allMatches (pattern : Pattern) (before : Option Char) (text : List Char) : List (List Char) :=
  match text with
  | [] => []
  | c :: more =>
    match (pattern.ends ⟨before, c :: more⟩).head? with
    | some stop =>
      if _h : stop.rest.length < (c :: more).length then
        Place.upTo ⟨before, c :: more⟩ stop :: allMatches pattern stop.before stop.rest
      else allMatches pattern (some c) more
    | none => allMatches pattern (some c) more
termination_by text.length
decreasing_by all_goals (simp only [List.length_cons] at *; omega)

def matchesWhole (pattern : Pattern) (text : List Char) : Bool :=
  (pattern.ends (.ofText text)).any fun stop => stop.rest.isEmpty

end Pattern

end Dashboard.Text
