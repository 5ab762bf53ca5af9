/-!
Dictionaries with text keys, as association lists in strictly increasing order of the keys. Keys
are compared by code point, which is also the order of their UTF-8 bytes.
-/
namespace Dashboard

abbrev Dictionary (α : Type) := List (String × α)

namespace Dictionary

variable {α β : Type}

/-- Replaces the entry with that key, or adds one at its place. -/
def insert (key : String) (value : α) : Dictionary α → Dictionary α
  | [] => [(key, value)]
  | entry :: rest =>
    if key < entry.1 then (key, value) :: entry :: rest
    else if key = entry.1 then (key, value) :: rest
    else entry :: insert key value rest

def find? (entries : Dictionary α) (key : String) : Option α :=
  List.lookup key entries

def contains (entries : Dictionary α) (key : String) : Bool :=
  (find? entries key).isSome

def erase (entries : Dictionary α) (key : String) : Dictionary α :=
  List.filter (fun entry => entry.1 ≠ key) entries

/-- Later entries replace earlier ones with the same key. -/
def ofList (entries : List (String × α)) : Dictionary α :=
  entries.foldl (fun d entry => insert entry.1 entry.2 d) []

/-- The entries of the first, replaced by those of the second where both have the key. -/
def override (base changes : Dictionary α) : Dictionary α :=
  changes.foldl (fun d entry => insert entry.1 entry.2 d) base

def keys (entries : Dictionary α) : List String :=
  List.map Prod.fst entries

/-- The texts in order, each of them once. -/
def ordered (texts : List String) : List String :=
  keys (ofList (List.map (fun text => (text, ())) texts))

def mapValues (f : α → β) (entries : Dictionary α) : Dictionary β :=
  List.map (fun entry => (entry.1, f entry.2)) entries

end Dictionary

end Dashboard
