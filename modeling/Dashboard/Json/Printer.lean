import Dashboard.Json.Basic

/-!
JSON text. The compact form has no blanks; the spread form puts every element on a line of its own,
indented by two spaces for each level.
-/
namespace Dashboard.Json

/-- Plain notation while the first digit stands between `10 ^ -5` and `10 ^ 15`; a positive
exponent has a sign, and a tie goes to the even digit. -/
def numberLayout : Decimal.Layout := ⟨-5, 15, true, .toEven⟩

def hexDigit (n : Nat) : Char :=
  if n < 10 then Char.ofNat (48 + n) else Char.ofNat (87 + n)

def escaped (c : Char) : List Char :=
  if c = '\x22' then ['\\', '\x22']
  else if c = '\\' then ['\\', '\\']
  else if c = '\x08' then ['\\', 'b']
  else if c = '\x0c' then ['\\', 'f']
  else if c = '\n' then ['\\', 'n']
  else if c = '\r' then ['\\', 'r']
  else if c = '\t' then ['\\', 't']
  else if c.toNat < 32 then
    ['\\', 'u', '0', '0', hexDigit (c.toNat / 16), hexDigit (c.toNat % 16)]
  else [c]

def quote (text : String) : List Char :=
  '\x22' :: text.toList.flatMap escaped ++ ['\x22']

def intChars (n : Int) : List Char :=
  (if n < 0 then ['-'] else []) ++ Nat.toDigits 10 n.natAbs

def floatChars (x : Binary64) : List Char :=
  if x.isFinite then numberLayout.chars x else "null".toList

mutual

def chars : Json → List Char
  | .null => "null".toList
  | .bool value => (if value then "true" else "false").toList
  | .int n => intChars n
  | .float x => floatChars x
  | .str text => quote text
  | .arr items => '[' :: itemChars items ++ [']']
  | .obj entries => '\x7b' :: entryChars entries ++ ['\x7d']

def itemChars : List Json → List Char
  | [] => []
  | [item] => chars item
  | item :: more => chars item ++ ',' :: itemChars more

def entryChars : List (String × Json) → List Char
  | [] => []
  | [(key, value)] => quote key ++ ':' :: chars value
  | (key, value) :: more => quote key ++ ':' :: chars value ++ ',' :: entryChars more

end

def text (value : Json) : String :=
  String.ofList (chars value)

def indentation (level : Nat) : List Char :=
  '\n' :: List.replicate (2 * level) ' '

mutual

/-- Elements on lines of their own; empty arrays and objects stay closed up. -/
def spreadChars (level : Nat) : Json → List Char
  | .arr [] => ['[', ']']
  | .arr items => '[' :: spreadItems (level + 1) items ++ indentation level ++ [']']
  | .obj [] => ['\x7b', '\x7d']
  | .obj entries => '\x7b' :: spreadEntries (level + 1) entries ++ indentation level ++ ['\x7d']
  | .null => "null".toList
  | .bool value => (if value then "true" else "false").toList
  | .int n => intChars n
  | .float x => floatChars x
  | .str text => quote text

def spreadItems (level : Nat) : List Json → List Char
  | [] => []
  | [item] => indentation level ++ spreadChars level item
  | item :: more => indentation level ++ spreadChars level item ++ ',' :: spreadItems level more

def spreadEntries (level : Nat) : List (String × Json) → List Char
  | [] => []
  | [(key, value)] => indentation level ++ quote key ++ ": ".toList ++ spreadChars level value
  | (key, value) :: more =>
    indentation level ++ quote key ++ ": ".toList ++ spreadChars level value ++
      ',' :: spreadEntries level more

end

def spread (value : Json) : String :=
  String.ofList (spreadChars 0 value)

end Dashboard.Json
