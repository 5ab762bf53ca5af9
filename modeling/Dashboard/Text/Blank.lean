/-!
Blank characters and trimming. A character is blank when it has the Unicode property White_Space.
-/
namespace Dashboard.Text

def inRanges (ranges : List (Nat × Nat)) (c : Char) : Bool :=
  ranges.any fun r => r.1 ≤ c.toNat && c.toNat ≤ r.2

/-- The property White_Space, as closed ranges of code points. -/
def blankRanges : List (Nat × Nat) :=
  [(0x9, 0xd), (0x20, 0x20), (0x85, 0x85), (0xa0, 0xa0), (0x1680, 0x1680), (0x2000, 0x200a),
  (0x2028, 0x2029), (0x202f, 0x202f), (0x205f, 0x205f), (0x3000, 0x3000)]

def isBlank (c : Char) : Bool :=
  inRanges blankRanges c

def trimStart (text : List Char) : List Char :=
  text.dropWhile isBlank

def trimEnd (text : List Char) : List Char :=
  (text.reverse.dropWhile isBlank).reverse

def trim (text : List Char) : List Char :=
  trimEnd (trimStart text)

def trimmed (text : String) : String :=
  String.ofList (trim text.toList)

def isAllBlank (text : String) : Bool :=
  text.toList.all isBlank

/-- The maximal stretches without blanks. -/
def words (text : List Char) : List (List Char) :=
  (text.foldr (fun c (acc : List Char × List (List Char)) =>
    if isBlank c then ([], if acc.1.isEmpty then acc.2 else acc.1 :: acc.2)
    else (c :: acc.1, acc.2)) ([], [])) |> fun acc =>
      if acc.1.isEmpty then acc.2 else acc.1 :: acc.2

/-- The text with every stretch of blanks written as one space, and none at either end. -/
def collapsed (text : String) : String :=
  String.ofList (List.intercalate [' '] (words text.toList))

/-- The pieces between the occurrences of a separator; always at least one. -/
def pieces (separator : Char) : List Char → List (List Char)
  | [] => [[]]
  | c :: rest =>
    if c = separator then [] :: pieces separator rest
    else match pieces separator rest with
      | [] => [[c]]
      | piece :: more => (c :: piece) :: more

/-- Without the carriage return that ends a line. -/
def dropReturn (line : List Char) : List Char :=
  match line.getLast? with
  | some '\r' => line.dropLast
  | _ => line

/-- The lines of a text: what a line feed ends, less a carriage return before it. A last line
without a line feed counts unless it is empty, and keeps its carriage return. -/
def lines : List Char → List (List Char)
  | [] => []
  | text@(_ :: _) =>
    let all := pieces '\n' text
    let ended := all.dropLast.map dropReturn
    match all.getLast? with
    | none | some [] => ended
    | some last => ended ++ [last]

end Dashboard.Text
