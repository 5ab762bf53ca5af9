import Dashboard.Inputs
import Dashboard.Script.Literal
import Dashboard.Text.Pattern

/-!
Placeholders: the form `{inputs.name}`, the only one in which a text may refer to an input. A text
is cut into gaps and placeholders from left to right; validation says what else stands in braces.
-/
namespace Dashboard.Placeholder

def startsIdentifier (c : Char) : Bool :=
  Text.isAsciiLetter c || c = '_'

def isIdentifierChar (c : Char) : Bool :=
  Text.isAsciiAlphanumeric c || c = '_'

/-- Names of inputs: ASCII letters, digits and underscores, not beginning with a digit. -/
def isIdentifier (name : List Char) : Bool :=
  name.head?.any startsIdentifier && name.all isIdentifierChar

/-- The name in a reference to an input, without braces. -/
def reference? (text : String) : Option String :=
  if "inputs.".toList.isPrefixOf text.toList then
    let name := text.toList.drop 7
    if isIdentifier name then some (String.ofList name) else none
  else none

def opening : List Char := "\x7binputs.".toList

/-- The name of the placeholder that a text begins with. -/
def at? (text : List Char) : Option (List Char) :=
  if opening.isPrefixOf text then
    let inside := text.drop opening.length
    let name := inside.takeWhile isIdentifierChar
    if isIdentifier name && (inside.drop name.length).head? = some '\x7d' then some name else none
  else none

inductive Piece where
  | gap (text : List Char)
  | reference (name : List Char)
  deriving DecidableEq, Repr

def Piece.chars : Piece → List Char
  | gap text => text
  | reference name => opening ++ name ++ ['\x7d']

/-- A character in front of the pieces joins a gap that begins them. -/
def consChar (c : Char) : List Piece → List Piece
  | .gap text :: more => .gap (c :: text) :: more
  | pieces => .gap [c] :: pieces

/-- The gaps and placeholders of a text from left to right. -/
def pieces (text : List Char) : List Piece :=
  match text with
  | [] => []
  | c :: more =>
    match at? (c :: more) with
    | some name => .reference name :: pieces (more.drop (name.length + opening.length))
    | none => consChar c (pieces more)
termination_by text.length
decreasing_by all_goals (simp [List.length_drop]; try omega)

/-- A placeholder as it stands in a text, and the name in it. -/
structure Reference where
  fullMatch : String
  paramName : String
  deriving DecidableEq, Repr

/-- The placeholder for an input. -/
def Reference.named (name : List Char) : Reference :=
  ⟨String.ofList (Piece.reference name).chars, String.ofList name⟩

/-- The placeholders of a text, in order. -/
def parseReferences (text : String) : List Reference :=
  (pieces text.toList).filterMap fun
    | .gap _ => none
    | .reference name => some (.named name)

/-- The names that a text refers to, in order. -/
def references (text : String) : List String :=
  (pieces text.toList).filterMap fun
    | .gap _ => none
    | .reference name => some (String.ofList name)

/-- The text with every placeholder replaced by what its input shows. -/
def resolve (text : String) (state : InputState) : String :=
  String.ofList ((pieces text.toList).flatMap fun
    | .gap text => text
    | .reference name => (state.shown (String.ofList name)).toList)

/-- The name in a text that is a placeholder and nothing else. -/
def whole? (text : List Char) : Option (List Char) :=
  match at? text with
  | some name => if text.length = name.length + opening.length + 1 then some name else none
  | none => none

def isWhole (text : List Char) : Bool := (whole? text).isSome

inductive Violation where
  | dangerous (word : String) (found : List Char)
  | unbalanced (value : List Char)
  | nested (segment : List Char)
  | unclosed (segment : List Char)
  | invalid (segment : List Char)
  | notWhole (value : List Char)
  deriving DecidableEq, Repr

def Violation.message : Violation → String
  | dangerous word found =>
    "Dangerous expression pattern detected (" ++ word ++ "): " ++ String.ofList found
  | unbalanced value => "Unbalanced '\x7d' in '" ++ String.ofList value ++ "'"
  | nested segment => "Nested braces not allowed: " ++ String.ofList segment
  | unclosed segment => "Unclosed '\x7b' in '" ++ String.ofList segment ++ "'"
  | invalid segment =>
    "Invalid expression: " ++ String.ofList segment ++ ". Only \x7binputs.paramName\x7d allowed."
  | notWhole value =>
    "Invalid attribute value: '" ++ String.ofList value ++
      "'. A placeholder must be the entire value."

def dangerousWords : List String := ["eval", "fetch", "document", "window", "process"]

/-- A word in either case, on its own somewhere between braces. -/
def dangerousPattern (word : String) : Text.Pattern :=
  let inside := fun c : Char => c ≠ '\x7d'
  .sequence [.literal ['\x7b'], .many inside, .boundary, .anyCase word.toList, .boundary,
    .many inside, .literal ['\x7d']]

/-- Placeholders name inputs, so the words do no harm there. -/
def dangers (value : List Char) : List Violation :=
  dangerousWords.filterMap fun word =>
    (((dangerousPattern word).allMatches none value).find? fun found => !isWhole found).map
      (.dangerous word)

/-- The outermost groups in braces as far as they are read: those complete without inner braces,
the violations met, and the group still open with the braces that close it. -/
structure Groups where
  segments : List (List Char) := []
  violations : List Violation := []
  current : List Char := []
  depth : Nat := 0
  isNested : Bool := false
  deriving Repr

def Groups.step (value : List Char) (g : Groups) (c : Char) : Groups :=
  if c = '\x7b' then
    { g with depth := g.depth + 1, isNested := g.isNested || 0 < g.depth, current := g.current ++ [c] }
  else if c = '\x7d' then
    match g.depth with
    | 0 => { g with violations := g.violations ++ [.unbalanced value] }
    | 1 =>
      let segment := g.current ++ [c]
      let closed := { g with depth := 0, isNested := false, current := [] }
      if g.isNested then { closed with violations := g.violations ++ [.nested segment] }
      else { closed with segments := g.segments ++ [segment] }
    | depth + 1 => { g with depth := depth, current := g.current ++ [c] }
  else if g.depth = 0 then g
  else { g with current := g.current ++ [c] }

/-- The groups without inner braces, and what is wrong with the others. -/
def braceSegments (value : List Char) : List (List Char) × List Violation :=
  let g := value.foldl (Groups.step value) {}
  (g.segments, if g.depth = 0 then g.violations else g.violations ++ [.unclosed g.current])

/-- What is wrong with the text of an attribute: anything in braces but one placeholder that is
the whole text. -/
def violations (text : String) : List Violation :=
  let value := text.toList
  if !value.any (fun c => c = '\x7b' || c = '\x7d') then []
  else
    let (segments, brace) := braceSegments value
    let invalid := (segments.filter fun segment => !isWhole segment).map Violation.invalid
    let found := dangers value ++ brace ++ invalid
    if found.isEmpty && !isWhole value then [.notWhole value] else found

def validate (text : String) : List String :=
  (violations text).map Violation.message

/-- The same for the bare text of an expression tag or of a condition. -/
def validateReference (text : String) : List String :=
  validate ("\x7b" ++ Text.trimmed text ++ "\x7d")

end Dashboard.Placeholder
