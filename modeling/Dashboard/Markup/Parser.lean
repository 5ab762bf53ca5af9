import Dashboard.Markup.Tree
import Dashboard.Script.Parser
import Dashboard.Text.Blank

/-!
Parsing of documents. Elements and conditional blocks are entered one level deeper, and there are
`maxNesting` levels; on each level the children are read from left to right, every step taking at
least one character.
-/
namespace Dashboard.Markup

/-- What is still to be read, and the script region if one has been met. -/
structure Source where
  cursor : Cursor
  script : Option ScriptRegion

abbrev Parser (α : Type) := StateT Source (Except ParseError) α

/-- What ends a run of children. -/
inductive Terminator where
  | endOfText
  | closingTag (name : String) (position : Position)
  | otherwise (position : Position)
  | elseIf (condition : String) (position : Position)
  | endIf (position : Position)
  deriving Repr

namespace Parser

variable {α : Type}

def rest : Parser (List Char) := fun s => .ok (s.cursor.rest, s)

def here : Parser Position := fun s => .ok (s.cursor.pos, s)

def skip (n : Nat) : Parser Unit := fun s => .ok ((), { s with cursor := s.cursor.skip n })

def failAt (fault : ParseFault) (position : Position) : Parser α :=
  throw ⟨fault, position⟩

def fail (fault : ParseFault) : Parser α := do
  failAt fault (← here)

/-- Takes the next `n` characters. -/
def take (n : Nat) : Parser String := do
  let text := (← rest).take n
  skip n
  return String.ofList text

def takeWhile (p : Char → Bool) : Parser String := do
  take ((← rest).takeWhile p).length

def skipBlanks : Parser Unit := do
  skip ((← rest).takeWhile Text.isBlank).length

def expectChar (expected : Char) : Parser Unit := do
  match (← rest).head? with
  | some c => if c = expected then skip 1 else fail (.expectedCharacter expected (some c))
  | none => fail (.expectedCharacter expected none)

def isNameChar (c : Char) : Bool :=
  Text.isAlphanumeric c || c = '_' || c = '-' || c = '.' || c = ':'

def name (what : String) : Parser String := do
  let text ← takeWhile isNameChar
  if text.isEmpty then fail (.missingName what) else return text

/-- How many characters come before a mark; none where it does not occur. Letters of the mark
match in either case. -/
def distance? (mark : List Char) : List Char → Option Nat
  | [] => if mark.isEmpty then some 0 else none
  | c :: more =>
    if startsWith mark (c :: more) then some 0 else (distance? mark more).map (· + 1)
where
  startsWith : List Char → List Char → Bool
    | [], _ => true
    | _ :: _, [] => false
    | m :: mark, c :: text => m.toLower = c.toLower && startsWith mark text

/-- How many characters stand between an opening brace and the brace that closes it. Braces
within quotes do not count, nor a quote after a backslash within quotes. -/
def bracedLength? : (depth : Nat) → (quote : Option Char) → List Char → Option Nat
  | _, _, [] => none
  | depth, some q, '\\' :: _ :: more => (bracedLength? depth (some q) more).map (· + 2)
  | depth, some q, c :: more =>
    (bracedLength? depth (if c = q then none else some q) more).map (· + 1)
  | depth, none, c :: more =>
    if c = '\x22' ∨ c = '\x27' ∨ c = '\x60' then (bracedLength? depth (some c) more).map (· + 1)
    else if c = '\x7b' then (bracedLength? (depth + 1) none more).map (· + 1)
    else if c = '\x7d' then
      match depth with
      | 0 => some 0
      | depth + 1 => (bracedLength? depth none more).map (· + 1)
    else (bracedLength? depth none more).map (· + 1)

/-- The text between braces, and the place where it begins. -/
def braced : Parser (String × Position) := do
  let position ← here
  skip 1
  let inside ← here
  match bracedLength? 0 none (← rest) with
  | none => failAt .unterminatedBrace position
  | some n =>
    let content ← take n
    skip 1
    return (content, inside)

def liftExpression (text : String) (origin : Position) : Parser Script.Node :=
  fun s => (Script.parseExpression text origin).map (·, s)

def mustache : Parser Mustache := do
  let position ← here
  let (content, inside) ← braced
  if Text.isAllBlank content then failAt .emptyExpression position
  let expression ← liftExpression content inside
  return ⟨position, Text.trimmed content, expression⟩

def isTagStart (c : Char) : Bool :=
  Text.isAsciiLetter c || c = '/' || c = '!'

/-- Text goes on to a brace, or to an angle bracket that begins a tag. -/
def textLength : List Char → Nat
  | [] => 0
  | c :: more =>
    if c = '\x7b' ∨ (c = '<' ∧ more.head?.any isTagStart) then 0 else textLength more + 1

def text : Parser Node := do
  let position ← here
  match textLength (← rest) with
  | 0 => fail .strayDeclaration
  | n => return .text position (← take n)

def comment : Parser Node := do
  let position ← here
  skip 4
  match distance? "-->".toList (← rest) with
  | none => failAt .unterminatedComment position
  | some n =>
    let data ← take n
    skip 3
    return .comment position data

/-- An unquoted value goes on to a blank or to the end of the tag. -/
def unquotedLength : List Char → Nat
  | [] => 0
  | c :: more =>
    if Text.isBlank c || c = '>' || (c = '/' && more.head? = some '>') then 0
    else unquotedLength more + 1

def attributeValue : Parser AttributeValue := do
  let position ← here
  match (← rest).head? with
  | some '\x7b' => return .mustache (← mustache)
  | some c =>
    if c = '\x22' ∨ c = '\x27' then
      skip 1
      match distance? [c] (← rest) with
      | none => failAt .unterminatedAttribute position
      | some n =>
        let data ← take n
        skip 1
        return .text position data
    else
      match unquotedLength (← rest) with
      | 0 => fail .missingAttributeValue
      | n => return .text position (← take n)
  | none => fail .missingAttributeValue

def singleAttribute : Parser Attribute := do
  let position ← here
  let name ← name "attribute name"
  skipBlanks
  if (← rest).head? = some '=' then
    skip 1
    skipBlanks
    return ⟨position, name, ← attributeValue⟩
  else
    return ⟨position, name, .bare⟩

/-- The attributes of a tag up to its end, and whether the tag closes itself. An attribute that
takes no character ends them. -/
def attributes (start : Source) : Except ParseError ((List Attribute × Bool) × Source) :=
  match skipBlanks start with
  | .error e => .error e
  | .ok (_, s) =>
    match s.cursor.rest with
    | [] => fail .endInsideTag s
    | '>' :: _ => (do skip 1; return ([], false) : Parser _) s
    | '/' :: _ => (do skip 1; expectChar '>'; return ([], true) : Parser _) s
    | '\x7b' :: _ => fail .shorthandAttribute s
    | _ =>
      match singleAttribute s with
      | .error e => .error e
      | .ok (first, t) =>
        if t.cursor.rest.length < start.cursor.rest.length then
          match attributes t with
          | .error e => .error e
          | .ok ((more, selfClosing), u) => .ok ((first :: more, selfClosing), u)
        else .ok (([first], false), t)
termination_by start.cursor.rest.length

/-- The raw text of a region up to its closing tag, which is taken too. -/
def rawText (tag : String) (position : Position) : Parser String := do
  let closing := "</".toList ++ tag.toList
  match distance? closing (← rest) with
  | none => failAt (.unclosedElement tag) position
  | some n =>
    let raw ← take n
    skip closing.length
    skipBlanks
    expectChar '>'
    return raw

/-- A script or style region. A document has one script at most, and both stand outside all
elements. A style region is part of the tree; the script is kept apart. -/
def rawRegion (tag : String) (position : Position) (inElement : Bool) : Parser (Option Node) := do
  if inElement then failAt (.nestedRawRegion tag) position
  let (found, selfClosing) ← attributes
  let origin ← here
  let raw ← if selfClosing then pure "" else rawText tag position
  if tag = "style" then return some (.style position found raw)
  if (← get).script.isSome then failAt .secondScript position
  modify fun s => { s with script := some ⟨position, found, origin, raw⟩ }
  return none

end Parser

open Dashboard.Markup.Parser

/-- What is read one level deeper, and what is read on the same level after its own opening. -/
structure Productions where
  children : (inElement : Bool) → Parser (List Node × Terminator)
  ifBlock : (inElement : Bool) → (condition : String) → Position → Parser Node

namespace Productions

section Level

/-! The productions of one level. `deeper` reads the children of an element that opens at a place,
and `ifBlock` the rest of a block after its opening. -/

variable (deeper : Position → (inElement : Bool) → Parser (List Node × Terminator))
variable (ifBlock : (inElement : Bool) → (condition : String) → Position → Parser Node)

def elementChildren (name : String) (position : Position) : Parser (List Node) := do
  match ← deeper position true with
  | (inner, .closingTag closing place) =>
    if closing = name then return inner else failAt (.mismatchedClosingTag closing name) place
  | (_, .endOfText) => failAt (.unclosedElement name) position
  | (_, .otherwise place) | (_, .elseIf _ place) | (_, .endIf place) =>
    failAt (.blockTagInsideElement name) place

/-- An element; none for the script region. -/
def element (inElement : Bool) : Parser (Option Node) := do
  let position ← here
  skip 1
  let name ← name "tag name"
  let lowered := name.toLower
  if lowered = "script" ∨ lowered = "style" then rawRegion lowered position inElement
  else
    let (found, selfClosing) ← attributes
    let children ← if selfClosing then pure [] else elementChildren deeper name position
    return some (.element position name found children)

def openBlock (inElement : Bool) : Parser Node := do
  let position ← here
  let (content, _) ← braced
  let header := Text.trimStart (content.toList.drop 1)
  let keyword := header.takeWhile Text.isAsciiLetter
  if keyword = "if".toList then
    ifBlock inElement (String.ofList (Text.trim (header.drop keyword.length))) position
  else
    failAt (.unsupportedBlock (String.ofList keyword)) position

def closingTag : Parser Terminator := do
  let position ← here
  skip 2
  let name ← name "closing tag name"
  skipBlanks
  expectChar '>'
  return .closingTag name position

def continuation : Parser Terminator := do
  let position ← here
  let (content, _) ← braced
  let header := Text.trim (content.toList.drop 1)
  if header = "else".toList then return .otherwise position
  else if "else if ".toList.isPrefixOf header then
    return .elseIf (String.ofList (Text.trim (header.drop 8))) position
  else failAt (.unsupportedContinuation content) position

def blockEnd : Parser Terminator := do
  let position ← here
  let (content, _) ← braced
  if Text.trim (content.toList.drop 1) = "if".toList then return .endIf position
  else failAt (.unexpectedBlockEnd content) position

/-- One step through the children: a child, nothing but progress, or the end of the run. -/
def step (inElement : Bool) : Parser (Option Node ⊕ Terminator) := do
  match ← rest with
  | [] => return .inr .endOfText
  | '<' :: '!' :: '-' :: '-' :: _ => return .inl (some (← comment))
  | '<' :: '/' :: _ => return .inr (← closingTag)
  | '\x7b' :: '#' :: _ => return .inl (some (← openBlock ifBlock inElement))
  | '\x7b' :: ':' :: _ => return .inr (← continuation)
  | '\x7b' :: '/' :: _ => return .inr (← blockEnd)
  | '\x7b' :: '@' :: _ => fail .specialTag
  | '\x7b' :: _ => return .inl (some (.mustache (← mustache)))
  | '<' :: c :: _ =>
    if Text.isAsciiLetter c then return .inl (← element deeper inElement)
    else return .inl (some (← text))
  | _ => return .inl (some (← text))

/-- Children up to what ends them. A step that takes no character ends the text. -/
def childrenUntil (inElement : Bool) (s : Source) :
    Except ParseError ((List Node × Terminator) × Source) :=
  match step deeper ifBlock inElement s with
  | .error e => .error e
  | .ok (.inr terminator, t) => .ok (([], terminator), t)
  | .ok (.inl child, t) =>
    if t.cursor.rest.length < s.cursor.rest.length then
      match childrenUntil inElement t with
      | .error e => .error e
      | .ok ((more, terminator), u) => .ok ((child.toList ++ more, terminator), u)
    else .ok ((child.toList, .endOfText), t)
termination_by s.cursor.rest.length

end Level

def misplaced (opened : Position) : Terminator → ParseError
  | .endOfText => ⟨.unclosedIf, opened⟩
  | .closingTag name position => ⟨.closingTagInsideIf name, position⟩
  | .otherwise position | .elseIf _ position => ⟨.secondElse, position⟩
  | .endIf position => ⟨.endIfOutsideIf, position⟩

/-- The branches of a block whose children are read by `inner`. -/
def branches (inner : Productions) (inElement : Bool) (condition : String) (position : Position) :
    Parser Node := do
  if condition.isEmpty then failAt .missingCondition position
  let test ← liftExpression condition position
  let (children, terminator) ← inner.children inElement
  match terminator with
  | .endIf _ => return .ifBlock position condition test children .absent
  | .otherwise place =>
    match ← inner.children inElement with
    | (others, .endIf _) =>
      return .ifBlock position condition test children (.otherwise place others)
    | (_, terminator) => throw (misplaced position terminator)
  | .elseIf next place =>
    let block ← inner.ifBlock inElement next place
    return .ifBlock position condition test children (.elseIf place block)
  | terminator => throw (misplaced position terminator)

/-- The productions with so many levels left. -/
def atLevel : Nat → Productions
  | 0 =>
    let tooDeep := fun _ _ position => failAt .nestingTooDeep position
    { children := childrenUntil (fun position _ => failAt .nestingTooDeep position) tooDeep
      ifBlock := tooDeep }
  | levels + 1 =>
    let inner := atLevel levels
    let ifBlock := branches inner
    { children := childrenUntil (fun _ => inner.children) ifBlock
      ifBlock := ifBlock }

end Productions

def wholeDocument : Parser Document := do
  let (children, terminator) ← (Productions.atLevel maxNesting).children false
  match terminator with
  | .endOfText => return ⟨(← get).script, children⟩
  | .closingTag name position => failAt (.unopenedElement name) position
  | .otherwise position | .elseIf _ position => failAt .elseOutsideIf position
  | .endIf position => failAt .endIfOutsideIf position

def parse (source : String) : Except ParseError Document := do
  let (document, _) ← wholeDocument ⟨.ofText source .start, none⟩
  return document

namespace ScriptRegion

/-- The body of a region as a program, with places in the whole document. -/
def program (region : ScriptRegion) : Except ParseError Script.Node :=
  Script.parseScript region.raw region.origin

end ScriptRegion

namespace Document

def scriptProgram? (document : Document) : Except ParseError (Option Script.Node) :=
  match document.script with
  | none => .ok none
  | some region => region.program.map some

end Document

end Dashboard.Markup
