import Dashboard.Script.Lexeme
import Dashboard.Script.Tree

/-!
Parsing of scripts and expressions by recursive descent.

Every production that can contain itself is entered one level deeper, and there are `maxNesting`
levels. So the productions of one level are plain functions over those of the next, and the
recursion is on the number of levels that remain. A chain such as `a.b.c` or `a + b + c` deepens
the tree without entering a level; its links are counted against the remaining levels too.
-/
namespace Dashboard.Script

/-- The lexemes still to be read, and the place where the text ends. -/
structure Tokens where
  lexemes : List Lexeme
  stop : Position
  deriving Repr

abbrev Parser (α : Type) := StateT Tokens (Except ParseError) α

namespace Parser

variable {α : Type}

/-- The next token; none at the end. -/
def peek : Parser (Option Token) := fun s => .ok (s.lexemes.head?.map Lexeme.token, s)

/-- The place of the next token, or of the end. -/
def here : Parser Position :=
  fun s => .ok ((s.lexemes.head?.map Lexeme.position).getD s.stop, s)

def skip : Parser Unit := fun s => .ok ((), ⟨s.lexemes.tail, s.stop⟩)

def fail (fault : ParseFault) : Parser α := do
  throw ⟨fault, ← here⟩

def unexpected (expected : String) : Parser α := do
  fail (.unexpectedToken expected (← peek))

/-- Takes the next token if it is this one, and says whether it did. -/
def accept (token : Token) : Parser Bool := do
  if (← peek) = some token then
    skip
    return true
  else
    return false

def expect (token : Token) (expected : String) : Parser Unit := do
  unless ← accept token do
    unexpected expected

def skipSemicolons : Parser Unit := fun s =>
  .ok ((), ⟨s.lexemes.dropWhile fun l => l.token = .semicolon, s.stop⟩)

def identifier : Parser Node := do
  let position ← here
  match ← peek with
  | some (.identifier name) =>
    skip
    return .identifier position name
  | _ => unexpected "identifier"

/-- A name that acts as a keyword only where it stands, such as `from`. -/
def word (text : String) : Parser Unit := do
  if (← peek) = some (.identifier text) then skip else unexpected ("'" ++ text ++ "'")

def propertyName : Parser String := do
  match (← peek).bind Token.propertyName? with
  | some name =>
    skip
    return name
  | none => unexpected "property name"

/-- Items with commas between them, up to but not including `close`; a comma may follow the last.
An item that takes no token ends the list. -/
def commaSeparated (close : Token) (item : Parser α) (s : Tokens) :
    Except ParseError (List α × Tokens) :=
  if s.lexemes.head?.map Lexeme.token = some close then .ok ([], s)
  else
    match item s with
    | .error e => .error e
    | .ok (first, t) =>
      match t.lexemes with
      | ⟨.comma, _⟩ :: rest =>
        if rest.length < s.lexemes.length then
          match commaSeparated close item ⟨rest, t.stop⟩ with
          | .error e => .error e
          | .ok (more, u) => .ok (first :: more, u)
        else .ok ([first], ⟨rest, t.stop⟩)
      | _ => .ok ([first], t)
termination_by s.lexemes.length

/-- One or more items with commas between them. -/
def commaChain (item : Parser α) (s : Tokens) : Except ParseError (List α × Tokens) :=
  match item s with
  | .error e => .error e
  | .ok (first, t) =>
    match t.lexemes with
    | ⟨.comma, _⟩ :: rest =>
      if rest.length < s.lexemes.length then
        match commaChain item ⟨rest, t.stop⟩ with
        | .error e => .error e
        | .ok (more, u) => .ok (first :: more, u)
      else .ok ([first], ⟨rest, t.stop⟩)
    | _ => .ok ([first], t)
termination_by s.lexemes.length

/-- Statements up to but not including `close`, or to the end of the text; semicolons after each are skipped.
A statement that takes no token ends the list. -/
def statementsUntil (close : Option Token) (statement : Parser Node) (s : Tokens) :
    Except ParseError (List Node × Tokens) :=
  let next := s.lexemes.head?.map Lexeme.token
  if next = close ∨ next = none then .ok ([], s)
  else
    match (do let first ← statement; skipSemicolons; return first : Parser Node) s with
    | .error e => .error e
    | .ok (first, t) =>
      if t.lexemes.length < s.lexemes.length then
        match statementsUntil close statement t with
        | .error e => .error e
        | .ok (more, u) => .ok (first :: more, u)
      else .ok ([first], t)
termination_by s.lexemes.length

/-- Whether parameters and an arrow come next: `x =>`, or names and commas in parentheses. -/
def arrowAhead (tokens : List Lexeme) : Bool :=
  match tokens.map Lexeme.token with
  | .identifier _ :: .arrow :: _ => true
  | .openParen :: rest =>
    match rest.dropWhile isParameterToken with
    | .closeParen :: .arrow :: _ => true
    | _ => false
  | _ => false
where
  isParameterToken : Token → Bool
    | .identifier _ | .comma => true
    | _ => false

def params : Parser (List Node) := do
  expect .openParen "'('"
  let names ← commaSeparated .closeParen identifier
  expect .closeParen "')'"
  return names

def importSpecifier : Parser Node := do
  let position ← here
  let imported ← identifier
  if (← peek) = some (.identifier "as") then
    skip
    return .namedSpecifier position imported (← identifier)
  else
    return .namedSpecifier position imported imported

def namespaceOrNamed : Parser (List Node) := do
  if ← accept (.operator .times) then
    let position ← here
    word "as"
    return [.namespaceSpecifier position (← identifier)]
  else if ← accept .openBrace then
    let specifiers ← commaSeparated .closeBrace importSpecifier
    expect .closeBrace "'\x7d'"
    return specifiers
  else
    return []

/-- What an import binds, with the `from` after it; an import for its effect has neither. -/
def importClause : Parser (List Node) := do
  match ← peek with
  | some (.string _) => return []
  | some (.identifier _) =>
    let position ← here
    let binding ← identifier
    let _ ← accept .comma
    let others ← namespaceOrNamed
    word "from"
    return .defaultSpecifier position binding :: others
  | _ =>
    let specifiers ← namespaceOrNamed
    word "from"
    return specifiers

def importDeclaration : Parser Node := do
  let position ← here
  expect (.keyword .importWord) "'import'"
  let specifiers ← importClause
  let place ← here
  match ← peek with
  | some (.string source) =>
    skip
    return .imports position specifiers (.literal place (.str source))
  | _ => unexpected "module specifier"

end Parser

open Dashboard.Script.Parser

/-- The productions that are entered one level deeper. -/
structure Productions where
  statement : Parser Node
  assignment : Parser Node
  binary : (least : Nat) → Parser Node
  unary : Parser Node
  primary : Parser Node

namespace Productions

/-- No level remains. -/
def exhausted : Productions where
  statement := fail .nestingTooDeep
  assignment := fail .nestingTooDeep
  binary _ := fail .nestingTooDeep
  unary := fail .nestingTooDeep
  primary := fail .nestingTooDeep

section Level

/-! The productions of one level: `inner` are those one level deeper, and `links` says how many
links a chain may have here. -/

variable (links : Nat) (inner : Productions)

def block : Parser Node := do
  let position ← here
  expect .openBrace "'\x7b'"
  skipSemicolons
  let body ← statementsUntil (some .closeBrace) inner.statement
  expect .closeBrace "'\x7d'"
  return .block position body

def declarator : Parser Node := do
  let position ← here
  let name ← identifier
  if ← accept (.operator .assign) then
    return .declarator position name (some (← inner.assignment))
  else
    return .declarator position name none

def declarationOf (kind : DeclarationKind) : Parser Node := do
  let position ← here
  skip
  return .declarations position kind (← commaChain (declarator inner))

def function (isDeclaration : Bool) : Parser Node := do
  let position ← here
  expect (.keyword .function) "'function'"
  let name ← match ← peek with
    | some (.identifier _) => some <$> identifier
    | _ => if isDeclaration then unexpected "function name" else pure none
  let names ← params
  let body ← block inner
  return .function position isDeclaration name names body

/-- The declaration of variables or of a function that comes next, if one does. -/
def declaration? : Parser (Option Node) := do
  match ← peek with
  | some (.keyword .letWord) => some <$> declarationOf inner .letKind
  | some (.keyword .constWord) => some <$> declarationOf inner .constKind
  | some (.keyword .varWord) => some <$> declarationOf inner .varKind
  | some (.keyword .function) => some <$> function inner true
  | _ => return none

def returnStatement : Parser Node := do
  let position ← here
  skip
  match ← peek with
  | none | some .semicolon | some .closeBrace => return .returned position none
  | _ => return .returned position (some (← inner.assignment))

def ifStatement : Parser Node := do
  let position ← here
  skip
  expect .openParen "'('"
  let test ← inner.assignment
  expect .closeParen "')'"
  let consequent ← inner.statement
  skipSemicolons
  if ← accept (.keyword .elseWord) then
    return .branching position test consequent (some (← inner.statement))
  else
    return .branching position test consequent none

def statementBody : Parser Node := do
  let position ← here
  match ← declaration? inner with
  | some node => return node
  | none =>
    match ← peek with
    | some (.keyword .importWord) => importDeclaration
    | some (.keyword .exportWord) =>
      skip
      match ← declaration? inner with
      | some node => return .exported position node
      | none => unexpected "declaration after 'export'"
    | some (.keyword .returnWord) => returnStatement inner
    | some (.keyword .ifWord) => ifStatement inner
    | some .openBrace => block inner
    | some .semicolon =>
      skip
      return .empty position
    | some (.reserved _) => unexpected "statement"
    | _ => return .expression position (← inner.assignment)

def spreadOrAssignment : Parser Node := do
  let position ← here
  if ← accept (.operator .spread) then
    return .spread position (← inner.assignment)
  else
    inner.assignment

def arguments : Parser (List Node) := do
  expect .openParen "'('"
  let values ← commaSeparated .closeParen (spreadOrAssignment inner)
  expect .closeParen "')'"
  return values

def element : Parser Node := do
  if (← peek) = some .comma then fail .arrayHole else spreadOrAssignment inner

def array : Parser Node := do
  let position ← here
  expect .openBracket "'['"
  let elements ← commaSeparated .closeBracket (element inner)
  expect .closeBracket "']'"
  return .array position elements

/-- The key of a property, and whether it may stand for the value too. -/
def propertyKey : Parser (Node × Bool) := do
  let position ← here
  match ← peek with
  | some (.string text) =>
    skip
    return (.literal position (.str text), false)
  | some (.number value) =>
    skip
    return (.literal position (.number value), false)
  | some .openBracket => fail .computedKey
  | some (.identifier name) =>
    skip
    return (.identifier position name, true)
  | _ => return (.identifier position (← propertyName), false)

def property : Parser Node := do
  let position ← here
  if ← accept (.operator .spread) then
    return .spread position (← inner.assignment)
  else
    let (key, mayStandAlone) ← propertyKey
    if ← accept .colon then
      return .property position key (← inner.assignment) false
    else if mayStandAlone then
      return .property position key key true
    else
      unexpected "':'"

def object : Parser Node := do
  let position ← here
  expect .openBrace "'\x7b'"
  let properties ← commaSeparated .closeBrace (property inner)
  expect .closeBrace "'\x7d'"
  return .object position properties

/-- The names after the first in `new a.b.c`. -/
def constructorPath (position : Position) : Nat → Node → Parser Node
  | links, callee => do
    if ← accept .dot then
      match links with
      | 0 => fail .nestingTooDeep
      | links + 1 =>
        let place ← here
        let name ← propertyName
        constructorPath position links (.member position callee (.identifier place name) false)
    else
      return callee

def newExpression : Parser Node := do
  let position ← here
  skip
  let first ← inner.primary
  let callee ← constructorPath position links first
  if (← peek) = some .openParen then
    return .construct position callee (← arguments inner)
  else
    return .construct position callee []

def primaryBody : Parser Node := do
  let position ← here
  let scalar := fun value : Scalar => (do skip; return .literal position value : Parser Node)
  match ← peek with
  | some (.number value) => scalar (.number value)
  | some (.string value) => scalar (.str value)
  | some (.boolean value) => scalar (.bool value)
  | some .null => scalar .null
  | some (.template raw) =>
    skip
    return .template position raw
  | some (.identifier _) => identifier
  | some .openParen =>
    skip
    let inside ← inner.assignment
    expect .closeParen "')'"
    return inside
  | some .openBracket => array inner
  | some .openBrace => object inner
  | some (.keyword .function) => function inner false
  | some (.keyword .newWord) => newExpression links inner
  | _ => unexpected "expression"

def isLink : Token → Bool
  | .dot | .openBracket | .openParen | .operator .increment | .operator .decrement => true
  | _ => false

/-- Members, calls and postfix operators after an expression, from left to right. -/
def postfixChain : Nat → Node → Parser Node
  | links, target => do
    let position := target.position
    match ← peek with
    | none => return target
    | some token =>
      if isLink token then
        match links with
        | 0 => fail .nestingTooDeep
        | links + 1 =>
          match token with
          | .openParen => postfixChain links (.call position target (← arguments inner))
          | .openBracket =>
            skip
            let name ← inner.assignment
            expect .closeBracket "']'"
            postfixChain links (.member position target name true)
          | .dot =>
            skip
            let place ← here
            let name ← propertyName
            postfixChain links (.member position target (.identifier place name) false)
          | .operator operator =>
            skip
            postfixChain links (.update position operator false target)
          | _ => return target
      else
        return target

def prefixed (operator : UnaryOperator) (position : Position) : Parser Node := do
  skip
  return .unary position operator (← inner.unary)

def stepped (operator : Operator) (position : Position) : Parser Node := do
  skip
  return .update position operator true (← inner.unary)

/-- A minus sign before a number literal belongs to the literal. -/
def unaryBody : Parser Node := do
  let position ← here
  match ← peek with
  | some (.operator .minus) =>
    skip
    match ← peek with
    | some (.number value) =>
      skip
      postfixChain inner links (.literal position (.number value.negate))
    | _ => return .unary position .minus (← inner.unary)
  | some (.operator .not) => prefixed inner .not position
  | some (.operator .plus) => prefixed inner .plus position
  | some (.operator .bitNot) => prefixed inner .complement position
  | some (.keyword .typeof) => prefixed inner .typeof position
  | some (.operator .increment) => stepped inner .increment position
  | some (.operator .decrement) => stepped inner .decrement position
  | _ =>
    let first ← primaryBody links inner
    postfixChain inner links first

/-- Binary operators that bind at least as tightly as `least`, with their right operands. -/
def binaryChain (position : Position) (least : Nat) : Nat → Node → Parser Node
  | links, left => do
    match ← peek with
    | some (.operator operator) =>
      match operator.precedence? with
      | none => return left
      | some precedence =>
        if precedence < least then return left
        else
          match links with
          | 0 => fail .nestingTooDeep
          | links + 1 =>
            skip
            let right ← inner.binary (operator.rightPrecedence precedence)
            binaryChain position least links (.binary position operator left right)
    | _ => return left

def binaryBody (least : Nat) : Parser Node := do
  let position ← here
  let first ← unaryBody links inner
  binaryChain inner position least links first

def conditional : Parser Node := do
  let position ← here
  let test ← binaryBody links inner 1
  if ← accept .question then
    let consequent ← inner.assignment
    expect .colon "':'"
    return .conditional position test consequent (← inner.assignment)
  else
    return test

def arrow : Parser Node := do
  let position ← here
  let names ← match ← peek with
    | some (.identifier _) => List.singleton <$> identifier
    | _ => params
  expect .arrow "'=>'"
  if (← peek) = some .openBrace then
    return .arrow position names (← block inner)
  else
    return .arrow position names (← inner.assignment)

def assignmentBody : Parser Node := do
  if arrowAhead (← get).lexemes then
    arrow inner
  else
    let position ← here
    let left ← conditional links inner
    match ← peek with
    | some (.operator operator) =>
      if operator.isAssignment then
        skip
        return .assignment position operator left (← inner.assignment)
      else
        return left
    | _ => return left

end Level

/-- The productions as they are entered with so many levels left. -/
def entered : Nat → Productions
  | 0 => exhausted
  | links + 1 =>
    let inner := entered links
    { statement := statementBody inner
      assignment := assignmentBody links inner
      binary := binaryBody links inner
      unary := unaryBody links inner
      primary := primaryBody links inner }

end Productions

def program (origin : Position) : Parser Node := do
  skipSemicolons
  let body ← statementsUntil none (Productions.entered maxNesting).statement
  return .program origin body

def wholeExpression : Parser Node := do
  let node ← (Productions.entered maxNesting).assignment
  match ← peek with
  | none => return node
  | some _ => unexpected "end of expression"

/-- Runs a parser over a text whose first character stands at `origin`. -/
def parseText (parser : Parser Node) (text : String) (origin : Position) :
    Except ParseError Node := do
  let (lexemes, stop) ← lexemesOf text origin
  let (node, _) ← parser ⟨lexemes, stop⟩
  return node

def parseScript (text : String) (origin : Position) : Except ParseError Node :=
  parseText (program origin) text origin

def parseExpression (text : String) (origin : Position) : Except ParseError Node :=
  parseText wholeExpression text origin

end Dashboard.Script
