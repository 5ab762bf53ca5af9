import Dashboard.Decimal.Shortest
import Dashboard.Text.Quoted

/-!
Tokens of the script language: keywords, reserved words, literals, marks, operators and names.
-/
namespace Dashboard.Script

inductive Keyword where
  | letWord | constWord | varWord | function | importWord | exportWord | returnWord
  | ifWord | elseWord | newWord | typeof
  deriving DecidableEq, Repr

namespace Keyword

def all : List Keyword :=
  [.letWord, .constWord, .varWord, .function, .importWord, .exportWord, .returnWord,
    .ifWord, .elseWord, .newWord, .typeof]

def text : Keyword → String
  | letWord => "let"
  | constWord => "const"
  | varWord => "var"
  | function => "function"
  | importWord => "import"
  | exportWord => "export"
  | returnWord => "return"
  | ifWord => "if"
  | elseWord => "else"
  | newWord => "new"
  | typeof => "typeof"

def kind : Keyword → String
  | letWord => "Let"
  | constWord => "Const"
  | varWord => "Var"
  | function => "Function"
  | importWord => "Import"
  | exportWord => "Export"
  | returnWord => "Return"
  | ifWord => "If"
  | elseWord => "Else"
  | newWord => "New"
  | typeof => "Typeof"

def ofText? (word : String) : Option Keyword :=
  all.find? fun keyword => keyword.text = word

end Keyword

inductive Operator where
  | strictEqual | strictUnequal | spread | power | equal | unequal | atMost | atLeast
  | both | either | otherwise | addAssign | subAssign | mulAssign | divAssign
  | increment | decrement | plus | minus | times | divide | remainder | below | above
  | not | assign | bitAnd | bitOr | bitXor | bitNot
  deriving DecidableEq, Repr

namespace Operator

/-- Longer operators come before those they begin with. -/
def all : List Operator :=
  [.strictEqual, .strictUnequal, .spread, .power, .equal, .unequal, .atMost, .atLeast,
    .both, .either, .otherwise, .addAssign, .subAssign, .mulAssign, .divAssign,
    .increment, .decrement, .plus, .minus, .times, .divide, .remainder, .below, .above,
    .not, .assign, .bitAnd, .bitOr, .bitXor, .bitNot]

def text : Operator → String
  | strictEqual => "==="
  | strictUnequal => "!=="
  | spread => "..."
  | power => "**"
  | equal => "=="
  | unequal => "!="
  | atMost => "<="
  | atLeast => ">="
  | both => "&&"
  | either => "||"
  | otherwise => "??"
  | addAssign => "+="
  | subAssign => "-="
  | mulAssign => "*="
  | divAssign => "/="
  | increment => "++"
  | decrement => "--"
  | plus => "+"
  | minus => "-"
  | times => "*"
  | divide => "/"
  | remainder => "%"
  | below => "<"
  | above => ">"
  | not => "!"
  | assign => "="
  | bitAnd => "&"
  | bitOr => "|"
  | bitXor => "^"
  | bitNot => "~"

/-- How tightly a binary operator binds; a higher number binds tighter. -/
def precedence? : Operator → Option Nat
  | otherwise => some 1
  | either => some 2
  | both => some 3
  | bitOr => some 4
  | bitXor => some 5
  | bitAnd => some 6
  | equal | unequal | strictEqual | strictUnequal => some 7
  | below | above | atMost | atLeast => some 8
  | plus | minus => some 9
  | times | divide | remainder => some 10
  | power => some 11
  | _ => none

def isAssignment : Operator → Bool
  | assign | addAssign | subAssign | mulAssign | divAssign => true
  | _ => false

def isLogical : Operator → Bool
  | both | either | otherwise => true
  | _ => false

/-- The least precedence of a right operand. Only `**` groups to the right. -/
def rightPrecedence (operator : Operator) (precedence : Nat) : Nat :=
  if operator = .power then precedence else precedence + 1

/-- The first operator of the list that a text begins with. -/
def scan? (text : List Char) : Option Operator :=
  all.find? fun operator => operator.text.toList.isPrefixOf text

end Operator

/-- Words that the language sets aside without a meaning of their own. -/
def reservedWords : List String :=
  ["for", "while", "do", "class", "try", "catch", "finally", "throw", "switch", "case", "with",
    "async", "await", "yield", "delete", "this", "super", "debugger", "break", "continue",
    "instanceof", "in", "void"]

inductive Token where
  | keyword (word : Keyword)
  | reserved (word : String)
  | string (value : String)
  | number (value : Binary64)
  | template (raw : String)
  | boolean (value : Bool)
  | null
  | openBrace | closeBrace | openParen | closeParen | openBracket | closeBracket
  | semicolon | comma | dot | colon | question | arrow
  | operator (op : Operator)
  | identifier (name : String)
  deriving DecidableEq, Repr

namespace Token

/-- The token that a word makes: a keyword, a literal, a reserved word, or else a name. -/
def ofWord (word : String) : Token :=
  match Keyword.ofText? word with
  | some found => .keyword found
  | none =>
    if word = "true" then .boolean true
    else if word = "false" then .boolean false
    else if word = "null" then .null
    else if reservedWords.contains word then .reserved word
    else .identifier word

def kind : Token → String
  | keyword word => word.kind
  | reserved _ => "Reserved"
  | string _ => "StringLiteral"
  | number _ => "NumberLiteral"
  | template _ => "TemplateLiteral"
  | boolean _ => "BooleanLiteral"
  | null => "NullLiteral"
  | openBrace => "LBrace"
  | closeBrace => "RBrace"
  | openParen => "LParen"
  | closeParen => "RParen"
  | openBracket => "LBracket"
  | closeBracket => "RBracket"
  | semicolon => "Semicolon"
  | comma => "Comma"
  | dot => "Dot"
  | colon => "Colon"
  | question => "Question"
  | arrow => "Arrow"
  | operator _ => "Op"
  | identifier _ => "Identifier"

/-- Numbers in messages: an exponent is used below `10 ^ -4` and from `10 ^ 16` on, and a tie goes
up. -/
def numberLayout : Decimal.Layout := ⟨-4, 15, false, .up⟩

/-- The token as messages show it: its kind, and in brackets what it carries. -/
def shown (token : Token) : String :=
  let carrying := fun text : String => token.kind ++ "(" ++ text ++ ")"
  match token with
  | reserved word => carrying (Text.quoted word)
  | string value => carrying (Text.quoted value)
  | number value => carrying (String.ofList (numberLayout.chars value))
  | template raw => carrying (Text.quoted raw)
  | boolean value => carrying (if value then "true" else "false")
  | operator op => carrying (Text.quoted op.text)
  | identifier name => carrying (Text.quoted name)
  | _ => token.kind

/-- The word that a token spells, if it may stand as the name of a property. -/
def propertyName? : Token → Option String
  | identifier name => some name
  | reserved word => some word
  | keyword word => some word.text
  | boolean value => some (if value then "true" else "false")
  | null => some "null"
  | _ => none

end Token

end Dashboard.Script
