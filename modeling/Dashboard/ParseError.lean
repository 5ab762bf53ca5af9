import Dashboard.Script.Token
import Dashboard.Text.Position

/-!
What can be wrong with the text of a document, and the messages that say so.
-/
namespace Dashboard

/-- The deepest nesting of elements, blocks or script productions. -/
def maxNesting : Nat := 64

inductive ParseFault where
  | unterminatedComment
  | optionalChaining
  | unexpectedCharacter (found : Char)
  | unterminatedString
  | unterminatedEscape
  | invalidUnicodeEscape
  | unterminatedTemplate
  | invalidHexLiteral
  | invalidNumber (text : String)
  | nameAfterNumber
  | unexpectedToken (expected : String) (found : Option Script.Token)
  | nestingTooDeep
  | arrayHole
  | computedKey
  | expectedCharacter (expected : Char) (found : Option Char)
  | missingName (what : String)
  | unopenedElement (name : String)
  | elseOutsideIf
  | endIfOutsideIf
  | unsupportedContinuation (content : String)
  | unexpectedBlockEnd (content : String)
  | specialTag
  | unterminatedBrace
  | emptyExpression
  | unsupportedBlock (keyword : String)
  | missingCondition
  | unclosedIf
  | closingTagInsideIf (name : String)
  | secondElse
  | mismatchedClosingTag (closing opened : String)
  | unclosedElement (name : String)
  | blockTagInsideElement (name : String)
  | endInsideTag
  | shorthandAttribute
  | unterminatedAttribute
  | missingAttributeValue
  | nestedRawRegion (tag : String)
  | secondScript
  | strayDeclaration
  deriving DecidableEq, Repr

structure ParseError where
  fault : ParseFault
  position : Position
  deriving DecidableEq, Repr

namespace ParseFault

/-- The message without the place that ends it. -/
def lead : ParseFault → String
  | unterminatedComment => "Unterminated comment starting"
  | optionalChaining => "Optional chaining is not supported"
  | unexpectedCharacter c => "Unexpected character '" ++ c.toString ++ "'"
  | unterminatedString => "Unterminated string starting"
  | unterminatedEscape => "Unterminated escape sequence"
  | invalidUnicodeEscape => "Invalid unicode escape"
  | unterminatedTemplate => "Unterminated template literal starting"
  | invalidHexLiteral => "Invalid hex literal"
  | invalidNumber text => "Invalid number '" ++ text ++ "'"
  | nameAfterNumber => "Identifier directly after number"
  | unexpectedToken _ (some (.reserved word)) => "Unsupported syntax '" ++ word ++ "'"
  | unexpectedToken expected (some token) => "Expected " ++ expected ++ " but found " ++ token.shown
  | unexpectedToken expected none => "Expected " ++ expected ++ " but found end of input"
  | nestingTooDeep => "Nesting exceeds limit of " ++ toString maxNesting
  | arrayHole => "Array holes are not supported"
  | computedKey => "Computed property keys are not supported"
  | expectedCharacter expected (some found) =>
    "Expected '" ++ expected.toString ++ "' but found '" ++ found.toString ++ "'"
  | expectedCharacter expected none =>
    "Expected '" ++ expected.toString ++ "' but found end of input"
  | missingName what => "Expected " ++ what
  | unopenedElement name =>
    "</" ++ name ++ "> attempted to close an element that was not open"
  | elseOutsideIf => "\x7b:else\x7d outside of an \x7b#if\x7d block"
  | endIfOutsideIf => "\x7b/if\x7d without a matching \x7b#if\x7d"
  | unsupportedContinuation content =>
    "Unsupported block continuation '\x7b" ++ content ++ "\x7d'"
  | unexpectedBlockEnd content => "Unexpected block closing '\x7b" ++ content ++ "\x7d'"
  | specialTag => "Special tags like '\x7b@...\x7d' are not supported"
  | unterminatedBrace => "Unterminated '\x7b' starting"
  | emptyExpression => "Empty expression"
  | unsupportedBlock keyword => "Unsupported block '\x7b#" ++ keyword ++ "\x7d'"
  | missingCondition => "\x7b#if\x7d block requires a condition"
  | unclosedIf => "Unclosed \x7b#if\x7d block opened"
  | closingTagInsideIf name => "Unexpected </" ++ name ++ "> inside \x7b#if\x7d block"
  | secondElse => "Unexpected \x7b:else\x7d"
  | mismatchedClosingTag closing opened =>
    "</" ++ closing ++ "> attempted to close <" ++ opened ++ ">"
  | unclosedElement name => "<" ++ name ++ "> opened"
  | blockTagInsideElement name =>
    "Block tag inside <" ++ name ++ "> closes a block opened outside it"
  | endInsideTag => "Unexpected end of input inside tag"
  | shorthandAttribute => "Shorthand and spread attributes are not supported"
  | unterminatedAttribute => "Unterminated attribute value starting"
  | missingAttributeValue => "Expected attribute value"
  | nestedRawRegion tag => "<" ++ tag ++ "> must be at the top level of the document"
  | secondScript => "A document can only have one <script> element, second one"
  | strayDeclaration => "Declarations are not supported"

end ParseFault

namespace ParseError

def message (e : ParseError) : String :=
  let place := " at " ++ e.position.text
  match e.fault with
  | .unclosedElement _ => e.fault.lead ++ place ++ " was not closed"
  | fault => fault.lead ++ place

end ParseError

end Dashboard
