import Dashboard.Text.Blank
import Dashboard.Text.Pattern

/-!
The pre-filter: a search of the raw text of a document for forbidden words, made before the text is
parsed. Each category is reported once, with its leftmost match, in a fixed order.
-/
namespace Dashboard.Prefilter

open Text Pattern

inductive Category where
  | network | externalScript | importing | dynamicCode | hostGlobal | process
  deriving DecidableEq, Repr

namespace Category

def all : List Category :=
  [.network, .externalScript, .importing, .dynamicCode, .hostGlobal, .process]

def name : Category → String
  | network => "network access"
  | externalScript => "external script"
  | importing => "import"
  | dynamicCode => "dynamic code"
  | hostGlobal => "host global access"
  | process => "filesystem/process access"

/-- Texts that stand as words of their own, up to a mark that blanks may precede. -/
def wordsBefore (words : List String) (mark : Char) : Pattern :=
  sequence [boundary, choice (words.map fun word => literal word.toList), many isBlank, literal [mark]]

def wholeWord (word : String) : Pattern :=
  sequence [boundary, literal word.toList, boundary]

/-- One blank or more. -/
def blanks : Pattern := seq (char isBlank) (many isBlank)

def isQuote (c : Char) : Bool := c = '\x27' || c = '\x22'

def importFrom : Pattern :=
  sequence [boundary, literal "import".toList, blanks, few fun c => c ≠ ';' && c ≠ '\n', boundary,
    literal "from".toList, many isBlank, char isQuote, many fun c => !isQuote c, char isQuote]

def pattern : Category → Pattern
  | network => choice [wordsBefore ["fetch", "axios"] '(', wholeWord "XMLHttpRequest",
      wholeWord "WebSocket", wholeWord "EventSource", wholeWord "sendBeacon"]
  | externalScript => sequence [anyCase "<script".toList, boundary, many (· ≠ '>'), boundary,
      anyCase "src".toList, many isBlank, literal ['=']]
  | importing => choice [importFrom, wordsBefore ["import"] '(', wordsBefore ["require"] '(']
  | dynamicCode => choice [wordsBefore ["eval"] '(',
      sequence [boundary, literal "new".toList, blanks, literal "Function".toList, boundary],
      wordsBefore ["Function"] '(', wordsBefore ["setTimeout", "setInterval"] '(']
  | hostGlobal => choice [wordsBefore ["window", "document", "globalThis"] '.',
      wholeWord "localStorage", wholeWord "sessionStorage", wholeWord "indexedDB"]
  | process => choice [wordsBefore ["process", "global"] '.', wholeWord "__dirname",
      wholeWord "__filename", wholeWord "child_process"]

end Category

/-- A forbidden category and the text in which it was found, trimmed. -/
structure Violation where
  category : Category
  found : List Char
  deriving DecidableEq, Repr

def Violation.message (v : Violation) : String :=
  "Forbidden pattern detected (" ++ v.category.name ++ "): " ++ String.ofList v.found

def scan (source : String) : List Violation :=
  Category.all.filterMap fun category =>
    (category.pattern.firstMatch? source.toList).map fun found => ⟨category, trim found⟩

end Dashboard.Prefilter
