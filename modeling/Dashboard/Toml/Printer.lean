import Dashboard.Json.Printer
import Dashboard.Toml.Basic

/-!
TOML text. A string is written in the first of four forms that shows it without escapes: in quotes,
in apostrophes, in triple quotes, in triple apostrophes. Where none does, it is written in quotes
with escapes. Only the triple forms hold line ends.
-/
namespace Dashboard.Toml

inductive StringForm where
  | quotes | apostrophes | tripleQuotes | tripleApostrophes
  deriving DecidableEq, Repr

namespace StringForm

def delimiter : StringForm → List Char
  | quotes => ['\x22']
  | apostrophes => ['\'']
  | tripleQuotes => ['\x22', '\x22', '\x22']
  | tripleApostrophes => ['\'', '\'', '\'']

/-- How many of its own delimiting characters a form can hold in a row. -/
def maxRun : StringForm → Nat
  | quotes | apostrophes => 0
  | tripleQuotes | tripleApostrophes => 2

def isTriple (form : StringForm) : Bool := form.maxRun ≠ 0

/-- In quotes a backslash begins an escape; in apostrophes it is a character like others. -/
def hasEscapes : StringForm → Bool
  | quotes | tripleQuotes => true
  | apostrophes | tripleApostrophes => false

def mark (form : StringForm) : Char := if form.hasEscapes then '\x22' else '\''

end StringForm

/-- The longest run of a character, one of which reaches the text from before it. -/
def longestRun (c : Char) : (reached : Nat) → List Char → Nat
  | reached, [] => reached
  | reached, d :: rest =>
    if d = c then longestRun c (reached + 1) rest else max reached (longestRun c 0 rest)

/-- The control characters that no form shows; tabs and line ends are none of them. -/
def isHidden (c : Char) : Bool := (c.toNat < 32 && c ≠ '\t' && c ≠ '\n') || c.toNat = 127

/-- Whether a text needs no escapes in a form, but for tabs. -/
def StringForm.shows (form : StringForm) (text : List Char) : Bool :=
  !text.any isHidden && !(form.hasEscapes && text.contains '\\') &&
    longestRun form.mark 0 text ≤ form.maxRun && (form.isTriple || !text.contains '\n')

def StringForm.ofText (text : List Char) : StringForm :=
  match [quotes, apostrophes, tripleQuotes, tripleApostrophes].find? (shows · text) with
  | some form => form
  | none => if text.contains '\n' then .tripleQuotes else .quotes

/-- Four hexadecimal digits in capitals. -/
def hexCode (n : Nat) : List Char :=
  [n / 4096, n / 256, n / 16, n].map fun digit => (Json.hexDigit (digit % 16)).toUpper

def escapedChar (keepsLines : Bool) (c : Char) : List Char :=
  if c = '\x08' then ['\\', 'b']
  else if c = '\t' then ['\\', 't']
  else if c = '\n' then if keepsLines then ['\n'] else ['\\', 'n']
  else if c = '\x0c' then ['\\', 'f']
  else if c = '\r' then ['\\', 'r']
  else if c = '\\' then ['\\', '\\']
  else if isHidden c then '\\' :: 'u' :: hexCode c.toNat
  else [c]

/-- The text with escapes. Quotes stand by themselves as long as no more than `maxRun` of them
follow each other. -/
def escaped (keepsLines : Bool) (maxRun : Nat) : (run : Nat) → List Char → List Char
  | _, [] => []
  | run, c :: rest =>
    if c = '\x22' then
      if run < maxRun then c :: escaped keepsLines maxRun (run + 1) rest
      else '\\' :: c :: escaped keepsLines maxRun 0 rest
    else escapedChar keepsLines c ++ escaped keepsLines maxRun 0 rest

/-- A text with line ends begins on a line of its own. -/
def stringChars (text : List Char) : List Char :=
  let form := StringForm.ofText text
  let start := if form.isTriple && text.contains '\n' then ['\n'] else []
  let inside := if form.hasEscapes then escaped form.isTriple form.maxRun 0 text else text
  form.delimiter ++ start ++ inside ++ form.delimiter

def stringText (text : String) : String := String.ofList (stringChars text.toList)

end Dashboard.Toml
