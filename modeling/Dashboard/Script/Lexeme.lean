import Dashboard.Decimal.Numeral
import Dashboard.ParseError

/-!
Cutting a script into lexemes. Scanning works on characters alone and says how many a token takes;
places are then counted over the text, so that every lexeme stands where its characters stand.
Blanks and comments lie between lexemes.
-/
namespace Dashboard.Script

structure Lexeme where
  token : Token
  position : Position
  deriving DecidableEq, Repr

/-- A fault, and how many characters stand before its place. -/
abbrev ScanFault := ParseFault × Nat

/-- A result, and how many characters it takes. -/
abbrev Scan (α : Type) := Except ScanFault (α × Nat)

namespace Scan

variable {α β : Type}

def map (f : α → β) (more : Nat) : Scan α → Scan β
  | .ok (a, n) => .ok (f a, n + more)
  | .error fault => .error fault

end Scan

def nameRun (text : List Char) : List Char :=
  text.takeWhile fun c => Text.isAlphanumeric c || c = '_' || c = '$'

def startsName (c : Char) : Bool :=
  Text.isAlphabetic c || c = '_' || c = '$'

/-- The rest of a comment up to its end mark, which is counted too. -/
def blockComment : List Char → Option Nat
  | [] => none
  | '*' :: '/' :: _ => some 2
  | _ :: rest => (blockComment rest).map (· + 1)

def lineComment (text : List Char) : Nat :=
  (text.takeWhile (· ≠ '\n')).length

/-- How many blanks and comment characters a text begins with; a comment without an end is
reported at its start. -/
def gap (before : Nat) : List Char → Except ScanFault Nat
  | [] => .ok before
  | c :: rest =>
    if Text.isBlank c then gap (before + 1) rest
    else if c = '/' ∧ rest.head? = some '/' then
      let n := lineComment rest
      gap (before + 1 + n) (rest.drop n)
    else if c = '/' ∧ rest.head? = some '*' then
      match blockComment (rest.drop 1) with
      | none => .error (.unterminatedComment, before)
      | some n => gap (before + 2 + n) (rest.drop (1 + n))
    else .ok before
termination_by text => text.length
decreasing_by all_goals (simp [List.length_drop]; try omega)

def hexEscape? (a b c d : Char) : Option Char :=
  if [a, b, c, d].all Text.isAsciiHexDigit then
    let code := [a, b, c, d].foldl (fun n d => n * 16 + hexDigitValue d) 0
    if Nat.isValidChar code then some (Char.ofNat code) else none
  else none
where
  hexDigitValue (c : Char) : Nat :=
    if Text.isAsciiDigit c then c.toNat - 48 else (c.toNat - 55) % 32

/-- The value of a string up to its closing quote. `before` counts the characters since the
opening quote, itself included. -/
def stringBody (quote : Char) (before : Nat) : List Char → Scan (List Char)
  | [] => .error (.unterminatedString, 0)
  | '\n' :: _ => .error (.unterminatedString, 0)
  | '\\' :: 'u' :: a :: b :: c :: d :: rest =>
    match hexEscape? a b c d with
    | some value => (stringBody quote (before + 6) rest).map (value :: ·) 6
    | none => .error (.invalidUnicodeEscape, before + 2)
  | ['\\'] => .error (.unterminatedEscape, before + 1)
  | '\\' :: e :: rest =>
    if e = 'u' then .error (.invalidUnicodeEscape, before + 2)
    else
      let value := match e with
        | 'n' => ['\n']
        | 't' => ['\t']
        | 'r' => ['\r']
        | '0' => ['\x00']
        | '\n' => []
        | e => [e]
      (stringBody quote (before + 2) rest).map (value ++ ·) 2
  | c :: rest =>
    if c = quote then .ok ([], 1)
    else (stringBody quote (before + 1) rest).map (c :: ·) 1

/-- A template is kept raw up to its closing mark; a backslash keeps the next character. -/
def templateBody : List Char → Option (List Char × Nat)
  | [] => none
  | '\x60' :: _ => some ([], 1)
  | '\\' :: c :: rest => (templateBody rest).map fun r => ('\\' :: c :: r.1, r.2 + 2)
  | c :: rest => (templateBody rest).map fun r => (c :: r.1, r.2 + 1)

/-- The stretch of a decimal literal: digits, points and separators, and an exponent mark that a
digit or a sign follows. -/
def numberRun : List Char → List Char
  | c :: d :: rest =>
    if Text.isAsciiDigit c || c = '.' || c = '_' then c :: numberRun (d :: rest)
    else if (c = 'e' || c = 'E') && (Text.isAsciiDigit d || d = '-' || d = '+') then
      c :: d :: numberRun rest
    else []
  | [c] => if Text.isAsciiDigit c || c = '.' || c = '_' then [c] else []
  | [] => []

/-- Hexadecimal literals are limited to 63 bits. -/
def hexNumber (digits : List Char) : Option Binary64 :=
  let value := digits.foldl (fun n d => n * 16 + hexEscape?.hexDigitValue d) 0
  if digits.isEmpty || twoTo 63 ≤ value then none else some (.ofNat value)

def scanNumber (text : List Char) : Scan Token :=
  match text with
  | '0' :: x :: rest =>
    if x = 'x' ∨ x = 'X' then
      let digits := rest.takeWhile Text.isAsciiHexDigit
      match hexNumber digits with
      | none => .error (.invalidHexLiteral, 0)
      | some value => .ok (.number value, 2 + digits.length)
    else decimal text
  | text => decimal text
where
  decimal (text : List Char) : Scan Token :=
    let run := numberRun text
    let digits := run.filter (· ≠ '_')
    match Decimal.numeral? digits with
    | none => .error (.invalidNumber (String.ofList digits), 0)
    | some value =>
      match (text.drop run.length).head? with
      | some c =>
        if Text.isAlphabetic c || c = '_' then .error (.nameAfterNumber, run.length)
        else .ok (.number value, run.length)
      | none => .ok (.number value, run.length)

def mark? : Char → Option Token
  | '\x7b' => some .openBrace
  | '\x7d' => some .closeBrace
  | '(' => some .openParen
  | ')' => some .closeParen
  | '[' => some .openBracket
  | ']' => some .closeBracket
  | ';' => some .semicolon
  | ',' => some .comma
  | ':' => some .colon
  | _ => none

/-- Arrows, operators, the dot and the question mark. -/
def scanPunctuation (c : Char) (rest : List Char) : Scan Token :=
  if c = '=' ∧ rest.head? = some '>' then .ok (.arrow, 2)
  else if c = '?' ∧ rest.head? = some '.' then .error (.optionalChaining, 0)
  else
    match Operator.scan? (c :: rest) with
    | some op => .ok (.operator op, op.text.length)
    | none =>
      if c = '.' then .ok (.dot, 1)
      else if c = '?' then .ok (.question, 1)
      else .error (.unexpectedCharacter c, 0)

/-- The token that begins with `c`, which is neither blank nor the start of a comment. -/
def scanToken (c : Char) (rest : List Char) : Scan Token :=
  match mark? c with
  | some token => .ok (token, 1)
  | none =>
    if c = '\x22' ∨ c = '\x27' then
      (stringBody c 1 rest).map (fun value => .string (String.ofList value)) 1
    else if c = '\x60' then
      match templateBody rest with
      | none => .error (.unterminatedTemplate, 0)
      | some (raw, n) => .ok (.template (String.ofList raw), n + 1)
    else if Text.isAsciiDigit c || (c = '.' && rest.head?.any Text.isAsciiDigit) then
      scanNumber (c :: rest)
    else if startsName c then
      let word := nameRun (c :: rest)
      .ok (.ofWord (String.ofList word), word.length)
    else scanPunctuation c rest

/-- The lexemes of a text whose first character stands at `position`, and the place of its end. A
token takes at least one character. -/
def lexemes (position : Position) (text : List Char) :
    Except ParseError (List Lexeme × Position) :=
  match gap 0 text with
  | .error (fault, n) => .error ⟨fault, position.advance (text.take n)⟩
  | .ok n =>
    let here := position.advance (text.take n)
    match _h : text.drop n with
    | [] => .ok ([], here)
    | c :: rest =>
      match scanToken c rest with
      | .error (fault, k) => .error ⟨fault, here.advance ((c :: rest).take k)⟩
      | .ok (token, k) =>
        match lexemes (here.advance ((c :: rest).take k)) (rest.drop (k - 1)) with
        | .error e => .error e
        | .ok (more, stop) => .ok (⟨token, here⟩ :: more, stop)
termination_by text.length
decreasing_by
  have := congrArg List.length _h
  simp [List.length_drop] at this ⊢
  omega

def lexemesOf (text : String) (origin : Position) : Except ParseError (List Lexeme × Position) :=
  lexemes origin text.toList

end Dashboard.Script
