import Dashboard.Decimal.Numeral
import Dashboard.Json.Reader
import Dashboard.Text.Blank
import Dashboard.Toml.Basic

/-!
Reading TOML. A document is read line by line: entries, headers, and what says nothing. Arrays and
tables in braces nest `maxNesting` deep at most, and a key has as many parts at most.
-/
namespace Dashboard.Toml

def maxNesting : Nat := 79

def isSpace (c : Char) : Bool := c = ' ' || c = '\t'

def skipSpace (text : List Char) : List Char := text.dropWhile isSpace

/-- Every character but the control characters; a tab is none of them. -/
def isPlain (c : Char) : Bool := c = '\t' || (32 ≤ c.toNat && c.toNat ≠ 127)

/-- The rest of a line that holds nothing more: spaces and a comment. -/
def lineEnd? (text : List Char) : Option (List Char) :=
  let rest := match skipSpace text with
    | '#' :: comment => comment.dropWhile isPlain
    | other => other
  match rest with
  | [] => some []
  | '\n' :: more => some more
  | '\r' :: '\n' :: more => some more
  | _ => none

/-- Past spaces, line ends and comments. -/
def skipLines (inComment : Bool) : List Char → List Char
  | [] => []
  | '\r' :: '\n' :: more => skipLines false more
  | c :: more =>
    if c = '\n' then skipLines false more
    else if inComment then if isPlain c then skipLines true more else c :: more
    else if isSpace c then skipLines false more
    else if c = '#' then skipLines true more
    else c :: more

def simpleEscape? : Char → Option Char
  | 'b' => some '\x08'
  | 't' => some '\t'
  | 'n' => some '\n'
  | 'f' => some '\x0c'
  | 'r' => some '\r'
  | '\x22' => some '\x22'
  | '\\' => some '\\'
  | _ => none

/-- The character with a code in hexadecimal digits; surrogates have none. -/
def charOfHex? (digits : List Char) : Option Char := do
  let values ← digits.mapM Json.hexValue?
  let code := values.foldl (fun n value => n * 16 + value) 0
  if code.isValidChar then some (Char.ofNat code) else none

def before (c : Char) (read : Option (List Char × List Char)) : Option (List Char × List Char) :=
  read.map fun r => (c :: r.1, r.2)

/-- A text in quotes on one line, after the opening quote. -/
def basic? : List Char → Option (List Char × List Char)
  | [] => none
  | '\x22' :: rest => some ([], rest)
  | '\\' :: 'u' :: a :: b :: c :: d :: rest => do
    let char ← charOfHex? [a, b, c, d]
    before char (basic? rest)
  | '\\' :: 'U' :: a :: b :: c :: d :: e :: f :: g :: h :: rest => do
    let char ← charOfHex? [a, b, c, d, e, f, g, h]
    before char (basic? rest)
  | '\\' :: e :: rest => do
    let char ← simpleEscape? e
    before char (basic? rest)
  | c :: rest => if isPlain c && c ≠ '\\' then before c (basic? rest) else none

/-- A text in apostrophes on one line, after the opening one. -/
def literal? (text : List Char) : Option (List Char × List Char) :=
  let isContent := fun c => isPlain c && c ≠ '\''
  match text.dropWhile isContent with
  | '\'' :: rest => some (text.takeWhile isContent, rest)
  | _ => none

/-- A backslash before the end of a line takes away the blanks up to the next content. -/
inductive Break where
  | absent | sought | found
  deriving DecidableEq, Repr

/-- A text in triple quotes, after its first line end. Of more than three quotes that end it, the
first ones belong to it. -/
def basicLines? (pause : Break) : List Char → Option (List Char × List Char)
  | [] => none
  | '\r' :: '\n' :: rest =>
    if pause = .absent then before '\n' (basicLines? .absent rest) else basicLines? .found rest
  | c :: rest =>
    if pause = .sought then
      if c = '\n' then basicLines? .found rest
      else if isSpace c then basicLines? .sought rest else none
    else if pause = .found && (c = '\n' || isSpace c) then basicLines? .found rest
    else
      match c, rest with
      | '\x22', '\x22' :: '\x22' :: '\x22' :: '\x22' :: after => some (['\x22', '\x22'], after)
      | '\x22', '\x22' :: '\x22' :: '\x22' :: after => some (['\x22'], after)
      | '\x22', '\x22' :: '\x22' :: after => some ([], after)
      | '\\', 'u' :: a :: b :: c :: d :: after => do
        let char ← charOfHex? [a, b, c, d]
        before char (basicLines? .absent after)
      | '\\', 'U' :: a :: b :: c :: d :: e :: f :: g :: h :: after => do
        let char ← charOfHex? [a, b, c, d, e, f, g, h]
        before char (basicLines? .absent after)
      | '\\', e :: after =>
        match simpleEscape? e with
        | some char => before char (basicLines? .absent after)
        | none =>
          if e = '\n' then basicLines? .found after
          else if isSpace e || (e = '\r' && after.head? = some '\n') then basicLines? .sought after
          else none
      | c, rest =>
        if (isPlain c && c ≠ '\\') || c = '\n' then before c (basicLines? .absent rest) else none

/-- A text in triple apostrophes, after its first line end. -/
def literalLines? : List Char → Option (List Char × List Char)
  | [] => none
  | '\'' :: '\'' :: '\'' :: '\'' :: '\'' :: after => some (['\'', '\''], after)
  | '\'' :: '\'' :: '\'' :: '\'' :: after => some (['\''], after)
  | '\'' :: '\'' :: '\'' :: after => some ([], after)
  | '\r' :: '\n' :: rest => before '\n' (literalLines? rest)
  | c :: rest => if isPlain c || c = '\n' then before c (literalLines? rest) else none

def afterLineEnd : List Char → List Char
  | '\n' :: rest => rest
  | '\r' :: '\n' :: rest => rest
  | rest => rest

/-- A text value; nothing where no quote begins it. -/
def text? : List Char → Option (List Char × List Char)
  | '\x22' :: '\x22' :: '\x22' :: rest => basicLines? .absent (afterLineEnd rest)
  | '\'' :: '\'' :: '\'' :: rest => literalLines? (afterLineEnd rest)
  | '\x22' :: rest => basic? rest
  | '\'' :: rest => literal? rest
  | _ => none

def isBare (c : Char) : Bool :=
  ('a' ≤ c && c ≤ 'z') || ('A' ≤ c && c ≤ 'Z') || ('0' ≤ c && c ≤ '9') || c = '-' || c = '_'

/-- A key without dots, and the spaces around it. -/
def simpleKey? (text : List Char) : Option (String × List Char) :=
  let read := match skipSpace text with
    | '\x22' :: rest => basic? rest
    | '\'' :: rest => literal? rest
    | other => if other.takeWhile isBare = [] then none
      else some (other.takeWhile isBare, other.dropWhile isBare)
  read.map fun r => (String.ofList r.1, skipSpace r.2)

/-- Items with a separator between them, at least one. -/
def separated {α : Type} (item : List Char → Option (α × List Char)) (separator : Char)
    (text : List Char) : Option (List α × List Char) :=
  match item text with
  | none => none
  | some (first, []) => some ([first], [])
  | some (first, c :: rest) =>
    if c = separator then
      if rest.length < text.length then
        (separated item separator rest).map fun r => (first :: r.1, r.2)
      else none
    else some ([first], c :: rest)
termination_by text.length

/-- Keys with dots between them, `maxNesting` at most. -/
def keyPath? (text : List Char) : Option (List String × List Char) :=
  (separated simpleKey? '.' text).filter fun r => r.1.length ≤ maxNesting

/-- The digits of a numeral; a single underscore may stand between two of them. -/
def digits? (isDigit : Char → Bool) (text : List Char) : Option (List Char) :=
  let groups := Text.pieces '_' text
  if groups.all fun group => !group.isEmpty && group.all isDigit then some groups.flatten else none

def isDecimalDigit (c : Char) : Bool := '0' ≤ c && c ≤ '9'

def numberOf (base : Nat) (digits : List Char) : Nat :=
  digits.foldl (fun n c => n * base + (Json.hexValue? c).getD 0) 0

def unsigned : List Char → Bool × List Char
  | '-' :: rest => (true, rest)
  | '+' :: rest => (false, rest)
  | rest => (false, rest)

/-- A decimal numeral does not begin with a zero unless that is all of it. -/
def decimal? (text : List Char) : Option (List Char) :=
  if text.head? = some '0' && text.length ≠ 1 then none else digits? isDecimalDigit text

def inRange (n : Int) : Option Value :=
  if -(twoTo 63 : Int) ≤ n ∧ n < (twoTo 63 : Int) then some (.integer n) else none

def isBelow (base : Nat) (c : Char) : Bool :=
  (Json.hexValue? c).any (· < base)

def integer? (text : List Char) : Option Value :=
  match text with
  | '0' :: 'x' :: rest => (digits? (isBelow 16) rest).bind fun ds => inRange (numberOf 16 ds)
  | '0' :: 'o' :: rest => (digits? (isBelow 8) rest).bind fun ds => inRange (numberOf 8 ds)
  | '0' :: 'b' :: rest => (digits? (isBelow 2) rest).bind fun ds => inRange (numberOf 2 ds)
  | text => do
    let (isNegative, rest) := unsigned text
    let n := Int.ofNat (numberOf 10 (← decimal? rest))
    inRange (if isNegative then -n else n)

def isExponentMark (c : Char) : Bool := c = 'e' || c = 'E'

/-- A positive float beyond all doubles is none; a negative one is. -/
def isInReach (text : List Char) : Bool :=
  (Decimal.numeral? (text.filter (· ≠ '_'))).any fun x => x.isFinite || x.isNegative

/-- A float has a fraction or an exponent, or is one of two names. -/
def isFloat (text : List Char) : Bool :=
  let rest := (unsigned text).2
  let mantissa := rest.takeWhile fun c => !isExponentMark c
  let hasDigits := fun part => (digits? isDecimalDigit part).isSome
  let exponentFits := match rest.dropWhile fun c => !isExponentMark c with
    | [] => true
    | _ :: exponent => hasDigits (unsigned exponent).2
  let mantissaFits := match Text.pieces '.' mantissa with
    | [whole] => (decimal? whole).isSome && mantissa.length ≠ rest.length
    | [whole, fraction] => (decimal? whole).isSome && hasDigits fraction
    | _ => false
  rest = "inf".toList || rest = "nan".toList || (mantissaFits && exponentFits && isInReach text)

def isNumberIn (low high : Nat) (digits : List Char) : Bool :=
  digits.length = 2 && digits.all isDecimalDigit &&
    low ≤ numberOf 10 digits && numberOf 10 digits ≤ high

def daysOf (year month : Nat) : Nat :=
  if month = 2 then
    if year % 4 = 0 ∧ (year % 100 ≠ 0 ∨ year % 400 = 0) then 29 else 28
  else if month ∈ [4, 6, 9, 11] then 30 else 31

def isDate (text : List Char) : Bool :=
  match Text.pieces '-' text with
  | [year, month, day] =>
    year.length = 4 && year.all isDecimalDigit && isNumberIn 1 12 month &&
      isNumberIn 1 (daysOf (numberOf 10 year) (numberOf 10 month)) day
  | _ => false

def isClock (text : List Char) : Bool :=
  let isSecond := fun part => match Text.pieces '.' part with
    | [second] => isNumberIn 0 60 second
    | [second, fraction] =>
      isNumberIn 0 60 second && !fraction.isEmpty && fraction.all isDecimalDigit
    | _ => false
  match Text.pieces ':' text with
  | [hour, minute, second] => isNumberIn 0 23 hour && isNumberIn 0 59 minute && isSecond second
  | _ => false

/-- A time of day with or without its distance from UTC. -/
def isZonedClock (text : List Char) : Bool :=
  let isOffset := fun part => match Text.pieces ':' part with
    | [hour, minute] => isNumberIn 0 23 hour && isNumberIn 0 59 minute
    | _ => false
  let clock := text.takeWhile fun c => isDecimalDigit c || c = ':' || c = '.'
  isClock clock &&
    match text.drop clock.length with
    | [] | ['Z'] | ['z'] => true
    | '+' :: offset | '-' :: offset => isOffset offset
    | _ => false

/-- A date, a time of day, or both with a letter or a space between them. -/
def isMoment (text : List Char) : Bool :=
  isClock text || isDate text ||
    (isDate (text.take 10) &&
      match text.drop 10 with
      | c :: clock => (c = 'T' || c = 't' || c = ' ') && isZonedClock clock
      | [] => false)

def isWordChar (c : Char) : Bool := isBare c || c = '+' || c = '.' || c = ':'

/-- The characters of a value that is not in quotes or brackets. A space belongs to it where a time
of day follows a date. -/
def word (text : List Char) : List Char :=
  let first := text.takeWhile isWordChar
  match text.drop first.length with
  | ' ' :: rest =>
    let more := rest.takeWhile isWordChar
    if isDate first && more.head?.any isDecimalDigit then first ++ ' ' :: more else first
  | _ => first

def ofWord? (word : List Char) : Option Value :=
  if word = "true".toList then some (.boolean true)
  else if word = "false".toList then some (.boolean false)
  else if isMoment word then some (.moment (String.ofList word))
  else if isFloat word then some (.float (String.ofList word))
  else integer? word

/-- A value that holds no other values. -/
def scalar? (text : List Char) : Option (Value × List Char) :=
  match text with
  | '\x22' :: _ | '\'' :: _ => (text? text).map fun r => (.text (String.ofList r.1), r.2)
  | _ => (ofWord? (word text)).map fun value => (value, text.drop (word text).length)

/-- The items of an array after its bracket; a comma may follow the last one. -/
def items? (item : List Char → Option (Value × List Char)) (text : List Char) :
    Option (List Value × List Char) :=
  match skipLines false text with
  | ']' :: rest => some ([], rest)
  | start =>
    match item start with
    | none => none
    | some (first, rest) =>
      match skipLines false rest with
      | ']' :: after => some ([first], after)
      | ',' :: after =>
        if after.length < text.length then
          (items? item after).map fun r => (first :: r.1, r.2)
        else none
      | _ => none
termination_by text.length

/-- An entry of a table: a path of keys and a value. -/
def pair? (value : List Char → Option (Value × List Char)) (text : List Char) :
    Option ((List String × Value) × List Char) :=
  match keyPath? text with
  | some (path, '=' :: rest) =>
    (value (skipSpace rest)).map fun r => ((path, r.1), r.2)
  | _ => none

def assignAll? (pairs : List (List String × Value)) : Option Entries :=
  pairs.foldlM (fun entries pair => Value.assign? pair.1 pair.2 .braces entries) []

/-- The entries of a table in braces, after the opening one, all on one line. -/
def braces? (value : List Char → Option (Value × List Char)) (text : List Char) :
    Option (Value × List Char) :=
  let spaced := fun text => (pair? value text).map fun r => (r.1, skipSpace r.2)
  match skipSpace text with
  | '\x7d' :: rest => some (.table .braces [], rest)
  | _ =>
    match separated spaced ',' text with
    | some (pairs, '\x7d' :: rest) =>
      (assignAll? pairs).map fun entries => (.table .braces entries, rest)
    | _ => none

/-- A value with so many levels of brackets at most. -/
def value? : Nat → List Char → Option (Value × List Char)
  | 0 => scalar?
  | depth + 1 => fun text =>
    match text with
    | '[' :: rest => (items? (value? depth) rest).map fun r => (.array r.1, r.2)
    | '\x7b' :: rest => braces? (value? depth) rest
    | _ => scalar? text

/-- A line that says something. -/
def line? (text : List Char) : Option (Line × List Char) :=
  match skipSpace text with
  | '[' :: '[' :: rest =>
    match keyPath? rest with
    | some (path, ']' :: ']' :: after) => some (.item path, after)
    | _ => none
  | '[' :: rest =>
    match keyPath? rest with
    | some (path, ']' :: after) => some (.table path, after)
    | _ => none
  | start => (pair? (value? maxNesting) start).map fun r => (.entry r.1.1 r.1.2, r.2)

/-- The lines of a document that say something. -/
def lines? (text : List Char) : Option (List Line) :=
  if text.isEmpty then some []
  else
    match lineEnd? text with
    | some rest => if rest.length < text.length then lines? rest else none
    | none =>
      match line? text with
      | none => none
      | some (line, rest) =>
        match lineEnd? rest with
        | none => none
        | some after =>
          if after.length < text.length then (lines? after).map (line :: ·) else none
termination_by text.length

/-- The entries of a document; a byte order mark before it is skipped. -/
def ofText? (text : String) : Option Entries := do
  let chars := match text.toList with
    | '\ufeff' :: rest => rest
    | chars => chars
  let found ← lines? chars
  let document ← found.foldlM Document.line? {}
  some document.entries

end Dashboard.Toml
