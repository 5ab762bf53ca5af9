import Dashboard.Json.Number

/-!
Reading JSON. The text is cut into lexemes, and a machine with a stack of open arrays and objects
takes them one by one. What comes out is the form of the text. A form has a value unless it nests
deeper than `maxNesting`, or a number or a string in it has none.
-/
namespace Dashboard.Json

def maxNesting : Nat := 127

/-- A text as it is built. A string with half of a surrogate pair in it stands for no text. -/
inductive Form where
  | null
  | bool (value : Bool)
  | number (numeral : Numeral)
  | string (text : Option String)
  | array (items : List Form)
  | object (members : List (Option String × Form))
  deriving Repr, Inhabited

namespace Form

mutual

/-- The value of a form that holds so many levels of arrays and objects at most. Of two members
with one key the later counts. -/
def value? : (levels : Nat) → Form → Option Json
  | _, .null => some .null
  | _, .bool value => some (.bool value)
  | _, .number numeral => numeral.value
  | _, .string text => text.map .str
  | 0, .array _ => none
  | levels + 1, .array items => (itemValues? levels items).map .arr
  | 0, .object _ => none
  | levels + 1, .object members => (memberValues? levels members).map .object

def itemValues? (levels : Nat) : List Form → Option (List Json)
  | [] => some []
  | first :: more =>
    match first.value? levels, itemValues? levels more with
    | some value, some values => some (value :: values)
    | _, _ => none

def memberValues? (levels : Nat) : List (Option String × Form) → Option (List (String × Json))
  | [] => some []
  | (key, first) :: more =>
    match key, first.value? levels, memberValues? levels more with
    | some name, some value, some values => some ((name, value) :: values)
    | _, _, _ => none

end

def toJson? (form : Form) : Option Json := form.value? maxNesting

end Form

inductive Lexeme where
  | openArray | closeArray | openObject | closeObject | comma | colon
  | literal (form : Form)
  deriving Repr

def hexValue? (c : Char) : Option Nat :=
  if '0' ≤ c ∧ c ≤ '9' then some (c.toNat - 48)
  else if 'a' ≤ c ∧ c ≤ 'f' then some (c.toNat - 87)
  else if 'A' ≤ c ∧ c ≤ 'F' then some (c.toNat - 55)
  else none

def hexCode? (a b c d : Char) : Option Nat := do
  let w ← hexValue? a
  let x ← hexValue? b
  let y ← hexValue? c
  let z ← hexValue? d
  some (((w * 16 + x) * 16 + y) * 16 + z)

def isHighHalf (code : Nat) : Bool := 0xd800 ≤ code && code < 0xdc00

def isLowHalf (code : Nat) : Bool := 0xdc00 ≤ code && code < 0xe000

def joinHalves (high low : Nat) : Nat :=
  0x10000 + (high - 0xd800) * 0x400 + (low - 0xdc00)

def simpleEscape? : Char → Option Char
  | '\x22' => some '\x22'
  | '\\' => some '\\'
  | '/' => some '/'
  | 'b' => some '\x08'
  | 'f' => some '\x0c'
  | 'n' => some '\n'
  | 'r' => some '\r'
  | 't' => some '\t'
  | _ => none

/-- A character in front of what a string goes on with. -/
def prepend (c : Char) (n : Nat) (read : Option (Option (List Char) × Nat)) :
    Option (Option (List Char) × Nat) :=
  read.map fun r => (r.1.map (c :: ·), r.2 + n)

/-- Half of a surrogate pair in front of what a string goes on with. -/
def prependHalf (read : Option (Option (List Char) × Nat)) : Option (Option (List Char) × Nat) :=
  read.map fun r => (none, r.2 + 6)

/-- The text up to the closing quote, if the string stands for one, and how many characters it
takes with that quote. Control characters are refused. -/
def unquote : List Char → Option (Option (List Char) × Nat)
  | [] => none
  | '\x22' :: _ => some (some [], 1)
  | '\\' :: 'u' :: a :: b :: c :: d :: rest =>
    match hexCode? a b c d with
    | none => none
    | some code =>
      if isLowHalf code then prependHalf (unquote rest)
      else if isHighHalf code then
        match rest with
        | '\\' :: 'u' :: e :: f :: g :: h :: more =>
          match hexCode? e f g h with
          | none => none
          | some low =>
            if isLowHalf low then prepend (Char.ofNat (joinHalves code low)) 12 (unquote more)
            else prependHalf (unquote ('\\' :: 'u' :: e :: f :: g :: h :: more))
        | rest => prependHalf (unquote rest)
      else prepend (Char.ofNat code) 6 (unquote rest)
  | '\\' :: e :: rest =>
    match simpleEscape? e with
    | none => none
    | some c => prepend c 2 (unquote rest)
  | c :: rest =>
    if c.toNat < 32 ∨ c = '\\' then none else prepend c 1 (unquote rest)

/-- The lexeme that begins with `c`, and how many characters it takes after `c`. -/
def lexeme? (c : Char) (rest : List Char) : Option (Lexeme × Nat) :=
  match c with
  | '[' => some (.openArray, 0)
  | ']' => some (.closeArray, 0)
  | '\x7b' => some (.openObject, 0)
  | '\x7d' => some (.closeObject, 0)
  | ',' => some (.comma, 0)
  | ':' => some (.colon, 0)
  | '\x22' => (unquote rest).map fun r => (.literal (.string (r.1.map String.ofList)), r.2)
  | 'n' => if "ull".toList.isPrefixOf rest then some (.literal .null, 3) else none
  | 't' => if "rue".toList.isPrefixOf rest then some (.literal (.bool true), 3) else none
  | 'f' => if "alse".toList.isPrefixOf rest then some (.literal (.bool false), 4) else none
  | c => (numeral? (c :: rest)).map fun r => (.literal (.number r.1), r.2 - 1)

def isSpace (c : Char) : Bool :=
  c = ' ' || c = '\n' || c = '\t' || c = '\r'

def lexemes : List Char → Option (List Lexeme)
  | [] => some []
  | c :: rest =>
    if isSpace c then lexemes rest
    else
      match lexeme? c rest with
      | none => none
      | some (lexeme, n) => (lexemes (rest.drop n)).map (lexeme :: ·)
termination_by text => text.length
decreasing_by all_goals (simp [List.length_drop]; try omega)

/-- An array or object that is still open, with what it holds so far. -/
inductive Frame where
  | items (done : List Form)
  | members (done : List (Option String × Form)) (key : Option String)
  deriving Repr

/-- What may come next. -/
inductive Expectation where
  | value
  | valueOrEnd
  | key (done : List (Option String × Form))
  | keyOrEnd
  | colon (done : List (Option String × Form)) (key : Option String)
  | separator
  | nothing (result : Form)
  deriving Repr

structure Machine where
  expects : Expectation
  stack : List Frame
  deriving Repr

namespace Machine

def start : Machine := ⟨.value, []⟩

/-- A form is complete: it goes into the innermost open frame, or is the result. -/
def finish (form : Form) : List Frame → Machine
  | [] => ⟨.nothing form, []⟩
  | .items done :: stack => ⟨.separator, .items (done ++ [form]) :: stack⟩
  | .members done key :: stack => ⟨.separator, .members (done ++ [(key, form)]) key :: stack⟩

def begin (lexeme : Lexeme) (stack : List Frame) : Option Machine :=
  match lexeme with
  | .literal form => some (finish form stack)
  | .openArray => some ⟨.valueOrEnd, .items [] :: stack⟩
  | .openObject => some ⟨.keyOrEnd, stack⟩
  | _ => none

def step (m : Machine) (lexeme : Lexeme) : Option Machine :=
  match m.expects, lexeme, m.stack with
  | .value, lexeme, stack => begin lexeme stack
  | .valueOrEnd, .closeArray, .items done :: stack => some (finish (.array done) stack)
  | .valueOrEnd, lexeme, stack => begin lexeme stack
  | .keyOrEnd, .closeObject, stack => some (finish (.object []) stack)
  | .keyOrEnd, .literal (.string key), stack => some ⟨.colon [] key, stack⟩
  | .key done, .literal (.string key), stack => some ⟨.colon done key, stack⟩
  | .colon done key, .colon, stack => some ⟨.value, .members done key :: stack⟩
  | .separator, .comma, .items done :: stack => some ⟨.value, .items done :: stack⟩
  | .separator, .closeArray, .items done :: stack => some (finish (.array done) stack)
  | .separator, .comma, .members done _ :: stack => some ⟨.key done, stack⟩
  | .separator, .closeObject, .members done _ :: stack => some (finish (.object done) stack)
  | _, _, _ => none

def run : Machine → List Lexeme → Option Machine
  | m, [] => some m
  | m, lexeme :: more =>
    match m.step lexeme with
    | none => none
    | some next => run next more

def result? : Option Machine → Option Form
  | some ⟨.nothing form, _⟩ => some form
  | _ => none

end Machine

def Form.ofChars? (text : List Char) : Option Form := do
  let found ← lexemes text
  Machine.result? (Machine.start.run found)

def ofChars? (text : List Char) : Option Json := do
  let form ← Form.ofChars? text
  form.toJson?

def ofText? (text : String) : Option Json :=
  ofChars? text.toList

end Dashboard.Json
