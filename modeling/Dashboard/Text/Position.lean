/-!
Places in a text. A place is counted in characters; a line feed starts a new line, and both lines
and columns count from one.
-/
namespace Dashboard

structure Position where
  line : Nat
  column : Nat
  offset : Nat
  deriving DecidableEq, Repr, Inhabited

namespace Position

def start : Position := ⟨1, 1, 0⟩

/-- The place just after a character that stands at `p`. -/
def after (p : Position) (c : Char) : Position :=
  if c = '\n' then ⟨p.line + 1, 1, p.offset + 1⟩ else ⟨p.line, p.column + 1, p.offset + 1⟩

/-- The place just after a stretch of text that begins at `p`. -/
def advance (p : Position) (text : List Char) : Position :=
  text.foldl after p

@[simp] theorem advance_nil (p : Position) : p.advance [] = p := rfl

@[simp] theorem advance_cons (p : Position) (c : Char) (text : List Char) :
    p.advance (c :: text) = (p.after c).advance text := rfl

theorem advance_append (p : Position) (a b : List Char) :
    p.advance (a ++ b) = (p.advance a).advance b :=
  List.foldl_append

theorem advance_offset (p : Position) (text : List Char) :
    (p.advance text).offset = p.offset + text.length := by
  induction text generalizing p with
  | nil => rfl
  | cons c text ih =>
    simp only [advance_cons, ih, List.length_cons, after]
    split <;> simp <;> omega

def text (p : Position) : String :=
  s!"{p.line}:{p.column}"

end Position

/-- A place in a text together with the characters that follow it. -/
structure Cursor where
  rest : List Char
  pos : Position
  deriving DecidableEq, Repr

namespace Cursor

def ofText (text : String) (origin : Position) : Cursor :=
  ⟨text.toList, origin⟩

/-- Steps over `n` characters, or to the end of the text where fewer remain. -/
def skip (c : Cursor) (n : Nat) : Cursor :=
  ⟨c.rest.drop n, c.pos.advance (c.rest.take n)⟩

@[simp] theorem skip_rest (c : Cursor) (n : Nat) : (c.skip n).rest = c.rest.drop n := rfl

@[simp] theorem skip_zero (c : Cursor) : c.skip 0 = c := rfl

theorem skip_add (c : Cursor) (m n : Nat) : c.skip (m + n) = (c.skip m).skip n := by
  simp [skip, List.take_add, Position.advance_append, List.drop_drop]

end Cursor

end Dashboard
