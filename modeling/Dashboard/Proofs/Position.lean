import Dashboard.Text.Position
import Mathlib.Data.List.Infix
import Mathlib.Data.List.TakeWhile

/-!
Where the pieces of a text stand. A piece of a piece stands in the whole text, and the place of a
piece tells its line, its column and its offset.
-/
namespace Dashboard

namespace Position

theorem advance_line (p : Position) (text : List Char) :
    (p.advance text).line = p.line + text.count '\n' := by
  induction text generalizing p with
  | nil => rfl
  | cons c text ih =>
    rw [advance_cons, ih, after]
    split_ifs with feed
    · simp [feed]
      omega
    · simp [feed]

/-- Columns go on to the next line feed, and then count from one again. -/
theorem advance_column (p : Position) (text : List Char) :
    (p.advance text).column =
      (if '\n' ∈ text then 1 else p.column) + (text.reverse.takeWhile (· ≠ '\n')).length := by
  induction text using List.reverseRecOn with
  | nil => simp
  | append_singleton text c ih =>
    rw [advance_append, advance_cons, advance_nil, after, List.reverse_concat]
    by_cases feed : c = '\n'
    · simp [feed]
    · have member : '\n' ∈ text ++ [c] ↔ '\n' ∈ text := by simp [Ne.symm feed]
      simp only [if_neg feed, ih, member]
      simp [feed, Nat.add_assoc]

/-- The place behind some text that begins at `origin`: columns go on from the origin, or count from
one behind the last line feed. -/
def behind (origin : Position) (before : List Char) : Position where
  line := origin.line + before.count '\n'
  column := if '\n' ∈ before then 1 + (before.reverse.takeWhile (· ≠ '\n')).length
    else origin.column + before.length
  offset := origin.offset + before.length

theorem advance_eq_behind (origin : Position) (before : List Char) :
    origin.advance before = origin.behind before := by
  have column : (origin.advance before).column = (origin.behind before).column := by
    rw [advance_column, behind]
    split_ifs with feed
    · rfl
    · have whole : before.reverse.takeWhile (· ≠ '\n') = before.reverse :=
        List.takeWhile_eq_self_iff.mpr fun c member => by
          rw [decide_eq_true_eq]
          rintro rfl
          exact feed (List.mem_reverse.mp member)
      rw [whole, List.length_reverse]
  exact (mk.injEq ..).mpr ⟨advance_line origin before, column, advance_offset origin before⟩

theorem advance_start_offset (before : List Char) :
    (Position.start.advance before).offset = before.length := by
  rw [advance_offset]
  exact Nat.zero_add _

theorem behind_append (origin : Position) (before more : List Char) :
    origin.behind (before ++ more) = (origin.behind before).advance more := by
  rw [← advance_eq_behind, ← advance_eq_behind, advance_append]

end Position

/-- In a text that begins at `origin`, the piece stands at `p`. -/
def Stands (origin : Position) (text : List Char) (p : Position) (piece : List Char) : Prop :=
  ∃ before behind, text = before ++ (piece ++ behind) ∧ p = origin.advance before

/-- The text spells the piece at the offset of `p`, whose line and column are those of this offset. -/
structure Spells (text : List Char) (p : Position) (piece : List Char) : Prop where
  characters : piece <+: text.drop p.offset
  line : p.line = 1 + (text.take p.offset).count '\n'
  column : p.column = 1 + ((text.take p.offset).reverse.takeWhile (· ≠ '\n')).length

namespace Stands

variable {origin p q : Position} {text piece inner front back : List Char}

theorem whole (origin : Position) (text : List Char) : Stands origin text origin text :=
  ⟨[], [], by simp, rfl⟩

theorem trans (h : Stands origin text p piece) (below : Stands p piece q inner) :
    Stands origin text q inner := by
  obtain ⟨before, behind, rfl, rfl⟩ := h
  obtain ⟨more, rest, rfl, rfl⟩ := below
  refine ⟨before ++ more, rest ++ behind, ?_, (origin.advance_append before more).symm⟩
  simp only [List.append_assoc]

theorem left (h : Stands origin text p (front ++ back)) : Stands origin text p front :=
  h.trans ⟨[], back, rfl, rfl⟩

theorem right (h : Stands origin text p (front ++ back)) :
    Stands origin text (p.advance front) back :=
  h.trans ⟨front, [], by simp, rfl⟩

theorem start (h : Stands origin text p piece) : Stands origin text p [] :=
  @left origin p text [] piece h

theorem inside (h : Stands origin text p piece) (within : inner <:+: piece) :
    ∃ q, p.offset ≤ q.offset ∧ Stands origin text q inner := by
  obtain ⟨front, back, rfl⟩ := within
  rw [List.append_assoc] at h
  refine ⟨_, ?_, h.right.left⟩
  rw [Position.advance_offset]
  exact Nat.le_add_right _ _

/-- A place is told by its offset. -/
theorem place (h : Stands .start text p piece) : p = Position.start.behind (text.take p.offset) := by
  obtain ⟨before, behind, rfl, rfl⟩ := h
  rw [Position.advance_start_offset, List.take_left, Position.advance_eq_behind]

/-- The text up to the end of a piece ends with the piece. -/
theorem suffix (h : Stands .start text p piece) : piece <:+ text.take (p.advance piece).offset := by
  obtain ⟨before, behind, rfl, rfl⟩ := h
  rw [← Position.advance_append, Position.advance_start_offset, ← List.append_assoc, List.take_left]
  exact List.suffix_append _ _

/-- Places count over the text from its first character on. -/
theorem spells (h : Stands .start text p piece) : Spells text p piece := by
  obtain ⟨before, behind, rfl, rfl⟩ := h
  constructor
  · rw [Position.advance_start_offset, List.drop_left]
    exact List.prefix_append _ _
  · rw [Position.advance_start_offset, List.take_left, Position.advance_line]
    rfl
  · rw [Position.advance_start_offset, List.take_left, Position.advance_column]
    split_ifs <;> rfl

end Stands

end Dashboard
