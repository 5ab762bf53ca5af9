import Dashboard.Markup.Parser
import Mathlib.Tactic.SplitIfs

/-!
Scans of a text by the parser of documents. A scan that says how many characters it takes sees little
more than these.
-/
namespace Dashboard.Markup

/-- The texts begin with the same `n` characters, or are the same. -/
def Alike (n : Nat) (text other : List Char) : Prop := text.take n = other.take n

variable {n m : Nat} {text other : List Char} {c : Char}

theorem Alike.refl (n : Nat) (text : List Char) : Alike n text text := rfl

theorem Alike.mono (h : Alike n text other) (fewer : m ≤ n) : Alike m text other := by
  have shorter (l : List Char) : l.take m = (l.take n).take m := by
    rw [List.take_take, Nat.min_eq_left fewer]
  unfold Alike
  rw [shorter text, shorter other, h]

theorem Alike.drop (h : Alike (m + n) text other) : Alike n (text.drop m) (other.drop m) := by
  unfold Alike
  rw [List.take_drop, List.take_drop, h]

theorem Alike.nil (h : Alike (n + 1) [] other) : other = [] := by
  cases other with
  | nil => rfl
  | cons => cases h

theorem Alike.cons (h : Alike (n + 1) (c :: text) other) :
    ∃ rest, other = c :: rest ∧ Alike n text rest := by
  cases other with
  | nil => cases h
  | cons d rest =>
    obtain ⟨rfl, same⟩ := List.cons.inj h
    exact ⟨rest, rfl, same⟩

theorem Alike.head?_eq (h : Alike (n + 1) text other) : text.head? = other.head? := by
  cases text with
  | nil => rw [h.nil]
  | cons c more =>
    obtain ⟨rest, rfl, -⟩ := h.cons
    rfl

/-- Texts that begin alike beyond the end of the one are the same. -/
theorem Alike.eq_of_length (h : Alike n text other) (beyond : text.length < n) : other = text := by
  unfold Alike at h
  rw [List.take_of_length_le (Nat.le_of_lt beyond)] at h
  have long : other.length ≤ n := by
    have lengths := congrArg List.length h
    rw [List.length_take] at lengths
    omega
  rw [h, List.take_of_length_le long]

theorem Alike.drop_shorter {k : Nat} (h : Alike (n + 1) text other) :
    (text.drop k).length < text.length ↔ (other.drop k).length < other.length := by
  cases text with
  | nil => rw [h.nil]
  | cons c more =>
    obtain ⟨rest, rfl, -⟩ := h.cons
    simp only [List.length_drop, List.length_cons]
    omega

namespace Parser

theorem takeWhile_alike (p : Char → Bool) :
    ∀ {text other}, Alike ((text.takeWhile p).length + 1) text other →
      (other.takeWhile p).length = (text.takeWhile p).length := by
  intro text
  induction text with
  | nil =>
    intro other h
    rw [h.nil]
  | cons c more ih =>
    intro other h
    obtain ⟨rest, rfl, same⟩ := h.cons
    rw [List.takeWhile_cons] at same ⊢
    rw [List.takeWhile_cons]
    split_ifs at same ⊢
    · rw [List.length_cons] at same ⊢
      rw [List.length_cons, ih same]
    · rfl

theorem startsWith_alike : ∀ {mark text other : List Char}, Alike mark.length text other →
    distance?.startsWith mark other = distance?.startsWith mark text
  | [], text, other, _ => by
    cases text <;> cases other <;> rfl
  | m :: mark, [], other, h => by
    rw [Alike.nil h]
  | m :: mark, c :: more, other, h => by
    obtain ⟨rest, rfl, same⟩ := Alike.cons h
    rw [distance?.startsWith, distance?.startsWith, startsWith_alike same]

theorem distance?_alike {mark : List Char} (marked : mark ≠ []) :
    ∀ {text other : List Char} {n}, distance? mark text = some n → Alike (n + mark.length) text other →
      distance? mark other = some n := by
  intro text
  induction text with
  | nil =>
    intro other n h
    rw [distance?] at h
    split_ifs at h with none
    exact absurd (List.isEmpty_iff.mp none) marked
  | cons c more ih =>
    intro other n h same
    rw [distance?] at h
    split_ifs at h with here
    · obtain rfl := Option.some.inj h
      rw [Nat.zero_add] at same
      have there := startsWith_alike same
      rw [here] at there
      cases other with
      | nil =>
        cases mark with
        | nil => exact absurd rfl marked
        | cons => cases there
      | cons d rest => rw [distance?, if_pos there]
    · obtain ⟨k, later, rfl⟩ := Option.map_eq_some_iff.mp h
      have longer : k + 1 + mark.length = (k + mark.length) + 1 := by omega
      rw [longer] at same
      obtain ⟨rest, rfl, tail⟩ := same.cons
      have whole : Alike mark.length (c :: more) (c :: rest) := same.mono (by omega)
      rw [distance?, startsWith_alike whole, if_neg here, ih later tail]
      rfl

theorem bracedLength?_quoted (depth : Nat) (q : Char) {c : Char} (plain : c ≠ '\\')
    (more : List Char) :
    bracedLength? depth (some q) (c :: more) =
      (bracedLength? depth (if c = q then none else some q) more).map (· + 1) := by
  rw [bracedLength?]
  simp [plain]

theorem bracedLength?_unquoted (depth : Nat) (c : Char) (more : List Char) :
    bracedLength? depth none (c :: more) =
      if c = '\x22' ∨ c = '\x27' ∨ c = '\x60' then
        (bracedLength? depth (some c) more).map (· + 1)
      else if c = '\x7b' then (bracedLength? (depth + 1) none more).map (· + 1)
      else if c = '\x7d' then
        match depth with
        | 0 => some 0
        | depth + 1 => (bracedLength? depth none more).map (· + 1)
      else (bracedLength? depth none more).map (· + 1) := by
  cases depth <;> simp only [bracedLength?]

/-- At this text, what a scan says does not depend on more than one character beyond. -/
def SeesLittle (scan : List Char → Option Nat) (text : List Char) : Prop :=
  ∀ ⦃other n⦄, scan text = some n → Alike (n + 1) text other → scan other = some n

/-- A scan that takes one character and goes on as another one. -/
theorem SeesLittle.cons {scan further : List Char → Option Nat}
    (takes : ∀ more, scan (c :: more) = (further more).map (· + 1))
    (little : SeesLittle further text) : SeesLittle scan (c :: text) := by
  intro other n h same
  rw [takes] at h
  obtain ⟨k, later, rfl⟩ := Option.map_eq_some_iff.mp h
  obtain ⟨rest, rfl, behind⟩ := same.cons
  rw [takes, little later behind]
  rfl

theorem bracedLength?_alike {depth : Nat} {quote : Option Char} {text : List Char} :
    SeesLittle (bracedLength? depth quote) text := by
  induction depth, quote, text using bracedLength?.induct with
  | case1 depth quote =>
    intro other n h
    simp [bracedLength?] at h
  | case2 depth q c more ih =>
    intro other n h same
    rw [bracedLength?] at h
    obtain ⟨k, later, rfl⟩ := Option.map_eq_some_iff.mp h
    obtain ⟨_, rfl, behind⟩ := same.cons
    obtain ⟨rest, rfl, further⟩ := behind.cons
    rw [bracedLength?, ih later further]
    rfl
  | case3 depth q c more noEscape ih =>
    by_cases escape : c = '\\'
    · subst escape
      cases more with
      | nil =>
        intro other n h
        rw [bracedLength?] at h
        · simp [bracedLength?] at h
        · simp
      | cons d more => exact absurd rfl (noEscape d more rfl)
    · exact ih.cons (bracedLength?_quoted depth q escape)
  | case4 depth c more isQuote ih =>
    refine ih.cons fun text => ?_
    rw [bracedLength?_unquoted, if_pos isQuote]
  | case5 depth more noQuote ih =>
    refine ih.cons fun text => ?_
    rw [bracedLength?_unquoted, if_neg noQuote, if_pos rfl]
  | case6 more noQuote noOpening =>
    intro other n h same
    obtain ⟨rest, rfl, -⟩ := same.cons
    rw [bracedLength?_unquoted, if_neg noQuote, if_neg noOpening, if_pos rfl] at h ⊢
    exact h
  | case7 more depth noQuote noOpening ih =>
    refine ih.cons fun text => ?_
    rw [bracedLength?_unquoted, if_neg noQuote, if_neg noOpening, if_pos rfl]
  | case8 depth c more noQuote noOpening noClosing ih =>
    refine ih.cons fun text => ?_
    rw [bracedLength?_unquoted, if_neg noQuote, if_neg noOpening, if_neg noClosing]

theorem textLength_alike : ∀ {text other : List Char}, Alike (textLength text + 2) text other →
    textLength other = textLength text := by
  intro text
  induction text with
  | nil =>
    intro other h
    rw [h.nil]
  | cons c more ih =>
    intro other h
    obtain ⟨rest, rfl, same⟩ := h.cons
    rw [textLength] at same ⊢
    rw [textLength, ← same.head?_eq]
    split_ifs at same ⊢
    · rfl
    · rw [ih same]

end Parser

/-- How far beyond what it takes a parser may look, which may depend on the text that is left. What
is left further on is never seen less far, and the end of the text is seen. -/
structure Lookahead where
  reach : List Char → Nat
  tame : ∀ text k, reach text ≤ k + reach (text.drop k)
  sees : ∀ text, 0 < reach text

namespace Lookahead

/-- A slash is seen together with the character behind it. -/
def tag : Lookahead where
  reach text := if text.head? = some '/' then 2 else 1
  tame text k := by
    cases k with
    | zero => simp
    | succ k => split_ifs <;> omega
  sees text := by split_ifs <;> omega

def wide : Lookahead where
  reach _ := 4
  tame _ k := Nat.le_add_left 4 k
  sees _ := by omega

theorem reach_tag_le (text : List Char) : tag.reach text ≤ wide.reach text := by
  unfold tag wide
  dsimp only
  split_ifs <;> omega

end Lookahead

theorem Parser.unquotedLength_alike : ∀ {text other : List Char},
    Alike (unquotedLength text + Lookahead.tag.reach (text.drop (unquotedLength text))) text other →
      unquotedLength other = unquotedLength text := by
  intro text
  induction text with
  | nil =>
    intro other h
    have empty : Alike 1 [] other := h
    rw [empty.nil]
  | cons c more ih =>
    intro other h
    rw [unquotedLength] at h ⊢
    split_ifs at h ⊢ with stops
    · rw [List.drop_zero, Nat.zero_add] at h
      have one := Lookahead.tag.sees (c :: more)
      obtain ⟨rest, rfl, -⟩ := (h.mono one).cons
      rw [unquotedLength]
      by_cases slash : c = '/'
      · subst slash
        have two : Lookahead.tag.reach ('/' :: more) = 2 := rfl
        rw [two] at h
        obtain ⟨_, same, behind⟩ := h.cons
        obtain rfl := (List.cons.inj same).2
        rw [← behind.head?_eq, if_pos stops]
      · rw [if_pos]
        simpa [slash] using stops
    · rw [List.drop_succ_cons] at h
      have one := Lookahead.tag.sees (more.drop (unquotedLength more))
      have further : unquotedLength more + 1 + Lookahead.tag.reach (more.drop (unquotedLength more)) =
          unquotedLength more + Lookahead.tag.reach (more.drop (unquotedLength more)) + 1 := by omega
      rw [further] at h
      obtain ⟨rest, rfl, behind⟩ := h.cons
      rw [unquotedLength, ← (behind.mono (show 0 + 1 ≤ _ by omega)).head?_eq, if_neg stops, ih behind]

end Dashboard.Markup
