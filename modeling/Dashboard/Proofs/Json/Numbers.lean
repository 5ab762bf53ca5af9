import Dashboard.Json.Printer
import Dashboard.Json.Number
import Dashboard.Proofs.Text

/-!
Numbers of JSON text. A numeral that is written out with a delimiter behind it is cut off again as
a whole. What is written for an integer of 64 bits reads as that integer; what is written for a
double always has a point or an exponent, so it reads as a double.
-/
namespace Dashboard.Json

/-- What may stand behind a value: nothing, a comma, the end of an array or an object, or the end
of the line. -/
def IsDelimited (rest : List Char) : Prop :=
  ∀ c, rest.head? = some c → c = ',' ∨ c = ']' ∨ c = '\x7d' ∨ c = '\n'

def IsDigits (text : List Char) : Prop :=
  ∀ c ∈ text, Text.isAsciiDigit c = true

theorem isDelimited_nil : IsDelimited [] := by
  intro c head
  simp at head

theorem isDelimited_cons {c : Char} (h : c = ',' ∨ c = ']' ∨ c = '\x7d' ∨ c = '\n')
    (rest : List Char) : IsDelimited (c :: rest) := by
  intro d head
  obtain rfl : c = d := by simpa using head
  exact h

theorem isAsciiDigit_of_isDigit {c : Char} (h : c.isDigit = true) : Text.isAsciiDigit c = true := by
  simp only [Char.isDigit, Bool.and_eq_true, decide_eq_true_eq, ge_iff_le] at h
  simp only [Text.isAsciiDigit, Bool.and_eq_true, decide_eq_true_eq]
  exact h

theorem isDigits_toDigits (n : Nat) : IsDigits (Nat.toDigits 10 n) := fun _ member =>
  isAsciiDigit_of_isDigit (Nat.isDigit_of_mem_toDigits (by decide) (by decide) member)

theorem isDigits_zeros (n : Nat) : IsDigits (Decimal.zeros n) := by
  intro c member
  rw [Decimal.zeros] at member
  rw [List.eq_of_mem_replicate member]
  decide

theorem IsDigits.append {first second : List Char} (h : IsDigits first) (k : IsDigits second) :
    IsDigits (first ++ second) := fun c member =>
  (List.mem_append.mp member).elim (h c) (k c)

theorem isBlank_of_isAsciiDigit {c : Char} (h : Text.isAsciiDigit c = true) :
    Text.isBlank c = false := by
  simp only [Text.isAsciiDigit, Bool.and_eq_true, decide_eq_true_eq, Char.le_def,
    UInt32.le_iff_toNat_le] at h
  have low : 48 ≤ c.toNat := h.1
  have high : c.toNat ≤ 57 := h.2
  simp only [Text.isBlank, Text.inRanges, Text.blankRanges, List.any_cons, List.any_nil,
    Bool.or_false, Bool.or_eq_false_iff, Bool.and_eq_false_iff, decide_eq_false_iff_not]
  omega

theorem digitRun_append {digits rest : List Char} (h : IsDigits digits)
    (stop : ∀ c, rest.head? = some c → Text.isAsciiDigit c = false) :
    digitRun (digits ++ rest) = digits := by
  rw [digitRun, List.takeWhile_append_of_pos h]
  cases rest with
  | nil => simp
  | cons c more => simp [stop c rfl]

namespace Numeral

/-- The text of a numeral; an exponent is written with a sign. -/
def wholeChars (n : Numeral) : List Char :=
  (if n.negative then ['-'] else []) ++ n.whole

def fractionChars (n : Numeral) : List Char :=
  match n.fraction with
  | none => []
  | some digits => '.' :: digits

def exponentChars (n : Numeral) : List Char :=
  match n.exponent with
  | none => []
  | some (negative, digits) => 'e' :: (if negative then '-' else '+') :: digits

def chars (n : Numeral) : List Char :=
  n.wholeChars ++ n.fractionChars ++ n.exponentChars

/-- Digits in every part that is written, and a zero before the point only where it stands
alone. -/
structure IsWellFormed (n : Numeral) : Prop where
  whole_ne_nil : n.whole ≠ []
  whole_digits : IsDigits n.whole
  leading_zero : n.whole.head? = some '0' → n.whole = ['0']
  fraction_digits : ∀ digits, n.fraction = some digits → digits ≠ [] ∧ IsDigits digits
  exponent_digits : ∀ negative digits, n.exponent = some (negative, digits) →
    digits ≠ [] ∧ IsDigits digits

end Numeral

theorem isAsciiDigit_minus : Text.isAsciiDigit '-' = false := by decide

theorem isAsciiDigit_of_isDelimited {rest : List Char} (h : IsDelimited rest) :
    ∀ c, rest.head? = some c → Text.isAsciiDigit c = false := by
  intro c head
  rcases h c head with rfl | rfl | rfl | rfl <;> decide

theorem exponentPart_chars {n : Numeral} (wellFormed : n.IsWellFormed) {rest : List Char}
    (delimited : IsDelimited rest) :
    exponentPart (n.exponentChars ++ rest) = some (n.exponent, n.exponentChars.length) := by
  rw [Numeral.exponentChars]
  split
  · next none =>
    rw [none, List.nil_append]
    cases rest with
    | nil => rfl
    | cons c more =>
      have other : ¬(c = 'e' ∨ c = 'E') := by
        rcases delimited c rfl with rfl | rfl | rfl | rfl <;> decide
      simp only [exponentPart]
      rw [if_neg other]
      rfl
  · next negative digits some =>
    obtain ⟨notEmpty, areDigits⟩ := wellFormed.exponent_digits negative digits some
    have run : digitRun (digits ++ rest) = digits :=
      digitRun_append areDigits (isAsciiDigit_of_isDelimited delimited)
    have visible : digits.isEmpty = false := List.isEmpty_eq_false_iff.mpr notEmpty
    rw [some]
    cases negative <;> simp [exponentPart, run, visible] <;> omega

theorem fractionDigits_chars {n : Numeral} (wellFormed : n.IsWellFormed) {rest : List Char}
    (stop : ∀ c, rest.head? = some c → Text.isAsciiDigit c = false ∧ c ≠ '.') :
    fractionDigits (n.fractionChars ++ rest) = some (n.fraction, n.fractionChars.length) := by
  rw [Numeral.fractionChars]
  split
  · next none =>
    rw [none, List.nil_append]
    cases rest with
    | nil => rfl
    | cons c more =>
      have other : c ≠ '.' := (stop c rfl).2
      rw [fractionDigits]
      · rfl
      · rintro later ⟨rfl, rfl⟩
        exact other rfl
  · next digits some =>
    obtain ⟨notEmpty, areDigits⟩ := wellFormed.fraction_digits digits some
    have run : digitRun (digits ++ rest) = digits :=
      digitRun_append areDigits fun c head => (stop c head).1
    have visible : digits.isEmpty = false := List.isEmpty_eq_false_iff.mpr notEmpty
    rw [some]
    simp [fractionDigits, run, visible]
    omega

theorem head?_exponentChars {n : Numeral} {rest : List Char} (delimited : IsDelimited rest) :
    ∀ c, (n.exponentChars ++ rest).head? = some c → Text.isAsciiDigit c = false ∧ c ≠ '.' := by
  intro c head
  rw [Numeral.exponentChars] at head
  split at head
  · rcases delimited c head with rfl | rfl | rfl | rfl <;> decide
  · obtain rfl : 'e' = c := by simpa using head
    decide

theorem head?_fractionChars {n : Numeral} {rest : List Char} (delimited : IsDelimited rest) :
    ∀ c, (n.fractionChars ++ (n.exponentChars ++ rest)).head? = some c →
      Text.isAsciiDigit c = false := by
  intro c head
  rw [Numeral.fractionChars] at head
  split at head
  · exact (head?_exponentChars delimited c head).1
  · obtain rfl : '.' = c := by simpa using head
    decide

/-- A numeral is cut off the text that begins with it. -/
theorem numeral?_chars {n : Numeral} (wellFormed : n.IsWellFormed) {rest : List Char}
    (delimited : IsDelimited rest) :
    numeral? (n.chars ++ rest) = some (n, n.chars.length) := by
  obtain ⟨negative, whole, fraction, exponent⟩ := n
  set n : Numeral := ⟨negative, whole, fraction, exponent⟩ with shape
  set tail := n.fractionChars ++ (n.exponentChars ++ rest) with tailShape
  have run : digitRun (whole ++ tail) = whole :=
    digitRun_append wellFormed.whole_digits (head?_fractionChars delimited)
  have alone : (if whole.head? = some '0' then ['0'] else whole) = whole := by
    split_ifs with zero
    · exact (wellFormed.leading_zero zero).symm
    · rfl
  have visible : whole.isEmpty = false := List.isEmpty_eq_false_iff.mpr wellFormed.whole_ne_nil
  have first : whole.head? ≠ some '-' := by
    intro minus
    have digit := wellFormed.whole_digits '-' (List.mem_of_mem_head? minus)
    rw [isAsciiDigit_minus] at digit
    cases digit
  have fractionRead : fractionDigits tail = some (n.fraction, n.fractionChars.length) :=
    fractionDigits_chars wellFormed (head?_exponentChars delimited)
  have exponentRead := exponentPart_chars wellFormed delimited
  have text : n.chars ++ rest = n.wholeChars ++ tail := by
    simp [Numeral.chars, tailShape]
  have signed : ((n.wholeChars ++ tail).head? = some '-') ↔ negative = true := by
    cases negative with
    | true => exact iff_of_true rfl rfl
    | false =>
      obtain ⟨c, more, rfl⟩ := List.exists_cons_of_ne_nil wellFormed.whole_ne_nil
      exact iff_of_false first (by decide)
  have afterSign : (n.wholeChars ++ tail).drop (if negative then 1 else 0) = whole ++ tail := by
    cases negative <;> rfl
  have count : (if negative then 1 else 0) + whole.length = n.wholeChars.length := by
    cases negative
    · simp [Numeral.wholeChars, shape]
    · simp [Numeral.wholeChars, shape]; omega
  have afterWhole : (n.wholeChars ++ tail).drop n.wholeChars.length = tail :=
    List.drop_left' rfl
  have afterFraction : (n.wholeChars ++ tail).drop
      (n.wholeChars.length + n.fractionChars.length) = n.exponentChars ++ rest := by
    rw [← List.drop_drop, afterWhole, tailShape]
    exact List.drop_left' rfl
  have length : n.chars.length =
      n.wholeChars.length + n.fractionChars.length + n.exponentChars.length := by
    simp only [Numeral.chars, List.length_append]
  rw [text]
  simp only [numeral?, signed, afterSign, run, alone, visible, count, afterWhole, fractionRead,
    Option.bind_eq_bind, Option.bind_some, afterFraction, exponentRead, length, Bool.decide_eq_true]
  rfl

/-- The first character of a numeral is a digit or the sign. -/
theorem Numeral.IsWellFormed.head {n : Numeral} (wellFormed : n.IsWellFormed) :
    ∃ c more, n.chars = c :: more ∧ (c = '-' ∨ Text.isAsciiDigit c = true) := by
  obtain ⟨negative, whole, fraction, exponent⟩ := n
  obtain ⟨c, more, shape⟩ := List.exists_cons_of_ne_nil wellFormed.whole_ne_nil
  obtain rfl : whole = c :: more := shape
  cases negative with
  | true => exact ⟨'-', _, rfl, Or.inl rfl⟩
  | false => exact ⟨c, _, rfl, Or.inr (wellFormed.whole_digits c (by simp))⟩

/-- A numeral holds no blanks. -/
theorem Numeral.IsWellFormed.visible {n : Numeral} (wellFormed : n.IsWellFormed) :
    ∀ c ∈ n.chars, Text.isBlank c = false := by
  have digits : ∀ text, IsDigits text → ∀ c ∈ text, Text.isBlank c = false :=
    fun _ h c member => isBlank_of_isAsciiDigit (h c member)
  intro c member
  simp only [Numeral.chars, List.mem_append] at member
  rcases member with (whole | fraction) | exponent
  · simp only [Numeral.wholeChars, List.mem_append] at whole
    rcases whole with sign | whole
    · split_ifs at sign
      · obtain rfl : c = '-' := by simpa using sign
        decide
      · simp at sign
    · exact digits _ wellFormed.whole_digits c whole
  · rw [Numeral.fractionChars] at fraction
    split at fraction
    · simp at fraction
    · next some =>
      rcases List.mem_cons.mp fraction with rfl | later
      · decide
      · exact digits _ (wellFormed.fraction_digits _ some).2 c later
  · rw [Numeral.exponentChars] at exponent
    split at exponent
    · simp at exponent
    · next below _ some =>
      rcases List.mem_cons.mp exponent with rfl | later
      · decide
      · rcases List.mem_cons.mp later with rfl | later
        · cases below <;> decide
        · exact digits _ (wellFormed.exponent_digits _ _ some).2 c later

theorem Numeral.IsWellFormed.isTight {n : Numeral} (wellFormed : n.IsWellFormed) :
    Text.IsTight n.chars := by
  obtain ⟨c, more, shape, -⟩ := wellFormed.head
  exact Text.isTight_of_visible (by simp [shape]) wellFormed.visible

/-! Integers. -/

theorem wholePart_of_fits {digits : List Char} {m : Nat}
    (fits : Nat.ofDigitChars 10 digits m ≤ significandLimit) :
    wholePart ⟨m, 0⟩ digits = ⟨Nat.ofDigitChars 10 digits m, 0⟩ := by
  induction digits generalizing m with
  | nil => rfl
  | cons d more ih =>
    have next : 10 * m + (d.toNat - 48) = m * 10 + digitValue d := by
      rw [digitValue, Nat.mul_comm]
    have step : Nat.ofDigitChars 10 (d :: more) m = Nat.ofDigitChars 10 more (m * 10 + digitValue d) := by
      rw [← next]
      rfl
    rw [step] at fits ⊢
    have grows : m * 10 + digitValue d ≤ Nat.ofDigitChars 10 more (m * 10 + digitValue d) := by
      rw [Nat.ofDigitChars_eq_ofDigitChars_zero]
      exact le_trans (Nat.le_mul_of_pos_left _ (Nat.pow_pos (by decide))) (Nat.le_add_right _ _)
    rw [wholePart, if_pos ⟨rfl, le_trans grows fits⟩, ih fits]

def integerNumeral (n : Int) : Numeral :=
  ⟨n < 0, Nat.toDigits 10 n.natAbs, none, none⟩

theorem digitChar_ne_zero : ∀ n, n < 10 → 0 < n → Nat.digitChar n ≠ '0' := by
  decide

theorem head?_toDigits_ne_zero {n : Nat} (positive : 0 < n) :
    (Nat.toDigits 10 n).head? ≠ some '0' := by
  induction n using Nat.strongRecOn with
  | _ n ih =>
    rw [Nat.toDigits_eq_if (by decide)]
    split_ifs with small
    · simpa using digitChar_ne_zero n small positive
    · have before := ih (n / 10) (by omega) (by omega)
      obtain ⟨c, more, shape⟩ := List.exists_cons_of_ne_nil (Nat.toDigits_ne_nil (n := n / 10) (b := 10))
      rw [shape] at before ⊢
      exact before

theorem head?_toDigits_zero {n : Nat} (h : (Nat.toDigits 10 n).head? = some '0') :
    Nat.toDigits 10 n = ['0'] := by
  rcases Nat.eq_zero_or_pos n with rfl | positive
  · exact Nat.toDigits_zero 10
  · exact absurd h (head?_toDigits_ne_zero positive)

theorem isWellFormed_integerNumeral (n : Int) : (integerNumeral n).IsWellFormed where
  whole_ne_nil := Nat.toDigits_ne_nil
  whole_digits := isDigits_toDigits _
  leading_zero := head?_toDigits_zero
  fraction_digits := by simp [integerNumeral]
  exponent_digits := by simp [integerNumeral]

theorem chars_integerNumeral (n : Int) : (integerNumeral n).chars = intChars n := by
  simp [integerNumeral, Numeral.chars, Numeral.wholeChars, Numeral.fractionChars,
    Numeral.exponentChars, intChars]

theorem value_integerNumeral {n : Int} (h : isInteger n = true) :
    (integerNumeral n).value = some (.int n) := by
  have range : -(twoTo 63 : Int) ≤ n ∧ n < twoTo 64 := by simpa [isInteger] using h
  have low : twoTo 63 = 9223372036854775808 := by decide
  have high : twoTo 64 = 18446744073709551616 := by decide
  rw [low, high] at range
  have fits : Nat.ofDigitChars 10 (Nat.toDigits 10 n.natAbs) 0 ≤ significandLimit := by
    rw [Nat.ofDigitChars_ten_toDigits, significandLimit, high]
    omega
  have read : wholePart ⟨0, 0⟩ (Nat.toDigits 10 n.natAbs) = ⟨n.natAbs, 0⟩ := by
    rw [wholePart_of_fits fits, Nat.ofDigitChars_ten_toDigits]
  have value : (if n < 0 then -(n.natAbs : Int) else n.natAbs) = n := by
    split_ifs <;> omega
  have kept : ¬(n < 0 ∧ n = 0 ∨ ¬isInteger n = true) := by
    rintro (⟨negative, zero⟩ | refused)
    · omega
    · exact refused h
  simp only [Numeral.value, integerNumeral, read, decide_eq_true_eq, value, ne_eq,
    not_true_eq_false, if_false, if_neg kept]

end Dashboard.Json
