import Dashboard.Proofs.Decimal.Shortest
import Dashboard.Proofs.Json.Numbers

/-!
Doubles in JSON text. Every finite double is written as a numeral with a point or an exponent, and
that numeral is always read: its significand and power of ten never exceed the decimal that was
written, and the largest doubles, where two roundings might add up to an overflow, are checked.
-/
namespace Dashboard.Json

open Binary64 (InRange twoTo_pos tenTo_pos magnitude overflow)
open Decimal (IsSafe)

/-! The numerals that are written. -/

def positionalNumeral (negative : Bool) (digits : List Char) (leading : Int) : Numeral :=
  if leading < 0 then
    ⟨negative, ['0'], some (Decimal.zeros (-leading - 1).toNat ++ digits), none⟩
  else
    let whole := leading.toNat + 1
    if digits.length ≤ whole then
      ⟨negative, digits ++ Decimal.zeros (whole - digits.length), some ['0'], none⟩
    else ⟨negative, digits.take whole, some (digits.drop whole), none⟩

def scientificNumeral (negative : Bool) (digits : List Char) (leading : Int) : Numeral :=
  let fraction := if digits.tail = [] then none else some digits.tail
  ⟨negative, digits.take 1, fraction, some (leading < 0, Nat.toDigits 10 leading.natAbs)⟩

def doubleNumeral (x : Binary64) : Numeral :=
  let d := Decimal.shortest .toEven x
  let digits := Nat.toDigits 10 d.digits
  let leading : Int := d.exponent + (digits.length : Int) - 1
  if -5 ≤ leading && leading ≤ 15 then positionalNumeral x.isNegative digits leading
  else scientificNumeral x.isNegative digits leading

theorem chars_positionalNumeral (negative : Bool) (digits : List Char) (leading : Int) :
    (positionalNumeral negative digits leading).chars =
      (if negative then ['-'] else []) ++ Decimal.positional digits leading := by
  rw [positionalNumeral, Decimal.positional]
  by_cases small : leading < 0
  · rw [if_pos small, if_pos small]
    simp [Numeral.chars, Numeral.wholeChars, Numeral.fractionChars, Numeral.exponentChars]
  · rw [if_neg small, if_neg small]
    by_cases fits : digits.length ≤ leading.toNat + 1
    · simp [fits, Numeral.chars, Numeral.wholeChars, Numeral.fractionChars, Numeral.exponentChars]
    · simp [fits, Numeral.chars, Numeral.wholeChars, Numeral.fractionChars, Numeral.exponentChars]

theorem chars_scientificNumeral (negative : Bool) {digits : List Char} (notEmpty : digits ≠ [])
    (leading : Int) :
    (scientificNumeral negative digits leading).chars =
      (if negative then ['-'] else []) ++ Decimal.scientific true digits leading := by
  obtain ⟨d, more, rfl⟩ := List.exists_cons_of_ne_nil notEmpty
  have sign : (if leading < 0 then '-' else '+') :: Nat.toDigits 10 leading.natAbs =
      (if leading < 0 then ['-'] else ['+']) ++ Nat.toDigits 10 leading.natAbs := by
    split_ifs <;> rfl
  cases more with
  | nil =>
    simp [scientificNumeral, Decimal.scientific, Numeral.chars, Numeral.wholeChars,
      Numeral.fractionChars, Numeral.exponentChars, sign]
  | cons next more =>
    simp [scientificNumeral, Decimal.scientific, Numeral.chars, Numeral.wholeChars,
      Numeral.fractionChars, Numeral.exponentChars, sign]

theorem chars_numberLayout {x : Binary64} (finite : x.isFinite = true) {digits : List Char}
    {leading : Int} (hd : digits = Nat.toDigits 10 (Decimal.shortest .toEven x).digits)
    (hl : leading = (Decimal.shortest .toEven x).exponent + (digits.length : Int) - 1) :
    numberLayout.chars x = (if x.isNegative then ['-'] else []) ++
      (if -5 ≤ leading && leading ≤ 15 then Decimal.positional digits leading
      else Decimal.scientific true digits leading) := by
  subst hl hd
  simp [Decimal.Layout.chars, numberLayout, finite]

theorem chars_doubleNumeral {x : Binary64} (finite : x.isFinite = true) :
    (doubleNumeral x).chars = floatChars x := by
  rw [floatChars, if_pos finite, chars_numberLayout finite rfl rfl]
  simp only [doubleNumeral]
  rw [apply_ite Numeral.chars, chars_positionalNumeral,
    chars_scientificNumeral _ Nat.toDigits_ne_nil]
  exact (apply_ite (fun text => (if x.isNegative then ['-'] else []) ++ text) _ _ _).symm

/-- Digits that begin with a zero only if they are nothing else. -/
structure IsCount (digits : List Char) : Prop where
  ne_nil : digits ≠ []
  isDigits : IsDigits digits
  leading_zero : digits.head? = some '0' → digits = ['0']

theorem isCount_toDigits (n : Nat) : IsCount (Nat.toDigits 10 n) :=
  ⟨Nat.toDigits_ne_nil, isDigits_toDigits n, head?_toDigits_zero⟩

theorem IsDigits.take {digits : List Char} (h : IsDigits digits) (n : Nat) :
    IsDigits (digits.take n) := fun c member => h c (List.mem_of_mem_take member)

theorem IsDigits.drop {digits : List Char} (h : IsDigits digits) (n : Nat) :
    IsDigits (digits.drop n) := fun c member => h c (List.mem_of_mem_drop member)

theorem isWellFormed_positionalNumeral (negative : Bool) {digits : List Char}
    (count : IsCount digits) {leading : Int} (unit : digits = ['0'] → leading = 0) :
    (positionalNumeral negative digits leading).IsWellFormed := by
  have zeroDigits : IsDigits ['0'] := by
    intro c member
    obtain rfl : c = '0' := by simpa using member
    decide
  rw [positionalNumeral]
  by_cases small : leading < 0
  · rw [if_pos small]
    refine ⟨by simp, zeroDigits, fun _ => rfl, ?_, by simp⟩
    intro fraction written
    obtain rfl := Option.some.inj written
    exact ⟨by simp [count.ne_nil], (isDigits_zeros _).append count.isDigits⟩
  · rw [if_neg small]
    by_cases fits : digits.length ≤ leading.toNat + 1
    · simp only [fits, if_true]
      refine ⟨by simp [count.ne_nil], count.isDigits.append (isDigits_zeros _), ?_, ?_, by simp⟩
      · intro head
        have first : digits.head? = some '0' := by
          obtain ⟨d, more, rfl⟩ := List.exists_cons_of_ne_nil count.ne_nil
          exact head
        have alone := count.leading_zero first
        simp [alone, unit alone, Decimal.zeros]
      · intro fraction written
        obtain rfl := Option.some.inj written
        exact ⟨by simp, zeroDigits⟩
    · simp only [fits, if_false]
      refine ⟨?_, count.isDigits.take _, ?_, ?_, by simp⟩
      · simp [count.ne_nil]
      · intro head
        have first : digits.head? = some '0' := by
          obtain ⟨d, more, rfl⟩ := List.exists_cons_of_ne_nil count.ne_nil
          exact head
        simp [count.leading_zero first] at fits
      · intro fraction written
        obtain rfl := Option.some.inj written
        refine ⟨?_, count.isDigits.drop _⟩
        simpa using fits

theorem isWellFormed_scientificNumeral (negative : Bool) {digits : List Char}
    (count : IsCount digits) (leading : Int) :
    (scientificNumeral negative digits leading).IsWellFormed := by
  refine ⟨?_, count.isDigits.take 1, ?_, ?_, ?_⟩
  · simp [scientificNumeral, count.ne_nil]
  · intro head
    have first : digits.head? = some '0' := by
      obtain ⟨d, more, rfl⟩ := List.exists_cons_of_ne_nil count.ne_nil
      exact head
    simp [scientificNumeral, count.leading_zero first]
  · intro fraction written
    simp only [scientificNumeral] at written
    split_ifs at written with none
    obtain rfl := Option.some.inj written
    exact ⟨none, fun c member => count.isDigits c (List.mem_of_mem_tail member)⟩
  · intro sign exponent written
    obtain ⟨rfl, rfl⟩ : decide (leading < 0) = sign ∧ Nat.toDigits 10 leading.natAbs = exponent := by
      simpa [scientificNumeral] using written
    exact ⟨Nat.toDigits_ne_nil, isDigits_toDigits _⟩

theorem shortest_zero (tie : Decimal.Tie) (s : Bool) (e : Int) :
    Decimal.shortest tie (.finite s 0 e) = ⟨0, 0⟩ := rfl

theorem toDigits_eq_zero {n : Nat} (h : Nat.toDigits 10 n = ['0']) : n = 0 := by
  have read := Nat.ofDigitChars_ten_toDigits (n := n)
  rw [h] at read
  exact read.symm

/-- Only zero is written with the digit zero alone, and it stands before the point. -/
theorem exponent_of_zero {x : Binary64} (range : InRange x)
    (zero : Nat.toDigits 10 (Decimal.shortest .toEven x).digits = ['0']) :
    (Decimal.shortest .toEven x).exponent +
      ((Nat.toDigits 10 (Decimal.shortest .toEven x).digits).length : Int) - 1 = 0 := by
  cases x with
  | infinite => exact range.elim
  | finite s m e =>
    rcases Nat.eq_zero_or_pos m with rfl | positive
    · rw [shortest_zero]
      rfl
    · have safe := Decimal.isSafe_shortest .toEven positive.ne' range
      exact absurd (toDigits_eq_zero zero) safe.digits_ne_zero

theorem isWellFormed_doubleNumeral {x : Binary64} (range : InRange x) :
    (doubleNumeral x).IsWellFormed := by
  simp only [doubleNumeral]
  split_ifs
  · exact isWellFormed_positionalNumeral _ (isCount_toDigits _) (exponent_of_zero range)
  · exact isWellFormed_scientificNumeral _ (isCount_toDigits _) _

/-! Reading a numeral. -/

theorem digitValue_lt {c : Char} (h : Text.isAsciiDigit c = true) : digitValue c < 10 := by
  simp only [Text.isAsciiDigit, Bool.and_eq_true, decide_eq_true_eq, Char.le_def,
    UInt32.le_iff_toNat_le] at h
  have high : c.toNat ≤ 57 := h.2
  rw [digitValue]
  omega

theorem ofDigitChars_cons (d : Char) (more : List Char) (m : Nat) :
    Nat.ofDigitChars 10 (d :: more) m = Nat.ofDigitChars 10 more (m * 10 + digitValue d) := by
  rw [Nat.mul_comm]
  rfl

theorem ofDigitChars_lt {digits : List Char} (h : IsDigits digits) (m : Nat) :
    Nat.ofDigitChars 10 digits m < (m + 1) * 10 ^ digits.length := by
  induction digits generalizing m with
  | nil => simp
  | cons d more ih =>
    have digit := digitValue_lt (h d (by simp))
    have tail := ih (fun c member => h c (List.mem_cons_of_mem _ member)) (m * 10 + digitValue d)
    rw [ofDigitChars_cons]
    refine lt_of_lt_of_le tail ?_
    rw [List.length_cons, Nat.pow_succ, mul_comm (10 ^ more.length) 10, ← mul_assoc]
    exact Nat.mul_le_mul_right _ (by omega)

theorem le_ofDigitChars (digits : List Char) (m : Nat) :
    m * 10 ^ digits.length ≤ Nat.ofDigitChars 10 digits m := by
  rw [Nat.ofDigitChars_eq_ofDigitChars_zero, mul_comm]
  exact Nat.le_add_right _ _

/-- The digits after the point are taken as far as they fit. -/
theorem fractionPart_spec (digits : List Char) {m : Nat} (room : m ≤ significandLimit) (e : Int) :
    ∃ k ≤ digits.length, (fractionPart ⟨m, e⟩ digits).exponent = e - k ∧
      m ≤ (fractionPart ⟨m, e⟩ digits).significand ∧
      (fractionPart ⟨m, e⟩ digits).significand ≤ significandLimit ∧
      (fractionPart ⟨m, e⟩ digits).significand * 10 ^ (digits.length - k) ≤
        Nat.ofDigitChars 10 digits m := by
  induction digits generalizing m e with
  | nil => exact ⟨0, le_refl _, by simp [fractionPart], le_refl _, room, by simp [fractionPart]⟩
  | cons d more ih =>
    rw [fractionPart]
    split_ifs with fitting
    · obtain ⟨k, bound, exponent, grows, fits, value⟩ := ih fitting (e - 1)
      have longer : m ≤ m * 10 + digitValue d := by omega
      refine ⟨k + 1, by simpa using bound, ?_, longer.trans grows, fits, ?_⟩
      · rw [exponent]
        push_cast
        ring
      · rw [ofDigitChars_cons, List.length_cons, Nat.add_sub_add_right]
        exact value
    · exact ⟨0, Nat.zero_le _, by simp, le_refl _, room, le_ofDigitChars (d :: more) m⟩

theorem powerOfTen_eq {n : Nat} (h : n ≤ 308) :
    powerOfTen n = Binary64.ofRatio false (tenTo n) 1 := by
  have size : ((Nat.toDigits 10 1).length : Int) = 1 := by decide
  simp only [powerOfTen, Binary64.ofDecimal, size]
  rw [if_neg (by decide), if_neg (by omega), if_neg (by omega), if_pos (by omega), Nat.one_mul]
  rfl

theorem applyPower_of_neg (x : Binary64) {exponent : Int} (h : exponent < 0) :
    (applyPower x exponent).isSome = true := by
  induction x, exponent using applyPower.induct with
  | case1 => omega
  | case2 => omega
  | case3 => omega
  | case4 => omega
  | case5 x exponent above sign near =>
    rw [applyPower, if_neg above, if_neg sign, if_pos near]
    rfl
  | case6 x exponent above sign near zero =>
    rw [applyPower, if_neg above, if_neg sign, if_neg near, if_pos zero]
    rfl
  | case7 x exponent above sign near zero ih =>
    rw [applyPower, if_neg above, if_neg sign, if_neg near, if_neg zero]
    exact ih (by omega)

theorem ofRatio_one_of_le {n : Nat} (positive : 0 < n) (h : (n : ℚ) < overflow) :
    ∃ m e, Binary64.ofRatio false n 1 = .finite false m e ∧
      (m : ℚ) * 2 ^ e ≤ n * (1 + 1 / 2 ^ 53) := by
  obtain ⟨m, e, shape, -, -⟩ := Binary64.ofRatio_of_lt_overflow false Nat.one_pos
    (show (n : ℚ) / (1 : Nat) < overflow by simpa using h)
  refine ⟨m, e, shape, ?_⟩
  have normal : (2 : ℚ) ^ (-1022 : Int) ≤ (n : ℚ) / (1 : Nat) := by
    rw [Nat.cast_one, div_one]
    have one : (1 : ℚ) ≤ n := by exact_mod_cast positive
    refine le_trans ?_ one
    exact zpow_le_one_of_nonpos₀ (by norm_num) (by decide)
  have bound := Binary64.magnitude_ofRatio_le false Nat.one_pos normal
  rw [shape, Nat.cast_one, div_one] at bound
  exact bound

/-- The bound below which two roundings do not add up to an overflow. -/
def roundingBound : ℚ := 2 ^ (971 : Int) * (2 ^ 53 - 7 / 2)

theorem roundingBound_mul_lt : roundingBound * (1 + 1 / 2 ^ 53) * (1 + 1 / 2 ^ 53) < overflow := by
  rw [roundingBound, overflow, mul_assoc, mul_assoc]
  exact mul_lt_mul_of_pos_left (by norm_num) (by positivity)

theorem roundingBound_lt : roundingBound < overflow :=
  mul_lt_mul_of_pos_left (by norm_num) (by positivity)

theorem roundingBound_lt_tenTo : roundingBound < 10 ^ (309 : Int) := by
  have power : twoTo 1024 < tenTo 309 := by decide +kernel
  calc roundingBound < 2 ^ (1024 : Int) := by
        rw [Binary64.split_top]
        exact mul_lt_mul_of_pos_left (by norm_num) (by positivity)
    _ = (twoTo 1024 : ℚ) := by rw [Binary64.cast_twoTo]; rfl
    _ < (tenTo 309 : ℚ) := by exact_mod_cast power
    _ = 10 ^ (309 : Int) := by rw [Decimal.cast_tenTo]; rfl

theorem isFinite_mul {m k : Nat} {e f : Int}
    (h : ((m : ℚ) * 2 ^ e) * (k * 2 ^ f) < overflow) :
    ((Binary64.finite false m e).mul (.finite false k f)).isFinite = true := by
  have fraction : (((Binary64.ratio m e).1 * (Binary64.ratio k f).1 : Nat) : ℚ) /
      ((Binary64.ratio m e).2 * (Binary64.ratio k f).2 : Nat) < overflow := by
    rw [Nat.cast_mul, Nat.cast_mul, mul_div_mul_comm, Binary64.ratio_eq, Binary64.ratio_eq]
    exact h
  obtain ⟨n, g, shape, -, -⟩ := Binary64.ofRatio_of_lt_overflow (false != false)
    (Nat.mul_pos (Binary64.ratio_pos m e) (Binary64.ratio_pos k f)) fraction
  rw [Binary64.mul, shape]
  rfl

/-- A significand and a power that stay below the bound can be multiplied. -/
theorem applyPower_of_le {n : Nat} (positive : 0 < n) {exponent : Int} (sign : 0 ≤ exponent)
    (h : (n : ℚ) * 10 ^ exponent ≤ roundingBound) :
    (applyPower (.ofNat n) exponent).isSome = true := by
  have one_le_power : (1 : ℚ) ≤ 10 ^ exponent := one_le_zpow₀ (by norm_num) sign
  have one_le : (1 : ℚ) ≤ n := by exact_mod_cast positive
  have significand_le : (n : ℚ) ≤ roundingBound :=
    le_trans (le_mul_of_one_le_right (by positivity) one_le_power) h
  have power_le : (10 : ℚ) ^ exponent ≤ roundingBound :=
    le_trans (le_mul_of_one_le_left (by positivity) one_le) h
  have small : exponent ≤ 308 := by
    have chain := (zpow_lt_zpow_iff_right₀ (by norm_num : (1 : ℚ) < 10)).mp
      (lt_of_le_of_lt power_le roundingBound_lt_tenTo)
    omega
  have cast : ((tenTo exponent.toNat : Nat) : ℚ) = 10 ^ exponent := Decimal.cast_tenTo_toNat sign
  obtain ⟨m, e, left, leftBound⟩ :=
    ofRatio_one_of_le positive (lt_of_le_of_lt significand_le roundingBound_lt)
  obtain ⟨k, f, right, rightBound⟩ := ofRatio_one_of_le (tenTo_pos exponent.toNat)
    (cast ▸ lt_of_le_of_lt power_le roundingBound_lt)
  rw [cast] at rightBound
  have product : ((m : ℚ) * 2 ^ e) * (k * 2 ^ f) < overflow := by
    refine lt_of_le_of_lt ?_ roundingBound_mul_lt
    calc ((m : ℚ) * 2 ^ e) * (k * 2 ^ f)
        ≤ (n * (1 + 1 / 2 ^ 53)) * (10 ^ exponent * (1 + 1 / 2 ^ 53)) :=
          mul_le_mul leftBound rightBound
            (mul_nonneg (Nat.cast_nonneg k) (zpow_nonneg (by norm_num) f))
            (mul_nonneg (Nat.cast_nonneg n) (by norm_num))
      _ = n * 10 ^ exponent * (1 + 1 / 2 ^ 53) * (1 + 1 / 2 ^ 53) := by ring
      _ ≤ roundingBound * (1 + 1 / 2 ^ 53) * (1 + 1 / 2 ^ 53) :=
          mul_le_mul_of_nonneg_right (mul_le_mul_of_nonneg_right h (by norm_num)) (by norm_num)
  have finite := isFinite_mul product
  rw [applyPower, if_neg (by omega), if_pos sign, powerOfTen_eq (by omega), right,
    Binary64.ofNat, left]
  simp only [finite, if_true, Option.isSome_some]

theorem foldl_digitValue (digits : List Char) (m : Nat) :
    digits.foldl (fun n d => n * 10 + digitValue d) m = Nat.ofDigitChars 10 digits m := by
  induction digits generalizing m with
  | nil => rfl
  | cons d more ih => rw [List.foldl_cons, ih, ofDigitChars_cons]

theorem signedPower_toDigits (m : Magnitude) (negative : Bool) {size : Nat}
    (small : size ≤ exponentLimit) :
    signedPower m negative (Nat.toDigits 10 size) = applyPower (.ofNat m.significand)
      (if negative then m.exponent - size else m.exponent + size) := by
  simp only [signedPower, foldl_digitValue, Nat.ofDigitChars_ten_toDigits]
  rw [if_neg (by omega)]

/-- Few digits before the point always fit. -/
theorem wholePart_of_length_le {digits : List Char} (h : IsDigits digits)
    (few : digits.length ≤ 16) :
    wholePart ⟨0, 0⟩ digits = ⟨Nat.ofDigitChars 10 digits 0, 0⟩ ∧
      Nat.ofDigitChars 10 digits 0 < 10 ^ 16 := by
  have small : Nat.ofDigitChars 10 digits 0 < 10 ^ 16 := by
    refine lt_of_lt_of_le (ofDigitChars_lt h 0) ?_
    rw [Nat.zero_add, Nat.one_mul]
    exact Nat.pow_le_pow_right (by decide) few
  refine ⟨wholePart_of_fits (le_trans small.le ?_), small⟩
  decide

/-- A numeral is read as a double: as a significand of 64 bits with a power of ten, which together do not
exceed the number that was written. -/
def Numeral.IsRead (n : Numeral) (written : ℚ) : Prop :=
  ∃ (m : Nat) (e : Int) (x : Binary64), m ≤ significandLimit ∧ (m : ℚ) * 10 ^ e ≤ written ∧
    applyPower (.ofNat m) e = some x ∧
    n.value = some (.float (if n.negative then x.negate else x))

/-- A significand of which only the first digits after the point were taken. -/
theorem truncated_le {taken length : Nat} (few : taken ≤ length) {m written : Nat}
    (h : m * 10 ^ (length - taken) ≤ written) (e : Int) :
    (m : ℚ) * 10 ^ (e - taken) ≤ written * 10 ^ (e - length) := by
  have cast : (m : ℚ) * 10 ^ (length - taken) ≤ written := by exact_mod_cast h
  have split : (e - taken : Int) = ((length - taken : Nat) : Int) + (e - length) := by omega
  rw [split, zpow_add₀ (by norm_num), zpow_natCast, ← mul_assoc]
  exact mul_le_mul_of_nonneg_right cast (zpow_nonneg (by norm_num) _)

/-- A numeral with a point, without an exponent and with few digits before the point. -/
theorem isRead_of_point {n : Numeral} (wellFormed : n.IsWellFormed) {fraction : List Char}
    (point : n.fraction = some fraction) (plain : n.exponent = none) (few : n.whole.length ≤ 16) :
    n.IsRead
      (Nat.ofDigitChars 10 (n.whole ++ fraction) 0 * 10 ^ (0 - fraction.length : Int)) := by
  obtain ⟨notEmpty, areDigits⟩ := wellFormed.fraction_digits fraction point
  obtain ⟨d, more, rfl⟩ := List.exists_cons_of_ne_nil notEmpty
  obtain ⟨read, small⟩ := wholePart_of_length_le wellFormed.whole_digits few
  have digit := digitValue_lt (areDigits d (by simp))
  rw [Nat.ofDigitChars_append]
  set whole := Nat.ofDigitChars 10 n.whole 0
  have limit : significandLimit = 18446744073709551615 := by decide
  have room : whole * 10 + digitValue d ≤ significandLimit := by omega
  obtain ⟨k, taken, exponent, -, fits, value⟩ := fractionPart_spec more room (0 - 1)
  have first : fractionPart ⟨whole, 0⟩ (d :: more) =
      fractionPart ⟨whole * 10 + digitValue d, 0 - 1⟩ more := by
    rw [fractionPart, if_pos room]
  rw [← first] at exponent fits value
  set m := fractionPart ⟨whole, 0⟩ (d :: more)
  obtain ⟨x, applied⟩ := Option.isSome_iff_exists.mp
    (applyPower_of_neg (.ofNat m.significand) (show m.exponent < 0 by omega))
  refine ⟨m.significand, m.exponent, x, fits, ?_, applied, ?_⟩
  · rw [exponent, ofDigitChars_cons, List.length_cons]
    refine (truncated_le taken value (0 - 1)).trans_eq ?_
    congr 2
    push_cast
    ring
  · simp only [Numeral.value, point, plain, read, Option.getD_some, applied, m]
    rfl

/-- The number of a decimal whose first digit stands at the leading exponent. -/
def layoutValue (digits : List Char) (leading : Int) : ℚ :=
  Nat.ofDigitChars 10 digits 0 * 10 ^ (leading - digits.length + 1)

theorem isRead_positionalNumeral (negative : Bool) {digits : List Char} (count : IsCount digits)
    {leading : Int} (unit : digits = ['0'] → leading = 0) (usual : leading ≤ 15) :
    (positionalNumeral negative digits leading).IsRead (layoutValue digits leading) := by
  have wellFormed := isWellFormed_positionalNumeral negative count unit
  rw [positionalNumeral] at wellFormed ⊢
  split_ifs at wellFormed ⊢ with small
  · have value : Nat.ofDigitChars 10 (['0'] ++ (Decimal.zeros (-leading - 1).toNat ++ digits)) 0 =
        Nat.ofDigitChars 10 digits 0 := by
      rw [Nat.ofDigitChars_append, Nat.ofDigitChars_append, Decimal.zeros,
        Nat.ofDigitChars_replicate_zero]
      rfl
    have read := isRead_of_point wellFormed rfl rfl (by simp)
    rw [value] at read
    convert read using 1
    rw [layoutValue]
    congr 2
    simp only [Decimal.zeros, List.length_append, List.length_replicate]
    omega
  · simp only [] at wellFormed ⊢
    split_ifs at wellFormed ⊢ with fits
    · have value : Nat.ofDigitChars 10
          (digits ++ Decimal.zeros (leading.toNat + 1 - digits.length) ++ ['0']) 0 =
          10 ^ (leading.toNat + 1 - digits.length + 1) * Nat.ofDigitChars 10 digits 0 := by
        rw [List.append_assoc, Nat.ofDigitChars_append, Decimal.zeros, ← List.replicate_succ',
          Nat.ofDigitChars_replicate_zero]
      have read := isRead_of_point wellFormed rfl rfl (by
        simp only [List.length_append, Decimal.zeros, List.length_replicate]
        omega)
      rw [value] at read
      convert read using 1
      have places : leading - digits.length + 1 =
          ((leading.toNat + 1 - digits.length + 1 : Nat) : Int) + (0 - 1) := by omega
      rw [layoutValue, places, zpow_add₀ (by norm_num), zpow_natCast]
      push_cast
      rw [List.length_singleton]
      ring
    · have read := isRead_of_point wellFormed rfl rfl (by
        simp only [List.length_take]
        omega)
      rw [List.take_append_drop] at read
      convert read using 1
      rw [layoutValue]
      congr 2
      simp only [List.length_drop]
      omega

/-- A numeral with an exponent is a double whether or not it has a point. -/
theorem value_of_exponent {n : Numeral} {below : Bool} {digits : List Char}
    (h : n.exponent = some (below, digits)) :
    n.value = (signedPower (fractionPart (wholePart ⟨0, 0⟩ n.whole) (n.fraction.getD [])) below
      digits).map fun x => .float (if n.negative then x.negate else x) := by
  obtain ⟨negative, whole, fraction, exponent⟩ := n
  obtain rfl : exponent = some (below, digits) := h
  cases fraction <;> rfl

theorem getD_fraction_scientificNumeral (negative : Bool) (d : Char) (more : List Char)
    (leading : Int) :
    (scientificNumeral negative (d :: more) leading).fraction.getD [] = more := by
  cases more <;> rfl

theorem digitValue_pos {d : Char} (digit : Text.isAsciiDigit d = true) (notZero : d ≠ '0') :
    0 < digitValue d := by
  simp only [Text.isAsciiDigit, Bool.and_eq_true, decide_eq_true_eq, Char.le_def,
    UInt32.le_iff_toNat_le] at digit
  have low : 48 ≤ d.toNat := digit.1
  have different : d.toNat ≠ 48 := fun same => notZero (Char.toNat_inj.mp same)
  rw [digitValue]
  omega

theorem isRead_scientificNumeral (negative : Bool) {digits : List Char} (count : IsCount digits)
    (notZero : digits ≠ ['0']) {leading : Int} (small : leading.natAbs ≤ exponentLimit)
    (bound : layoutValue digits leading ≤ roundingBound) :
    (scientificNumeral negative digits leading).IsRead (layoutValue digits leading) := by
  obtain ⟨d, more, rfl⟩ := List.exists_cons_of_ne_nil count.ne_nil
  have digit : Text.isAsciiDigit d = true := count.isDigits d (by simp)
  have first : d ≠ '0' := fun zero => notZero (count.leading_zero (by simp [zero]))
  have alone : IsDigits [d] := fun c member => by rwa [List.mem_singleton.mp member]
  obtain ⟨read, less⟩ := wholePart_of_length_le alone (by simp)
  have limit : significandLimit = 18446744073709551615 := by decide
  obtain ⟨k, taken, exponent, grows, fits, value⟩ :=
    fractionPart_spec more (show Nat.ofDigitChars 10 [d] 0 ≤ significandLimit by omega) 0
  have single : Nat.ofDigitChars 10 [d] 0 = digitValue d := by
    simp [Nat.ofDigitChars, digitValue]
  have positive := digitValue_pos digit first
  rw [← single] at positive
  set m := fractionPart ⟨Nat.ofDigitChars 10 [d] 0, 0⟩ more
  have below : (m.significand : ℚ) * 10 ^ (m.exponent + leading) ≤ layoutValue (d :: more) leading := by
    have shape : m.exponent + leading = leading - k := by omega
    rw [shape]
    refine (truncated_le taken value leading).trans_eq ?_
    rw [layoutValue, List.length_cons]
    congr 2
    push_cast
    ring
  have power : (applyPower (.ofNat m.significand) (m.exponent + leading)).isSome = true := by
    rcases lt_or_ge (m.exponent + leading) 0 with negative | sign
    · exact applyPower_of_neg _ negative
    · exact applyPower_of_le (lt_of_lt_of_le positive grows) sign (below.trans bound)
  obtain ⟨x, applied⟩ := Option.isSome_iff_exists.mp power
  refine ⟨m.significand, m.exponent + leading, x, fits, below, applied, ?_⟩
  have fraction : (scientificNumeral negative (d :: more) leading).fraction.getD [] = more :=
    getD_fraction_scientificNumeral negative d more leading
  have signed : (if decide (leading < 0) = true then m.exponent - (leading.natAbs : Int)
      else m.exponent + leading.natAbs) = m.exponent + leading := by
    simp only [decide_eq_true_eq]
    split_ifs <;> omega
  have whole : (scientificNumeral negative (d :: more) leading).whole = [d] := rfl
  rw [value_of_exponent (n := scientificNumeral negative (d :: more) leading) rfl, fraction, whole,
    read, signedPower_toDigits _ _ small, signed, applied]
  rfl

/-- Every double but the largest is read from the decimal that is written for it. -/
theorem isRead_doubleNumeral {s : Bool} {m : Nat} {e : Int} (range : InRange (.finite s m e))
    (lower : ¬(e = 971 ∧ twoTo 53 - 3 ≤ m)) :
    (doubleNumeral (.finite s m e)).IsRead (Decimal.shortest .toEven (.finite s m e)).value := by
  set d := Decimal.shortest .toEven (.finite s m e) with shape
  have unit : Nat.toDigits 10 d.digits = ['0'] →
      d.exponent + ((Nat.toDigits 10 d.digits).length : Int) - 1 = 0 :=
    exponent_of_zero range
  have written : layoutValue (Nat.toDigits 10 d.digits)
      (d.exponent + ((Nat.toDigits 10 d.digits).length : Int) - 1) = d.value := by
    rw [layoutValue, Decimal.value, Nat.ofDigitChars_ten_toDigits]
    congr 2
    ring
  rw [← written]
  by_cases usual : (-5 ≤ d.exponent + ((Nat.toDigits 10 d.digits).length : Int) - 1 &&
      d.exponent + ((Nat.toDigits 10 d.digits).length : Int) - 1 ≤ 15) = true
  · have shown : doubleNumeral (.finite s m e) = positionalNumeral s (Nat.toDigits 10 d.digits)
        (d.exponent + ((Nat.toDigits 10 d.digits).length : Int) - 1) := if_pos usual
    rw [shown]
    simp only [Bool.and_eq_true, decide_eq_true_eq] at usual
    exact isRead_positionalNumeral s (isCount_toDigits _) unit usual.2
  · have shown : doubleNumeral (.finite s m e) = scientificNumeral s (Nat.toDigits 10 d.digits)
        (d.exponent + ((Nat.toDigits 10 d.digits).length : Int) - 1) := if_neg usual
    have notZero : Nat.toDigits 10 d.digits ≠ ['0'] := by
      intro zero
      rw [unit zero] at usual
      exact usual (by decide)
    have positive : m ≠ 0 := by
      intro zero
      refine notZero ?_
      rw [shape, zero, shortest_zero]
      rfl
    have safe := Decimal.isSafe_shortest .toEven positive range
    rw [← shape] at safe
    rw [shown]
    refine isRead_scientificNumeral s (isCount_toDigits _) notZero ?_ ?_
    · have low := safe.extent_low
      have high := safe.extent_high
      have limit : exponentLimit = 2147483647 := by decide
      simp only [Decimal.extent, Decimal.digitCount] at low high
      omega
    · rw [written]
      exact safe.value_le lower

def isFloat : Json → Bool
  | .float _ => true
  | _ => false

/-- The largest doubles, where the bound leaves no room. -/
theorem value_largest (s : Bool) : ∀ m ∈ [twoTo 53 - 3, twoTo 53 - 2, twoTo 53 - 1],
    (doubleNumeral (.finite s m 971)).value.any isFloat = true := by
  cases s <;> decide +kernel

theorem value_doubleNumeral {x : Binary64} (range : InRange x) :
    ∃ y, (doubleNumeral x).value = some (.float y) := by
  cases x with
  | infinite => exact range.elim
  | finite s m e =>
    by_cases top : e = 971 ∧ twoTo 53 - 3 ≤ m
    · obtain ⟨rfl, largest⟩ := top
      have below : m < twoTo 53 := range.1
      have member : m ∈ [twoTo 53 - 3, twoTo 53 - 2, twoTo 53 - 1] := by
        simp only [List.mem_cons, List.not_mem_nil, or_false]
        omega
      obtain ⟨v, read, float⟩ := (Option.any_eq_true _ _).mp (value_largest s m member)
      cases v with
      | float y => exact ⟨y, read⟩
      | _ => cases float
    · obtain ⟨-, -, _, -, -, -, read⟩ := isRead_doubleNumeral range top
      exact ⟨_, read⟩

end Dashboard.Json
