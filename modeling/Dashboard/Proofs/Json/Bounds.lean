import Dashboard.Proofs.Decimal.Monotone
import Dashboard.Proofs.Json.ReadBack

/-!
Bounded values. A number of a program up to a million is written as an integer or as a double below a
million. The latter is not always read back as itself, but never as one above a million: its decimal does
not exceed a million, and neither rounding of a significand and its power of ten crosses that bound.
-/
namespace Dashboard.Json

open Binary64 (InRange IsRepresentable IsWithin isRepresentable_tenTo magnitude magnitude_nonneg)

/-! Powers of ten. -/

theorem tenTo_le_tenTo {m n : Nat} (h : m ≤ n) : tenTo m ≤ tenTo n :=
  Nat.pow_le_pow_right (by decide) h

theorem tenTo_lt_overflow : (tenTo 308 : ℚ) < Binary64.overflow := by
  have order : tenTo 308 < twoTo 971 * 9007199254740991 := by decide +kernel
  calc (tenTo 308 : ℚ) < (twoTo 971 * 9007199254740991 : Nat) := by exact_mod_cast order
    _ = 2 ^ (971 : Int) * (2 ^ 53 - 1) := by
        rw [Nat.cast_mul, Binary64.cast_twoTo, zpow_ofNat]
        norm_num
    _ < Binary64.overflow := mul_lt_mul_of_pos_left (by norm_num) (by positivity)

theorem isFinite_powerOfTen {n : Nat} (h : n ≤ 308) : (powerOfTen n).isFinite = true := by
  have small : ((tenTo n : Nat) : ℚ) / (1 : Nat) < Binary64.overflow := by
    rw [Nat.cast_one, div_one]
    exact lt_of_le_of_lt (by exact_mod_cast tenTo_le_tenTo h) tenTo_lt_overflow
  obtain ⟨m, e, shape, -⟩ := Binary64.ofRatio_of_lt_overflow false Nat.one_pos small
  rw [powerOfTen_eq h, shape]
  rfl

/-- A power of ten is at least every smaller one that is a double. -/
theorem le_magnitude_powerOfTen {k n : Nat} (few : k ≤ 22) (order : k ≤ n) (h : n ≤ 308) :
    (10 : ℚ) ^ k ≤ (powerOfTen n).magnitude := by
  have finite := isFinite_powerOfTen h
  rw [powerOfTen_eq h] at finite ⊢
  refine Binary64.le_magnitude_ofRatio false Nat.one_pos (isRepresentable_tenTo few) ?_ finite
  rw [Nat.cast_one, div_one, Decimal.cast_tenTo]
  exact pow_le_pow_right₀ (by norm_num) order

theorem magnitude_powerOfTen_le {n : Nat} (few : n ≤ 22) : (powerOfTen n).magnitude ≤ 10 ^ n := by
  rw [powerOfTen_eq (by omega)]
  refine (Binary64.isWithin_ofRatio false Nat.one_pos (isRepresentable_tenTo few) ?_).magnitude_le
  rw [Nat.cast_one, div_one, Decimal.cast_tenTo]

theorem isWithin_ofNat {n : Nat} {v : ℚ} (representable : IsRepresentable v) (h : n ≤ v) :
    IsWithin v (.ofNat n) := by
  refine Binary64.isWithin_ofRatio false Nat.one_pos representable ?_
  rwa [Nat.cast_one, div_one]

/-! Applying a power of ten. -/

variable {x y : Binary64} {exponent : Int} {v : ℚ}

/-- A negative power makes no number larger. -/
theorem isWithin_applyPower (negative : exponent < 0) (representable : IsRepresentable v)
    (within : IsWithin v x) (applied : applyPower x exponent = some y) : IsWithin v y := by
  have divided {z : Binary64} {n : Nat} (bound : IsWithin v z) (h : n ≤ 308) :
      IsWithin v (z.div (powerOfTen n)) := by
    have one : (1 : ℚ) ≤ (powerOfTen n).magnitude := by
      simpa using le_magnitude_powerOfTen (Nat.zero_le 22) (Nat.zero_le n) h
    exact Binary64.isWithin_div representable bound.finite (by linarith)
      ((div_le_self (magnitude_nonneg z) one).trans bound.magnitude_le)
  induction x, exponent using applyPower.induct with
  | case1 => omega
  | case2 => omega
  | case3 => omega
  | case4 => omega
  | case5 x exponent above sign near =>
    rw [applyPower, if_neg above, if_neg sign, if_pos near] at applied
    cases applied
    exact divided within (by omega)
  | case6 x exponent above sign near zero =>
    rw [applyPower, if_neg above, if_neg sign, if_neg near, if_pos zero] at applied
    cases applied
    exact within
  | case7 x exponent above sign near zero ih =>
    rw [applyPower, if_neg above, if_neg sign, if_neg near, if_neg zero] at applied
    exact ih (by omega) (divided within (le_refl _)) applied

theorem isRepresentable_million : IsRepresentable 1000000 := by
  have power := isRepresentable_tenTo (n := 6) (by decide)
  norm_num at power
  exact power

theorem isWithin_of_isZero (zero : x.isZero = true) (bound : 0 ≤ v) : IsWithin v x := by
  cases x with
  | finite s m e =>
    have none : m = 0 := by simpa [Binary64.isZero] using zero
    exact ⟨rfl, by simpa [magnitude, none] using bound⟩
  | infinite => cases zero

/-- A significand and a power of ten that is not negative. -/
theorem isWithin_applyPower_of_nonneg {m : Nat} (sign : 0 ≤ exponent)
    (h : (m : ℚ) * 10 ^ exponent ≤ 1000000) (applied : applyPower (.ofNat m) exponent = some y) :
    IsWithin 1000000 y := by
  rw [applyPower] at applied
  rcases Nat.eq_zero_or_pos m with rfl | positive
  · have none : (Binary64.ofNat 0).isZero = true := rfl
    simp only [] at applied
    split_ifs at applied with beyond
    · cases applied
      exact isWithin_of_isZero none (by norm_num)
    · cases applied
      have power := isFinite_powerOfTen (n := exponent.toNat) (by omega)
      have zero : (Binary64.ofNat 0).magnitude ≤ 0 := (isWithin_of_isZero none le_rfl).magnitude_le
      refine Binary64.isWithin_mul isRepresentable_million rfl power ?_
      exact (mul_nonpos_of_nonpos_of_nonneg zero (magnitude_nonneg _)).trans (by norm_num)
  · have one : (1 : ℚ) ≤ m := by exact_mod_cast positive
    have power : (10 : ℚ) ^ exponent ≤ 10 ^ (6 : Int) :=
      (le_mul_of_one_le_left (zpow_nonneg (by norm_num) _) one).trans (h.trans_eq (by norm_num))
    have few : exponent ≤ 6 := (zpow_le_zpow_iff_right₀ (by norm_num)).mp power
    rw [if_neg (by omega), if_pos sign] at applied
    simp only [] at applied
    split_ifs at applied
    cases applied
    obtain ⟨n, rfl⟩ := Int.eq_ofNat_of_zero_le sign
    have split : (10 : ℚ) ^ 6 = 10 ^ (6 - n) * 10 ^ n := by
      rw [← pow_add]
      congr 1
      omega
    have value : (m : ℚ) ≤ 10 ^ (6 - n) := by
      have scaled : (m : ℚ) * 10 ^ n ≤ 10 ^ (6 - n) * 10 ^ n := by
        rw [← split]
        rw [zpow_natCast] at h
        linarith
      exact le_of_mul_le_mul_right scaled (by positivity)
    have left := isWithin_ofNat (isRepresentable_tenTo (by omega)) value
    have right := magnitude_powerOfTen_le (n := n) (by omega)
    refine Binary64.isWithin_mul isRepresentable_million left.finite
      (isFinite_powerOfTen (by omega)) ?_
    calc (Binary64.ofNat m).magnitude * (powerOfTen n).magnitude ≤ 10 ^ (6 - n) * 10 ^ n :=
          mul_le_mul left.magnitude_le right (magnitude_nonneg _) (by positivity)
      _ = 10 ^ 6 := split.symm
      _ = 1000000 := by norm_num

/-- A significand of 64 bits and a power of ten that together stay within a million do so when they are
rounded, too. -/
theorem isWithin_applyPower_ofNat {m : Nat} (fits : m ≤ significandLimit)
    (h : (m : ℚ) * 10 ^ exponent ≤ 1000000) (applied : applyPower (.ofNat m) exponent = some y) :
    IsWithin 1000000 y := by
  rcases le_or_gt 0 exponent with sign | negative
  · exact isWithin_applyPower_of_nonneg sign h applied
  have significand : IsWithin (10 ^ 20) (.ofNat m) := by
    refine isWithin_ofNat (isRepresentable_tenTo (by decide)) ?_
    have limit : significandLimit ≤ 10 ^ 20 := by decide
    exact_mod_cast fits.trans limit
  -- From the seventeenth power on, the size of the significand does not matter.
  have far {n : Nat} (large : 17 ≤ n) (h : n ≤ 308) :
      IsWithin 1000000 ((Binary64.ofNat m).div (powerOfTen n)) := by
    have power := le_magnitude_powerOfTen (k := 17) (by decide) large h
    have positive : (0 : ℚ) < (powerOfTen n).magnitude := lt_of_lt_of_le (by norm_num) power
    refine Binary64.isWithin_div isRepresentable_million significand.finite positive ?_
    have bound := significand.magnitude_le
    rw [div_le_iff₀ positive]
    linarith
  rcases lt_or_ge exponent (-308) with beyond | within
  · rw [applyPower, if_neg (by omega), if_neg (by omega), if_neg (by omega)] at applied
    split_ifs at applied with zero
    · cases applied
      exact isWithin_of_isZero zero (by norm_num)
    · exact isWithin_applyPower (by omega) isRepresentable_million (far (by decide) (le_refl _)) applied
  · rw [applyPower, if_neg (by omega), if_neg (by omega), if_pos within] at applied
    cases applied
    rcases le_or_gt 17 exponent.natAbs with large | near
    · exact far large (by omega)
    · have value : (m : ℚ) ≤ 10 ^ (6 + exponent.natAbs) := by
        have shape : exponent = -(exponent.natAbs : Int) := by omega
        rw [shape, zpow_neg, zpow_natCast, ← div_eq_mul_inv, div_le_iff₀ (by positivity)] at h
        rw [pow_add]
        linarith
      have scaled := isWithin_ofNat (isRepresentable_tenTo (by omega)) value
      have power := le_magnitude_powerOfTen (k := exponent.natAbs) (by omega) (le_refl _) (by omega)
      have positive : (0 : ℚ) < (powerOfTen exponent.natAbs).magnitude :=
        lt_of_lt_of_le (by positivity) power
      refine Binary64.isWithin_div isRepresentable_million scaled.finite positive ?_
      have bound := scaled.magnitude_le
      rw [div_le_iff₀ positive]
      rw [pow_add] at bound
      linarith

/-- A double below a million is read back as one up to a million. -/
theorem isWithin_reread (range : InRange x) (below : x.magnitude < 1000000) :
    IsWithin 1000000 (reread x) := by
  cases x with
  | infinite => exact range.elim
  | finite s m e =>
    have lower : ¬(e = 971 ∧ twoTo 53 - 3 ≤ m) := by
      rintro ⟨rfl, large⟩
      have one : (1 : ℚ) ≤ m := by
        have least : 1 ≤ m := le_trans (by decide) large
        exact_mod_cast least
      have power : (1000000 : ℚ) ≤ 2 ^ (971 : Int) :=
        calc (1000000 : ℚ) ≤ 2 ^ (20 : Int) := by norm_num
          _ ≤ 2 ^ (971 : Int) := zpow_le_zpow_right₀ (by norm_num) (by decide)
      have product : (2 : ℚ) ^ (971 : Int) ≤ m * 2 ^ (971 : Int) :=
        le_mul_of_one_le_left (by positivity) one
      exact absurd below (not_lt.mpr (power.trans product))
    obtain ⟨k, f, y, fits, written, applied, read⟩ := isRead_doubleNumeral range lower
    have bound := isWithin_applyPower_ofNat fits
      (written.trans (Decimal.value_shortest_le .toEven isRepresentable_million below)) applied
    rw [value?_doubleNumeral range] at read
    rw [Json.float.inj (Option.some.inj read)]
    split_ifs
    · exact bound.negate
    · exact bound

/-! Numbers of a program. -/

theorem natAbs_of_toInt? {n : Int} (h : x.toInt? = some n) : (n.natAbs : ℚ) = x.magnitude := by
  cases x with
  | infinite => cases h
  | finite s m e =>
    have positive : ((Binary64.ratio m e).2 : ℚ) ≠ 0 := by
      exact_mod_cast (Binary64.ratio_pos m e).ne'
    simp only [Binary64.toInt?] at h
    split_ifs at h with whole
    all_goals
      cases h
      have size : (((Binary64.ratio m e).1 : Int) / (Binary64.ratio m e).2).natAbs =
          (Binary64.ratio m e).1 / (Binary64.ratio m e).2 := rfl
      have product := Nat.div_mul_cancel (Nat.dvd_of_mod_eq_zero whole)
      rw [magnitude, ← Binary64.ratio_eq, eq_div_iff positive]
      simp only [Int.natAbs_neg, size]
      exact_mod_cast product

theorem toInt?_ne_none (finite : x.isFinite = true) {n : Nat} (h : x.magnitude = n) :
    x.toInt? ≠ none := by
  cases x with
  | infinite => cases finite
  | finite s m e =>
    have positive : ((Binary64.ratio m e).2 : ℚ) ≠ 0 := by
      exact_mod_cast (Binary64.ratio_pos m e).ne'
    rw [magnitude, ← Binary64.ratio_eq, div_eq_iff positive] at h
    have product : (Binary64.ratio m e).1 = n * (Binary64.ratio m e).2 := by exact_mod_cast h
    have whole : (Binary64.ratio m e).1 % (Binary64.ratio m e).2 = 0 := by
      rw [product, Nat.mul_mod_left]
    simp [Binary64.toInt?, whole]

/-- Null or a literal within bounds: texts and lists of at most a hundred, records of at most twenty, and
numbers up to a million. -/
inductive IsBounded : Json → Prop
  | null : IsBounded .null
  | bool (value : Bool) : IsBounded (.bool value)
  | int {n : Int} (small : n.natAbs ≤ 1000000) : IsBounded (.int n)
  | float {x : Binary64} (small : IsWithin 1000000 x) : IsBounded (.float x)
  | str {text : String} (short : text.length ≤ 100) : IsBounded (.str text)
  | arr {items : List Json} (short : items.length ≤ 100) (each : ∀ v ∈ items, IsBounded v) :
    IsBounded (.arr items)
  | obj {entries : List (String × Json)} (small : entries.length ≤ 20)
    (each : ∀ entry ∈ entries, IsBounded entry.2) : IsBounded (.obj entries)

theorem isBounded_ofNumber (within : IsWithin 1000000 x) {levels : Nat}
    (standard : IsStandard levels (ofNumber x)) : (relayed (ofNumber x)).IsBounded := by
  rw [ofNumber] at standard ⊢
  cases whole : x.toInt? with
  | some n =>
    have bound : n.natAbs ≤ 1000000 := by
      have size := within.magnitude_le
      rw [← natAbs_of_toInt? whole] at size
      exact_mod_cast size
    have fits : n.natAbs < 9 * tenTo 15 := lt_of_le_of_lt bound (by decide)
    simp only [if_pos fits]
    exact .int bound
  | none =>
    simp only [whole, within.finite, if_true] at standard ⊢
    have range : InRange x := by simpa [IsStandard] using standard
    have below : x.magnitude < 1000000 := by
      refine lt_of_le_of_ne within.magnitude_le fun top => ?_
      exact toInt?_ne_none within.finite (n := 1000000) (by simpa using top) whole
    exact .float (isWithin_reread range below)

end Dashboard.Json
