import Dashboard.Decimal.Shortest
import Dashboard.Proofs.Decimal.Rounding

/-!
The shortest decimals of doubles. Whether the search succeeds or the exact value stands in, the
decimal of a double other than zero is not zero, its first digit stands at a power of ten within
fixed bounds, and it lies well below overflow unless the double is one of the very largest.
-/
namespace Dashboard.Decimal

open Binary64 (twoTo_pos tenTo_pos InRange)

def value (d : Decimal) : ℚ := d.digits * 10 ^ d.exponent

/-- The power of ten of the place in front of the first digit. -/
def extent (d : Decimal) : Int := d.exponent + digitCount d.digits

theorem cast_tenTo (n : Nat) : (tenTo n : ℚ) = 10 ^ n := by
  rw [tenTo]
  exact_mod_cast rfl

theorem cast_tenTo_toNat {e : Int} (h : 0 ≤ e) : (tenTo e.toNat : ℚ) = 10 ^ e := by
  rw [cast_tenTo, ← zpow_natCast, Int.toNat_of_nonneg h]

theorem digitCount_le_iff {n k : Nat} (h : 0 < k) : digitCount n ≤ k ↔ n < 10 ^ k :=
  Nat.length_toDigits_le_iff (by decide) h

theorem digitCount_ten_mul {n : Nat} (positive : 0 < n) :
    digitCount (10 * n) = digitCount n + 1 := by
  have split := Nat.toDigits_append_toDigits (b := 10) (n := n) (d := 0) (by decide) positive
    (by decide)
  rw [digitCount, digitCount, ← Nat.add_zero (10 * n), ← split, List.length_append]
  rfl

theorem stripped_spec {d : Decimal} (h : d.digits ≠ 0) :
    d.stripped.digits ≠ 0 ∧ d.stripped.value = d.value ∧ d.stripped.extent = d.extent := by
  induction d using stripped.induct with
  | case1 d more ih =>
    obtain ⟨notZero, ends⟩ := more
    have whole : d.digits = 10 * (d.digits / 10) := by omega
    obtain ⟨digits, value, extent⟩ := ih (by simp only []; omega)
    rw [stripped, dif_pos ⟨notZero, ends⟩]
    refine ⟨digits, value.trans ?_, extent.trans ?_⟩
    · have cast : (d.digits : ℚ) = 10 * (d.digits / 10 : Nat) := by exact_mod_cast whole
      simp only [Decimal.value]
      rw [cast, zpow_add_one₀ (by norm_num)]
      ring
    · have count := digitCount_ten_mul (n := d.digits / 10) (by omega)
      rw [← whole] at count
      simp only [Decimal.extent, count]
      push_cast
      ring
  | case2 d done =>
    rw [stripped, dif_neg done]
    exact ⟨h, rfl, rfl⟩

/-- What printing needs to know of the decimal of a double. -/
structure IsSafe (m : Nat) (e : Int) (d : Decimal) : Prop where
  digits_ne_zero : d.digits ≠ 0
  extent_low : -2000 ≤ d.extent
  extent_high : d.extent ≤ 2000
  value_le : ¬(e = 971 ∧ twoTo 53 - 3 ≤ m) → d.value ≤ 2 ^ (971 : Int) * (2 ^ 53 - 7 / 2)

theorem IsSafe.stripped {m : Nat} {e : Int} {d : Decimal} (safe : IsSafe m e d) :
    IsSafe m e d.stripped := by
  obtain ⟨digits, value, extent⟩ := stripped_spec safe.digits_ne_zero
  exact ⟨digits, extent ▸ safe.extent_low, extent ▸ safe.extent_high,
    fun lower => value ▸ safe.value_le lower⟩

/-- A decimal that reads back as the double. -/
theorem isSafe_of_readsBack {s : Bool} {m : Nat} {e : Int} {d : Decimal} (notZero : m ≠ 0)
    (h : readsBack (.finite s m e) d = true) : IsSafe m e d := by
  have read : Binary64.ofDecimal s d.digits d.exponent = .finite s m e := of_decide_eq_true h
  simp only [Binary64.ofDecimal] at read
  split_ifs at read with none high low whole
  · obtain ⟨-, rfl, -⟩ := Binary64.finite.inj read
    exact absurd rfl notZero
  · obtain ⟨-, rfl, -⟩ := Binary64.finite.inj read
    exact absurd rfl notZero
  · refine ⟨none, ?_, ?_, fun lower => ?_⟩
    · simp only [Decimal.extent, digitCount]; omega
    · simp only [Decimal.extent, digitCount]; omega
    · by_contra above
      refine lower (Binary64.ofRatio_of_near_overflow s Nat.one_pos ?_ read)
      rw [Nat.cast_mul, cast_tenTo_toNat whole, Nat.cast_one, div_one]
      exact not_le.mp above
  · refine ⟨none, ?_, ?_, fun lower => ?_⟩
    · simp only [Decimal.extent, digitCount]; omega
    · simp only [Decimal.extent, digitCount]; omega
    · by_contra above
      refine lower (Binary64.ofRatio_of_near_overflow s (tenTo_pos _) ?_ read)
      rw [cast_tenTo_toNat (by omega), zpow_neg, div_inv_eq_mul]
      exact not_le.mp above

/-- The decimal that writes the double out in full. -/
def exactValue (m : Nat) (e : Int) : Decimal :=
  if 0 ≤ e then ⟨(Binary64.ratio m e).1, 0⟩ else ⟨m * Nat.pow 5 (-e).toNat, e⟩

theorem value_exactValue (m : Nat) (e : Int) : (exactValue m e).value = m * 2 ^ e := by
  rw [exactValue]
  split_ifs with sign
  · simp only [Decimal.value, Binary64.ratio, if_pos sign]
    rw [Nat.cast_mul, Binary64.cast_twoTo_toNat sign, zpow_zero, mul_one]
  · simp only [Decimal.value]
    have five : ((Nat.pow 5 (-e).toNat : Nat) : ℚ) = 5 ^ (-e) := by
      rw [← Int.toNat_of_nonneg (show 0 ≤ -e by omega), zpow_natCast]
      exact_mod_cast rfl
    have ten : (10 : ℚ) ^ e = 5 ^ e * 2 ^ e := by
      rw [← mul_zpow]
      norm_num
    rw [Nat.cast_mul, five, ten, zpow_neg]
    field_simp

theorem value_exactValue_le {m : Nat} {e : Int} (bound : m < twoTo 53) (high : e ≤ 971)
    (lower : ¬(e = 971 ∧ twoTo 53 - 3 ≤ m)) :
    (exactValue m e).value ≤ 2 ^ (971 : Int) * (2 ^ 53 - 7 / 2) := by
  rw [value_exactValue]
  rcases eq_or_lt_of_le high with rfl | below
  · have least : m ≤ twoTo 53 - 4 := by omega
    have cast : (m : ℚ) ≤ 2 ^ 53 - 4 := by
      have exact_value : ((twoTo 53 - 4 : Nat) : ℚ) = 2 ^ 53 - 4 := by
        rw [show twoTo 53 - 4 = 9007199254740988 by decide]
        norm_num
      rw [← exact_value]
      exact_mod_cast least
    rw [mul_comm]
    exact mul_le_mul_of_nonneg_left (by linarith) (by positivity)
  · have cast : (m : ℚ) ≤ 2 ^ 53 := by
      rw [← Binary64.cast_twoTo]
      exact_mod_cast bound.le
    calc (m : ℚ) * 2 ^ e ≤ 2 ^ 53 * 2 ^ (970 : Int) := by
          have order : (2 : ℚ) ^ e ≤ 2 ^ (970 : Int) :=
            zpow_le_zpow_right₀ (by norm_num) (by omega)
          gcongr
      _ = 2 ^ (971 : Int) * 2 ^ 52 := by
          rw [show (971 : Int) = 970 + 1 by rfl, zpow_add_one₀ two_ne_zero]
          ring
      _ ≤ 2 ^ (971 : Int) * (2 ^ 53 - 7 / 2) :=
          mul_le_mul_of_nonneg_left (by norm_num) (by positivity)

theorem pow_five_le_twoTo (n : Nat) : Nat.pow 5 n ≤ twoTo (3 * n) := by
  have eight : twoTo (3 * n) = Nat.pow 8 n := Nat.pow_mul 2 3 n
  rw [eight]
  exact Nat.pow_le_pow_left (by decide) n

/-- Written out in full, a double has few digits, and its exponent is near. -/
theorem extent_exactValue {m : Nat} {e : Int} (bound : m < twoTo 53) (low : -1074 ≤ e)
    (high : e ≤ 971) : -2000 ≤ (exactValue m e).extent ∧ (exactValue m e).extent ≤ 2000 := by
  rw [exactValue]
  split_ifs with sign
  · have most : digitCount (Binary64.ratio m e).1 ≤ 2000 := by
      rw [digitCount_le_iff (by decide), Binary64.ratio, if_pos sign]
      calc m * twoTo e.toNat < twoTo 53 * twoTo 971 :=
            Nat.mul_lt_mul_of_lt_of_le bound (Binary64.twoTo_le_twoTo (by omega)) (twoTo_pos _)
        _ ≤ 10 ^ 2000 := by decide +kernel
    simp only [Decimal.extent]
    omega
  · have most : digitCount (m * Nat.pow 5 (-e).toNat) ≤ 2000 := by
      rw [digitCount_le_iff (by decide)]
      have power : Nat.pow 5 (-e).toNat ≤ twoTo (3 * 1074) :=
        (pow_five_le_twoTo _).trans (Binary64.twoTo_le_twoTo (by omega))
      calc m * Nat.pow 5 (-e).toNat < twoTo 53 * twoTo (3 * 1074) :=
            Nat.mul_lt_mul_of_lt_of_le bound power (twoTo_pos _)
        _ ≤ 10 ^ 2000 := by decide +kernel
    simp only [Decimal.extent]
    omega

theorem isSafe_exactValue {s : Bool} {m : Nat} {e : Int} (notZero : m ≠ 0)
    (range : InRange (.finite s m e)) : IsSafe m e (exactValue m e) := by
  obtain ⟨bound, low, high⟩ := range
  obtain ⟨extentLow, extentHigh⟩ := extent_exactValue bound low high
  refine ⟨?_, extentLow, extentHigh, value_exactValue_le bound high⟩
  rw [exactValue]
  split_ifs with sign
  · simp only [Binary64.ratio, if_pos sign]
    exact Nat.mul_ne_zero notZero (twoTo_pos _).ne'
  · exact Nat.mul_ne_zero notZero (Nat.pow_pos (by decide)).ne'

/-- The decimal of a double other than zero reads back, or it is the exact value. -/
theorem shortest_cases (tie : Tie) {s : Bool} {m : Nat} {e : Int} (notZero : m ≠ 0) :
    (∃ d, readsBack (.finite s m e) d = true ∧ shortest tie (.finite s m e) = d.stripped) ∨
      shortest tie (.finite s m e) = exactValue m e := by
  rw [shortest, if_neg notZero]
  simp only []
  split
  · next d found =>
    obtain ⟨i, -, candidate⟩ := List.exists_of_findSome?_eq_some found
    refine Or.inl ⟨d, ?_, rfl⟩
    simp only [candidate?] at candidate
    split_ifs at candidate with first second up
    all_goals obtain rfl := Option.some.inj candidate; assumption
  · exact Or.inr rfl

theorem isSafe_shortest (tie : Tie) {s : Bool} {m : Nat} {e : Int} (notZero : m ≠ 0)
    (range : InRange (.finite s m e)) : IsSafe m e (shortest tie (.finite s m e)) := by
  rcases shortest_cases tie notZero with ⟨d, reads, shape⟩ | shape
  · rw [shape]
    exact (isSafe_of_readsBack notZero reads).stripped
  · rw [shape]
    exact isSafe_exactValue notZero range

end Dashboard.Decimal
