import Dashboard.Decimal.Binary64
import Mathlib.Algebra.Order.Field.Power
import Mathlib.Data.Rat.Cast.Order
import Mathlib.Tactic.FieldSimp
import Mathlib.Tactic.GCongr
import Mathlib.Tactic.Linarith
import Mathlib.Tactic.NormNum
import Mathlib.Tactic.Positivity
import Mathlib.Tactic.Ring

/-!
Rounding of fractions to doubles, with magnitudes as rational numbers. The significand of a result
is the scaled fraction within one half, so a result overflows only at the top of the range, and is
larger than the fraction by at most one part in `2 ^ 53`.
-/
namespace Dashboard.Binary64

def magnitude : Binary64 → ℚ
  | finite _ m e => m * 2 ^ e
  | infinite _ => 0

theorem cast_twoTo (n : Nat) : (twoTo n : ℚ) = 2 ^ n := by
  rw [twoTo]
  exact_mod_cast rfl

theorem cast_twoTo_toNat {e : Int} (h : 0 ≤ e) : (twoTo e.toNat : ℚ) = 2 ^ e := by
  rw [cast_twoTo, ← zpow_natCast, Int.toNat_of_nonneg h]

theorem twoTo_pos (n : Nat) : 0 < twoTo n := Nat.pow_pos (by decide)

theorem twoTo_le_twoTo {m n : Nat} (h : m ≤ n) : twoTo m ≤ twoTo n :=
  Nat.pow_le_pow_right (by decide) h

theorem scaleDown_pos {den : Nat} (positive : 0 < den) (num : Nat) (e : Int) :
    0 < (scaleDown num den e).2 := by
  rw [scaleDown]
  split_ifs
  · exact Nat.mul_pos positive (twoTo_pos _)
  · exact positive

theorem scaleDown_ratio {den : Nat} (positive : 0 < den) (num : Nat) (e : Int) :
    ((scaleDown num den e).1 : ℚ) / (scaleDown num den e).2 = num / den * 2 ^ (-e) := by
  have denNe : (den : ℚ) ≠ 0 := by exact_mod_cast positive.ne'
  rw [scaleDown]
  split_ifs with sign
  · rw [Nat.cast_mul, cast_twoTo_toNat sign, zpow_neg]
    field_simp
  · rw [Nat.cast_mul, cast_twoTo_toNat (by omega)]
    field_simp

theorem ratio_pos (m : Nat) (e : Int) : 0 < (ratio m e).2 := by
  rw [ratio]
  split_ifs
  · exact Nat.one_pos
  · exact twoTo_pos _

theorem ratio_eq (m : Nat) (e : Int) : ((ratio m e).1 : ℚ) / (ratio m e).2 = m * 2 ^ e := by
  rw [ratio]
  split_ifs with sign
  · rw [Nat.cast_mul, cast_twoTo_toNat sign, Nat.cast_one, div_one]
  · rw [cast_twoTo_toNat (by omega), zpow_neg, div_inv_eq_mul]

theorem magnitudeAbove_eq_false {x : Binary64} {bound : Nat} :
    x.magnitudeAbove bound = false ↔ x.isFinite = true ∧ x.magnitude ≤ bound := by
  cases x with
  | infinite negative => simp [magnitudeAbove, isFinite]
  | finite negative m e =>
    have positive : (0 : ℚ) < (ratio m e).2 := by exact_mod_cast ratio_pos m e
    have scaled : magnitude (.finite negative m e) ≤ bound ↔
        (ratio m e).1 ≤ bound * (ratio m e).2 := by
      rw [magnitude, ← ratio_eq, div_le_iff₀ positive]
      norm_cast
    simp [scaled, magnitudeAbove, isFinite]

theorem lt_two_zpow_log2 {n : Nat} (positive : 0 < n) :
    (2 : ℚ) ^ (n.log2 : Int) ≤ n ∧ (n : ℚ) < 2 ^ ((n.log2 : Int) + 1) := by
  have low := Nat.log2_self_le positive.ne'
  have high := Nat.lt_log2_self (n := n)
  constructor
  · rw [zpow_natCast]
    exact_mod_cast low
  · have cast : (2 : ℚ) ^ ((n.log2 : Int) + 1) = 2 ^ (n.log2 + 1) := by
      rw [← zpow_natCast]
      rfl
    rw [cast]
    exact_mod_cast high

/-- The lengths of numerator and denominator tell the magnitude of a fraction. -/
theorem ratio_log2_bounds {num den : Nat} (hn : 0 < num) (hd : 0 < den) :
    (2 : ℚ) ^ ((num.log2 : Int) - den.log2 - 1) ≤ num / den ∧
      (num : ℚ) / den < 2 ^ ((num.log2 : Int) - den.log2 + 1) := by
  have denPos : (0 : ℚ) < den := by exact_mod_cast hd
  obtain ⟨numLow, numHigh⟩ := lt_two_zpow_log2 hn
  obtain ⟨denLow, denHigh⟩ := lt_two_zpow_log2 hd
  constructor
  · rw [le_div_iff₀ denPos]
    calc (2 : ℚ) ^ ((num.log2 : Int) - den.log2 - 1) * den
        ≤ 2 ^ ((num.log2 : Int) - den.log2 - 1) * 2 ^ ((den.log2 : Int) + 1) := by
          exact mul_le_mul_of_nonneg_left denHigh.le (by positivity)
      _ = 2 ^ (num.log2 : Int) := by
          rw [← zpow_add₀ two_ne_zero]
          congr 1
          omega
      _ ≤ num := numLow
  · rw [div_lt_iff₀ denPos]
    calc (num : ℚ) < 2 ^ ((num.log2 : Int) + 1) := numHigh
      _ = 2 ^ ((num.log2 : Int) - den.log2 + 1) * 2 ^ (den.log2 : Int) := by
          rw [← zpow_add₀ two_ne_zero]
          congr 1
          omega
      _ ≤ 2 ^ ((num.log2 : Int) - den.log2 + 1) * den :=
          mul_le_mul_of_nonneg_left denLow (by positivity)

theorem scaleDown_lt_iff {num den : Nat} (hd : 0 < den) (e : Int) :
    (scaleDown num den e).1 < twoTo 52 * (scaleDown num den e).2 ↔
      (num : ℚ) / den < 2 ^ (e + 52) := by
  have scaledPos : (0 : ℚ) < (scaleDown num den e).2 := by
    exact_mod_cast scaleDown_pos hd num e
  have split : (2 : ℚ) ^ (e + 52) = 2 ^ (52 : Nat) * 2 ^ e := by
    rw [← zpow_natCast, ← zpow_add₀ two_ne_zero]
    congr 1
    omega
  rw [← @Nat.cast_lt ℚ, Nat.cast_mul, cast_twoTo, ← div_lt_iff₀ scaledPos,
    scaleDown_ratio hd, zpow_neg, ← div_eq_mul_inv, div_lt_iff₀ (by positivity), split]

/-- A value below `2 ^ (e + 53)` and not below `2 ^ (e + 52)` keeps to these bounds with the
exponent that is used in place of `e`, unless that is the least one. -/
theorem bounds_max {v : ℚ} {e : Int} (low : (2 : ℚ) ^ (e + 52) ≤ v) (high : v < 2 ^ (e + 53)) :
    -1074 ≤ max e (-1074) ∧ v < 2 ^ (max e (-1074) + 53) ∧
      (max e (-1074) = -1074 ∨ (2 : ℚ) ^ (max e (-1074) + 52) ≤ v) := by
  refine ⟨le_max_right _ _, ?_, ?_⟩
  · refine lt_of_lt_of_le high (zpow_le_zpow_right₀ (by norm_num) ?_)
    have := le_max_left e (-1074)
    omega
  · rcases le_total e (-1074) with below | above
    · exact Or.inl (max_eq_right below)
    · exact Or.inr (by rwa [max_eq_left above])

/-- The fraction scaled by the exponent lies below `2 ^ 53`, and not below `2 ^ 52` unless the
exponent is the least one. -/
theorem exponentOf_spec {num den : Nat} (hn : 0 < num) (hd : 0 < den) :
    -1074 ≤ exponentOf num den ∧
      (num : ℚ) / den < 2 ^ (exponentOf num den + 53) ∧
      (exponentOf num den = -1074 ∨ (2 : ℚ) ^ (exponentOf num den + 52) ≤ num / den) := by
  obtain ⟨low, high⟩ := ratio_log2_bounds hn hd
  set guess : Int := (num.log2 : Int) - (den.log2 : Int) - 52 with guessShape
  have least : (num.log2 : Int) - den.log2 - 1 = guess - 1 + 52 := by omega
  have most : (num.log2 : Int) - den.log2 + 1 = guess + 53 := by omega
  rw [least] at low
  rw [most] at high
  rw [exponentOf]
  simp only [← guessShape, scaleDown_lt_iff hd]
  -- The guess is exact or one too high.
  split_ifs with small
  · have shifted : guess - 1 + 53 = guess + 52 := by omega
    exact bounds_max low (shifted ▸ small)
  · exact bounds_max (not_lt.mp small) high

theorem roundDiv_bounds {num den : Nat} (positive : 0 < den) :
    (num : ℚ) / den - 1 / 2 ≤ roundDiv num den ∧ (roundDiv num den : ℚ) ≤ num / den + 1 / 2 := by
  have denPos : (0 : ℚ) < den := by exact_mod_cast positive
  have whole : (num : ℚ) = den * (num / den : Nat) + (num % den : Nat) := by
    exact_mod_cast (Nat.div_add_mod num den).symm
  have value : (num : ℚ) / den = (num / den : Nat) + (num % den : Nat) / den :=
    calc (num : ℚ) / den = (den * (num / den : Nat) + (num % den : Nat)) / den :=
          congrArg (· / (den : ℚ)) whole
      _ = (num / den : Nat) + (num % den : Nat) / den := by
          rw [add_div, mul_div_cancel_left₀ _ denPos.ne']
  have low : (0 : ℚ) ≤ (num % den : Nat) / den := by positivity
  have high : ((num % den : Nat) : ℚ) / den < 1 := by
    rw [div_lt_one denPos]
    exact_mod_cast Nat.mod_lt num positive
  have half : ∀ {r : Nat}, (2 * r < den → (r : ℚ) / den < 1 / 2) ∧
      (den < 2 * r → 1 / 2 < (r : ℚ) / den) := by
    intro r
    constructor
    · intro h
      rw [div_lt_iff₀ denPos]
      have cast : (2 : ℚ) * r < den := by exact_mod_cast h
      linarith
    · intro h
      rw [lt_div_iff₀ denPos]
      have cast : (den : ℚ) < 2 * r := by exact_mod_cast h
      linarith
  have middle : ¬2 * (num % den) < den → ¬den < 2 * (num % den) →
      ((num % den : Nat) : ℚ) / den = 1 / 2 := by
    intro notBelow notAbove
    have tie : den = 2 * (num % den) := by omega
    have cast : (den : ℚ) = 2 * (num % den : Nat) := by exact_mod_cast tie
    rw [div_eq_div_iff denPos.ne' two_ne_zero]
    linarith
  simp only [roundDiv]
  split_ifs with below above even
  · have := half.1 below
    constructor <;> linarith
  · have := half.2 above
    push_cast
    constructor <;> linarith
  · have := middle below above
    constructor <;> linarith
  · have := middle below above
    push_cast
    constructor <;> linarith

theorem scaled_lt_iff {v bound : ℚ} (e : Int) : v * 2 ^ (-e) < bound ↔ v < 2 ^ e * bound := by
  rw [zpow_neg, ← div_eq_mul_inv, div_lt_iff₀ (by positivity), mul_comm]

theorem lt_scaled_iff {v bound : ℚ} (e : Int) : bound < v * 2 ^ (-e) ↔ 2 ^ e * bound < v := by
  rw [zpow_neg, ← div_eq_mul_inv, lt_div_iff₀ (by positivity), mul_comm]

/-- The result before the range is checked: a significand within one half of the scaled fraction. -/
theorem ofRatio_spec (negative : Bool) {num den : Nat} (hn : 0 < num) (hd : 0 < den) :
    ∃ (m : Nat) (e : Int), -1074 ≤ e ∧
      (num : ℚ) / den < 2 ^ (e + 53) ∧ (e = -1074 ∨ (2 : ℚ) ^ (e + 52) ≤ num / den) ∧
      (num : ℚ) / den * 2 ^ (-e) - 1 / 2 ≤ m ∧ (m : ℚ) ≤ num / den * 2 ^ (-e) + 1 / 2 ∧
      m ≤ twoTo 53 ∧
      ofRatio negative num den =
        (let rounded : Nat × Int := if m = twoTo 53 then (twoTo 52, e + 1) else (m, e)
        if 971 < rounded.2 then .infinite negative else .finite negative rounded.1 rounded.2) := by
  obtain ⟨least, below, above⟩ := exponentOf_spec hn hd
  set e := exponentOf num den with eShape
  have scaledPos := scaleDown_pos hd num e
  have bounds := @roundDiv_bounds (scaleDown num den e).1 _ scaledPos
  rw [scaleDown_ratio hd] at bounds
  obtain ⟨low, high⟩ := bounds
  refine ⟨roundDiv (scaleDown num den e).1 (scaleDown num den e).2, e, least, below, above,
    low, high, ?_, ?_⟩
  · have scaled : (num : ℚ) / den * 2 ^ (-e) < 2 ^ (53 : Nat) := by
      rw [scaled_lt_iff, ← zpow_natCast, ← zpow_add₀ two_ne_zero]
      exact below
    have cast : (roundDiv (scaleDown num den e).1 (scaleDown num den e).2 : ℚ) <
        (twoTo 53 + 1 : Nat) := by
      push_cast
      rw [cast_twoTo]
      linarith
    exact Nat.lt_succ_iff.mp (by exact_mod_cast cast)
  · rw [ofRatio, if_neg hn.ne']

/-- Fractions from here on are infinite. -/
def overflow : ℚ := 2 ^ (971 : Int) * (2 ^ 53 - 1 / 2)

theorem split_top : (2 : ℚ) ^ (1024 : Int) = 2 ^ (971 : Int) * 2 ^ 53 := by
  rw [← zpow_natCast (2 : ℚ) 53, ← zpow_add₀ two_ne_zero]
  rfl

/-- A fraction below the bound is a double, with its significand and exponent in range. -/
theorem ofRatio_of_lt_overflow (negative : Bool) {num den : Nat} (hd : 0 < den)
    (h : (num : ℚ) / den < overflow) :
    ∃ m e, ofRatio negative num den = .finite negative m e ∧ m < twoTo 53 ∧ e ≤ 971 := by
  rcases Nat.eq_zero_or_pos num with rfl | hn
  · exact ⟨0, -1074, rfl, twoTo_pos _, by decide⟩
  obtain ⟨m, e, least, below, above, low, high, most, shape⟩ := ofRatio_spec negative hn hd
  -- The exponent is at most 971, and there the significand is not rounded up to `2 ^ 53`.
  have bounded : e ≤ 971 := by
    rcases above with rfl | above
    · decide
    · have chain : (2 : ℚ) ^ (e + 52) < 2 ^ (1024 : Int) := by
        refine lt_of_le_of_lt above (lt_of_lt_of_le h ?_)
        rw [overflow, split_top]
        exact mul_le_mul_of_nonneg_left (by linarith) (by positivity)
      have := (zpow_lt_zpow_iff_right₀ (by norm_num : (1 : ℚ) < 2)).mp chain
      omega
  have notUp : e = 971 → m ≠ twoTo 53 := by
    rintro rfl rfl
    rw [cast_twoTo] at high
    have scaled : (num : ℚ) / den * 2 ^ (-971 : Int) < 2 ^ 53 - 1 / 2 := (scaled_lt_iff 971).mpr h
    linarith
  rw [shape]
  split_ifs with up
  · refine ⟨twoTo 52, e + 1, ?_, by decide, ?_⟩
    · have : ¬971 < e + 1 := by
        rcases eq_or_lt_of_le bounded with top | lower
        · exact absurd up (notUp top)
        · omega
      simp [this]
    · rcases eq_or_lt_of_le bounded with top | lower
      · exact absurd up (notUp top)
      · omega
  · exact ⟨m, e, by simp [bounded], lt_of_le_of_ne most up, bounded⟩

/-- Above the bound the result is infinite or one of the largest doubles. -/
theorem ofRatio_of_near_overflow (negative : Bool) {num den : Nat} (hd : 0 < den)
    (h : (2 : ℚ) ^ (971 : Int) * (2 ^ 53 - 7 / 2) < num / den) {m : Nat} {e : Int}
    (result : ofRatio negative num den = .finite negative m e) :
    e = 971 ∧ twoTo 53 - 3 ≤ m := by
  have hn : 0 < num := by
    rcases Nat.eq_zero_or_pos num with rfl | hn
    · rw [Nat.cast_zero, zero_div] at h
      exact absurd h (not_lt.mpr (by positivity))
    · exact hn
  obtain ⟨k, f, least, below, above, low, high, most, shape⟩ := ofRatio_spec negative hn hd
  have top : 971 ≤ f := by
    have chain : (2 : ℚ) ^ (1023 : Int) < 2 ^ (f + 53) := by
      refine lt_trans (lt_of_le_of_lt ?_ h) below
      rw [show (2 : ℚ) ^ (1023 : Int) = 2 ^ (971 : Int) * 2 ^ 52 by
        rw [← zpow_natCast (2 : ℚ) 52, ← zpow_add₀ two_ne_zero]; rfl]
      exact mul_le_mul_of_nonneg_left (by norm_num) (by positivity)
    have := (zpow_lt_zpow_iff_right₀ (by norm_num : (1 : ℚ) < 2)).mp chain
    omega
  rw [shape] at result
  split_ifs at result with up
  · rw [if_pos (show (971 : Int) < f + 1 by omega)] at result
    cases result
  · simp only [] at result
    split_ifs at result with above
    obtain ⟨rfl, rfl⟩ : k = m ∧ f = e := by simpa using result
    obtain rfl : f = 971 := le_antisymm (not_lt.mp above) top
    refine ⟨rfl, ?_⟩
    have scaled := (lt_scaled_iff 971).mpr h
    have cast : ((twoTo 53 - 4 : Nat) : ℚ) < k := by
      have exact_value : ((twoTo 53 - 4 : Nat) : ℚ) = 2 ^ 53 - 4 := by
        rw [show twoTo 53 - 4 = 9007199254740988 by decide]
        norm_num
      rw [exact_value]
      linarith
    have order : twoTo 53 - 4 < k := by exact_mod_cast cast
    omega

/-- A normal result is at most one part in `2 ^ 53` too large. -/
theorem magnitude_ofRatio_le (negative : Bool) {num den : Nat} (hd : 0 < den)
    (h : (2 : ℚ) ^ (-1022 : Int) ≤ num / den) :
    magnitude (ofRatio negative num den) ≤ num / den * (1 + 1 / 2 ^ 53) := by
  have hn : 0 < num := by
    rcases Nat.eq_zero_or_pos num with rfl | hn
    · rw [Nat.cast_zero, zero_div] at h
      exact absurd h (not_le.mpr (by positivity))
    · exact hn
  obtain ⟨m, e, least, below, above, low, high, most, shape⟩ := ofRatio_spec negative hn hd
  have normal : (2 : ℚ) ^ (e + 52) ≤ num / den := by
    rcases above with rfl | above
    · exact h
    · exact above
  have bound : (m : ℚ) * 2 ^ e ≤ num / den * (1 + 1 / 2 ^ 53) := by
    have half : (2 : ℚ) ^ e * (1 / 2) = 2 ^ (e + 52) * (1 / 2 ^ 53) := by
      rw [zpow_add₀ two_ne_zero]
      norm_num
      ring
    calc (m : ℚ) * 2 ^ e ≤ (num / den * 2 ^ (-e) + 1 / 2) * 2 ^ e :=
          mul_le_mul_of_nonneg_right high (by positivity)
      _ = num / den + 2 ^ e * (1 / 2) := by
          rw [add_mul, mul_assoc, ← zpow_add₀ two_ne_zero, neg_add_cancel, zpow_zero]
          ring
      _ ≤ num / den + num / den * (1 / 2 ^ 53) := by
          rw [half]
          gcongr
      _ = num / den * (1 + 1 / 2 ^ 53) := by ring
  have positive : (0 : ℚ) ≤ num / den * (1 + 1 / 2 ^ 53) := by positivity
  rw [shape]
  split_ifs with up
  · have same : ((twoTo 52 : Nat) : ℚ) * 2 ^ (e + 1) = m * 2 ^ e := by
      rw [up, cast_twoTo, cast_twoTo, zpow_add₀ two_ne_zero]
      ring
    simp only []
    split_ifs
    · exact positive
    · exact le_of_eq_of_le same bound
  · simp only []
    split_ifs
    · exact positive
    · exact bound

/-- The range of the finite doubles. -/
def InRange : Binary64 → Prop
  | finite _ m e => m < twoTo 53 ∧ -1074 ≤ e ∧ e ≤ 971
  | infinite _ => False

theorem inRange_zero (negative : Bool) : InRange (zero negative) :=
  ⟨twoTo_pos _, by decide, by decide⟩

theorem inRange_ofRatio {negative : Bool} {num den : Nat} (hd : 0 < den)
    (h : (ofRatio negative num den).isFinite = true) : InRange (ofRatio negative num den) := by
  rcases Nat.eq_zero_or_pos num with rfl | hn
  · exact inRange_zero negative
  obtain ⟨m, e, least, -, -, -, -, most, shape⟩ := ofRatio_spec negative hn hd
  rw [shape] at h ⊢
  split_ifs at h ⊢ with up
  · simp only [] at h ⊢
    split_ifs at h ⊢ with above
    · cases h
    · exact ⟨by decide, by omega, not_lt.mp above⟩
  · simp only [] at h ⊢
    split_ifs at h ⊢ with above
    · cases h
    · exact ⟨lt_of_le_of_ne most up, least, not_lt.mp above⟩

theorem tenTo_pos (n : Nat) : 0 < tenTo n := Nat.pow_pos (by decide)

theorem inRange_ofDecimal {negative : Bool} {digits : Nat} {exponent : Int}
    (h : (ofDecimal negative digits exponent).isFinite = true) :
    InRange (ofDecimal negative digits exponent) := by
  simp only [ofDecimal] at h ⊢
  split_ifs at h ⊢
  · exact inRange_zero negative
  · cases h
  · exact inRange_zero negative
  · exact inRange_ofRatio Nat.one_pos h
  · exact inRange_ofRatio (tenTo_pos _) h

theorem InRange.negate {x : Binary64} (h : InRange x) : InRange x.negate := by
  cases x with
  | finite => exact h
  | infinite => exact h

theorem InRange.isFinite {x : Binary64} (h : InRange x) : x.isFinite = true := by
  cases x with
  | finite => rfl
  | infinite => exact h.elim

end Dashboard.Binary64
