import Dashboard.Proofs.Decimal.Shortest

/-!
Rounding does not cross a representable number: a fraction on one side of it is rounded to that side or to
the number itself. Products, quotients and the decimals that are written keep such bounds.
-/
namespace Dashboard.Binary64

/-- The magnitudes of finite doubles. -/
def IsRepresentable (v : ℚ) : Prop :=
  ∃ (k : Nat) (f : Int), k < twoTo 53 ∧ -1074 ≤ f ∧ f ≤ 971 ∧ v = k * 2 ^ f

theorem IsRepresentable.nonneg {v : ℚ} (h : IsRepresentable v) : 0 ≤ v := by
  obtain ⟨k, f, -, -, -, rfl⟩ := h
  positivity

theorem IsRepresentable.lt_overflow {v : ℚ} (h : IsRepresentable v) : v < overflow := by
  obtain ⟨k, f, small, -, high, rfl⟩ := h
  have cast : (k : ℚ) ≤ 2 ^ 53 - 1 := by
    have below : ((k + 1 : Nat) : ℚ) ≤ twoTo 53 := by exact_mod_cast small
    rw [cast_twoTo] at below
    push_cast at below
    linarith
  calc (k : ℚ) * 2 ^ f ≤ (2 ^ 53 - 1) * 2 ^ (971 : Int) :=
        mul_le_mul cast (zpow_le_zpow_right₀ (by norm_num) high) (by positivity) (by norm_num)
    _ < (2 ^ 53 - 1 / 2) * 2 ^ (971 : Int) := mul_lt_mul_of_pos_right (by norm_num) (by positivity)
    _ = overflow := by rw [overflow, mul_comm]

theorem isRepresentable_tenTo {n : Nat} (few : n ≤ 22) : IsRepresentable (10 ^ n) := by
  refine ⟨5 ^ n, n, ?_, by omega, by omega, ?_⟩
  · calc 5 ^ n ≤ 5 ^ 22 := Nat.pow_le_pow_right (by decide) few
      _ < twoTo 53 := by decide
  · rw [zpow_natCast, Nat.cast_pow, ← mul_pow]
    norm_num

/-- A finite double of at most a given magnitude. -/
structure IsWithin (v : ℚ) (x : Binary64) : Prop where
  finite : x.isFinite = true
  magnitude_le : x.magnitude ≤ v

/-- At a coarser exponent than its own a representable number is a natural number of steps. -/
theorem exists_steps (k : Nat) {e f : Int} (coarse : e ≤ f) :
    ∃ n : Nat, (k : ℚ) * 2 ^ f = n * 2 ^ e := by
  refine ⟨k * 2 ^ (f - e).toNat, ?_⟩
  have split : (2 : ℚ) ^ f = 2 ^ (f - e).toNat * 2 ^ e := by
    rw [← zpow_natCast, Int.toNat_of_nonneg (by omega), ← zpow_add₀ two_ne_zero]
    congr 1
    omega
  rw [split]
  push_cast
  ring

/-- At a finer exponent it lies below the normal significands. -/
theorem representable_le_normal {k : Nat} {e f : Int} (small : k < twoTo 53) (fine : f < e) :
    (k : ℚ) * 2 ^ f ≤ 2 ^ (e + 52) := by
  have cast : (k : ℚ) ≤ 2 ^ (53 : Int) := by
    rw [zpow_ofNat, ← cast_twoTo]
    exact_mod_cast small.le
  calc (k : ℚ) * 2 ^ f ≤ 2 ^ (53 : Int) * 2 ^ f := mul_le_mul_of_nonneg_right cast (by positivity)
    _ = 2 ^ (f + 53) := by rw [← zpow_add₀ two_ne_zero, add_comm]
    _ ≤ 2 ^ (e + 52) := zpow_le_zpow_right₀ (by norm_num) (by omega)

/-- The result is a number of steps of some exponent, and no number of such steps lies between it and the
fraction. -/
theorem ofRatio_steps (negative : Bool) {num den : Nat} (hn : 0 < num) (hd : 0 < den) :
    ∃ (m : Nat) (e : Int), -1074 ≤ e ∧ (e = -1074 ∨ (2 : ℚ) ^ (e + 52) ≤ num / den) ∧
      (∀ n : Nat, (num : ℚ) / den ≤ n * 2 ^ e → m ≤ n) ∧
      (∀ n : Nat, (n : ℚ) * 2 ^ e ≤ num / den → n ≤ m) ∧
      magnitude (ofRatio negative num den) =
        if (ofRatio negative num den).isFinite then (m : ℚ) * 2 ^ e else 0 := by
  obtain ⟨m, e, least, -, above, low, high, -, shape⟩ := ofRatio_spec negative hn hd
  have positive : (0 : ℚ) < 2 ^ e := by positivity
  have scaled : (num : ℚ) / den * 2 ^ (-e) * 2 ^ e = num / den := by
    rw [mul_assoc, ← zpow_add₀ two_ne_zero, neg_add_cancel, zpow_zero, mul_one]
  refine ⟨m, e, least, above, fun n steps => ?_, fun n steps => ?_, ?_⟩
  · have below : (num : ℚ) / den * 2 ^ (-e) ≤ n := by
      rw [← scaled] at steps
      exact le_of_mul_le_mul_right steps positive
    have cast : (m : ℚ) < (n + 1 : Nat) := by
      push_cast
      linarith
    exact Nat.lt_succ_iff.mp (by exact_mod_cast cast)
  · have below : (n : ℚ) ≤ num / den * 2 ^ (-e) := by
      rw [← scaled] at steps
      exact le_of_mul_le_mul_right steps positive
    have cast : (n : ℚ) < (m + 1 : Nat) := by
      push_cast
      linarith
    exact Nat.lt_succ_iff.mp (by exact_mod_cast cast)
  · have carry : ((twoTo 52 : Nat) : ℚ) * 2 ^ (e + 1) = (twoTo 53 : Nat) * 2 ^ e := by
      rw [cast_twoTo, cast_twoTo, zpow_add₀ two_ne_zero]
      ring
    rw [shape]
    by_cases up : m = twoTo 53
    · simp only [up, if_true]
      by_cases beyond : 971 < e + 1
      · simp [beyond, isFinite, magnitude]
      · simp only [beyond, if_false, isFinite, if_true]
        exact carry
    · simp only [up, if_false]
      by_cases beyond : 971 < e
      · simp [beyond, isFinite, magnitude]
      · simp [beyond, isFinite, magnitude]

theorem normal_steps (e : Int) : ((twoTo 52 : Nat) : ℚ) * 2 ^ e = 2 ^ (e + 52) := by
  rw [cast_twoTo, zpow_add₀ two_ne_zero, mul_comm]
  rfl

theorem isWithin_ofRatio (negative : Bool) {num den : Nat} (hd : 0 < den) {v : ℚ}
    (representable : IsRepresentable v) (h : (num : ℚ) / den ≤ v) :
    IsWithin v (ofRatio negative num den) := by
  obtain ⟨_, _, result, -⟩ :=
    ofRatio_of_lt_overflow negative hd (lt_of_le_of_lt h representable.lt_overflow)
  have finite : (ofRatio negative num den).isFinite = true := by
    rw [result]
    rfl
  refine ⟨finite, ?_⟩
  rcases Nat.eq_zero_or_pos num with rfl | hn
  · exact le_of_eq_of_le (by simp [ofRatio, zero, magnitude]) representable.nonneg
  obtain ⟨m, e, least, above, most, -, shape⟩ := ofRatio_steps negative hn hd
  have bound {n : Nat} (steps : (num : ℚ) / den ≤ n * 2 ^ e) : (m : ℚ) * 2 ^ e ≤ n * 2 ^ e :=
    mul_le_mul_of_nonneg_right (by exact_mod_cast most n steps) (by positivity)
  rw [shape, if_pos finite]
  obtain ⟨k, f, small, fine, -, rfl⟩ := representable
  rcases le_or_gt e f with coarse | finer
  · obtain ⟨n, steps⟩ := exists_steps k coarse
    rw [steps] at h ⊢
    exact bound h
  · -- The bound is finer than the result only where the fraction is the least normal one.
    have normal := above.resolve_left (by omega)
    rw [← normal_steps] at normal
    refine (bound (h.trans ?_)).trans (normal.trans h)
    rw [normal_steps]
    exact representable_le_normal small finer

theorem le_magnitude_ofRatio (negative : Bool) {num den : Nat} (hd : 0 < den) {v : ℚ}
    (representable : IsRepresentable v) (h : v ≤ num / den)
    (finite : (ofRatio negative num den).isFinite = true) :
    v ≤ magnitude (ofRatio negative num den) := by
  rcases Nat.eq_zero_or_pos num with rfl | hn
  · rw [Nat.cast_zero, zero_div] at h
    exact le_of_le_of_eq h (by simp [ofRatio, zero, magnitude])
  obtain ⟨m, e, least, above, -, fewest, shape⟩ := ofRatio_steps negative hn hd
  have bound {n : Nat} (steps : (n : ℚ) * 2 ^ e ≤ num / den) : (n : ℚ) * 2 ^ e ≤ m * 2 ^ e :=
    mul_le_mul_of_nonneg_right (by exact_mod_cast fewest n steps) (by positivity)
  rw [shape, if_pos finite]
  obtain ⟨k, f, small, fine, -, rfl⟩ := representable
  rcases le_or_gt e f with coarse | finer
  · obtain ⟨n, steps⟩ := exists_steps k coarse
    rw [steps] at h ⊢
    exact bound h
  · have normal := above.resolve_left (by omega)
    rw [← normal_steps] at normal
    refine (representable_le_normal small finer).trans ?_
    rw [← normal_steps]
    exact bound normal

/-! Products and quotients. -/

variable {x y : Binary64} {v : ℚ}

theorem magnitude_nonneg (x : Binary64) : 0 ≤ x.magnitude := by
  cases x with
  | finite s m e => exact mul_nonneg (Nat.cast_nonneg m) (by positivity)
  | infinite => exact le_refl _

theorem magnitude_negate (x : Binary64) : x.negate.magnitude = x.magnitude := by
  cases x <;> rfl

theorem IsWithin.negate (h : IsWithin v x) : IsWithin v x.negate := by
  refine ⟨?_, (magnitude_negate x).trans_le h.magnitude_le⟩
  cases x with
  | finite => rfl
  | infinite => exact h.finite

theorem isWithin_mul (representable : IsRepresentable v) (hx : x.isFinite = true)
    (hy : y.isFinite = true) (h : x.magnitude * y.magnitude ≤ v) : IsWithin v (x.mul y) := by
  cases x with
  | infinite => cases hx
  | finite s m e =>
    cases y with
    | infinite => cases hy
    | finite t n f =>
      rw [mul]
      refine isWithin_ofRatio _ (Nat.mul_pos (ratio_pos m e) (ratio_pos n f)) representable ?_
      rw [Nat.cast_mul, Nat.cast_mul, mul_div_mul_comm, ratio_eq, ratio_eq]
      exact h

theorem isWithin_div (representable : IsRepresentable v) (hx : x.isFinite = true)
    (positive : 0 < y.magnitude) (h : x.magnitude / y.magnitude ≤ v) : IsWithin v (x.div y) := by
  cases x with
  | infinite => cases hx
  | finite s m e =>
    cases y with
    | infinite => exact absurd positive (lt_irrefl _)
    | finite t n f =>
      have above : 0 < (ratio n f).1 := by
        rw [magnitude, ← ratio_eq] at positive
        refine Nat.pos_of_ne_zero fun none => ?_
        rw [none, Nat.cast_zero, zero_div] at positive
        exact lt_irrefl _ positive
      rw [div]
      refine isWithin_ofRatio _ (Nat.mul_pos (ratio_pos m e) above) representable ?_
      rw [Nat.cast_mul, Nat.cast_mul, mul_div_mul_comm, ← inv_div ((ratio n f).1 : ℚ),
        ← div_eq_mul_inv, ratio_eq, ratio_eq]
      exact h

end Dashboard.Binary64

namespace Dashboard.Decimal

open Binary64 (InRange IsRepresentable)

/-- What reads back as a double below a representable number is itself not above that. -/
theorem value_le_of_readsBack {s : Bool} {m : Nat} {e : Int} {d : Decimal} (notZero : m ≠ 0)
    {v : ℚ} (representable : IsRepresentable v) (below : (Binary64.finite s m e).magnitude < v)
    (h : readsBack (.finite s m e) d = true) : d.value ≤ v := by
  have read : Binary64.ofDecimal s d.digits d.exponent = .finite s m e := of_decide_eq_true h
  have bound {num den : Nat} (hd : 0 < den)
      (result : Binary64.ofRatio s num den = .finite s m e) : (num : ℚ) / den ≤ v := by
    by_contra above
    have order := Binary64.le_magnitude_ofRatio s hd representable (not_le.mp above).le
      (by rw [result]; rfl)
    rw [result] at order
    exact absurd below (not_lt.mpr order)
  simp only [Binary64.ofDecimal] at read
  split_ifs at read with none high low whole
  · obtain ⟨-, rfl, -⟩ := Binary64.finite.inj read
    exact absurd rfl notZero
  · obtain ⟨-, rfl, -⟩ := Binary64.finite.inj read
    exact absurd rfl notZero
  · have order := bound Nat.one_pos read
    rw [Nat.cast_mul, cast_tenTo_toNat whole, Nat.cast_one, div_one] at order
    exact order
  · have order := bound (Binary64.tenTo_pos _) read
    rw [cast_tenTo_toNat (by omega), zpow_neg, div_inv_eq_mul] at order
    exact order

theorem value_shortest_le (tie : Tie) {x : Binary64} {v : ℚ} (representable : IsRepresentable v)
    (below : x.magnitude < v) : (shortest tie x).value ≤ v := by
  cases x with
  | infinite => exact le_of_eq_of_le (by simp [shortest, value]) representable.nonneg
  | finite s m e =>
    by_cases zero : m = 0
    · rw [zero, shortest]
      exact le_of_eq_of_le (by simp [value]) representable.nonneg
    · rcases @shortest_cases tie s m e zero with ⟨d, reads, shape⟩ | shape
      · have safe := isSafe_of_readsBack zero reads
        rw [shape, (stripped_spec safe.digits_ne_zero).2.1]
        exact value_le_of_readsBack zero representable below reads
      · rw [shape, value_exactValue]
        exact below.le

end Dashboard.Decimal
