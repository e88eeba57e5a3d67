import Ezilla.Lib.Binary32
import Mathlib.Analysis.SpecialFunctions.Log.Deriv
import Mathlib.Data.Nat.Log

/-!
# Bits of a number by logarithms

How many bits a number needs is sometimes computed as the ceiling of `log n / log 2` in doubles.
The logarithm of the mathematical library is a parameter, with the error that such libraries
allow for.

* `Binary64.nearest`: the nearest double;
* `Binary64.IsLog`: what is known of the logarithm;
* `Binary64.ceil_log_div_eq`: the bits that are found, which for two powers are one too many.
-/

namespace Ezilla

namespace Binary64

/-- The distance between the doubles around `x`. -/
def ulp (x : ℚ) : ℚ := 2 ^ max (Int.log 2 |x| - 52) (-1074)

/-- The double nearest to `x`, without a largest one. -/
def nearest (x : ℚ) : ℚ := roundHalfEven (x / ulp x) * ulp x

/-- A double near a positive number: a multiple of the spacing of the doubles there, with an error
of at most 0.55 of it. -/
def Near (d : ℚ) (x : ℝ) : Prop :=
  ∃ m e : ℤ, 2 ^ (e + 52) ≤ x ∧ x < 2 ^ (e + 53) ∧ d = m * 2 ^ e ∧ |(d : ℝ) - x| ≤ 11 / 20 * 2 ^ e

/-- The natural logarithm of a mathematical library, at whole numbers: it is exact at 1, and near
everywhere. -/
structure IsLog (log : Nat → ℚ) : Prop where
  one : log 1 = 0
  near : ∀ n, 1 < n → n < 2 ^ 53 → Near (log n) (Real.log n)

/-! ## A logarithm -/

/-- A positive number rounded to a double, half of the spacing away at most. -/
noncomputable def rounded (x : ℝ) : ℚ := round (x / 2 ^ (Int.log 2 x - 52)) * 2 ^ (Int.log 2 x - 52)

theorem near_rounded {x : ℝ} (positive : 0 < x) : Near (rounded x) x := by
  have unit : (0 : ℝ) < 2 ^ (Int.log 2 x - 52) := zpow_pos two_pos _
  refine ⟨round (x / 2 ^ (Int.log 2 x - 52)), Int.log 2 x - 52, ?_, ?_, rfl, ?_⟩
  · rw [sub_add_cancel]
    exact Int.zpow_log_le_self (by norm_num) positive
  · have above := Int.lt_zpow_succ_log_self (b := 2) (by norm_num) x
    rw [show Int.log 2 x - 52 + 53 = Int.log 2 x + 1 by ring]
    exact above
  · have split : ((rounded x : ℚ) : ℝ) - x =
        (round (x / 2 ^ (Int.log 2 x - 52)) - x / 2 ^ (Int.log 2 x - 52)) *
          2 ^ (Int.log 2 x - 52) := by
      rw [sub_mul, div_mul_cancel₀ _ unit.ne', rounded]
      push_cast
      rfl
    rw [split, abs_mul, abs_of_pos unit, abs_sub_comm]
    have half := abs_sub_round (x / 2 ^ (Int.log 2 x - 52))
    exact mul_le_mul_of_nonneg_right (half.trans (by norm_num)) unit.le

/-- The logarithm that rounds correctly. -/
noncomputable def roundedLog (n : Nat) : ℚ := rounded (Real.log n)

theorem isLog_roundedLog : IsLog roundedLog where
  one := by simp [roundedLog, rounded]
  near n several _ := near_rounded (Real.log_pos (by exact_mod_cast several))

/-! ## The logarithm of two -/

/-- The logarithm of 2 to 70 binary places. -/
def logTwo : ℚ := 818323753292969962226 / 2 ^ 70

theorem abs_log_two_sub_le : |Real.log 2 - logTwo| ≤ 1 / 2 ^ 64 := by
  have half : |(2⁻¹ : ℝ)| < 1 := by norm_num
  have series := Real.abs_log_sub_add_sum_range_le half 68
  have sum : (∑ i ∈ Finset.range 68, (2⁻¹ : ℝ) ^ (i + 1) / (i + 1)) =
      ((∑ i ∈ Finset.range 68, (2⁻¹ : ℚ) ^ (i + 1) / (i + 1) : ℚ) : ℝ) := by
    push_cast
    rfl
  have close : |(∑ i ∈ Finset.range 68, (2⁻¹ : ℚ) ^ (i + 1) / (i + 1)) - logTwo| ≤ 1 / 2 ^ 65 := by
    decide +kernel
  have close : |((∑ i ∈ Finset.range 68, (2⁻¹ : ℚ) ^ (i + 1) / (i + 1) : ℚ) : ℝ) - logTwo| ≤
      1 / 2 ^ 65 := by
    have cast := Rat.cast_le (K := ℝ) |>.mpr close
    rwa [Rat.cast_abs, Rat.cast_sub, Rat.cast_div, Rat.cast_one, Rat.cast_pow,
      Rat.cast_ofNat] at cast
  have minus : Real.log (1 - 2⁻¹) = -Real.log 2 := by
    rw [← Real.log_inv]
    norm_num
  rw [sum, minus, abs_of_pos (by norm_num : (0 : ℝ) < 2⁻¹)] at series
  have tail : (2⁻¹ : ℝ) ^ (68 + 1) / (1 - 2⁻¹) ≤ 1 / 2 ^ 65 := by norm_num
  have first := abs_le.mp (series.trans tail)
  have second := abs_le.mp close
  rw [abs_le]
  constructor <;> linarith

/-! ## Powers of two -/

/-- The first multiples of the logarithm of 2 are inside their binades, and not in the middle
between two doubles. -/
theorem multiples_of_logTwo : ∀ k : Nat, k < 33 → 0 < k →
    -1 ≤ Int.log 2 ((k : ℚ) * logTwo) ∧
      (2 : ℚ) ^ Int.log 2 ((k : ℚ) * logTwo) + 1 / 2 ^ 59 ≤ k * logTwo ∧
      k * logTwo + 1 / 2 ^ 59 < (2 : ℚ) ^ (Int.log 2 ((k : ℚ) * logTwo) + 1) ∧
      |nearest (k * logTwo) - k * logTwo| ≤
        21 / 50 * 2 ^ (Int.log 2 ((k : ℚ) * logTwo) - 52) := by
  decide +kernel

/-- The quotients of the nearest doubles, which are rounded up at 29 and 31. -/
theorem quotients_of_logTwo : ∀ k : Nat, k < 33 →
    ⌈nearest (nearest (k * logTwo) / nearest logTwo)⌉ =
      if k = 29 then 30 else if k = 31 then 32 else (k : Int) := by
  decide +kernel

section Bits

variable {log : Nat → ℚ} {k n : Nat}

theorem log_two_pow (isLog : IsLog log) (positive : 0 < k) (small : k < 33) :
    log (2 ^ k) = nearest (k * logTwo) := by
  obtain ⟨normal, above, below, middle⟩ := multiples_of_logTwo k small positive
  obtain ⟨m, e, least, most, is, error⟩ := isLog.near (2 ^ k)
    (Nat.one_lt_two_pow positive.ne') (Nat.pow_lt_pow_right (by decide) (by omega))
  set E := Int.log 2 ((k : ℚ) * logTwo)
  have value : Real.log ((2 ^ k : Nat) : ℝ) = k * Real.log 2 := by
    rw [Nat.cast_pow, Nat.cast_ofNat, Real.log_pow]
  rw [value] at least most error
  have approx : |(k : ℝ) * Real.log 2 - k * logTwo| ≤ 1 / 2 ^ 59 := by
    have few : (k : ℝ) ≤ 32 := by exact_mod_cast Nat.le_of_lt_succ small
    rw [← mul_sub, abs_mul, Nat.abs_cast]
    refine (mul_le_mul few abs_log_two_sub_le (abs_nonneg _) (by norm_num)).trans ?_
    norm_num
  have apart := abs_le.mp approx
  have above : (2 : ℝ) ^ E + 1 / 2 ^ 59 ≤ k * logTwo := by
    have cast := Rat.cast_le (K := ℝ) |>.mpr above
    push_cast at cast
    exact cast
  have below : (k : ℝ) * logTwo + 1 / 2 ^ 59 < 2 ^ (E + 1) := by
    have cast := Rat.cast_lt (K := ℝ) |>.mpr below
    push_cast at cast
    exact cast
  -- both numbers are in the same binade
  have same : e = E - 52 := by
    have lower : (2 : ℝ) ^ E < 2 ^ (e + 53) := by linarith
    have upper : (2 : ℝ) ^ (e + 52) < 2 ^ (E + 1) := by linarith
    have lower := (zpow_lt_zpow_iff_right₀ (by norm_num)).mp lower
    have upper := (zpow_lt_zpow_iff_right₀ (by norm_num)).mp upper
    omega
  have spacing : ulp (k * logTwo) = 2 ^ e := by
    have nonneg : (0 : ℚ) ≤ k * logTwo := by unfold logTwo; positivity
    rw [ulp, abs_of_nonneg nonneg, same, max_eq_left (by omega)]
  have unit : (0 : ℝ) < 2 ^ e := zpow_pos two_pos _
  have fine : (1 : ℝ) / 2 ^ 59 ≤ 1 / 50 * 2 ^ e := by
    have least : (2 : ℝ) ^ (-53 : ℤ) ≤ 2 ^ e := zpow_le_zpow_right₀ (by norm_num) (by omega)
    refine le_trans ?_ (mul_le_mul_of_nonneg_left least (by norm_num))
    norm_num
  rw [← same] at middle
  have middle : |((nearest (k * logTwo) : ℚ) : ℝ) - k * logTwo| ≤ 21 / 50 * 2 ^ e := by
    have cast := Rat.cast_le (K := ℝ) |>.mpr middle
    push_cast at cast
    exact cast
  have near : |(log (2 ^ k) : ℝ) - nearest (k * logTwo)| < 2 ^ e := by
    have first := abs_le.mp error
    have last := abs_le.mp middle
    rw [abs_lt]
    constructor <;> linarith
  rw [is, nearest, spacing] at near ⊢
  have near : |((m - roundHalfEven (k * logTwo / 2 ^ e) : ℤ) : ℝ)| < 1 := by
    push_cast at near ⊢
    rw [← sub_mul, abs_mul, abs_of_pos unit] at near
    exact lt_of_mul_lt_mul_right (by rwa [one_mul]) unit.le
  have near : |m - roundHalfEven (k * logTwo / 2 ^ e)| < 1 := by exact_mod_cast near
  rw [sub_eq_zero.mp (Int.abs_lt_one_iff.mp near)]

theorem log_two_eq (isLog : IsLog log) : log 2 = nearest logTwo := by
  have one := log_two_pow isLog (k := 1) one_pos (by decide)
  rwa [pow_one, Nat.cast_one, one_mul] at one

/-- Doubles below 64 are dense. -/
theorem abs_nearest_sub_le {q : ℚ} (nonneg : 0 ≤ q) (small : q < 64) :
    |nearest q - q| ≤ 1 / 2 ^ 48 := by
  have unit : 0 < ulp q := zpow_pos two_pos _
  have scaled : nearest q - q = (roundHalfEven (q / ulp q) - q / ulp q) * ulp q := by
    rw [nearest, sub_mul, div_mul_cancel₀ _ unit.ne']
  have spacing : ulp q ≤ 2 ^ (-47 : ℤ) := by
    have least : Int.log 2 |q| < 6 := by
      rcases nonneg.eq_or_lt with rfl | positive
      · simp
      · refine (Int.lt_zpow_iff_log_lt (by norm_num) (abs_pos.mpr positive.ne')).mp ?_
        rw [abs_of_pos positive]
        exact small.trans_le (by norm_num)
    exact zpow_le_zpow_right₀ (by norm_num) (by omega)
  rw [scaled, abs_mul, abs_of_pos unit]
  refine (mul_le_mul (abs_roundHalfEven_sub_le _) spacing unit.le (by norm_num)).trans ?_
  norm_num

/-- Between two powers of two the logarithm is not close to that of either. -/
theorem log_between (lower : 2 ^ k < n) (upper : n < 2 ^ (k + 1)) (small : k < 32) :
    k * Real.log 2 + 1 / 2 ^ 32 ≤ Real.log n ∧
      Real.log n + 1 / 2 ^ 32 ≤ (k + 1) * Real.log 2 := by
  have positive : (0 : ℝ) < n := by exact_mod_cast Nat.zero_lt_of_lt lower
  have low : (0 : ℝ) < 2 ^ k := by positivity
  have high : (0 : ℝ) < 2 ^ (k + 1) := by positivity
  have bound : (2 : ℝ) ^ (k + 1) ≤ 2 ^ 32 := pow_le_pow_right₀ (by norm_num) small
  constructor
  · have quotient := Real.one_sub_inv_le_log_of_pos (div_pos positive low)
    rw [Real.log_div positive.ne' low.ne', Real.log_pow, inv_div] at quotient
    have above : (2 : ℝ) ^ k + 1 ≤ n := by exact_mod_cast lower
    have below : (n : ℝ) ≤ 2 ^ 32 := le_trans (by exact_mod_cast upper.le) bound
    have far : 1 / 2 ^ 32 ≤ 1 - (2 : ℝ) ^ k / n := by
      rw [one_sub_div positive.ne', div_le_div_iff₀ (by norm_num) positive]
      linarith
    linarith
  · have quotient := Real.log_le_sub_one_of_pos (div_pos positive high)
    rw [Real.log_div positive.ne' high.ne', Real.log_pow] at quotient
    push_cast at quotient
    have below : (n : ℝ) + 1 ≤ 2 ^ (k + 1) := by exact_mod_cast upper
    have far : (n : ℝ) / 2 ^ (k + 1) - 1 ≤ -(1 / 2 ^ 32) := by
      rw [div_sub_one high.ne', ← neg_div, div_le_div_iff₀ high (by norm_num)]
      linarith
    linarith

/-- A quotient between two whole numbers, and not close to either, is rounded up to the larger. -/
theorem ceil_nearest_eq {q : ℚ} (small : k < 32) (lower : k + 1 / 2 ^ 33 ≤ q)
    (upper : q + 1 / 2 ^ 33 ≤ k + 1) : ⌈nearest q⌉ = k + 1 := by
  have few : (k : ℚ) ≤ 31 := by exact_mod_cast Nat.le_of_lt_succ small
  have nonneg : 0 ≤ q := le_trans (by positivity) lower
  have error := abs_le.mp (abs_nearest_sub_le nonneg (by linarith))
  rw [Int.ceil_eq_iff]
  push_cast
  constructor <;> linarith

theorem ceil_log_div_between (isLog : IsLog log) (lower : 2 ^ k < n) (upper : n < 2 ^ (k + 1))
    (small : k < 32) : ⌈nearest (log n / log 2)⌉ = k + 1 := by
  have most : n < 2 ^ 53 := upper.trans_le (Nat.pow_le_pow_right (by decide) (by omega))
  have several : 1 < n := Nat.lt_of_le_of_lt Nat.one_le_two_pow lower
  obtain ⟨above, below⟩ := log_between lower upper small
  obtain ⟨m, e, least, -, -, error⟩ := isLog.near n several most
  have few : (k : ℝ) ≤ 31 := by exact_mod_cast Nat.le_of_lt_succ small
  have two := abs_le.mp abs_log_two_sub_le
  have rational : (logTwo : ℝ) < 7 / 10 := by
    have cast : logTwo < 7 / 10 := by decide +kernel
    have cast := Rat.cast_lt (K := ℝ) |>.mpr cast
    push_cast at cast
    exact cast
  have less : Real.log 2 < 71 / 100 := by linarith
  -- the logarithm is below 32, where doubles are dense
  have dense : (2 : ℝ) ^ e ≤ 1 / 2 ^ 48 := by
    have bound : (2 : ℝ) ^ (e + 52) < 2 ^ (5 : ℤ) := by
      refine least.trans_lt (lt_of_lt_of_le ?_ (by norm_num : (32 : ℝ) ≤ 2 ^ (5 : ℤ)))
      nlinarith
    have low := (zpow_lt_zpow_iff_right₀ (by norm_num)).mp bound
    refine (zpow_le_zpow_right₀ (by norm_num) (by omega : e ≤ -48)).trans ?_
    norm_num
  have error := abs_le.mp error
  have nearTwo : |nearest logTwo - logTwo| ≤ 1 / 2 ^ 53 := by decide +kernel
  have nearTwo : |((nearest logTwo : ℚ) : ℝ) - logTwo| ≤ 1 / 2 ^ 53 := by
    have cast := Rat.cast_le (K := ℝ) |>.mpr nearTwo
    push_cast at cast
    exact cast
  have nearTwo := abs_le.mp nearTwo
  have half : 1 / 2 < nearest logTwo := by decide +kernel
  have one : nearest logTwo < 1 := by decide +kernel
  rw [log_two_eq isLog]
  have lowerDouble : (k : ℝ) * (nearest logTwo : ℚ) + 1 / 2 ^ 33 ≤ log n := by nlinarith
  have upperDouble : (log n : ℝ) + 1 / 2 ^ 33 ≤ (k + 1) * (nearest logTwo : ℚ) := by nlinarith
  have lowerDouble : k * nearest logTwo + 1 / 2 ^ 33 ≤ log n := by
    refine Rat.cast_le (K := ℝ) |>.mp ?_
    push_cast
    exact lowerDouble
  have upperDouble : log n + 1 / 2 ^ 33 ≤ (k + 1) * nearest logTwo := by
    refine Rat.cast_le (K := ℝ) |>.mp ?_
    push_cast
    exact upperDouble
  have positive : 0 < nearest logTwo := by linarith
  refine ceil_nearest_eq small ?_ ?_
  · rw [le_div_iff₀ positive]
    nlinarith
  · rw [← le_sub_iff_add_le, div_le_iff₀ positive]
    nlinarith

/-- The bits that are found for a word: as many as are needed, and one more for two powers. -/
theorem ceil_log_div_eq (isLog : IsLog log) (positive : 0 < n) (small : n < 2 ^ 32) :
    ⌈nearest (log n / log 2)⌉ =
      if n = 2 ^ 29 then 30 else if n = 2 ^ 31 then 32 else (Nat.clog 2 n : Int) := by
  by_cases isPower : ∃ k, n = 2 ^ k
  · obtain ⟨k, rfl⟩ := isPower
    have bits : k < 32 := (Nat.pow_lt_pow_iff_right (by decide)).mp small
    have quotient := quotients_of_logTwo k (by omega)
    have exact_log : log (2 ^ k) = nearest (k * logTwo) := by
      rcases Nat.eq_zero_or_pos k with rfl | several
      · rw [pow_zero, isLog.one]
        decide +kernel
      · exact log_two_pow isLog several (by omega)
    have injective {j : Nat} : 2 ^ k = 2 ^ j ↔ k = j :=
      (Nat.pow_right_injective (Nat.le_refl 2)).eq_iff
    rw [exact_log, log_two_eq isLog, quotient, Nat.clog_pow 2 k (by decide)]
    simp only [injective]
  · have other {j : Nat} : n ≠ 2 ^ j := fun same => isPower ⟨j, same⟩
    rw [if_neg other, if_neg other]
    have nonzero : n ≠ 0 := positive.ne'
    have lower : 2 ^ Nat.log 2 n < n :=
      lt_of_le_of_ne (Nat.pow_log_le_self 2 nonzero) other.symm
    have upper : n < 2 ^ (Nat.log 2 n + 1) := Nat.lt_pow_succ_log_self (by decide) n
    have few : Nat.log 2 n < 32 := Nat.log_lt_of_lt_pow nonzero small
    have ceiling : Nat.clog 2 n = Nat.log 2 n + 1 := by
      refine le_antisymm (Nat.clog_le_of_le_pow upper.le) ?_
      exact (Nat.lt_clog_iff_pow_lt (by decide)).mpr lower
    rw [ceil_log_div_between isLog lower upper few, ceiling, Nat.cast_add_one]

end Bits

end Binary64

end Ezilla
