import Mathlib.Algebra.Order.Field.Power
import Mathlib.Data.Int.Log
import Mathlib.Data.Rat.Floor
import Mathlib.Tactic.Linarith
import Mathlib.Tactic.Positivity
import Mathlib.Tactic.Ring

/-!
# Single-precision floats

The binary floats of 24 digits as rational numbers: every operation of the
machine is the exact one followed by `Binary32.nearest`, and a float that is
printed loses what its decimals do not show.

* `roundHalfEven`: the nearest whole number, ties to the even one;
* `Binary32.nearest`: the nearest float, with the spacing `Binary32.ulp`;
* `Binary32.fixedTwo`, `Binary32.significant`: decimals that are printed.
-/

namespace Ezilla

/-! ## Whole numbers -/

/-- The whole number nearest to `x`, the even one of two. -/
def roundHalfEven (x : ℚ) : Int :=
  if Int.fract x < 1 / 2 then ⌊x⌋
  else if 1 / 2 < Int.fract x then ⌊x⌋ + 1
  else if ⌊x⌋ % 2 = 0 then ⌊x⌋ else ⌊x⌋ + 1

theorem roundHalfEven_cases (x : ℚ) :
    roundHalfEven x = ⌊x⌋ ∧ Int.fract x ≤ 1 / 2 ∨
      roundHalfEven x = ⌊x⌋ + 1 ∧ 1 / 2 ≤ Int.fract x := by
  unfold roundHalfEven
  split_ifs with below above even
  · exact Or.inl ⟨rfl, below.le⟩
  · exact Or.inr ⟨rfl, above.le⟩
  · exact Or.inl ⟨rfl, not_lt.mp above⟩
  · exact Or.inr ⟨rfl, not_lt.mp below⟩

theorem abs_roundHalfEven_sub_le (x : ℚ) : |(roundHalfEven x : ℚ) - x| ≤ 1 / 2 := by
  have split := Int.floor_add_fract x
  have small := Int.fract_lt_one x
  have nonneg := Int.fract_nonneg x
  rw [abs_le]
  rcases roundHalfEven_cases x with ⟨down, half⟩ | ⟨up, half⟩
  · rw [down]
    constructor <;> linarith
  · rw [up]
    push_cast
    constructor <;> linarith

theorem roundHalfEven_intCast (n : Int) : roundHalfEven n = n := by
  simp [roundHalfEven]

theorem roundHalfEven_eq {x : ℚ} {n : Int} (near : |x - n| < 1 / 2) : roundHalfEven x = n := by
  have round := abs_le.mp (abs_roundHalfEven_sub_le x)
  have near := abs_lt.mp near
  have less : ((roundHalfEven x - n : Int) : ℚ) < 1 := by
    push_cast
    linarith
  have more : (-1 : ℚ) < ((roundHalfEven x - n : Int) : ℚ) := by
    push_cast
    linarith
  have less : roundHalfEven x - n < 1 := by exact_mod_cast less
  have more : -1 < roundHalfEven x - n := by exact_mod_cast more
  omega

theorem roundHalfEven_mono {x y : ℚ} (le : x ≤ y) : roundHalfEven x ≤ roundHalfEven y := by
  have floors := Int.floor_mono le
  rcases floors.lt_or_eq with apart | same
  · rcases roundHalfEven_cases x with ⟨here, -⟩ | ⟨here, -⟩ <;>
      rcases roundHalfEven_cases y with ⟨there, -⟩ | ⟨there, -⟩ <;> omega
  · have fracts : Int.fract x ≤ Int.fract y := by
      rw [Int.fract, Int.fract, same]
      linarith
    unfold roundHalfEven
    rw [same]
    split_ifs <;> first | omega | linarith

theorem roundHalfEven_neg (x : ℚ) : roundHalfEven (-x) = -roundHalfEven x := by
  rcases eq_or_ne (Int.fract x) 0 with whole | part
  · have same : x = ⌊x⌋ := by linarith [Int.floor_add_fract x]
    rw [same, ← Int.cast_neg, roundHalfEven_intCast, roundHalfEven_intCast]
  · have fract : Int.fract (-x) = 1 - Int.fract x := Int.fract_neg part
    have floor : ⌊-x⌋ = -⌊x⌋ - 1 := by
      have split := Int.floor_add_fract x
      have split' := Int.floor_add_fract (-x)
      rw [fract] at split'
      have sum : ((⌊-x⌋ : Int) : ℚ) = ((-⌊x⌋ - 1 : Int) : ℚ) := by
        push_cast
        linarith
      exact_mod_cast sum
    unfold roundHalfEven
    rw [fract, floor]
    split_ifs <;> first | omega | linarith

theorem roundHalfEven_nonneg {x : ℚ} (nonneg : 0 ≤ x) : 0 ≤ roundHalfEven x := by
  have floor := Int.floor_nonneg.mpr nonneg
  rcases roundHalfEven_cases x with ⟨down, -⟩ | ⟨up, -⟩ <;> omega

namespace Binary32

/-! ## The nearest float -/

/-- The distance between the floats around `x`. -/
def ulp (x : ℚ) : ℚ := 2 ^ max (Int.log 2 |x| - 23) (-149)

/-- The float nearest to `x`, without a largest one. -/
def nearest (x : ℚ) : ℚ := roundHalfEven (x / ulp x) * ulp x

/-- A number that is a float: 24 digits, and no exponent below the least. -/
def Representable (x : ℚ) : Prop := ∃ m e : Int, |m| < 2 ^ 24 ∧ -149 ≤ e ∧ x = m * 2 ^ e

variable {x y : ℚ}

theorem ulp_pos (x : ℚ) : 0 < ulp x := zpow_pos two_pos _

@[simp] theorem nearest_zero : nearest 0 = 0 := by
  rw [nearest, zero_div, ← Int.cast_zero, roundHalfEven_intCast, Int.cast_zero, zero_mul]

theorem nearest_of_representable (float : Representable x) : nearest x = x := by
  obtain ⟨m, e, small, least, rfl⟩ := float
  rcases eq_or_ne m 0 with rfl | nonzero
  · simp
  have below : Int.log 2 |(m : ℚ) * 2 ^ e| < e + 24 := by
    refine (Int.lt_zpow_iff_log_lt (b := 2) (by norm_num) (by positivity)).mp ?_
    have unit : (0 : ℚ) < 2 ^ e := zpow_pos two_pos e
    rw [abs_mul, abs_of_pos unit, Nat.cast_ofNat, add_comm, zpow_add₀ two_ne_zero]
    refine mul_lt_mul_of_pos_right ?_ unit
    exact_mod_cast small
  have fine : max (Int.log 2 |(m : ℚ) * 2 ^ e| - 23) (-149) ≤ e := by omega
  obtain ⟨k, split⟩ := Int.eq_ofNat_of_zero_le (sub_nonneg.mpr fine)
  have whole : (m : ℚ) * 2 ^ e / ulp (m * 2 ^ e) = ((m * 2 ^ k : Int) : ℚ) := by
    rw [ulp, mul_div_assoc, ← zpow_sub₀ two_ne_zero, split]
    push_cast
    rfl
  rw [nearest, whole, roundHalfEven_intCast, ← whole, div_mul_cancel₀ _ (ulp_pos _).ne']

theorem nearest_intCast {n : Int} (small : |n| ≤ 2 ^ 24) : nearest n = n := by
  rcases small.lt_or_eq with less | top
  · exact nearest_of_representable ⟨n, 0, less, by decide, by simp⟩
  · refine nearest_of_representable ?_
    rcases abs_eq (by norm_num) |>.mp top with rfl | rfl
    · exact ⟨2 ^ 23, 1, by decide, by decide, by norm_num⟩
    · exact ⟨-2 ^ 23, 1, by decide, by decide, by norm_num⟩

theorem abs_nearest_sub_le (x : ℚ) : |nearest x - x| ≤ ulp x / 2 := by
  have pos := ulp_pos x
  have scaled : nearest x - x = (roundHalfEven (x / ulp x) - x / ulp x) * ulp x := by
    rw [nearest, sub_mul, div_mul_cancel₀ _ pos.ne']
  have half := mul_le_mul_of_nonneg_right (abs_roundHalfEven_sub_le (x / ulp x)) pos.le
  rw [scaled, abs_mul, abs_of_pos pos]
  linarith

/-- Numbers below a power of two have floats that close. -/
theorem ulp_le {k : Int} (positive : 0 < k) (small : |x| < 2 ^ k) : ulp x ≤ 2 ^ (k - 24) := by
  refine zpow_le_zpow_right₀ one_le_two (max_le ?_ (by omega))
  rcases eq_or_ne x 0 with rfl | nonzero
  · rw [abs_zero, Int.log_zero_right]
    omega
  · have below := (Int.lt_zpow_iff_log_lt (b := 2) (by norm_num) (abs_pos.mpr nonzero)).mp small
    omega

theorem abs_nearest_sub_le_of_lt {k : Int} (positive : 0 < k) (small : |x| < 2 ^ k) :
    |nearest x - x| ≤ 2 ^ (k - 25) := by
  have half : (2 : ℚ) ^ (k - 25) = 2 ^ (k - 24) / 2 := by
    rw [show k - 25 = k - 24 - 1 by ring, zpow_sub_one₀ two_ne_zero, div_eq_mul_inv]
  have close := abs_nearest_sub_le x
  have unit := ulp_le positive small
  rw [half]
  linarith

/-- From 1 on a float is off by less than its millionth part. -/
theorem abs_nearest_sub_le_mul (large : 1 ≤ |x|) : |nearest x - x| ≤ |x| / 2 ^ 24 := by
  have positive : (0 : ℚ) < |x| := lt_of_lt_of_le one_pos large
  have least := Int.zpow_log_le_self (b := 2) (by norm_num) positive
  have normal : 0 ≤ Int.log 2 |x| := by
    refine (Int.zpow_le_iff_le_log (b := 2) (by norm_num) positive).mp ?_
    simpa using large
  have spacing : ulp x ≤ |x| / 2 ^ 23 := by
    rw [Nat.cast_ofNat] at least
    rw [ulp, max_eq_left (by omega), zpow_sub₀ two_ne_zero]
    exact div_le_div_of_nonneg_right least (by norm_num)
  have close := abs_nearest_sub_le x
  linarith

/-- Only numbers below the least float are taken for 0. -/
theorem abs_le_of_nearest_eq_zero (zero : nearest x = 0) : |x| ≤ 2 ^ (-150 : Int) := by
  have close := abs_nearest_sub_le x
  rw [zero, zero_sub, abs_neg, ulp] at close
  rcases le_total (Int.log 2 |x| - 23) (-149) with low | high
  · rw [max_eq_right low] at close
    exact close.trans (by norm_num)
  · rw [max_eq_left high] at close
    rcases eq_or_ne x 0 with rfl | nonzero
    · rw [abs_zero]
      positivity
    · -- the spacing of the floats around such a number is far below the number itself
      have least := Int.zpow_log_le_self (b := 2) (by norm_num) (abs_pos.mpr nonzero)
      rw [Nat.cast_ofNat] at least
      rw [zpow_sub₀ two_ne_zero] at close
      have positive : (0 : ℚ) < 2 ^ Int.log 2 |x| := zpow_pos two_pos _
      norm_num at close
      linarith

/-! ## Order -/

theorem nearest_neg (x : ℚ) : nearest (-x) = -nearest x := by
  have same : ulp (-x) = ulp x := by rw [ulp, ulp, abs_neg]
  rw [nearest, nearest, same, neg_div, roundHalfEven_neg]
  push_cast
  ring

theorem nearest_nonneg (nonneg : 0 ≤ x) : 0 ≤ nearest x := by
  have pos := ulp_pos x
  have scaled := roundHalfEven_nonneg (div_nonneg nonneg pos.le)
  exact mul_nonneg (by exact_mod_cast scaled) pos.le

theorem nearest_nonpos (nonpos : x ≤ 0) : nearest x ≤ 0 := by
  have flipped := nearest_nonneg (neg_nonneg.mpr nonpos)
  rwa [nearest_neg, neg_nonneg] at flipped

/-- A number up to a multiple of its spacing is not rounded past it. -/
theorem nearest_le {n : Int} (le : x ≤ n * ulp x) : nearest x ≤ n * ulp x := by
  have pos := ulp_pos x
  have whole := roundHalfEven_mono ((div_le_iff₀ pos).mpr le)
  rw [roundHalfEven_intCast] at whole
  exact mul_le_mul_of_nonneg_right (by exact_mod_cast whole) pos.le

theorem le_nearest {n : Int} (le : n * ulp x ≤ x) : n * ulp x ≤ nearest x := by
  have pos := ulp_pos x
  have whole := roundHalfEven_mono ((le_div_iff₀ pos).mpr le)
  rw [roundHalfEven_intCast] at whole
  exact mul_le_mul_of_nonneg_right (by exact_mod_cast whole) pos.le

/-- A power of two is a multiple of the spacing of the numbers up to it. -/
theorem exists_mul_ulp {k : Int} (normal : -149 ≤ k) (below : Int.log 2 |x| - 23 ≤ k) :
    ∃ n : Int, (2 : ℚ) ^ k = n * ulp x := by
  obtain ⟨j, split⟩ := Int.eq_ofNat_of_zero_le (sub_nonneg.mpr (max_le below normal))
  refine ⟨2 ^ j, ?_⟩
  rw [ulp, show k = j + max (Int.log 2 |x| - 23) (-149) by omega, zpow_add₀ two_ne_zero]
  push_cast
  rfl

theorem nearest_mono_of_nonneg (nonneg : 0 ≤ x) (le : x ≤ y) : nearest x ≤ nearest y := by
  rcases nonneg.eq_or_lt with rfl | positive
  · rw [nearest_zero]
    exact nearest_nonneg le
  · have positive' := positive.trans_le le
    have logs : Int.log 2 |x| ≤ Int.log 2 |y| := by
      rw [abs_of_pos positive, abs_of_pos positive']
      exact Int.log_mono_right positive le
    by_cases same : ulp x = ulp y
    · have scaled := roundHalfEven_mono (div_le_div_of_nonneg_right le (ulp_pos y).le)
      rw [nearest, nearest, same]
      exact mul_le_mul_of_nonneg_right (by exact_mod_cast scaled) (ulp_pos y).le
    · -- the power of two below `y` is a multiple of both spacings, and separates the two
      have apart : max (Int.log 2 |x| - 23) (-149) ≠ max (Int.log 2 |y| - 23) (-149) :=
        fun eq => same (congrArg (2 ^ · : Int → ℚ) eq)
      have low := Int.lt_zpow_succ_log_self (b := 2) (by norm_num) |x|
      have high := Int.zpow_log_le_self (b := 2) (by norm_num) (abs_pos.mpr positive'.ne')
      rw [Nat.cast_ofNat] at low high
      obtain ⟨n, eqX⟩ := @exists_mul_ulp x (Int.log 2 |y|) (by omega) (by omega)
      obtain ⟨m, eqY⟩ := @exists_mul_ulp y (Int.log 2 |y|) (by omega) (by omega)
      have below : x ≤ 2 ^ Int.log 2 |y| :=
        calc x ≤ |x| := le_abs_self x
          _ ≤ 2 ^ (Int.log 2 |x| + 1) := low.le
          _ ≤ 2 ^ Int.log 2 |y| := zpow_le_zpow_right₀ one_le_two (by omega)
      calc nearest x ≤ 2 ^ Int.log 2 |y| := eqX ▸ nearest_le (eqX ▸ below)
        _ ≤ nearest y := eqY ▸ le_nearest (eqY ▸ high.trans_eq (abs_of_pos positive'))

theorem nearest_mono (le : x ≤ y) : nearest x ≤ nearest y := by
  rcases le_total 0 x with nonneg | nonpos
  · exact nearest_mono_of_nonneg nonneg le
  · rcases le_total 0 y with nonneg | nonpos'
    · exact (nearest_nonpos nonpos).trans (nearest_nonneg nonneg)
    · have flipped := nearest_mono_of_nonneg (neg_nonneg.mpr nonpos') (neg_le_neg le)
      rwa [nearest_neg, nearest_neg, neg_le_neg_iff] at flipped

/-! ## Printing -/

/-- A float that is printed with two decimals, or with none if it is whole. -/
def fixedTwo (x : ℚ) : ℚ := if x = ⌈x⌉ then x else roundHalfEven (100 * x) / 100

theorem fixedTwo_intCast (n : Int) : fixedTwo n = n := by
  rw [fixedTwo, if_pos (by simp)]

/-- What is printed is 0 if it is read as 0. -/
theorem fixedTwo_eq_zero (zero : nearest (fixedTwo x) = 0) : fixedTwo x = 0 := by
  have small := abs_le_of_nearest_eq_zero zero
  obtain ⟨k, hundredths⟩ : ∃ k : Int, fixedTwo x = k / 100 := by
    unfold fixedTwo
    split_ifs with whole
    · refine ⟨100 * ⌈x⌉, ?_⟩
      rw [whole]
      push_cast
      rw [Int.ceil_intCast]
      ring
    · exact ⟨_, rfl⟩
  rw [hundredths] at small ⊢
  have none_ : |k| < 1 := by
    have scaled : |(k : ℚ)| < 1 := by
      rw [abs_div] at small
      norm_num at small
      linarith
    exact_mod_cast scaled
  rw [Int.abs_lt_one_iff.mp none_]
  norm_num

/-- Two decimals are enough for hundredths. -/
theorem fixedTwo_eq {k : Int} (near : |x - k / 100| < 1 / 200) : fixedTwo x = k / 100 := by
  have bounds := abs_lt.mp near
  unfold fixedTwo
  split_ifs with whole
  · -- a whole number is a hundredth itself, and two of these are not that close
    have scaled : |(100 * x) - k| < 1 / 2 := by
      rw [abs_lt]
      constructor <;> linarith
    have same := roundHalfEven_eq scaled
    rw [whole, show (100 : ℚ) * ⌈x⌉ = ((100 * ⌈x⌉ : Int) : ℚ) by push_cast; rfl,
      roundHalfEven_intCast] at same
    rw [whole, ← same]
    push_cast
    ring
  · have scaled : |(100 * x) - k| < 1 / 2 := by
      rw [abs_lt]
      constructor <;> linarith
    rw [roundHalfEven_eq scaled]

/-- A number that is printed with some significant digits. -/
def significant (digits : Int) (x : ℚ) : ℚ :=
  let unit := (10 : ℚ) ^ (Int.log 10 |x| - (digits - 1))
  roundHalfEven (x / unit) * unit

end Binary32

end Ezilla
