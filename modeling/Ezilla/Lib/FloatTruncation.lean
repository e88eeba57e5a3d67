import Ezilla.Lib.MachineInt

/-!
# Floats that become integers

A product of floats is rounded before its fraction is cut off, so it may become the next integer,
or fail to become one. Which integer it becomes is decided by where the exact number lies between
two floats.

* `Binary32.gap`: the distance from a float to the one below;
* `Binary32.le_nearest_iff`: the numbers that are rounded up to a float;
* `Binary32.truncate_nearest_eq_iff`: the numbers that become an integer.
-/

namespace Ezilla

/-- The middle between two integers is rounded to the even one. -/
theorem roundHalfEven_middle (n : Int) :
    roundHalfEven (n - 1 / 2) = if n % 2 = 0 then n else n - 1 := by
  have floor : ⌊(n : ℚ) - 1 / 2⌋ = n - 1 := by
    rw [Int.floor_eq_iff]
    push_cast
    constructor <;> linarith
  have fract : Int.fract ((n : ℚ) - 1 / 2) = 1 / 2 := by
    rw [Int.fract, floor]
    push_cast
    ring
  rw [roundHalfEven, fract, floor, if_neg (lt_irrefl _), if_neg (lt_irrefl _)]
  split_ifs <;> omega

/-- A number is rounded up to an integer past the middle below it, and in the middle if the
integer is even. -/
theorem le_roundHalfEven_iff {x : ℚ} {n : Int} :
    n ≤ roundHalfEven x ↔ n - 1 / 2 < x ∨ x = n - 1 / 2 ∧ n % 2 = 0 := by
  have near := abs_le.mp (abs_roundHalfEven_sub_le x)
  rcases lt_trichotomy x (n - 1 / 2) with below | middle | past
  · refine iff_of_false ?_ ?_
    · intro le
      have whole : (n : ℚ) ≤ roundHalfEven x := by exact_mod_cast le
      linarith [near.2]
    · rintro (past | ⟨middle, -⟩) <;> linarith
  · rw [middle, roundHalfEven_middle]
    split_ifs with even
    · exact iff_of_true le_rfl (Or.inr ⟨rfl, even⟩)
    · refine iff_of_false (by omega) ?_
      rintro (past | ⟨-, even'⟩)
      · exact lt_irrefl _ past
      · exact even even'
  · refine iff_of_true ?_ (Or.inl past)
    by_contra less
    have below : (roundHalfEven x : ℚ) + 1 ≤ n := by exact_mod_cast (not_le.mp less)
    linarith [near.1]

namespace Binary32

/-! ## The float below -/

/-- The distance from a positive float to the one below it. -/
def gap (z : ℚ) : ℚ := 2 ^ max (Int.clog 2 z - 24) (-149)

/-- `x` is past the middle between the float `z` and the one below, or it is the middle and `z` is
the even one. -/
def Reaches (z x : ℚ) : Prop := z - gap z / 2 < x ∨ x = z - gap z / 2 ∧ ⌊z / gap z⌋ % 2 = 0

instance (z x : ℚ) : Decidable (Reaches z x) := inferInstanceAs (Decidable (_ ∨ _))

variable {x y z : ℚ}

theorem gap_pos (z : ℚ) : 0 < gap z := zpow_pos two_pos _

/-- A float is a multiple of each power of two that is small enough. -/
theorem exists_mul_zpow {m e k : Int} (le : k ≤ e) :
    ∃ n : Int, (m : ℚ) * 2 ^ e = n * 2 ^ k := by
  obtain ⟨j, steps⟩ := Int.eq_ofNat_of_zero_le (sub_nonneg.mpr le)
  refine ⟨m * 2 ^ j, ?_⟩
  rw [show e = j + k by omega, zpow_add₀ two_ne_zero]
  push_cast
  rw [zpow_natCast]
  ring

/-- A positive float is a multiple of the distance to the one below. -/
theorem exists_mul_gap (positive : 0 < z) (float : Representable z) :
    ∃ k : Int, 0 < k ∧ z = k * gap z := by
  obtain ⟨m, e, small, least, split⟩ := float
  have unit : (0 : ℚ) < 2 ^ e := zpow_pos two_pos e
  have above : z ≤ 2 ^ (e + 24) := by
    rw [split, add_comm, zpow_add₀ two_ne_zero]
    refine mul_le_mul_of_nonneg_right ?_ unit.le
    exact_mod_cast (abs_lt.mp small).2.le
  have exponent : Int.clog 2 z ≤ e + 24 :=
    (Int.le_zpow_iff_clog_le (b := 2) (by norm_num) positive).mp (by exact_mod_cast above)
  obtain ⟨k, multiple⟩ := @exists_mul_zpow m e (max (Int.clog 2 z - 24) (-149)) (by omega)
  refine ⟨k, ?_, split.trans multiple⟩
  rw [split, multiple] at positive
  exact_mod_cast (mul_pos_iff_of_pos_right (gap_pos z)).mp positive

/-- Where the floats have one distance, a number is rounded like an integer. -/
theorem le_nearest_iff_of_ulp_eq {k : Int} (multiple : z = k * gap z) (same : ulp x = gap z) :
    z ≤ nearest x ↔ Reaches z x := by
  have pos := gap_pos z
  have whole : z / gap z = k := (div_eq_iff pos.ne').mpr multiple
  have scaled : z ≤ nearest x ↔ k ≤ roundHalfEven (x / gap z) := by
    rw [nearest, same, ← div_le_iff₀ pos, whole, Int.cast_le]
  have middle : z - gap z / 2 = (k - 1 / 2) * gap z := by
    rw [sub_mul]
    linarith
  rw [scaled, le_roundHalfEven_iff, Reaches, whole, Int.floor_intCast, middle, lt_div_iff₀ pos,
    div_eq_iff pos.ne']

/-- The numbers that are rounded to a positive float or to one above. -/
theorem le_nearest_iff (positive : 0 < z) (float : Representable z) :
    z ≤ nearest x ↔ Reaches z x := by
  obtain ⟨k, least, multiple⟩ := exists_mul_gap positive float
  have pos := gap_pos z
  rcases le_or_gt x 0 with nonpos | xpos
  · refine iff_of_false ?_ ?_
    · have down := nearest_nonpos nonpos
      linarith
    · have one : (1 : ℚ) ≤ k := by exact_mod_cast least
      have room : gap z ≤ z := by nlinarith
      rintro (past | ⟨middle, -⟩) <;> linarith
  rcases le_or_gt z x with above | below
  · refine iff_of_true ?_ (Or.inl (by linarith))
    have up := nearest_mono above
    rwa [nearest_of_representable float] at up
  by_cases same : max (Int.log 2 |x| - 23) (-149) = max (Int.clog 2 z - 24) (-149)
  · exact le_nearest_iff_of_ulp_eq multiple (congrArg (2 ^ · : Int → ℚ) same)
  · -- a power of two lies between the two numbers
    have lower := Int.zpow_log_le_self (b := 2) (by norm_num) (abs_pos.mpr xpos.ne')
    have upper := Int.self_le_zpow_clog (b := 2) (by norm_num) z
    have bound := Int.zpow_pred_clog_lt_self (b := 2) (by norm_num) positive
    have next := Int.lt_zpow_succ_log_self (b := 2) (by norm_num) |x|
    rw [Nat.cast_ofNat] at lower upper bound next
    rw [abs_of_pos xpos] at lower next same
    have logs : Int.log 2 x < Int.clog 2 z :=
      (zpow_lt_zpow_iff_right₀ one_lt_two).mp ((lower.trans_lt below).trans_le upper)
    have power : (2 : ℚ) ^ (Int.clog 2 z - 1) = (2 ^ 23 : Int) * gap z := by
      rw [gap, max_eq_left (by omega), show Int.clog 2 z - 1 = 23 + (Int.clog 2 z - 24) by ring,
        zpow_add₀ two_ne_zero]
      norm_num
    have under : x < 2 ^ (Int.clog 2 z - 1) :=
      next.trans_le (zpow_le_zpow_right₀ one_le_two (by omega))
    obtain ⟨n, eq⟩ := @exists_mul_ulp x (Int.clog 2 z - 1) (by omega)
      (by rw [abs_of_pos xpos]; omega)
    have down : nearest x ≤ 2 ^ (Int.clog 2 z - 1) := eq ▸ nearest_le (eq ▸ under.le)
    have far : (2 : ℚ) ^ (Int.clog 2 z - 1) + gap z ≤ z := by
      have more : (2 ^ 23 : Int) < k := by
        exact_mod_cast lt_of_mul_lt_mul_right ((power ▸ bound).trans_eq multiple) pos.le
      have steps := mul_le_mul_of_nonneg_right
        (by exact_mod_cast more : ((2 ^ 23 : Int) : ℚ) + 1 ≤ k) pos.le
      rw [← multiple] at steps
      linarith
    refine iff_of_false (by linarith) ?_
    rintro (past | ⟨middle, -⟩) <;> linarith

/-! ## Integers -/

theorem representable_of_mul {k e : Int} (small : |k| ≤ 2 ^ 24) (least : -149 ≤ e) :
    Representable (k * 2 ^ e) := by
  rcases small.lt_or_eq with less | top
  · exact ⟨k, e, less, least, rfl⟩
  · rcases abs_eq (by norm_num) |>.mp top with rfl | rfl
    · refine ⟨2 ^ 23, e + 1, by decide, by omega, ?_⟩
      rw [zpow_add_one₀ two_ne_zero]
      push_cast
      ring
    · refine ⟨-2 ^ 23, e + 1, by decide, by omega, ?_⟩
      rw [zpow_add_one₀ two_ne_zero]
      push_cast
      ring

/-- What a number is rounded to is a float. -/
theorem representable_nearest (x : ℚ) : Representable (nearest x) := by
  refine representable_of_mul ?_ (le_max_right _ _)
  have pos := ulp_pos x
  have less : |x / ulp x| < 2 ^ 24 := by
    rw [abs_div, abs_of_pos pos, div_lt_iff₀ pos, ulp]
    have next := Int.lt_zpow_succ_log_self (b := 2) (by norm_num) |x|
    rw [Nat.cast_ofNat] at next
    refine next.trans_le ?_
    rw [show (2 : ℚ) ^ 24 = 2 ^ (24 : Int) from rfl, ← zpow_add₀ two_ne_zero]
    exact zpow_le_zpow_right₀ one_le_two (by omega)
  have bounds := abs_lt.mp less
  have up := roundHalfEven_mono (x := x / ulp x) (y := (2 ^ 24 : Int)) (by push_cast; linarith)
  have down := roundHalfEven_mono (x := (-2 ^ 24 : Int)) (y := x / ulp x)
    (by push_cast; linarith)
  rw [roundHalfEven_intCast] at up down
  exact abs_le.mpr ⟨down, up⟩

theorem nearest_eq_self_iff : nearest x = x ↔ Representable x :=
  ⟨fun same => same ▸ representable_nearest x, nearest_of_representable⟩

/-- A float that is not below another number is a multiple of its distance. -/
theorem exists_mul_ulp_of_le (positive : 0 < x) (le : x ≤ y) (float : Representable y) :
    ∃ k : Int, y = k * ulp x := by
  have logs : Int.log 2 |x| ≤ Int.log 2 |y| := by
    rw [abs_of_pos positive, abs_of_pos (positive.trans_le le)]
    exact Int.log_mono_right positive le
  have value := nearest_of_representable float
  rw [nearest] at value
  obtain ⟨k, multiple⟩ := @exists_mul_zpow (roundHalfEven (y / ulp y))
    (max (Int.log 2 |y| - 23) (-149)) (max (Int.log 2 |x| - 23) (-149)) (by omega)
  exact ⟨k, value.symm.trans multiple⟩

/-- The next number that becomes another integer when a float is cut off. -/
def next (n : ℚ) : ℚ := n + max 1 (ulp n)

theorem lt_next (n : ℚ) : n < next n := by
  have one := le_max_left 1 (ulp n)
  rw [next]
  linarith

theorem add_one_le_next (n : ℚ) : n + 1 ≤ next n := by
  have one := le_max_left 1 (ulp n)
  rw [next]
  linarith

/-- Integers with a distance of more than 1 are positive. -/
theorem ne_zero_of_one_lt_ulp (wide : 1 < ulp x) : x ≠ 0 := by
  rintro rfl
  rw [ulp, abs_zero, Int.log_zero_right] at wide
  norm_num at wide

theorem representable_next {n : Int} (nonneg : 0 ≤ n) (float : Representable n) :
    Representable (next n) := by
  have nonneg' : (0 : ℚ) ≤ n := by exact_mod_cast nonneg
  rcases le_or_gt (ulp n) 1 with narrow | wide
  · have small : n < 2 ^ 24 := by
      have exponent : max (Int.log 2 |(n : ℚ)| - 23) (-149) ≤ 0 :=
        (zpow_le_zpow_iff_right₀ (one_lt_two (α := ℚ))).mp (by rwa [zpow_zero])
      have above := Int.lt_zpow_succ_log_self (b := 2) (by norm_num) |(n : ℚ)|
      rw [Nat.cast_ofNat, abs_of_nonneg nonneg'] at above
      have power : (2 : ℚ) ^ (Int.log 2 (n : ℚ) + 1) ≤ 2 ^ (24 : Int) :=
        zpow_le_zpow_right₀ one_le_two (by rw [abs_of_nonneg nonneg'] at exponent; omega)
      exact_mod_cast above.trans_le power
    have value := @representable_of_mul (n + 1) 0 (abs_le.mpr (by omega)) (by decide)
    rw [next, max_eq_left narrow]
    simpa using value
  · have positive := lt_of_le_of_ne nonneg' (ne_zero_of_one_lt_ulp wide).symm
    obtain ⟨k, multiple⟩ := exists_mul_ulp_of_le positive le_rfl float
    have pos := ulp_pos n
    have value : next n = ((k + 1 : Int) : ℚ) * ulp n := by
      rw [next, max_eq_right wide.le]
      push_cast
      linarith
    have low : 0 < k := by
      rw [multiple] at positive
      exact_mod_cast (mul_pos_iff_of_pos_right pos).mp positive
    have high : k < 2 ^ 24 := by
      have above := Int.lt_zpow_succ_log_self (b := 2) (by norm_num) |(n : ℚ)|
      rw [Nat.cast_ofNat] at above
      have scaled : (k : ℚ) * ulp n < (2 ^ 24 : Int) * ulp n := by
        rw [← multiple]
        refine ((le_abs_self _).trans_lt above).trans_le ?_
        rw [ulp, show ((2 ^ 24 : Int) : ℚ) = 2 ^ (24 : Int) by norm_num, ← zpow_add₀ two_ne_zero]
        exact zpow_le_zpow_right₀ one_le_two (by omega)
      exact_mod_cast lt_of_mul_lt_mul_right scaled pos.le
    rw [value]
    exact representable_of_mul (abs_le.mpr (by omega)) (le_max_right _ _)

/-- The integer part of a float is a float. -/
theorem representable_floor (float : Representable x) : Representable ⌊x⌋ := by
  obtain ⟨m, e, small, least, split⟩ := float
  rcases le_or_gt 0 e with whole | part
  · obtain ⟨j, rfl⟩ := Int.eq_ofNat_of_zero_le whole
    have value : x = ((m * 2 ^ j : Int) : ℚ) := by
      rw [split]
      push_cast
      rfl
    rw [value, Int.floor_intCast, ← value]
    exact ⟨m, j, small, least, split⟩
  · have unit : (2 : ℚ) ^ e ≤ 1 := zpow_le_one_of_nonpos₀ one_le_two part.le
    have below : |x| ≤ (2 ^ 24 : Int) := by
      have positive : (0 : ℚ) < 2 ^ e := zpow_pos two_pos e
      rw [split, abs_mul, abs_of_pos positive]
      refine (mul_le_of_le_one_right (abs_nonneg _) unit).trans ?_
      exact_mod_cast small.le
    obtain ⟨low, high⟩ := abs_le.mp below
    have floor := Int.floor_mono high
    have floor' := Int.floor_mono low
    rw [Int.floor_intCast] at floor
    rw [← Int.cast_neg, Int.floor_intCast] at floor'
    simpa using @representable_of_mul ⌊x⌋ 0 (abs_le.mpr ⟨floor', floor⟩) (by decide)

/-- The numbers that become an integer when their float is cut off. -/
theorem floor_nearest_eq_iff {n : Int} (nonneg : 0 ≤ x) (nonneg' : 0 ≤ n) :
    ⌊nearest x⌋ = n ↔
      (n = 0 ∨ nearest n = n ∧ Reaches n x) ∧ ¬ Reaches (next n) x := by
  have cast : (0 : ℚ) ≤ n := by exact_mod_cast nonneg'
  have float := representable_nearest x
  constructor
  · rintro rfl
    have floats := representable_floor float
    have above : (0 : ℚ) < next ⌊nearest x⌋ := cast.trans_lt (lt_next _)
    refine ⟨?_, ?_⟩
    · rcases nonneg'.eq_or_lt with zero | positive
      · exact Or.inl zero.symm
      · refine Or.inr ⟨nearest_of_representable floats, ?_⟩
        exact (le_nearest_iff (by exact_mod_cast positive) floats).mp (Int.floor_le _)
    · rw [← le_nearest_iff above (representable_next nonneg' floats), not_le]
      exact (Int.lt_floor_add_one _).trans_le (add_one_le_next _)
  · rintro ⟨reached, not⟩
    have floats : Representable n := by
      rcases reached with rfl | ⟨same, -⟩
      · exact nearest_eq_self_iff.mp (by simp)
      · exact nearest_eq_self_iff.mp same
    have above : (0 : ℚ) < next n := cast.trans_lt (lt_next _)
    rw [← le_nearest_iff above (representable_next nonneg' floats), not_le] at not
    have low : (n : ℚ) ≤ nearest x := by
      rcases reached with rfl | ⟨-, reached⟩
      · exact_mod_cast nearest_nonneg nonneg
      · rcases cast.eq_or_lt with zero | positive
        · rw [← zero]
          exact nearest_nonneg nonneg
        · exact (le_nearest_iff positive floats).mpr reached
    refine Int.floor_eq_iff.mpr ⟨low, ?_⟩
    rcases le_or_gt (ulp n) 1 with narrow | wide
    · rwa [next, max_eq_left narrow] at not
    · have positive := lt_of_le_of_ne cast (ne_zero_of_one_lt_ulp wide).symm
      obtain ⟨i, whole⟩ := exists_mul_ulp_of_le positive le_rfl floats
      obtain ⟨j, value⟩ := exists_mul_ulp_of_le positive low float
      have pos := ulp_pos n
      have le : j ≤ i := by
        rw [next, max_eq_right wide.le, value] at not
        have steps : (j : ℚ) * ulp n < ((i + 1 : Int) : ℚ) * ulp n := by
          push_cast
          linarith
        have less : j < i + 1 := by exact_mod_cast lt_of_mul_lt_mul_right steps pos.le
        omega
      have same : nearest x ≤ n :=
        calc nearest x = j * ulp n := value
          _ ≤ i * ulp n := mul_le_mul_of_nonneg_right (by exact_mod_cast le) pos.le
          _ = n := whole.symm
      linarith

/-- Where the product of two floats has to lie for its float to become an integer: of the sign of
that integer, up to it, and not up to the next. -/
def Reads (x : ℚ) (n : Int) : Prop :=
  (n = 0 ∨ nearest n = n ∧ 0 < n * x ∧ Reaches |n| |x|) ∧ ¬ Reaches (next |n|) |x|

instance (x : ℚ) (n : Int) : Decidable (Reads x n) := inferInstanceAs (Decidable (_ ∧ _))

theorem reads_neg {n : Int} : Reads (-x) (-n) ↔ Reads x n := by
  unfold Reads
  rw [neg_eq_zero, abs_neg]
  push_cast
  rw [nearest_neg, neg_inj, abs_neg, neg_mul_neg]

/-- The numbers whose float becomes an integer. -/
theorem truncate_nearest_eq_iff {n : Int} : truncate (nearest x) = n ↔ Reads x n := by
  have core : ∀ (y : ℚ) (m : Int), 0 ≤ y → (truncate (nearest y) = m ↔ Reads y m) := by
    intro y m nonneg
    rw [truncate_of_nonneg (nearest_nonneg nonneg)]
    rcases le_or_gt 0 m with nonneg' | negative
    · have cast : (0 : ℚ) ≤ m := by exact_mod_cast nonneg'
      rw [floor_nearest_eq_iff nonneg nonneg', Reads, abs_of_nonneg cast, abs_of_nonneg nonneg]
      refine and_congr_left' (or_congr_right' ?_)
      intro nonzero
      have positive : (0 : ℚ) < m := lt_of_le_of_ne cast (by exact_mod_cast Ne.symm nonzero)
      refine and_congr_right ?_
      intro float
      -- 0 is rounded to no other integer
      refine (and_iff_right_of_imp ?_).symm
      intro reaches
      refine mul_pos positive (lt_of_le_of_ne nonneg ?_)
      rintro rfl
      have up := (le_nearest_iff positive (nearest_eq_self_iff.mp float)).mpr reaches
      rw [nearest_zero] at up
      exact absurd positive (not_lt.mpr up)
    · have floor := Int.floor_nonneg.mpr (nearest_nonneg nonneg)
      have cast : (m : ℚ) < 0 := by exact_mod_cast negative
      refine iff_of_false (by omega) ?_
      rintro ⟨rfl | ⟨-, sign, -⟩, -⟩
      · exact lt_irrefl _ negative
      · exact absurd sign (not_lt.mpr (mul_nonpos_of_nonpos_of_nonneg cast.le nonneg))
  rcases le_total 0 x with nonneg | nonpos
  · exact core x n nonneg
  · rw [← reads_neg, ← core (-x) (-n) (by linarith), nearest_neg, truncate_neg, neg_inj]

end Binary32

end Ezilla
