import Ezilla.Lib.Binary32

/-!
# 32-bit integers

An `Int32` computes what the integers do as long as the result stays in range. A float that
becomes an integer loses its fraction; a machine gives the least integer for one that is out of
range.

* `InRange`, `toInt_add_of_inRange`, `toInt_sub_of_inRange`, `toInt_mul_of_inRange`: results
  that stay in range;
* `truncate`, `toInt32`: floats that become integers.
-/

namespace Ezilla

/-! ## Range -/

/-- The integers of 32 bits. -/
def InRange (n : Int) : Prop := -2 ^ 31 ≤ n ∧ n < 2 ^ 31

instance (n : Int) : Decidable (InRange n) := inferInstanceAs (Decidable (_ ∧ _))

section Range

variable {x y : Int32} {a b : Int}

theorem inRange_toInt (x : Int32) : InRange x.toInt :=
  ⟨Int32.le_toInt x, Int32.toInt_lt x⟩

theorem bmod_of_inRange (range : InRange a) : a.bmod (2 ^ 32) = a := by
  obtain ⟨low, high⟩ := range
  exact Int.bmod_eq_of_le (by omega) (by omega)

theorem toInt_ofInt_of_inRange (range : InRange a) : (Int32.ofInt a).toInt = a := by
  rw [Int32.toInt_ofInt]
  exact bmod_of_inRange range

theorem toInt_add_of_inRange (left : x.toInt = a) (right : y.toInt = b)
    (range : InRange (a + b)) : (x + y).toInt = a + b := by
  rw [Int32.toInt_add, left, right]
  exact bmod_of_inRange range

theorem toInt_sub_of_inRange (left : x.toInt = a) (right : y.toInt = b)
    (range : InRange (a - b)) : (x - y).toInt = a - b := by
  rw [Int32.toInt_sub, left, right]
  exact bmod_of_inRange range

theorem toInt_mul_of_inRange (left : x.toInt = a) (right : y.toInt = b)
    (range : InRange (a * b)) : (x * y).toInt = a * b := by
  rw [Int32.toInt_mul, left, right]
  exact bmod_of_inRange range

/-- A sum is an integer of 32 bits that has the same remainder. -/
theorem toInt_add_eq_iff (left : x.toInt = a) :
    (x + y).toInt = b ↔ InRange b ∧ y = Int32.ofInt (b - a) := by
  have split : x = Int32.ofInt a := by rw [← left, Int32.ofInt_toInt]
  constructor
  · intro sum
    refine ⟨sum ▸ inRange_toInt _, ?_⟩
    rw [← sum, ← left, Int32.ofInt_sub, Int32.ofInt_toInt, Int32.ofInt_toInt]
    grind
  · rintro ⟨range, rfl⟩
    rw [split, ← Int32.ofInt_add, add_sub_cancel]
    exact toInt_ofInt_of_inRange range

/-- 1023 is odd, so that no product but that with 0 ends in 32 zeros. -/
theorem mul_1024_eq_iff : x * 1024 = x ↔ x = 0 := by
  constructor
  · intro same
    have ints := congrArg Int32.toInt same
    have low := Int32.le_toInt x
    have high := Int32.toInt_lt x
    rw [← Int32.toInt_inj]
    simp only [Int32.toInt_mul] at ints
    simp [Int.bmod] at ints ⊢
    omega
  · rintro rfl
    rfl

end Range

/-! ## Floats -/

/-- A number without its fraction. -/
def truncate (x : ℚ) : Int := if 0 ≤ x then ⌊x⌋ else ⌈x⌉

/-- The integer of a float. -/
def toInt32 (x : ℚ) : Int32 :=
  if InRange (truncate x) then .ofInt (truncate x) else Int32.minValue

section Truncate

variable {x : ℚ}

theorem truncate_of_nonneg (nonneg : 0 ≤ x) : truncate x = ⌊x⌋ := if_pos nonneg

theorem truncate_neg (x : ℚ) : truncate (-x) = -truncate x := by
  unfold truncate
  rcases lt_trichotomy x 0 with negative | zero | positive
  · rw [if_pos (by linarith), if_neg (by linarith), Int.floor_neg]
  · subst zero
    simp
  · rw [if_neg (by linarith), if_pos (by linarith), Int.ceil_neg]

theorem toInt_toInt32_eq (x : ℚ) :
    (toInt32 x).toInt = if InRange (truncate x) then truncate x else -2 ^ 31 := by
  unfold toInt32
  split_ifs with range
  · exact toInt_ofInt_of_inRange range
  · rfl

theorem toInt_toInt32 (range : InRange (truncate x)) : (toInt32 x).toInt = truncate x := by
  rw [toInt_toInt32_eq, if_pos range]

end Truncate

end Ezilla
