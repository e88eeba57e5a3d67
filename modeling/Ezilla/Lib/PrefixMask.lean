import Mathlib.Data.Nat.Bitwise
import Mathlib.Tactic.Ring

/-!
# Masks of address prefixes

A network of addresses of `w` bits is what they have in common above their `h` lowest bits.
The mask selects these, and two addresses are in one network when the mask gives the same
for both.
-/

namespace PrefixMask

variable {w h a b i : Nat}

/-- The word whose bits above the `h` lowest are set. -/
def mask (w h : Nat) : Nat := (2 ^ w - 1) <<< h % 2 ^ w

theorem testBit_mask : (mask w h).testBit i = (decide (i < w) && decide (h ≤ i)) := by
  unfold mask
  rw [Nat.testBit_mod_two_pow, Nat.testBit_shiftLeft, Nat.testBit_two_pow_sub_one]
  by_cases inside : i < w
  · have below : i - h < w := by omega
    simp [inside, below]
  · simp [inside]

theorem mask_eq (small : h ≤ w) : mask w h = 2 ^ w - 2 ^ h := by
  have power : 2 ^ h ≤ 2 ^ w := Nat.pow_le_pow_right (by decide) small
  have positive : 0 < 2 ^ h := Nat.two_pow_pos h
  have split : (2 ^ w - 1) * 2 ^ h = (2 ^ w - 2 ^ h) + 2 ^ w * (2 ^ h - 1) := by
    obtain ⟨k, more⟩ := Nat.exists_eq_add_of_le power
    obtain ⟨m, one⟩ := Nat.exists_eq_add_of_le positive
    rw [Nat.succ_eq_add_one, Nat.zero_add] at one
    have top : 2 ^ w - 2 ^ h = k := by omega
    have last : 2 ^ h - 1 = m := by omega
    have before : 2 ^ w - 1 = m + k := by omega
    rw [top, last, before, more, one]
    ring
  unfold mask
  rw [Nat.shiftLeft_eq, split, Nat.add_mul_mod_self_left, Nat.mod_eq_of_lt (by omega)]

/-- The mask keeps what is above the `h` lowest bits. -/
theorem mask_and (word : a < 2 ^ w) : mask w h &&& a = a / 2 ^ h * 2 ^ h := by
  refine Nat.eq_of_testBit_eq fun i => ?_
  rw [Nat.testBit_and, testBit_mask, ← Nat.shiftRight_eq_div_pow, ← Nat.shiftLeft_eq,
    Nat.testBit_shiftLeft, Nat.testBit_shiftRight]
  by_cases high : h ≤ i
  · have back : h + (i - h) = i := by omega
    rw [back]
    by_cases inside : i < w
    · simp [high, inside]
    · have zero : a.testBit i = false :=
        Nat.testBit_lt_two_pow (Nat.lt_of_lt_of_le word
          (Nat.pow_le_pow_right (by decide) (by omega)))
      simp [high, zero]
  · simp [high]

/-- The mask leaves a base address as it is. -/
theorem mask_and_self_iff (word : a < 2 ^ w) : mask w h &&& a = a ↔ a % 2 ^ h = 0 := by
  have parts := Nat.div_add_mod a (2 ^ h)
  rw [mask_and word, Nat.mul_comm]
  omega

/-- An address is in the network of a base address. -/
theorem mask_and_eq_iff (word : a < 2 ^ w) (base : b % 2 ^ h = 0) :
    mask w h &&& a = b ↔ a / 2 ^ h = b / 2 ^ h := by
  have whole : b / 2 ^ h * 2 ^ h = b := Nat.div_mul_cancel (Nat.dvd_of_mod_eq_zero base)
  rw [mask_and word]
  constructor
  · intro same
    rw [← same, Nat.mul_div_cancel _ (Nat.two_pow_pos h)]
  · intro same
    rw [same, whole]

/-- A network ends inside the words. -/
theorem base_add_le (small : h ≤ w) (word : b < 2 ^ w) (base : b % 2 ^ h = 0) :
    b + 2 ^ h ≤ 2 ^ w := by
  obtain ⟨k, is⟩ := Nat.dvd_of_mod_eq_zero base
  have whole : 2 ^ w = 2 ^ h * 2 ^ (w - h) := by rw [← Nat.pow_add, Nat.add_sub_cancel' small]
  rw [whole, is] at word
  have below : k < 2 ^ (w - h) := Nat.lt_of_mul_lt_mul_left word
  calc b + 2 ^ h = 2 ^ h * (k + 1) := by rw [is, Nat.mul_succ]
    _ ≤ 2 ^ h * 2 ^ (w - h) := Nat.mul_le_mul_left _ below
    _ = 2 ^ w := whole.symm

end PrefixMask
