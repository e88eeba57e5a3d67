import Mathlib.Combinatorics.Colex

/-!
# Sums of powers of two

A word that is composed by adding one power of two for each flag has exactly
those bits set, if no flag is added twice. A flag that is added twice carries
into another bit.
-/

namespace BitSum

variable {l l' : List Nat}

/-- The number with one power of two for each position. -/
def ofPositions (l : List Nat) : Nat :=
  (l.map fun i => 2 ^ i).sum

@[simp] theorem ofPositions_nil : ofPositions [] = 0 := rfl

@[simp] theorem ofPositions_cons (i : Nat) : ofPositions (i :: l) = 2 ^ i + ofPositions l := by
  rw [ofPositions, List.map_cons, List.sum_cons]
  rfl

/-- Positions that are all moved up by the same distance. -/
theorem ofPositions_map_add (k : Nat) :
    ofPositions (l.map fun i => k + i) = 2 ^ k * ofPositions l := by
  induction l with
  | nil => rfl
  | cons i l ih => rw [List.map_cons, ofPositions_cons, ofPositions_cons, ih, Nat.mul_add, pow_add]

theorem testBit_ofPositions (nodup : l.Nodup) (j : Nat) :
    (ofPositions l).testBit j = true ↔ j ∈ l := by
  have sum : ∑ i ∈ l.toFinset, 2 ^ i = ofPositions l := List.sum_toFinset (fun i => 2 ^ i) nodup
  rw [← Nat.mem_bitIndices, ← List.mem_toFinset, ← sum, Finset.toFinset_bitIndices_sum_two_pow,
    List.mem_toFinset]

/-- Some positions of a list make a smaller number than all of them. -/
theorem eq_of_sublist (sub : l.Sublist l') (same : ofPositions l = ofPositions l') : l = l' := by
  have le : ∀ {l l' : List Nat}, l.Sublist l' → ofPositions l ≤ ofPositions l' := fun sub =>
    (sub.map _).sum_le_sum fun a _ => Nat.zero_le a
  induction sub with
  | slnil => rfl
  | @cons l l' i sub ih =>
    have positive : 0 < 2 ^ i := Nat.two_pow_pos i
    have below := le sub
    rw [ofPositions_cons] at same
    omega
  | @cons_cons l l' i sub ih =>
    rw [ofPositions_cons, ofPositions_cons] at same
    rw [ih (by omega)]

/-- A sum has exactly the bits of its positions where no position comes twice. -/
theorem testBit_ofPositions_iff_nodup :
    (∀ j, (ofPositions l).testBit j = true ↔ j ∈ l) ↔ l.Nodup := by
  refine ⟨fun bits => ?_, testBit_ofPositions⟩
  have same : ofPositions l.dedup = ofPositions l := by
    refine Nat.eq_of_testBit_eq fun j => Bool.eq_iff_iff.mpr ?_
    rw [testBit_ofPositions l.nodup_dedup, bits, List.mem_dedup]
  rw [← eq_of_sublist l.dedup_sublist same]
  exact l.nodup_dedup

end BitSum
