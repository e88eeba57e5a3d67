import Mathlib.Data.BitVec

/-!
# Words packed from flags and an id

A 64-bit word that keeps flags in its upper half and a 32-bit id in its lower half is
compared with masks and tested for single bits. The lemmas here turn such comparisons
into statements about the two halves and about the bits.
-/

namespace PackedWord

variable {w : Nat} {x a b : BitVec w}

/-! ## Flags -/

/-- A mask made of two masks is contained in a word when both are. -/
theorem and_or_eq_iff : x &&& (a ||| b) = a ||| b ↔ x &&& a = a ∧ x &&& b = b := by
  constructor
  · intro both
    have bits : ∀ i (h : i < w), (x[i] && (a[i] || b[i])) = (a[i] || b[i]) := fun i h => by
      simpa only [BitVec.getElem_and, BitVec.getElem_or] using
        congrArg (fun y : BitVec w => y[i]) both
    constructor
    · ext i h
      have bit := bits i h
      rw [BitVec.getElem_and]
      revert bit
      cases x[i] <;> cases a[i] <;> cases b[i] <;> decide
    · ext i h
      have bit := bits i h
      rw [BitVec.getElem_and]
      revert bit
      cases x[i] <;> cases a[i] <;> cases b[i] <;> decide
  · rintro ⟨left, right⟩
    rw [BitVec.and_or_distrib_left, left, right]

/-- A single bit is contained in a word when it is set there. -/
theorem and_twoPow_eq_iff {i : Nat} (small : i < w) :
    x &&& BitVec.twoPow w i = BitVec.twoPow w i ↔ x.getLsbD i = true := by
  rw [BitVec.and_twoPow]
  cases x.getLsbD i with
  | true => simp
  | false =>
    simp only [Bool.false_eq_true, if_false, iff_false]
    intro zero
    have bit := congrArg (fun y => BitVec.getLsbD y i) zero
    simp [small] at bit

/-- A single bit is absent from a word when it is not set there. -/
theorem and_twoPow_eq_zero_iff {i : Nat} (small : i < w) :
    x &&& BitVec.twoPow w i = 0 ↔ x.getLsbD i = false := by
  rw [BitVec.and_twoPow]
  cases x.getLsbD i with
  | false => simp
  | true =>
    simp only [if_true, Bool.true_eq_false, iff_false]
    intro zero
    have bit := congrArg (fun y => BitVec.getLsbD y i) zero
    simp [small] at bit

/-- Words with a single bit are told apart by its place. -/
theorem twoPow_inj_iff {i j : Nat} (small : i < w) :
    BitVec.twoPow w i = BitVec.twoPow w j ↔ i = j := by
  constructor
  · intro same
    have bit := congrArg (fun y => BitVec.getLsbD y i) same
    simpa [BitVec.getLsbD_twoPow, small, eq_comm] using bit
  · rintro rfl
    rfl

/-- Words without a common bit. -/
theorem and_eq_zero_iff : x &&& a = 0 ↔ ∀ i, a.getLsbD i = true → x.getLsbD i = false := by
  constructor
  · intro zero i set
    have bit := congrArg (fun y => BitVec.getLsbD y i) zero
    simpa [set] using bit
  · intro apart
    ext i bound
    rw [BitVec.getElem_and, ← BitVec.getLsbD_eq_getElem, ← BitVec.getLsbD_eq_getElem]
    cases set : a.getLsbD i with
    | true => simp [apart i set]
    | false => simp

/-- All bits of some words. -/
def orAll (words : List (BitVec w)) : BitVec w := words.foldr (· ||| ·) 0

@[simp] theorem orAll_nil : orAll ([] : List (BitVec w)) = 0 := rfl

@[simp] theorem orAll_cons {words : List (BitVec w)} : orAll (x :: words) = x ||| orAll words :=
  rfl

/-- A bit is set when some word has it. -/
theorem getLsbD_orAll {words : List (BitVec w)} {i : Nat} :
    (orAll words).getLsbD i = true ↔ ∃ x ∈ words, x.getLsbD i = true := by
  induction words with
  | nil => simp
  | cons x words ih => simp [ih]

/-! ## The two halves -/

/-- The upper half of a word. -/
def flags (x : BitVec 64) : BitVec 32 := x.extractLsb' 32 32

/-- The lower half of a word. -/
def ident (x : BitVec 64) : BitVec 32 := x.setWidth 32

variable {y : BitVec 64} {hi hi' lo lo' : BitVec 32}

theorem append_flags_ident (y : BitVec 64) : flags y ++ ident y = y := by
  ext i bound
  simp only [flags, ident, BitVec.getElem_append, BitVec.getElem_setWidth,
    BitVec.getElem_extractLsb']
  split
  · rw [BitVec.getLsbD_eq_getElem]
  · rw [Nat.add_sub_cancel' (by omega), BitVec.getLsbD_eq_getElem]

theorem append_inj_iff : hi ++ lo = hi' ++ lo' ↔ hi = hi' ∧ lo = lo' := by
  constructor
  · intro same
    constructor
    · have upper := congrArg (BitVec.extractLsb' 32 32) same
      rwa [BitVec.extractLsb'_append_eq_left, BitVec.extractLsb'_append_eq_left] at upper
    · have lower := congrArg (BitVec.setWidth 32) same
      rwa [BitVec.setWidth_append_eq_right, BitVec.setWidth_append_eq_right] at lower
  · rintro ⟨rfl, rfl⟩
    rfl

theorem eq_append_iff : y = hi ++ lo ↔ flags y = hi ∧ ident y = lo := by
  rw [← append_inj_iff, append_flags_ident]

/-- A mask over some flags and the whole id compares the flags and the id apart. -/
theorem and_append_eq_iff {mask : BitVec 32} :
    y &&& (mask ++ BitVec.allOnes 32) = hi ++ lo ↔ flags y &&& mask = hi ∧ ident y = lo := by
  rw [← append_flags_ident y, BitVec.and_append, append_inj_iff, BitVec.and_allOnes,
    append_flags_ident]

/-- A mask over flags only says nothing about the id. -/
theorem and_append_zero_eq_iff {mask : BitVec 32} :
    y &&& (mask ++ 0#32) = hi ++ 0#32 ↔ flags y &&& mask = hi := by
  rw [← append_flags_ident y, BitVec.and_append, append_inj_iff, append_flags_ident]
  simp

/-- Words that have flags only. -/
theorem orAll_map_append {α : Type*} {f : α → BitVec 32} {l : List α} :
    orAll (l.map fun a => f a ++ 0#32) = orAll (l.map f) ++ 0#32 := by
  induction l with
  | nil => exact (by decide : (0 : BitVec 64) = 0#32 ++ 0#32)
  | cons a l ih =>
    rw [List.map_cons, List.map_cons, orAll_cons, orAll_cons, ih, BitVec.or_append, BitVec.or_zero]

end PackedWord
