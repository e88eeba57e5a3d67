import Mathlib.Data.Finset.Card
import Mathlib.Order.Bounds.Basic
import Mathlib.Order.Interval.Finset.Defs

/-!
# Cyclic scans

A scan goes through a finite ordered set from a position of its own, each time to the next
element, and from the end to the least one again. After as many steps as there are elements
it has passed all of them, wherever it started.
-/

variable {α : Type*} [LinearOrder α] {K : Finset α} {passes : α → Prop} {a b k : α}
  {c : Option α} {n : Nat}

namespace CyclicScan

/-- The position after an element; `none` is the end. -/
def IsNext (K : Finset α) (a : α) : Option α → Prop
  | some b => b ∈ K ∧ a < b ∧ ∀ k ∈ K, a < k → b ≤ k
  | none => ∀ k ∈ K, k ≤ a

/-- A scan of so many steps from a position that passes every element it looks at. -/
inductive Scans (K : Finset α) (passes : α → Prop) : Nat → Option α → Prop where
  | done {c : Option α} : Scans K passes 0 c
  | step {n : Nat} {a : α} {c : Option α} (member : a ∈ K) (passed : passes a)
      (next : IsNext K a c) (rest : Scans K passes n c) : Scans K passes (n + 1) (some a)
  | wrap {n : Nat} {a : α} (least : ∀ k ∈ K, a ≤ k) (rest : Scans K passes n (some a)) :
      Scans K passes n none

/-- The elements from `a` on that are before `k`. -/
def between (K : Finset α) (a k : α) : Finset α := K.filter fun x => a ≤ x ∧ x < k

/-- The elements from `a` on. -/
def above (K : Finset α) (a : α) : Finset α := K.filter (a ≤ ·)

/-- Going to the next element leaves one element behind. -/
theorem card_between_next (member : a ∈ K) (next : IsNext K a (some b)) (before : a < k) :
    (between K a k).card = (between K b k).card + 1 := by
  have absent : a ∉ between K b k := fun inside =>
    not_lt.mpr (Finset.mem_filter.mp inside).2.1 next.2.1
  have split : between K a k = insert a (between K b k) := by
    ext x
    simp only [between, Finset.mem_insert, Finset.mem_filter]
    constructor
    · intro inside
      rcases inside.2.1.eq_or_lt with same | above
      · exact .inl same.symm
      · exact .inr ⟨inside.1, next.2.2 x inside.1 above, inside.2.2⟩
    · intro inside
      rcases inside with rfl | inside
      · exact ⟨member, le_refl x, before⟩
      · exact ⟨inside.1, next.2.1.le.trans inside.2.1, inside.2.2⟩
  rw [split, Finset.card_insert_of_notMem absent]

theorem card_above_next (member : a ∈ K) (next : IsNext K a (some b)) :
    (above K a).card = (above K b).card + 1 := by
  have absent : a ∉ above K b := fun inside =>
    not_lt.mpr (Finset.mem_filter.mp inside).2 next.2.1
  have split : above K a = insert a (above K b) := by
    ext x
    simp only [above, Finset.mem_insert, Finset.mem_filter]
    constructor
    · intro inside
      rcases inside.2.eq_or_lt with same | greater
      · exact .inl same.symm
      · exact .inr ⟨inside.1, next.2.2 x inside.1 greater⟩
    · intro inside
      rcases inside with rfl | inside
      · exact ⟨member, le_refl x⟩
      · exact ⟨inside.1, next.2.1.le.trans inside.2⟩
  rw [split, Finset.card_insert_of_notMem absent]

theorem card_above_last (member : a ∈ K) (next : IsNext K a none) : (above K a).card = 1 := by
  have only : above K a = {a} := by
    ext x
    simp only [above, Finset.mem_filter, Finset.mem_singleton]
    constructor
    · exact fun inside => le_antisymm (next x inside.1) inside.2
    · intro same
      rw [same]
      exact ⟨member, le_refl a⟩
  rw [only, Finset.card_singleton]

/-- A scan from an element passes all the elements it has the steps for. -/
theorem Scans.passes_upward (scan : Scans K passes n (some a)) (member : k ∈ K) (le : a ≤ k)
    (steps : (between K a k).card < n) : passes k := by
  induction n generalizing a with
  | zero => exact absurd steps (Nat.not_lt_zero _)
  | succ n ih =>
    cases scan with
    | @step _ _ c here passed next rest =>
      rcases le.eq_or_lt with rfl | before
      · exact passed
      · cases c with
        | none => exact absurd (next k member) (not_le.mpr before)
        | some b =>
          have counted := card_between_next here next before
          exact ih rest (next.2.2 k member before) (by omega)

/-- A scan that gets beyond the last element goes on from the end. -/
theorem Scans.from_end (scan : Scans K passes n (some a)) (steps : (above K a).card ≤ n) :
    Scans K passes (n - (above K a).card) none := by
  induction n generalizing a with
  | zero =>
    rw [Nat.zero_sub]
    exact .done
  | succ n ih =>
    cases scan with
    | @step _ _ c here passed next rest =>
      cases c with
      | none =>
        rw [card_above_last here next, Nat.add_sub_cancel]
        exact rest
      | some b =>
        have counted := card_above_next here next
        rw [counted, Nat.add_sub_add_right]
        exact ih rest (by omega)

/-- A scan of as many steps as there are elements passes all of them. -/
theorem Scans.passes_all (scan : Scans K passes K.card c) : ∀ k ∈ K, passes k := by
  intro k member
  have fewer : ∀ a, (between K a k).card < K.card := fun a =>
    Finset.card_lt_card (Finset.filter_ssubset.mpr ⟨k, member, fun inside => inside.2.ne rfl⟩)
  have fromLeast : ∀ n, Scans K passes n none → (∀ a, (between K a k).card < n) → passes k := by
    intro n scan enough
    cases scan with
    | done => exact absurd (enough k) (Nat.not_lt_zero _)
    | @wrap _ a least rest => exact rest.passes_upward member (least k member) (enough a)
  cases c with
  | none => exact fromLeast _ scan fewer
  | some a =>
    rcases le_or_gt a k with after | before
    · exact scan.passes_upward member after (fewer a)
    · have parts := @Finset.card_filter_add_card_filter_not _ K (a ≤ ·) _ _
      refine fromLeast _ (scan.from_end (Finset.card_filter_le K _)) fun b => ?_
      have less : (between K b k).card < (K.filter fun x => ¬ a ≤ x).card := by
        refine Finset.card_lt_card ((Finset.ssubset_iff_of_subset fun x inside => ?_).mpr
          ⟨k, Finset.mem_filter.mpr ⟨member, not_le.mpr before⟩, fun inside => ?_⟩)
        · have inside := Finset.mem_filter.mp inside
          exact Finset.mem_filter.mpr ⟨inside.1, not_le.mpr (inside.2.2.trans before)⟩
        · exact (Finset.mem_filter.mp inside).2.2.ne rfl
      unfold above
      omega

end CyclicScan
