import Mathlib.Data.Finset.Card

/-!
# Sets with a counter

A finite set of ids that is kept together with the number of its members. The counter moves
only when the set does, so the two always agree.
-/

/-- A finite set and the number of its members. -/
structure CountedSet (α : Type*) where
  ids : Finset α
  count : Int
  exact : count = ids.card

namespace CountedSet

variable {α : Type*} {s : CountedSet α} {a b : α}

instance : EmptyCollection (CountedSet α) := ⟨⟨∅, 0, rfl⟩⟩

@[simp]
theorem ids_empty : (∅ : CountedSet α).ids = ∅ := rfl

theorem count_eq_zero_iff : s.count = 0 ↔ s.ids = ∅ := by
  rw [s.exact, Int.natCast_eq_zero, Finset.card_eq_zero]

variable [DecidableEq α]

/-- Adds an id, and counts it unless it was there. -/
def add (s : CountedSet α) (a : α) : CountedSet α :=
  if there : a ∈ s.ids then s
  else ⟨insert a s.ids, s.count + 1, by
    rw [Finset.card_insert_of_notMem there, s.exact]
    rfl⟩

/-- Takes an id out, and counts it down if it was there. -/
def del (s : CountedSet α) (a : α) : CountedSet α :=
  if there : a ∈ s.ids then
    ⟨s.ids.erase a, s.count - 1, by
      have card := Finset.card_erase_add_one there
      rw [s.exact]
      omega⟩
  else s

@[simp]
theorem ids_add : (s.add a).ids = insert a s.ids := by
  unfold add
  split
  · rename_i there
    rw [Finset.insert_eq_of_mem there]
  · rfl

@[simp]
theorem ids_del : (s.del a).ids = s.ids.erase a := by
  unfold del
  split
  · rfl
  · rename_i absent
    rw [Finset.erase_eq_of_notMem absent]

theorem mem_del : b ∈ (s.del a).ids ↔ b ≠ a ∧ b ∈ s.ids := by
  rw [ids_del, Finset.mem_erase]

theorem mem_add : b ∈ (s.add a).ids ↔ b = a ∨ b ∈ s.ids := by
  rw [ids_add, Finset.mem_insert]

end CountedSet
