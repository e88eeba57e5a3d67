import Mathlib.Data.List.AList

/-!
# Counting the entries of a table

A table maps keys to values, as an association list without repeated keys. This module
counts the values with a property, and says how the count moves when a key is set or
removed.
-/

namespace KeyedTable

variable {α β : Type*} [DecidableEq α] {t : AList fun _ : α => β} {p : β → Bool} {a : α} {b : β}

/-- The number of values with a property. -/
def count (p : β → Bool) (t : AList fun _ : α => β) : Nat :=
  t.entries.countP fun e => p e.2

/-- What the value of a key adds to the count. -/
def weight (p : β → Bool) : Option β → Nat
  | none => 0
  | some b => if p b then 1 else 0

@[simp]
theorem weight_none : weight p none = 0 := rfl

@[simp]
theorem weight_some : weight p (some b) = if p b then 1 else 0 := rfl

/-- Taking a key out of a list of entries takes its value out of the count. -/
theorem countP_kerase (l : List (Sigma fun _ : α => β)) :
    (l.kerase a).countP (fun e => p e.2) + weight p (l.dlookup a) =
      l.countP fun e => p e.2 := by
  induction l with
  | nil => rfl
  | cons e l ih =>
    obtain ⟨key, value⟩ := e
    by_cases same : a = key
    · subst same
      have erased : List.kerase a (⟨a, value⟩ :: l) = l := List.kerase_cons_eq rfl
      have found : List.dlookup a (⟨a, value⟩ :: l) = some value :=
        List.dlookup_cons_eq l a value
      rw [erased, found, List.countP_cons, weight]
    · have erased : List.kerase a (⟨key, value⟩ :: l) = ⟨key, value⟩ :: List.kerase a l :=
        List.kerase_cons_ne same
      have found : List.dlookup a (⟨key, value⟩ :: l) = List.dlookup a l :=
        List.dlookup_cons_ne l ⟨key, value⟩ same
      rw [erased, found, List.countP_cons, List.countP_cons, ← ih]
      omega

theorem count_erase : count p (t.erase a) + weight p (t.lookup a) = count p t :=
  countP_kerase t.entries

/-- Setting a key replaces what its old value added to the count. -/
theorem count_insert :
    count p (t.insert a b) + weight p (t.lookup a) = count p t + weight p (some b) := by
  have erased := count_erase (p := p) (t := t) (a := a)
  have cons : count p (t.insert a b) = count p (t.erase a) + weight p (some b) := by
    simp only [count, AList.entries_insert, List.countP_cons, weight]
    rfl
  omega

end KeyedTable
