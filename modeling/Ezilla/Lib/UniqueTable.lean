import Mathlib.Data.List.Nodup

/-!
# Tables with a second key

A table maps ids to values, and a second key is computed from the values, which may be unique
too. Inserting a row fails where an id or a unique key is taken; replacing a row instead deletes
every row that is in the way, also one of another id.
-/

/-- A table with unique ids, whose values have keys, unique ones or any. -/
structure UniqueTable (α : Type*) {β κ : Type*} (key : β → κ) (unique : Bool) where
  rows : List (α × β)
  ids : (rows.map Prod.fst).Nodup
  keys : unique = true → (rows.map fun r => key r.2).Nodup

namespace UniqueTable

variable {α β κ : Type*} {key : β → κ} {unique : Bool} {t t' : UniqueTable α key unique} {a c : α}
  {b d : β} {k : κ}

def empty : UniqueTable α key unique := ⟨[], List.nodup_nil, fun _ => List.nodup_nil⟩

/-- The rows without some of them. -/
def filter (t : UniqueTable α key unique) (p : α × β → Bool) : UniqueTable α key unique where
  rows := t.rows.filter p
  ids := (List.filter_sublist.map _).nodup t.ids
  keys u := (List.filter_sublist.map _).nodup (t.keys u)

section Ids

variable [DecidableEq α]

/-- The row of an id. -/
def find (t : UniqueTable α key unique) (a : α) : Option β :=
  (t.rows.find? fun r => r.1 = a).map Prod.snd

/-- `DELETE`. -/
def delete (t : UniqueTable α key unique) (a : α) : UniqueTable α key unique :=
  t.filter fun r => r.1 ≠ a

/-- One more row, where nothing is in its way. -/
def cons (t : UniqueTable α key unique) (a : α) (b : β) (id : a ∉ t.rows.map Prod.fst)
    (fresh : unique = true → key b ∉ t.rows.map fun r => key r.2) : UniqueTable α key unique where
  rows := (a, b) :: t.rows
  ids := List.nodup_cons.mpr ⟨id, t.ids⟩
  keys u := List.nodup_cons.mpr ⟨fresh u, t.keys u⟩

theorem find_eq_some_iff : t.find a = some b ↔ (a, b) ∈ t.rows := by
  constructor
  · intro found
    obtain ⟨⟨c, d⟩, first, rfl⟩ := Option.map_eq_some_iff.mp found
    obtain rfl : c = a := by simpa using List.find?_some first
    exact List.mem_of_find?_eq_some first
  · intro member
    have some : (t.rows.find? fun r => r.1 = a).isSome := by
      rw [List.find?_isSome]
      exact ⟨(a, b), member, by simp⟩
    obtain ⟨⟨c, d⟩, first⟩ := Option.isSome_iff_exists.mp some
    obtain rfl : c = a := by simpa using List.find?_some first
    have same := List.inj_on_of_nodup_map t.ids (List.mem_of_find?_eq_some first) member rfl
    rw [find, first, same]
    rfl

/-- Two rows with one key are the same row. -/
theorem eq_of_key_eq {t : UniqueTable α key true} (one : t.find a = some b)
    (other : t.find c = some d) (same : key b = key d) : a = c :=
  congrArg Prod.fst (List.inj_on_of_nodup_map (t.keys rfl) (find_eq_some_iff.mp one)
    (find_eq_some_iff.mp other) same)

theorem find_filter_eq_some_iff {p : α × β → Bool} :
    (t.filter p).find a = some b ↔ t.find a = some b ∧ p (a, b) = true := by
  rw [find_eq_some_iff, find_eq_some_iff, filter, List.mem_filter]

theorem find_delete_self : (t.delete a).find a = none := by
  refine Option.eq_none_iff_forall_ne_some.mpr fun d found => ?_
  rw [delete, find_filter_eq_some_iff] at found
  simp at found

theorem find_delete_ne (other : c ≠ a) : (t.delete a).find c = t.find c := by
  ext d
  rw [delete, find_filter_eq_some_iff]
  simp [other]

end Ids

variable [DecidableEq κ]

/-- The rows with a key are read in the order of their ids, and the last one is kept. -/
def findKey [Max α] (t : UniqueTable α key unique) (k : κ) : Option α :=
  ((t.rows.filter fun r => key r.2 = k).map Prod.fst).max?

variable [DecidableEq α]

/-- `INSERT`. -/
def insert (t : UniqueTable α key unique) (a : α) (b : β) : Option (UniqueTable α key unique) :=
  if free : a ∉ t.rows.map Prod.fst ∧ (unique = true → key b ∉ t.rows.map fun r => key r.2) then
    some (t.cons a b free.1 free.2)
  else
    none

/-- `REPLACE`. -/
def replace (t : UniqueTable α key unique) (a : α) (b : β) : UniqueTable α key unique :=
  (t.filter fun r => r.1 ≠ a ∧ (unique = true → key r.2 ≠ key b)).cons a b
    (by simp +contextual [filter])
    (by simp +contextual [filter])

theorem findKey_eq_none_iff [Max α] :
    t.findKey k = none ↔ ∀ a b, t.find a = some b → key b ≠ k := by
  simp only [findKey, List.max?_eq_none_iff, List.map_eq_nil_iff, List.filter_eq_nil_iff,
    decide_eq_true_eq, find_eq_some_iff, Prod.forall]

/-- The row that is found by a key has it. -/
theorem exists_of_findKey [Max α] [Std.MaxEqOr α] (by_key : t.findKey k = some a) :
    ∃ b, t.find a = some b ∧ key b = k := by
  obtain ⟨⟨c, d⟩, member, rfl⟩ := List.mem_map.mp (List.max?_mem by_key)
  obtain ⟨row, has⟩ := List.mem_filter.mp member
  exact ⟨d, find_eq_some_iff.mpr row, of_decide_eq_true has⟩

theorem key_of_findKey [Max α] [Std.MaxEqOr α] (by_key : t.findKey k = some a)
    (found : t.find a = some b) : key b = k := by
  obtain ⟨d, there, has⟩ := exists_of_findKey by_key
  rw [there] at found
  cases found
  exact has

theorem find_insert (inserted : t.insert a b = some t') :
    t.find a = none ∧ t'.find c = if c = a then some b else t.find c := by
  unfold insert at inserted
  split at inserted
  · rename_i free
    cases inserted
    constructor
    · refine Option.eq_none_iff_forall_ne_some.mpr fun d found => free.1 ?_
      exact List.mem_map.mpr ⟨(a, d), find_eq_some_iff.mp found, rfl⟩
    · ext d
      rw [find_eq_some_iff, cons, List.mem_cons]
      split
      · rename_i same
        subst same
        constructor
        · rintro (new | old)
          · exact congrArg some (congrArg Prod.snd new).symm
          · exact absurd (List.mem_map.mpr ⟨(c, d), old, rfl⟩) free.1
        · intro same
          cases same
          exact Or.inl rfl
      · rename_i other
        rw [find_eq_some_iff]
        constructor
        · rintro (new | old)
          · exact absurd (congrArg Prod.fst new) other
          · exact old
        · exact Or.inr
  · cases inserted

theorem find_replace_self : (t.replace a b).find a = some b :=
  find_eq_some_iff.mpr List.mem_cons_self

/-- A replacement leaves the other rows alone where no other row has the key. -/
theorem find_replace_ne (other : c ≠ a)
    (free : unique = true → ∀ c d, c ≠ a → t.find c = some d → key d ≠ key b) :
    (t.replace a b).find c = t.find c := by
  ext d
  rw [find_eq_some_iff, replace, cons, List.mem_cons, ← find_eq_some_iff, find_filter_eq_some_iff]
  constructor
  · rintro (new | ⟨old, -⟩)
    · exact absurd (congrArg Prod.fst new) other
    · exact old
  · intro old
    exact Or.inr ⟨old, decide_eq_true ⟨other, fun u => free u c d other old⟩⟩

end UniqueTable
