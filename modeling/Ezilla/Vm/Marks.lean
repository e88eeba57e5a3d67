import Ezilla.Vm.VirtualMachine

/-!
# One marked element

A hotplug operation puts a mark on one element of a list and later takes away the first
element with the mark, or its mark. When no other element has the mark this is the element
it was put on.

* `countP_deleteFirst`, `countP_clearFirst`, `countP_mark`: one mark comes and one goes,
  whatever other marks there are;
* `deleteFirst_append`, `deleteFirst_mark`: the element that is taken away;
* `Change`: an element that comes or goes, while it is marked and once it is answered.
-/

namespace Ezilla

variable {α : Type} {marked chosen : α → Bool} {mark clear : α → α} {x : α} {xs : List α}

theorem map_clearFirst {f : α → α} (p : α → Bool) (same : ∀ x, clear (f x) = clear x)
    (xs : List α) : (clearFirst p f xs).map clear = xs.map clear := by
  induction xs with
  | nil => rfl
  | cons x xs ih =>
    rw [clearFirst]
    split
    · rw [List.map_cons, same, List.map_cons]
    · rw [List.map_cons, ih, List.map_cons]

/-! ## Counting marks -/

theorem countP_deleteFirst (some_marked : 0 < xs.countP marked) :
    (deleteFirst marked xs).2.countP marked + 1 = xs.countP marked := by
  induction xs with
  | nil => exact absurd some_marked (Nat.lt_irrefl 0)
  | cons x xs ih =>
    rw [deleteFirst]
    split
    · rename_i marked_x
      rw [List.countP_cons_of_pos marked_x]
    · rename_i unmarked
      rw [List.countP_cons_of_neg unmarked] at some_marked
      rw [List.countP_cons_of_neg unmarked, List.countP_cons_of_neg unmarked, ih some_marked]

theorem countP_clearFirst (cleared : ∀ x, marked (clear x) = false)
    (some_marked : 0 < xs.countP marked) :
    (clearFirst marked clear xs).countP marked + 1 = xs.countP marked := by
  induction xs with
  | nil => exact absurd some_marked (Nat.lt_irrefl 0)
  | cons x xs ih =>
    rw [clearFirst]
    split
    · rename_i marked_x
      rw [List.countP_cons_of_pos marked_x,
        List.countP_cons_of_neg (by rw [cleared]; exact Bool.false_ne_true)]
    · rename_i unmarked
      rw [List.countP_cons_of_neg unmarked] at some_marked
      rw [List.countP_cons_of_neg unmarked, List.countP_cons_of_neg unmarked, ih some_marked]

/-- The mark that is put on the first chosen element, beside those of the other elements. -/
theorem countP_mark (marks : ∀ x, marked (mark x) = true) (found : xs.find? chosen = some x) :
    (clearFirst chosen mark xs).countP marked = (xs.eraseP chosen).countP marked + 1 := by
  induction xs with
  | nil => cases found
  | cons y ys ih =>
    rw [clearFirst]
    split
    · rename_i chosen_y
      rw [List.eraseP_cons_of_pos chosen_y, List.countP_cons_of_pos (marks y)]
    · rename_i other
      rw [List.find?_cons_of_neg other] at found
      rw [List.eraseP_cons_of_neg other, List.countP_cons, List.countP_cons, ih found]
      omega

/-! ## The element taken away -/

theorem deleteFirst_append (clean : xs.countP marked = 0) (marked_x : marked x = true) :
    deleteFirst marked (xs ++ [x]) = (some x, xs) := by
  induction xs with
  | nil => simp only [List.nil_append, deleteFirst, marked_x, if_true]
  | cons y ys ih =>
    have unmarked : ¬ marked y = true := List.countP_eq_zero.mp clean y List.mem_cons_self
    rw [List.countP_cons_of_neg unmarked] at clean
    rw [List.cons_append, deleteFirst, if_neg unmarked, ih clean]

theorem deleteFirst_mark (marks : ∀ x, marked (mark x) = true)
    (clean : (xs.eraseP chosen).countP marked = 0) (found : xs.find? chosen = some x) :
    deleteFirst marked (clearFirst chosen mark xs) = (some (mark x), xs.eraseP chosen) := by
  induction xs with
  | nil => cases found
  | cons y ys ih =>
    rw [clearFirst]
    split
    · rename_i chosen_y
      rw [List.find?_cons_of_pos chosen_y] at found
      cases found
      rw [deleteFirst, if_pos (marks _), List.eraseP_cons_of_pos chosen_y]
    · rename_i other
      rw [List.eraseP_cons_of_neg other] at clean ⊢
      rw [List.find?_cons_of_neg other] at found
      have unmarked : ¬ marked y = true := List.countP_eq_zero.mp clean y List.mem_cons_self
      rw [List.countP_cons_of_neg unmarked] at clean
      rw [deleteFirst, if_neg unmarked, ih clean found]

/-! ## Changes of a list -/

/-- An element comes, or the first one with an id goes. -/
inductive Change (α : Type) where
  | attach (x : α)
  | detach (id : Nat)
  deriving DecidableEq, Repr

namespace Change

variable (ident : α → Nat)

/-- The list once the change was answered. -/
def after (xs : List α) (success : Bool) : Change α → List α
  | attach x => if success then xs ++ [x] else xs
  | detach id => if success then xs.eraseP fun x => ident x = id else xs

/-- The elements the change is not about. -/
def others (xs : List α) : Change α → List α
  | attach _ => xs
  | detach id => xs.eraseP fun x => ident x = id

/-- The element the change is about. -/
def selected (xs : List α) : Change α → Option α
  | attach x => some x
  | detach id => xs.find? fun x => ident x = id

/-- The element the change is about leaves the list. -/
def drops (success : Bool) : Change α → Bool
  | attach _ => !success
  | detach _ => success

/-- The element that leaves the list. -/
def gone (xs : List α) (success : Bool) (change : Change α) : Option α :=
  if change.drops success then change.selected ident xs else none

/-- The list while the change waits for its answer. -/
def requested (mark : α → α) (xs : List α) : Change α → List α
  | attach x => xs ++ [mark x]
  | detach id => clearFirst (fun x => ident x = id) mark xs

variable {ident} {change : Change α} {success : Bool}

/-- Whatever other marks there are, the change adds one. -/
theorem countP_requested (marks : ∀ x, marked (mark x) = true)
    (found : change.selected ident xs = some x) :
    (change.requested ident mark xs).countP marked =
      (change.others ident xs).countP marked + 1 := by
  cases change with
  | attach y => rw [requested, others, List.countP_append, List.countP_singleton, if_pos (marks y)]
  | detach id => exact countP_mark marks found

/-- The first marked element is the one the change is about, when it is the only one. -/
theorem deleteFirst_requested (marks : ∀ x, marked (mark x) = true)
    (found : change.selected ident xs = some x)
    (clean : (change.others ident xs).countP marked = 0) :
    deleteFirst marked (change.requested ident mark xs) =
      (some (mark x), change.others ident xs) := by
  cases change with
  | attach y =>
    cases found
    exact deleteFirst_append clean (marks _)
  | detach id => exact deleteFirst_mark marks clean found

theorem after_of_drops (out : change.drops success = true) :
    change.after ident xs success = change.others ident xs := by
  cases change with
  | attach y =>
    have failed : success = false := Bool.not_eq_true' success ▸ out
    rw [after, others, failed, if_neg Bool.false_ne_true]
  | detach id => exact if_pos out

/-- When no element leaves, only marks are different. -/
theorem map_requested (same : ∀ x, clear (mark x) = clear x)
    (stays : change.drops success = false) :
    (change.requested ident mark xs).map clear = (change.after ident xs success).map clear := by
  cases change with
  | attach y =>
    have done : success = true := Bool.not_eq_false' success ▸ stays
    rw [requested, after, if_pos done, List.map_append, List.map_append, List.map_singleton,
      List.map_singleton, same]
  | detach id =>
    have failed : ¬ success = true := ne_true_of_eq_false stays
    rw [requested, after, if_neg failed]
    exact map_clearFirst _ same xs

end Change

end Ezilla
