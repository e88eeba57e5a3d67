import Mathlib.Tactic.TypeStar

/-!
# The discipline of one lock

A handler looks an object up in a pool and gets it locked, or gets nothing; it uses the object
and unlocks it. `Balanced` is what such a handler owes: every object it gets is unlocked once,
and is used only in between. `Releases` is what is left to do with an object that is locked.

The traces are read from the left, so each rule takes one event off.
-/

namespace LockDiscipline

/-- What a handler does with the object. -/
inductive Event where
  /-- the object is looked up and locked; `false` when there is none -/
  | get (found : Bool)
  | use
  | unlock
  deriving DecidableEq, Repr

/-- One event; the state is whether the lock is held. Looking up the object again would wait
for the lock, and without the lock there is nothing to use and nothing to unlock. -/
def step : Bool → Event → Option Bool
  | false, .get found => some found
  | true, .use => some true
  | true, .unlock => some false
  | _, _ => none

/-- A trace; `none` when it breaks the discipline. -/
def run : Bool → List Event → Option Bool
  | held, [] => some held
  | held, e :: trace => (step held e).bind fun held' => run held' trace

/-- A trace from an object that is not locked by the handler to one that is not. -/
def Balanced (trace : List Event) : Prop := run false trace = some false

/-- A trace that starts with the lock and gives it back. -/
def Releases (trace : List Event) : Prop := run true trace = some false

instance (trace : List Event) : Decidable (Balanced trace) :=
  inferInstanceAs (Decidable (_ = _))

instance (trace : List Event) : Decidable (Releases trace) :=
  inferInstanceAs (Decidable (_ = _))

variable {trace trace' : List Event} {held : Bool}

theorem run_append : run held (trace ++ trace') = (run held trace).bind fun h => run h trace' := by
  induction trace generalizing held with
  | nil => rfl
  | cons e trace ih =>
    rw [List.cons_append, run, run]
    cases step held e with
    | none => rfl
    | some held' => exact ih

@[simp]
theorem balanced_nil : Balanced [] := rfl

@[simp]
theorem balanced_get_found : Balanced (.get true :: trace) ↔ Releases trace := Iff.rfl

@[simp]
theorem balanced_get_missing : Balanced (.get false :: trace) ↔ Balanced trace := Iff.rfl

@[simp]
theorem not_balanced_use : ¬ Balanced (.use :: trace) := fun run => by cases run

@[simp]
theorem not_balanced_unlock : ¬ Balanced (.unlock :: trace) := fun run => by cases run

@[simp]
theorem not_releases_nil : ¬ Releases [] := fun run => by cases run

@[simp]
theorem releases_use : Releases (.use :: trace) ↔ Releases trace := Iff.rfl

@[simp]
theorem releases_unlock : Releases (.unlock :: trace) ↔ Balanced trace := Iff.rfl

/-- A part that gives the lock back may be followed by a handler of its own. -/
theorem Releases.append_iff (first : Releases trace) :
    Releases (trace ++ trace') ↔ Balanced trace' := by
  unfold Releases at first
  rw [Releases, run_append, first]
  exact Iff.rfl

theorem Balanced.append_iff (first : Balanced trace) :
    Balanced (trace ++ trace') ↔ Balanced trace' := by
  unfold Balanced at first
  rw [Balanced, run_append, first]
  exact Iff.rfl

/-- Any number of uses leaves the lock where it was. -/
theorem releases_uses {α : Type*} (items : List α) :
    Releases ((items.map fun _ => Event.use) ++ trace) ↔ Releases trace := by
  induction items with
  | nil => exact Iff.rfl
  | cons _ items ih => exact ih

end LockDiscipline
