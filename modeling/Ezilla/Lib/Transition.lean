import Mathlib.Logic.Function.Basic
import Mathlib.Tactic.TypeStar

/-!
# Runs of a transition system

The states a system reaches from its initial states, step after step, and the rule that
a property kept by every step holds in all of them. A system is given by its initial
states and its labelled steps; a step can be restricted by a guard on the state before
it and the label. A system whose steps are a function is run on a list of labels.
-/

namespace Transition

variable {State Label : Type*} {init : State → Prop} {step step' : State → Label → State → Prop}
  {s s' : State}

/-- The states reached from an initial state by any number of steps. -/
inductive Reachable (init : State → Prop) (step : State → Label → State → Prop) :
    State → Prop where
  | init {s : State} (start : init s) : Reachable init step s
  | step {s s' : State} {l : Label} (before : Reachable init step s) (taken : step s l s') :
      Reachable init step s'

/-- The steps whose state and label meet a guard. -/
def Guarded (guard : State → Label → Prop) (step : State → Label → State → Prop) :
    State → Label → State → Prop :=
  fun s l s' => guard s l ∧ step s l s'

/-- A property of the initial states that every step keeps holds in every reachable state. -/
theorem Reachable.invariant {inv : State → Prop} (base : ∀ s, init s → inv s)
    (keep : ∀ s l s', inv s → step s l s' → inv s') (reached : Reachable init step s) : inv s := by
  induction reached with
  | init start => exact base _ start
  | step _ taken ih => exact keep _ _ _ ih taken

/-- Allowing more steps reaches more states. -/
theorem Reachable.mono (more : ∀ s l s', step s l s' → step' s l s')
    (reached : Reachable init step s) : Reachable init step' s := by
  induction reached with
  | init start => exact .init start
  | step _ taken ih => exact .step ih (more _ _ _ taken)

/-- A run given by a list of labels and a step function ends in a reachable state. -/
theorem Reachable.foldlM (next : State → Label → Option State) (labels : List Label)
    (taken : ∀ s l s', next s l = some s' → step s l s')
    (start : Reachable init step s) (run : labels.foldlM next s = some s') :
    Reachable init step s' := by
  induction labels generalizing s with
  | nil =>
    cases run
    exact start
  | cons l labels ih =>
    rw [List.foldlM_cons] at run
    cases first : next s l with
    | none =>
      rw [first] at run
      cases run
    | some mid =>
      rw [first] at run
      exact ih (.step start (taken _ _ _ first)) run

/-! ## Step functions -/

variable {next : State → Label → State} {holds holds' : State → Label → Prop}

/-- What holds of each step of a run. -/
def Along (next : State → Label → State) (holds : State → Label → Prop) :
    State → List Label → Prop
  | _, [] => True
  | s, l :: labels => holds s l ∧ Along next holds (next s l) labels

/-- Two facts about a step that agree where an invariant holds agree along any run, if the
steps with these facts keep the invariant. -/
theorem along_congr {inv : State → Prop} (keep : ∀ s l, inv s → holds s l → inv (next s l))
    (same : ∀ s l, inv s → (holds s l ↔ holds' s l)) (labels : List Label) (start : inv s) :
    Along next holds s labels ↔ Along next holds' s labels := by
  induction labels generalizing s with
  | nil => exact Iff.rfl
  | cons l labels ih =>
    unfold Along
    rw [← same s l start]
    exact and_congr_right fun now => ih (keep s l start now)

instance [∀ s l, Decidable (holds s l)] (s : State) (labels : List Label) :
    Decidable (Along next holds s labels) :=
  match labels with
  | [] => .isTrue trivial
  | l :: labels =>
    have : Decidable (Along next holds (next s l) labels) := instDecidableAlong (next s l) labels
    inferInstanceAs (Decidable (_ ∧ _))

/-- A run whose steps meet a guard ends in a state reached by such steps. -/
theorem Reachable.foldl (labels : List Label)
    (start : Reachable init (Guarded holds fun s l s' => next s l = s') s)
    (meets : Along next holds s labels) :
    Reachable init (Guarded holds fun s l s' => next s l = s') (labels.foldl next s) := by
  induction labels generalizing s with
  | nil => exact start
  | cons l labels ih => exact ih (.step start ⟨meets.1, rfl⟩) meets.2

/-- A run of a step function ends in a reachable state. -/
theorem Reachable.run (labels : List Label)
    (start : Reachable init (fun s l s' => next s l = s') s) :
    Reachable init (fun s l s' => next s l = s') (labels.foldl next s) := by
  induction labels generalizing s with
  | nil => exact start
  | cons l labels ih => exact ih (.step start rfl)

/-! ## Memory -/

variable {Memory : Type*} {remember : State → Label → Memory → Memory}

/-- A step function that also remembers something about the steps before. -/
def withMemory (next : State → Label → State) (remember : State → Label → Memory → Memory)
    (s : State × Memory) (l : Label) : State × Memory :=
  (next s.1 l, remember s.1 l s.2)

/-! ## Threads -/

/-- What a section of a request gives: the request goes on, or is answered. -/
inductive Answer where
  | pending
  | success
  | failure
  deriving DecidableEq

/-- A thread at a state is the one that was just set, or was there before. -/
theorem update_eq_some {α Thread : Type*} [DecidableEq Thread] {threads : Thread → Option α}
    {i j : Thread} {x : Option α} {y : α} (is : Function.update threads i x j = some y) :
    j = i ∧ x = some y ∨ j ≠ i ∧ threads j = some y := by
  by_cases same : j = i
  · subst same
    rw [Function.update_self] at is
    exact Or.inl ⟨rfl, is⟩
  · rw [Function.update_of_ne same] at is
    exact Or.inr ⟨same, is⟩

end Transition
