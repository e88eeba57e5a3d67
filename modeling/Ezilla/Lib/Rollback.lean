import Mathlib.Tactic.TypeStar

/-!
# Steps with a rollback

A list of steps is run until one fails. The actions for this failure are run then, which are
steps again, and the list is given up; unless a failure of the step does not matter.

* `Step`, `runSteps`: the steps and what they do;
* `Triple`: what holds after a list that succeeds, and after one that fails;
* `Triple.cons`, `Triple.cons_noFail`, `Triple.nil`: the rules for lists.
-/

namespace Rollback

variable {Action State Info : Type*}

/-- An action, the steps after its failure, and whether the list goes on then. -/
inductive Step (Action : Type*) where
  | mk (action : Action) (failActions : List (Step Action)) (noFail : Bool)

section Run

-- what an action does, with what it tells when it fails, and how this is noted after the rollback
variable (perform : Action → State → State × Option Info) (note : Info → State → State)

mutual

/-- One step, and whether the list goes on. -/
def Step.run : Step Action → State → State × Bool
  | .mk action failActions noFail, s =>
    match perform action s with
    | (s', none) => (s', true)
    | (s', some info) => (note info (runSteps failActions false s').1, noFail)

/-- The steps of a list, and whether it succeeds; `result` is what holds if there are none. -/
def runSteps : List (Step Action) → Bool → State → State × Bool
  | [], result, s => (s, result)
  | step :: rest, _, s =>
    match step.run s with
    | (s', true) => runSteps rest true s'
    | (s', false) => (s', false)

end

variable {perform note} {s : State} {action : Action} {failActions rest steps : List (Step Action)}
  {noFail result : Bool}

theorem runSteps_cons (step : Step Action) :
    runSteps perform note (step :: rest) result s =
      match step.run perform note s with
      | (s', true) => runSteps perform note rest true s'
      | (s', false) => (s', false) := by
  rw [runSteps]

theorem run_of_success {s' : State} (success : perform action s = (s', none)) :
    (Step.mk action failActions noFail).run perform note s = (s', true) := by
  rw [Step.run, success]

theorem run_of_failure {s' : State} {info : Info} (failure : perform action s = (s', some info)) :
    (Step.mk action failActions noFail).run perform note s =
      (note info (runSteps perform note failActions false s').1, noFail) := by
  rw [Step.run, failure]

/-- Whether there were steps before matters only if there are none left. -/
theorem runSteps_result (nonempty : steps ≠ []) :
    runSteps perform note steps result s = runSteps perform note steps true s := by
  cases steps with
  | nil => exact absurd rfl nonempty
  | cons step rest => rw [runSteps_cons, runSteps_cons]

/-! ## Rules -/

/-- The steps lead from states of one kind to those of another if they succeed, and to those of
a third if they fail. -/
def Triple (perform : Action → State → State × Option Info) (note : Info → State → State)
    (pre : State → Prop) (steps : List (Step Action)) (success failure : State → Prop) : Prop :=
  ∀ s, pre s → match runSteps perform note steps true s with
    | (s', true) => success s'
    | (s', false) => failure s'

variable {pre between success failure success' failure' : State → Prop}

theorem Triple.nil (post : ∀ s, pre s → success s) :
    Triple perform note pre [] success failure := by
  intro s holds
  rw [runSteps]
  exact post s holds

/-- A step that may fail: the rollback is to lead from what its failure leaves to the failure of
the list. -/
theorem Triple.cons
    (done : ∀ s s', pre s → perform action s = (s', none) → between s')
    (undone : ∀ s s' info, pre s → perform action s = (s', some info) →
      failure (note info (runSteps perform note failActions false s').1))
    (after : Triple perform note between rest success failure) :
    Triple perform note pre (.mk action failActions false :: rest) success failure := by
  intro s holds
  rw [runSteps_cons]
  rcases result : perform action s with ⟨s', - | info⟩
  · rw [run_of_success result]
    exact after s' (done s s' holds result)
  · rw [run_of_failure result]
    exact undone s s' info holds result

/-- A step whose failure does not matter. -/
theorem Triple.cons_noFail
    (done : ∀ s s', pre s → perform action s = (s', none) → between s')
    (undone : ∀ s s' info, pre s → perform action s = (s', some info) →
      between (note info (runSteps perform note failActions false s').1))
    (after : Triple perform note between rest success failure) :
    Triple perform note pre (.mk action failActions true :: rest) success failure := by
  intro s holds
  rw [runSteps_cons]
  rcases result : perform action s with ⟨s', - | info⟩
  · rw [run_of_success result]
    exact after s' (done s s' holds result)
  · rw [run_of_failure result]
    exact after _ (undone s s' info holds result)

theorem Triple.weaken (triple : Triple perform note pre steps success failure)
    (left : ∀ s, success s → success' s) (right : ∀ s, failure s → failure' s) :
    Triple perform note pre steps success' failure' := by
  intro s holds
  have post := triple s holds
  rcases result : runSteps perform note steps true s with ⟨s', - | -⟩
  · rw [result] at post
    exact right s' post
  · rw [result] at post
    exact left s' post

end Run

end Rollback
