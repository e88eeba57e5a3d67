import Ezilla.Dm.DispatchManagerActions

/-!
# Placing a virtual machine

`VirtualMachineDeploy::request_execute` and `VirtualMachineMigrate::request_execute`. Both look
at the VM, let go of its lock where a host has to be looked at, and take the VM again to append
the history record and to hand it to the dispatch manager.

* `Placement.check`: the first look at the VM;
* `Placement.commit`: the record and the dispatch. The state of the VM is not looked at again,
  and what the dispatch manager answers is not looked at either; a record that the database
  refuses stays in memory, and the request fails.

A deployment that does not enforce the capacity keeps the lock in between.
-/

namespace Ezilla

/-- What a placement asks for. -/
inductive PlacementKind where
  | deploy
  | migrate
  | liveMigrate
  deriving DecidableEq, Repr

/-- The event the dispatch manager sends for a placement. -/
def PlacementKind.action : PlacementKind → LcmAction
  | .deploy => .deploy
  | .migrate => .migrate
  | .liveMigrate => .liveMigrate

/-- A request to place the VM on a host. -/
structure Placement where
  kind : PlacementKind
  hid : Nat
  deriving DecidableEq, Repr

/-- What became of a placement: what the dispatch manager answered, and the response to the
user. -/
structure Committed where
  outcome : Outcome
  dispatched : Bool
  success : Bool
  deriving DecidableEq, Repr

/-- The check of `VirtualMachineDeploy::request_execute`. -/
def VirtualMachineDeploy.check (vm : VirtualMachine) : Bool :=
  vm.state = .pending ∨ vm.state = .hold

/-- The check of `VirtualMachineMigrate::request_execute`. -/
def VirtualMachineMigrate.check (vm : VirtualMachine) (hid : Nat) : Bool :=
  vm.In .running ∧ vm.previousReason ≠ some .none ∧ vm.hid ≠ some hid

namespace Placement

/-- The check of the request. -/
def check (placement : Placement) (vm : VirtualMachine) : Bool :=
  match placement.kind with
  | .deploy => VirtualMachineDeploy.check vm
  | .migrate | .liveMigrate => VirtualMachineMigrate.check vm placement.hid

/-- The call of the dispatch manager. -/
def dispatch (placement : Placement) (vm : VirtualMachine) : Reply :=
  match placement.kind with
  | .deploy => DispatchManager.deploy vm
  | .migrate => DispatchManager.migrate vm
  | .liveMigrate => DispatchManager.liveMigrate vm

/-- The last part of the request; `stored` is what `update_history` answers in `add_history`. -/
def commit (placement : Placement) (vm : VirtualMachine) (stored : Bool) : Committed :=
  if stored then
    { outcome := (placement.dispatch (vm.addHistory placement.hid)).outcome
      dispatched := (placement.dispatch (vm.addHistory placement.hid)).rc = 0
      success := true }
  -- the record is not taken back
  else { outcome := { vm := vm.addHistory placement.hid }, dispatched := false, success := false }

/-- The states in which the dispatch manager takes the placement. -/
def Takes (placement : Placement) (vm : VirtualMachine) : Prop :=
  match placement.kind with
  | .deploy => vm.state = .pending ∨ vm.state = .hold
  | .migrate | .liveMigrate => vm.In .running

instance (placement : Placement) (vm : VirtualMachine) : Decidable (placement.Takes vm) := by
  unfold Takes
  split <;> infer_instance

variable {placement : Placement} {vm : VirtualMachine}

/-- A placement the dispatch manager takes. -/
theorem commit_of_takes (takes : placement.Takes vm) :
    placement.commit vm true =
      { outcome :=
          { vm := { vm.addHistory placement.hid with state := .active }
            effects := [.lcm placement.kind.action] }
        dispatched := true
        success := true } := by
  rcases placement with ⟨kind, hid⟩
  cases kind with
  | deploy =>
    have accepted : DispatchManager.deploy (vm.addHistory hid) =
        .accept { vm.addHistory hid with state := .active } [.lcm .deploy] := if_pos takes
    simp only [commit, dispatch, accepted]
    rfl
  | migrate | liveMigrate =>
    rcases vm with ⟨_, _, _, state, lcmState, _, _, _, _, _, _⟩
    obtain ⟨rfl, rfl⟩ : state = .active ∧ lcmState = .running := takes
    rfl

/-- A placement the dispatch manager refuses: the record is appended, and the user gets a
success. -/
theorem commit_of_not_takes (refused : ¬ placement.Takes vm) :
    placement.commit vm true =
      { outcome := { vm := vm.addHistory placement.hid }, dispatched := false, success := true } := by
  rcases placement with ⟨kind, hid⟩
  cases kind with
  | deploy =>
    have busy : DispatchManager.deploy (vm.addHistory hid) = .refuse (-1) (vm.addHistory hid) :=
      if_neg refused
    simp only [commit, dispatch, busy]
    rfl
  | migrate =>
    have busy : DispatchManager.migrate (vm.addHistory hid) = .refuse (-1) (vm.addHistory hid) :=
      if_neg refused
    simp only [commit, dispatch, busy]
    rfl
  | liveMigrate =>
    have busy : DispatchManager.liveMigrate (vm.addHistory hid) =
        .refuse (-1) (vm.addHistory hid) := if_neg refused
    simp only [commit, dispatch, busy]
    rfl

/-- A placement is taken, or only its record is appended. -/
theorem outcome_commit (placement : Placement) (vm : VirtualMachine) (stored : Bool) :
    (stored = true ∧ placement.Takes vm ∧
        (placement.commit vm stored).outcome =
          { vm := { vm.addHistory placement.hid with state := .active }
            effects := [.lcm placement.kind.action] }) ∨
      (placement.commit vm stored).outcome = { vm := vm.addHistory placement.hid } := by
  cases stored with
  | false => exact .inr rfl
  | true =>
    by_cases takes : placement.Takes vm
    · exact .inl ⟨rfl, takes, by rw [commit_of_takes takes]⟩
    · exact .inr (by rw [commit_of_not_takes takes])

end Placement

end Ezilla
