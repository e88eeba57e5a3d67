import Ezilla.Dm.DispatchManagerStates
import Ezilla.Lcm.LifeCycleRuns
import Ezilla.Lib.LockDiscipline

/-!
# Locks in the dispatch manager

The handlers of the dispatch manager once more, as what they do with the lock of the VM. A
block of accesses is one `use`. The branches are those of the handlers, so their conditions are
the same; a VM that `vmpool->get` does not find is `none`.

* `VmRequest.locks`: the requests;
* `DispatchManager.attachLocks`: the two requests that look the VM up twice;
* `DmAction.locks`: the events.

`deploy`, `migrate` and `live_migrate` get a VM that their caller has locked.
-/

namespace Ezilla

open LockDiscipline

/-- A VM is looked up; without one the handler is over. -/
def withVm (vm? : Option VirtualMachine) (body : VirtualMachine → List Event) : List Event :=
  match vm? with
  | none => [.get false]
  | some vm => .get true :: body vm

/-- The state of the VM is checked; the work is done when it fits, and the VM is unlocked either
way. -/
def checked (fits : Prop) [Decidable fits] (work : List Event) : List Event :=
  .use :: if fits then work ++ [.unlock] else [.unlock]

@[simp]
theorem balanced_withVm {vm? : Option VirtualMachine} {body : VirtualMachine → List Event} :
    Balanced (withVm vm? body) ↔ ∀ vm, vm? = some vm → Releases (body vm) := by
  cases vm? with
  | none => simp [withVm]
  | some vm => simp [withVm]

theorem releases_checked {fits : Prop} [Decidable fits] {work : List Event}
    (done : Releases (work ++ [.unlock])) : Releases (checked fits work) := by
  unfold checked
  rw [releases_use]
  split
  · exact done
  · rfl

namespace DispatchManager

variable (vm : VirtualMachine)

/-! ## Requests -/

/-- `DispatchManager::deploy`. -/
def deployLocks : List Event := checked (vm.state = .pending ∨ vm.state = .hold) [.use]

/-- The requests for a running VM that only send an event. -/
def whenRunningLocks : List Event := checked (vm.In .running) []

/-- The requests that change a field of a running VM. -/
def changeRunningLocks : List Event := checked (vm.In .running) [.use]

/-- `DispatchManager::cancel`; the VM is unlocked before the event is sent. -/
def cancelLocks : List Event := .use :: if vm.In .running then [.unlock] else [.unlock]

/-- `DispatchManager::resume`. -/
def resumeLocks : List Event :=
  .use :: match vm.state with
    | .stopped | .undeployed | .suspended | .poweroff => [.use, .unlock]
    | _ => [.unlock]

/-- `DispatchManager::finalize_cleanup`. -/
def finalizeCleanupLocks : List Event := [.use, .unlock]

/-- `DispatchManager::finalize`. -/
def finalizeLocks : List Event :=
  .use :: match vm.state with
    | .suspended | .poweroff => .use :: finalizeCleanupLocks
    | .failed | .stopped | .undeployed | .init | .pending | .hold => finalizeCleanupLocks
    | .active | .done => [.unlock]

/-- `DispatchManager::resubmit`. -/
def resubmitLocks : List Event :=
  .use :: match vm.state with
    | .failed | .hold | .stopped | .undeployed => [.use, .unlock]
    | .poweroff | .suspended | .init | .pending | .active | .done => [.unlock]

/-- `DispatchManager::detach`, `detach_nic` and the requests about a snapshot: the VM has to run
and to have the element. -/
def onElementLocks (marked : Option VirtualMachine) : List Event :=
  .use :: if vm.In .running then
      .use :: if marked.isSome then [.use, .unlock] else [.unlock]
    else [.unlock]

/-- `DispatchManager::attach` and `attach_nic`: the VM is unlocked while the element is set up
(`setUp` is whether that goes well) and looked up again. -/
def attachLocks (vm? : Option VirtualMachine) (setUp : Bool) (again? : Option VirtualMachine) :
    List Event :=
  withVm vm? fun vm =>
    .use :: if vm.In .running then
        .use :: .unlock :: withVm again? fun _ => if setUp then [.use, .unlock] else [.use, .unlock]
      else [.unlock]

/-! ## Events -/

/-- The events of a stage that went well. -/
def leaveActiveLocks (stages : List LcmState) : List Event :=
  checked (vm.state = .active ∧ vm.lcmState ∈ stages) [.use]

/-- `DispatchManager::failed_action` and `resubmit_action`: the VM is unlocked where it is in the
stage expected. -/
def leaveStageLocks (stage : LcmState) : List Event :=
  .use :: if vm.lcmState = stage then [.use, .unlock] else []

/-! ## The handlers are balanced -/

variable {vm} in
theorem releases_finalizeLocks : Releases (finalizeLocks vm) := by
  unfold finalizeLocks
  rw [releases_use]
  split <;> rfl

variable {vm} in
theorem releases_resubmitLocks : Releases (resubmitLocks vm) := by
  unfold resubmitLocks
  rw [releases_use]
  split <;> rfl

variable {vm} in
theorem releases_resumeLocks : Releases (resumeLocks vm) := by
  unfold resumeLocks
  rw [releases_use]
  split <;> rfl

variable {vm} in
theorem releases_cancelLocks : Releases (cancelLocks vm) := by
  unfold cancelLocks
  rw [releases_use]
  split <;> rfl

variable {vm} in
theorem releases_onElementLocks {marked : Option VirtualMachine} :
    Releases (onElementLocks vm marked) := by
  unfold onElementLocks
  rw [releases_use]
  split
  · rw [releases_use]
    split <;> rfl
  · rfl

theorem balanced_attachLocks {vm? again? : Option VirtualMachine} {setUp : Bool} :
    Balanced (attachLocks vm? setUp again?) := by
  unfold attachLocks
  rw [balanced_withVm]
  intro vm _
  rw [releases_use]
  split
  · rw [releases_use, releases_unlock, balanced_withVm]
    intro _ _
    split <;> rfl
  · rfl

variable {vm} in
/-- The two events that are dropped in another stage keep the lock there. -/
theorem releases_leaveStageLocks {stage : LcmState} :
    Releases (leaveStageLocks vm stage) ↔ vm.lcmState = stage := by
  unfold leaveStageLocks
  rw [releases_use]
  split
  · rename_i expected
    exact iff_of_true rfl expected
  · rename_i other
    exact iff_of_false not_releases_nil other

end DispatchManager

open DispatchManager

/-- What a request does with the lock. -/
def VmRequest.locks (vm? : Option VirtualMachine) (request : VmRequest) : List Event :=
  withVm vm? fun vm =>
    match request with
    | .shutdown | .undeploy _ | .poweroff _ | .stop | .suspend => whenRunningLocks vm
    | .cancel => cancelLocks vm
    | .reboot | .reset | .resched _ => changeRunningLocks vm
    | .hold => checked (vm.state = .pending) [.use]
    | .release => checked (vm.state = .hold) [.use]
    | .resume => resumeLocks vm
    | .restart => checked ((DispatchManager.restart vm).rc = 0) []
    | .finalize => finalizeLocks vm
    | .resubmit => resubmitLocks vm
    | .detach diskId => onElementLocks vm (vm.setAttachDisk diskId)
    | .detachNic nicId => onElementLocks vm (vm.setAttachNic nicId)
    | .snapshotCreate name => onElementLocks vm (some (vm.newSnapshot name))
    | .snapshotRevert snapId => onElementLocks vm (vm.setActiveSnapshot snapId)
    | .snapshotDelete snapId => onElementLocks vm (vm.setActiveSnapshot snapId)

/-- What an event does with the lock. -/
def DmAction.locks (vm? : Option VirtualMachine) (action : DmAction) : List Event :=
  match action with
  | .suspendSuccess => withVm vm? fun vm => leaveActiveLocks vm [.saveSuspend]
  | .stopSuccess => withVm vm? fun vm => leaveActiveLocks vm [.epilogStop, .prologResume]
  | .undeploySuccess => withVm vm? fun vm => leaveActiveLocks vm [.epilogUndeploy, .prologUndeploy]
  | .poweroffSuccess => withVm vm? fun vm => leaveActiveLocks vm [.shutdownPoweroff]
  | .done => withVm vm? fun vm => leaveActiveLocks vm [.epilog, .cancel, .cleanupDelete]
  | .failed => withVm vm? fun vm => leaveStageLocks vm .failure
  | .resubmit => withVm vm? fun vm => leaveStageLocks vm .cleanupResubmit
  -- the manager ends
  | .finalize => []

/-- Every request unlocks the VM once. -/
theorem VmRequest.balanced_locks (vm? : Option VirtualMachine) (request : VmRequest) :
    Balanced (request.locks vm?) := by
  unfold VmRequest.locks
  rw [balanced_withVm]
  intro vm _
  cases request with
  | shutdown | undeploy | poweroff | stop | suspend => exact releases_checked rfl
  | cancel => exact releases_cancelLocks
  | reboot | reset | resched => exact releases_checked rfl
  | hold | release | restart => exact releases_checked rfl
  | resume => exact releases_resumeLocks
  | finalize => exact releases_finalizeLocks
  | resubmit => exact releases_resubmitLocks
  | detach | detachNic | snapshotCreate | snapshotRevert | snapshotDelete =>
    exact releases_onElementLocks

/-- The stage an event has to find the VM in, to unlock it. -/
def DmAction.Expected (action : DmAction) (vm : VirtualMachine) : Prop :=
  match action with
  | .failed => vm.lcmState = .failure
  | .resubmit => vm.lcmState = .cleanupResubmit
  | _ => True

theorem DmAction.balanced_locks_iff {vm? : Option VirtualMachine} {action : DmAction} :
    Balanced (action.locks vm?) ↔ ∀ vm, vm? = some vm → action.Expected vm := by
  cases action with
  | suspendSuccess | stopSuccess | undeploySuccess | poweroffSuccess | done =>
    exact iff_of_true (balanced_withVm.mpr fun vm _ => releases_checked rfl) fun _ _ => trivial
  | failed | resubmit =>
    unfold DmAction.locks
    rw [balanced_withVm]
    exact forall₂_congr fun vm _ => releases_leaveStageLocks
  | finalize => exact iff_of_true balanced_nil fun _ _ => trivial

theorem leaveActive_unlocked {vm : VirtualMachine} {stages : List LcmState} {state : VmState} :
    (leaveActive vm stages state).unlocked = true := by
  unfold leaveActive
  split <;> rfl

/-- The handlers unlock the VM where their traces do. -/
theorem DmAction.unlocked_iff {vm : VirtualMachine} {action : DmAction} :
    (DispatchManager.handler action vm).unlocked = true ↔ Balanced (action.locks (some vm)) := by
  have there : Balanced (action.locks (some vm)) ↔ action.Expected vm := by
    rw [DmAction.balanced_locks_iff]
    exact ⟨fun all => all vm rfl, fun expected _ same => by cases same; exact expected⟩
  rw [there]
  cases action with
  | suspendSuccess | stopSuccess | undeploySuccess | poweroffSuccess =>
    exact iff_of_true leaveActive_unlocked trivial
  | done =>
    have unlocked : (doneAction vm).unlocked = true := by
      unfold doneAction
      split <;> rfl
    exact iff_of_true unlocked trivial
  | failed =>
    change (failedAction vm).unlocked = true ↔ vm.lcmState = .failure
    unfold failedAction
    split
    · rename_i expected
      exact iff_of_true rfl expected
    · rename_i other
      exact iff_of_false Bool.false_ne_true other
  | resubmit =>
    change (resubmitAction vm).unlocked = true ↔ vm.lcmState = .cleanupResubmit
    unfold resubmitAction
    split
    · rename_i expected
      exact iff_of_true rfl expected
    · rename_i other
      exact iff_of_false Bool.false_ne_true other
  | finalize => exact iff_of_true rfl trivial

end Ezilla
