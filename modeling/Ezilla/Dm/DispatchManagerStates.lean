import Ezilla.Vm.Managers

/-!
# Events in the dispatch manager

What `DispatchManager` does with a VM when the life-cycle manager is done with a stage. An
event that comes in another state is logged and dropped; those of a failure and of a
resubmission are dropped without unlocking the VM.
-/

namespace Ezilla

namespace DispatchManager

variable (vm : VirtualMachine)

/-- The VM leaves the life cycle, when it is found in one of the stages expected. -/
def leaveActive (stages : List LcmState) (state : VmState) : Outcome :=
  if vm.state = .active ∧ vm.lcmState ∈ stages then
    { vm := { vm with state, lcmState := .lcmInit } }
  else .wrongState vm

/-- `DispatchManager::suspend_success_action`. -/
def suspendSuccessAction : Outcome := leaveActive vm [.saveSuspend] .suspended

/-- `DispatchManager::stop_success_action`. -/
def stopSuccessAction : Outcome := leaveActive vm [.epilogStop, .prologResume] .stopped

/-- `DispatchManager::undeploy_success_action`. -/
def undeploySuccessAction : Outcome :=
  leaveActive vm [.epilogUndeploy, .prologUndeploy] .undeployed

/-- `DispatchManager::poweroff_success_action`. -/
def poweroffSuccessAction : Outcome := leaveActive vm [.shutdownPoweroff] .poweroff

/-- `DispatchManager::done_action`. -/
def doneAction : Outcome :=
  if vm.state = .active ∧ vm.lcmState ∈ ([.epilog, .cancel, .cleanupDelete] : List LcmState) then
    { vm := { vm with state := .done, lcmState := .lcmInit }
      effects := [.releaseNetworkLeases, .releaseDiskImages, .vmDel vm.uid vm.gid] }
  else .wrongState vm

/-- `DispatchManager::failed_action`. -/
def failedAction : Outcome :=
  if vm.lcmState = .failure then
    { vm := { vm with state := .failed, lcmState := .lcmInit } }
  else { vm, unlocked := false }

/-- `DispatchManager::resubmit_action`. -/
def resubmitAction : Outcome :=
  if vm.lcmState = .cleanupResubmit then
    { vm := { vm with state := .pending, lcmState := .lcmInit } }
  else { vm, unlocked := false }

/-- The handler an action gets in `DispatchManager::do_action`. -/
def handler : DmAction → VirtualMachine → Outcome
  | .suspendSuccess => suspendSuccessAction
  | .stopSuccess => stopSuccessAction
  | .undeploySuccess => undeploySuccessAction
  | .poweroffSuccess => poweroffSuccessAction
  | .done => doneAction
  | .failed => failedAction
  | .resubmit => resubmitAction
  | .finalize => Outcome.wrongState

end DispatchManager

end Ezilla
