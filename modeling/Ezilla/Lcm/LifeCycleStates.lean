import Ezilla.Vm.Managers

/-!
# Driver events in the life-cycle manager

What `LifeCycleManager` does with a VM when a driver answers. An answer carries no hint of
the request it belongs to: each handler takes it for the operation that the state of the VM
stands for, and only logs an error in any other state.
-/

namespace Ezilla

namespace LifeCycleManager

variable (vm : VirtualMachine)

/-- `LifeCycleManager::failure_action`. -/
def failureAction : Outcome where
  vm := ({ vm with lcmState := .failure, resched := false }.deleteSnapshots).setReason .error
  effects := [.delCapacity vm.hid, .dm .failed]

/-- `LifeCycleManager::save_success_action`. -/
def saveSuccessAction : Outcome :=
  match vm.lcmState with
  | .saveMigrate =>
    { vm := ({ vm with lcmState := .prologMigrate }.deleteSnapshots).setPreviousReason .user
      effects := [.delCapacity vm.previousHid, .tm .prologMigr] }
  | .saveSuspend =>
    { vm := vm.deleteSnapshots.setReason .user, effects := [.dm .suspendSuccess] }
  | .saveStop =>
    { vm := ({ vm with lcmState := .epilogStop }.deleteSnapshots).setReason .user
      effects := [.tm .epilogStop] }
  | _ => .wrongState vm

/-- A migration is given up: the record of the new host is closed with an error, and a copy of
the previous one follows it. -/
def giveUpMigration : Outcome where
  vm := (({ vm with lcmState := .running }.setReason .error).setPreviousReason
    .user).cpPreviousHistory
  effects := [.delCapacity vm.hid, .vmm .poll]

/-- A command was refused and the VM still runs. -/
def backToRunning : Outcome where
  vm := { vm with lcmState := .running }.setAction .none
  effects := [.vmm .poll]

/-- `LifeCycleManager::save_failure_action`. -/
def saveFailureAction : Outcome :=
  match vm.lcmState with
  | .saveMigrate => giveUpMigration vm
  | .saveSuspend | .saveStop => backToRunning vm
  | _ => .wrongState vm

/-- `LifeCycleManager::deploy_success_action`. -/
def deploySuccessAction : Outcome :=
  match vm.lcmState with
  | .migrate =>
    { vm := ({ vm with lcmState := .running }.setPreviousReason .user).deleteSnapshots
      effects := [.delCapacity vm.previousHid] }
  | .boot | .bootPoweroff | .bootUnknown | .bootSuspended | .bootStopped | .bootUndeploy =>
    { vm := { vm with lcmState := .running } }
  | _ => .wrongState vm

/-- `LifeCycleManager::deploy_failure_action`. -/
def deployFailureAction : Outcome :=
  match vm.lcmState with
  | .migrate => giveUpMigration vm
  | .boot => failureAction vm
  | .bootUnknown => { vm := { vm with lcmState := .unknown } }
  | .bootPoweroff => { vm := { vm with state := .poweroff, lcmState := .lcmInit } }
  | .bootSuspended => { vm := { vm with state := .suspended, lcmState := .lcmInit } }
  | .bootStopped =>
    { vm := { vm with lcmState := .epilogStop }.setReason .error, effects := [.tm .epilogStop] }
  | .bootUndeploy =>
    { vm := { vm with lcmState := .epilogUndeploy }.setReason .error
      effects := [.tm .epilogStop] }
  | _ => .wrongState vm

/-- The VM was shut down for good and its disks are transferred back. -/
def startEpilog : Outcome where
  vm := ({ vm with lcmState := .epilog }.deleteSnapshots).setReason .user
  effects := [.tm .epilog]

/-- The VM was shut down to be undeployed. -/
def startEpilogUndeploy : Outcome where
  vm := ({ vm with lcmState := .epilogUndeploy }.deleteSnapshots).setReason .user
  effects := [.tm .epilogStop]

/-- The VM was powered off. -/
def poweredOff : Outcome where
  vm := vm.deleteSnapshots.setReason .user
  effects := [.dm .poweroffSuccess]

/-- `LifeCycleManager::shutdown_success_action`. -/
def shutdownSuccessAction : Outcome :=
  match vm.lcmState with
  | .shutdown => startEpilog vm
  | .shutdownPoweroff => poweredOff vm
  | .shutdownUndeploy => startEpilogUndeploy vm
  | _ => .wrongState vm

/-- `LifeCycleManager::shutdown_failure_action`. -/
def shutdownFailureAction : Outcome :=
  match vm.lcmState with
  | .shutdown | .shutdownPoweroff | .shutdownUndeploy => backToRunning vm
  | _ => .wrongState vm

/-- `LifeCycleManager::cancel_success_action`. -/
def cancelSuccessAction : Outcome :=
  match vm.lcmState with
  | .cancel => startEpilog vm
  | .shutdownUndeploy => startEpilogUndeploy vm
  | .shutdownPoweroff => poweredOff vm
  | _ => .wrongState vm

/-- `LifeCycleManager::cancel_failure_action`. -/
def cancelFailureAction : Outcome :=
  match vm.lcmState with
  | .cancel | .shutdownUndeploy | .shutdownPoweroff => backToRunning vm
  | _ => .wrongState vm

/-- `LifeCycleManager::prolog_success_action`. -/
def prologSuccessAction : Outcome :=
  match vm.lcmState with
  | .prolog => { vm := { vm with lcmState := .boot }, effects := [.vmm .deploy] }
  | .prologUndeploy => { vm := { vm with lcmState := .bootUndeploy }, effects := [.vmm .deploy] }
  | .prologMigrate => { vm := { vm with lcmState := .boot }, effects := [.vmm .restore] }
  | .prologResume => { vm := { vm with lcmState := .bootStopped }, effects := [.vmm .restore] }
  | _ => .wrongState vm

/-- A resume failed before the VM was booted; the dispatch manager takes it back to the state
it came from. -/
def giveUpResume (action : DmAction) : Outcome where
  vm := { vm with resched := false }.setReason .error
  effects := [.delCapacity vm.hid, .dm action]

/-- `LifeCycleManager::prolog_failure_action`. -/
def prologFailureAction : Outcome :=
  match vm.lcmState with
  | .prolog | .prologMigrate => failureAction vm
  | .prologResume => giveUpResume vm .stopSuccess
  | .prologUndeploy => giveUpResume vm .undeploySuccess
  | _ => .wrongState vm

/-- `LifeCycleManager::epilog_success_action`. -/
def epilogSuccessAction : Outcome :=
  match vm.lcmState with
  | .epilogStop => { vm, effects := [.delCapacity vm.hid, .dm .stopSuccess] }
  | .epilogUndeploy => { vm, effects := [.delCapacity vm.hid, .dm .undeploySuccess] }
  | .epilog => { vm, effects := [.delCapacity vm.hid, .dm .done] }
  | .cleanupResubmit => { vm, effects := [.dm .resubmit] }
  | _ => .wrongState vm

/-- `LifeCycleManager::epilog_failure_action`. -/
def epilogFailureAction : Outcome :=
  match vm.lcmState with
  | .cleanupResubmit => { vm, effects := [.dm .resubmit] }
  | .epilogStop | .epilogUndeploy | .epilog => failureAction vm
  | _ => .wrongState vm

/-- `LifeCycleManager::cleanup_callback_action`. -/
def cleanupCallbackAction : Outcome :=
  match vm.lcmState with
  | .cleanupResubmit => { vm, effects := [.dm .resubmit] }
  | _ => .wrongState vm

/-- `LifeCycleManager::monitor_failure_action`. -/
def monitorFailureAction : Outcome :=
  match vm.lcmState with
  | .running | .unknown => failureAction vm
  | _ => .wrongState vm

/-- `LifeCycleManager::monitor_suspend_action`. -/
def monitorSuspendAction : Outcome :=
  match vm.lcmState with
  | .running | .unknown =>
    { vm := ({ vm with lcmState := .saveSuspend, resched := false }.deleteSnapshots).setReason
        .error
      effects := [.dm .suspendSuccess] }
  | _ => .wrongState vm

/-- `LifeCycleManager::monitor_done_action`. -/
def monitorDoneAction : Outcome :=
  match vm.lcmState with
  | .running => { vm := { vm with lcmState := .unknown, resched := false } }
  | _ => .wrongState vm

/-! ## Hotplug -/

/-- `LifeCycleManager::attach_success_action`. -/
def attachSuccessAction : Outcome :=
  match vm.lcmState with
  | .hotplug => { vm := { vm.clearAttachDisk with lcmState := .running } }
  | _ => .wrongState vm

/-- What is given back for a disk that leaves the VM. -/
def giveBackDisk (disk : Disk) : List Effect :=
  .quotaDelDisk vm.uid vm.gid disk :: (disk.imageId.map Effect.releaseImage).toList

/-- `LifeCycleManager::attach_failure_action`. -/
def attachFailureAction : Outcome :=
  match vm.lcmState with
  | .hotplug =>
    { vm := { vm.deleteAttachDisk.2 with lcmState := .running }
      effects := vm.deleteAttachDisk.1.toList.flatMap (giveBackDisk vm) }
  | _ => .wrongState vm

/-- `LifeCycleManager::detach_success_action`. -/
def detachSuccessAction : Outcome := attachFailureAction vm

/-- `LifeCycleManager::detach_failure_action`. -/
def detachFailureAction : Outcome := attachSuccessAction vm

/-- `LifeCycleManager::attach_nic_success_action`. -/
def attachNicSuccessAction : Outcome :=
  match vm.lcmState with
  | .hotplugNic => { vm := { vm.clearAttachNic with lcmState := .running } }
  | _ => .wrongState vm

/-- What is given back for a NIC that leaves the VM. -/
def giveBackNic (nic : Nic) : List Effect :=
  [.quotaDelNic vm.uid vm.gid nic, .releaseLease nic]

/-- `LifeCycleManager::attach_nic_failure_action`. -/
def attachNicFailureAction : Outcome :=
  match vm.lcmState with
  | .hotplugNic =>
    { vm := { vm.deleteAttachNic.2 with lcmState := .running }
      effects := vm.deleteAttachNic.1.toList.flatMap (giveBackNic vm) }
  | _ => .wrongState vm

/-- `LifeCycleManager::detach_nic_success_action`. -/
def detachNicSuccessAction : Outcome := attachNicFailureAction vm

/-- `LifeCycleManager::detach_nic_failure_action`. -/
def detachNicFailureAction : Outcome := attachNicSuccessAction vm

/-! ## Snapshots -/

/-- The snapshot operation is over and the active snapshot stays. -/
def keepActiveSnapshot : Outcome :=
  match vm.lcmState with
  | .hotplugSnapshot => { vm := { vm.clearActiveSnapshot with lcmState := .running } }
  | _ => .wrongState vm

/-- The snapshot operation is over and the active snapshot goes. -/
def dropActiveSnapshot : Outcome :=
  match vm.lcmState with
  | .hotplugSnapshot => { vm := { vm.deleteActiveSnapshot with lcmState := .running } }
  | _ => .wrongState vm

/-- `LifeCycleManager::snapshot_create_success`. -/
def snapshotCreateSuccess : Outcome := keepActiveSnapshot vm

/-- `LifeCycleManager::snapshot_create_failure`. -/
def snapshotCreateFailure : Outcome := dropActiveSnapshot vm

/-- `LifeCycleManager::snapshot_revert_success`. -/
def snapshotRevertSuccess : Outcome := keepActiveSnapshot vm

/-- `LifeCycleManager::snapshot_revert_failure`. -/
def snapshotRevertFailure : Outcome := snapshotRevertSuccess vm

/-- `LifeCycleManager::snapshot_delete_success`. -/
def snapshotDeleteSuccess : Outcome := dropActiveSnapshot vm

/-- `LifeCycleManager::snapshot_delete_failure`. -/
def snapshotDeleteFailure : Outcome := keepActiveSnapshot vm

/-! ## Copies of disks -/

/-- The end of a copy of a disk: the disk is cleared even where the state is wrong. -/
def saveasHotEnd (done : Nat → Effect) : Outcome :=
  let vm' := match vm.getSaveasDiskHot with
    | some (diskId, _) => vm.clearSaveasDisk diskId true
    | none => vm
  match vm'.leaveSaveas with
  | none => .wrongState vm'
  | some vm'' => { vm := vm'', effects := ((vm.getSaveasDiskHot.bind Prod.snd).map done).toList }

/-- `LifeCycleManager::saveas_hot_success_action`. -/
def saveasHotSuccessAction : Outcome := saveasHotEnd vm .imageReady

/-- `LifeCycleManager::saveas_hot_failure_action`. -/
def saveasHotFailureAction : Outcome := saveasHotEnd vm .imageError

end LifeCycleManager

end Ezilla
