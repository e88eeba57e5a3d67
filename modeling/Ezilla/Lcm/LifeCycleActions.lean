import Ezilla.Vm.Managers

/-!
# Actions of the life-cycle manager

What `LifeCycleManager` does with a VM when the dispatch manager asks for it. Each action
checks the state of the VM again, as it may have changed since the request was accepted.

* `deployAction` … `restartAction`: the actions that start an operation;
* `cleanUpVm`, `deleteAction`, `cleanAction`: the end of a VM, or of its current try.
-/

namespace Ezilla

namespace LifeCycleManager

variable (vm : VirtualMachine)

/-- `LifeCycleManager::deploy_action`: the previous record tells a first deployment from one
that resumes a stopped or undeployed VM. -/
def deployAction : Outcome :=
  if vm.state = .active then
    match vm.previousAction with
    | some .stop =>
      { vm := { vm with lcmState := .prologResume }
        effects := [.addCapacity vm.hid, .tm .prologResume] }
    | some .undeploy | some .undeployHard =>
      { vm := { vm with lcmState := .prologUndeploy }
        effects := [.addCapacity vm.hid, .tm .prologResume] }
    | _ =>
      { vm := { vm with lcmState := .prolog }
        effects := [.addCapacity vm.hid, .tm .prolog] }
  else .wrongState vm

/-- The actions that take a running VM down: its next state, the action of its record and
the command for the driver. -/
def leaveRunning (lcmState : LcmState) (action : VMAction) (command : VmmAction) : Outcome :=
  if vm.In .running then
    { vm := { vm with lcmState, resched := false }.setAction action
      effects := [.vmm command] }
  else .wrongState vm

/-- `LifeCycleManager::suspend_action`. -/
def suspendAction : Outcome := leaveRunning vm .saveSuspend .suspend .save

/-- `LifeCycleManager::stop_action`. -/
def stopAction : Outcome := leaveRunning vm .saveStop .stop .save

/-- `LifeCycleManager::shutdown_action`. -/
def shutdownAction : Outcome := leaveRunning vm .shutdown .shutdown .shutdown

/-- `LifeCycleManager::undeploy_action`. -/
def undeployAction (hard : Bool) : Outcome :=
  if hard then leaveRunning vm .shutdownUndeploy .undeployHard .cancel
  else leaveRunning vm .shutdownUndeploy .undeploy .shutdown

/-- `LifeCycleManager::poweroff_action`. -/
def poweroffAction (hard : Bool) : Outcome :=
  if hard then leaveRunning vm .shutdownPoweroff .poweroffHard .cancel
  else leaveRunning vm .shutdownPoweroff .poweroff .shutdown

/-- `LifeCycleManager::cancel_action`. -/
def cancelAction : Outcome := leaveRunning vm .cancel .shutdownHard .cancel

/-- The actions that move a running VM to the host of its last record. -/
def moveRunning (lcmState : LcmState) (action : VMAction) (command : VmmAction) : Outcome :=
  if vm.In .running then
    { vm := { vm with lcmState, resched := false }.setPreviousAction action
      effects := [.addCapacity vm.hid, .vmm command] }
  else .wrongState vm

/-- `LifeCycleManager::migrate_action`. -/
def migrateAction : Outcome := moveRunning vm .saveMigrate .migrate .save

/-- `LifeCycleManager::live_migrate_action`. -/
def liveMigrateAction : Outcome := moveRunning vm .migrate .liveMigrate .migrate

/-- `LifeCycleManager::restore_action`. -/
def restoreAction : Outcome :=
  if vm.state = .suspended then
    { vm := { vm with state := .active, lcmState := .bootSuspended }.cpHistory
      effects := [.vmm .restore] }
  else .wrongState vm

/-- `LifeCycleManager::restart_action`. -/
def restartAction : Outcome :=
  if vm.state = .active then
    match vm.lcmState with
    | .boot | .bootUnknown | .bootPoweroff | .bootSuspended | .bootStopped | .bootUndeploy =>
      { vm, effects := [.vmm .deploy] }
    | .unknown => { vm := { vm with lcmState := .bootUnknown }, effects := [.vmm .deploy] }
    | _ => .wrongState vm
  else if vm.state = .poweroff then
    { vm := { vm with state := .active, lcmState := .bootPoweroff }.cpHistory
      effects := [.vmm .deploy] }
  else .wrongState vm

/-- `VirtualMachine::cancel_saveas_disk`: the disk keeps no trace of the copy; the image it
was copied to is returned. -/
def cancelSaveasDisk : List Disk → Option Nat × List Disk
  | [] => (none, [])
  | disk :: disks =>
    if disk.saveAsActive then
      (disk.saveAs, { disk with saveAsActive := false, saveAs := none, save := "NO" } :: disks)
    else if disk.hotplugSaveAsActive then
      (disk.hotplugSaveAs,
        { disk with
          hotplugSaveAsActive := false, hotplugSaveAs := none, hotplugSaveAsSource := "" } :: disks)
    else ((cancelSaveasDisk disks).1, disk :: (cancelSaveasDisk disks).2)

/-- The part of `clean_up_vm` before its switch: the clean-up state, the record closed and the
capacity of the current host released. -/
def cleanUpStart (dispose : Bool) : VirtualMachine :=
  (({ vm with
      lcmState := if dispose then .cleanupDelete else .cleanupResubmit
      resched := false }.setAction
        (if dispose then .delete else .deleteRecreate)).deleteSnapshots).setReason .user

/-- The switch of `clean_up_vm` over the state the VM was found in: what it still changes of
the VM, and what it asks for. -/
def cleanUpSwitch (lcmState : LcmState) : VirtualMachine × List Effect :=
  match lcmState with
  | .prolog | .prologResume | .prologUndeploy | .epilogStop | .epilogUndeploy | .epilog =>
    (vm, [.tm .driverCancel, .tm .epilogDelete])
  | .boot | .bootUnknown | .bootPoweroff | .bootSuspended | .bootStopped | .bootUndeploy
  | .running | .unknown | .shutdown | .shutdownPoweroff | .cancel | .hotplugSnapshot
  | .saveStop | .saveSuspend =>
    (vm, [.vmm .driverCancel, .vmm .cleanup])
  | .hotplug => (vm.clearAttachDisk, [.vmm .driverCancel, .vmm .cleanup])
  | .hotplugNic => (vm.clearAttachNic, [.vmm .driverCancel, .vmm .cleanup])
  | .hotplugSaveas | .hotplugSaveasPoweroff | .hotplugSaveasSuspended =>
    ({ vm with disks := (cancelSaveasDisk vm.disks).2 },
      [.tm .driverCancel, .vmm .driverCancel, .vmm .cleanup] ++
        ((cancelSaveasDisk vm.disks).1.map Effect.imageError).toList)
  | .migrate =>
    (vm.setPreviousReason .user,
      [.delCapacity vm.previousHid, .vmm .driverCancel, .vmm .cleanupBoth])
  | .saveMigrate =>
    (vm.setPreviousReason .user,
      [.delCapacity vm.previousHid, .vmm .driverCancel, .vmm .cleanupPrevious])
  | .prologMigrate => (vm, [.tm .driverCancel, .tm .epilogDeleteBoth])
  -- also shutdownUndeploy, which the comment at this default does not list
  | .lcmInit | .cleanupResubmit | .cleanupDelete | .failure | .shutdownUndeploy => (vm, [])

/-- `LifeCycleManager::clean_up_vm`. -/
def cleanUpVm (dispose : Bool) : VirtualMachine × List Effect :=
  let (vm', effects) := cleanUpSwitch (cleanUpStart vm dispose) vm.lcmState
  (vm', .delCapacity vm.hid :: effects)

/-- `LifeCycleManager::delete_action`. -/
def deleteAction : Outcome :=
  if vm.state = .active then
    match vm.lcmState with
    | .cleanupResubmit | .cleanupDelete =>
      { vm := { vm with lcmState := .cleanupDelete }, effects := [.dm .done] }
    | .failure =>
      { vm := { vm with lcmState := .cleanupDelete }, effects := [.tm .epilogDelete, .dm .done] }
    | _ => { vm := (cleanUpVm vm true).1, effects := (cleanUpVm vm true).2 ++ [.dm .done] }
  else .wrongState vm

/-- `LifeCycleManager::clean_action`. -/
def cleanAction : Outcome :=
  if vm.state = .active then
    match vm.lcmState with
    | .cleanupDelete => .wrongState vm
    | .cleanupResubmit => { vm, effects := [.dm .resubmit] }
    | .failure =>
      { vm := { vm with lcmState := .cleanupResubmit }, effects := [.tm .epilogDelete] }
    | _ => { vm := (cleanUpVm vm false).1, effects := (cleanUpVm vm false).2 }
  else .wrongState vm

end LifeCycleManager

end Ezilla
