import Ezilla.Vm.Managers

/-!
# Requests in the dispatch manager

What `DispatchManager` does with a VM that a request is about. A request is answered at once;
most of the work is left to the life-cycle manager, whose event is handled later.

* `DispatchManager.deploy` … `reset`: the requests that need one state of the VM;
* `DispatchManager.finalize`, `resubmit`: the requests that any VM takes;
* `DispatchManager.attach` … `snapshotDelete`: the hotplug requests. Those for a new disk or
  NIC lock the VM twice, and what happens in between is the argument of the second part.

All of them return -1 when there is no such VM.
-/

namespace Ezilla

/-- What a request returns, and what it did. -/
structure Reply where
  rc : Int
  outcome : Outcome
  deriving DecidableEq, Repr

/-- The request was taken. -/
def Reply.accept (vm : VirtualMachine) (effects : List Effect) : Reply where
  rc := 0
  outcome := { vm, effects }

/-- The request was refused and changed nothing. -/
def Reply.refuse (rc : Int) (vm : VirtualMachine) : Reply where
  rc := rc
  outcome := { vm }

namespace DispatchManager

variable (vm : VirtualMachine)

/-! ## Placement -/

/-- `DispatchManager::deploy`. -/
def deploy : Reply :=
  if vm.state = .pending ∨ vm.state = .hold then
    .accept { vm with state := .active } [.lcm .deploy]
  else .refuse (-1) vm

/-- The requests that hand an event for a running VM to the life-cycle manager. -/
def whenRunning (rc : Int) (action : LcmAction) : Reply :=
  if vm.In .running then .accept vm [.lcm action] else .refuse rc vm

/-- `DispatchManager::migrate`. -/
def migrate : Reply := whenRunning vm (-1) .migrate

/-- `DispatchManager::live_migrate`. -/
def liveMigrate : Reply := whenRunning vm (-1) .liveMigrate

/-! ## Running VMs -/

/-- `DispatchManager::shutdown`. -/
def shutdown : Reply := whenRunning vm (-2) .shutdown

/-- `DispatchManager::undeploy`. -/
def undeploy (hard : Bool) : Reply :=
  whenRunning vm (-2) (if hard then .undeployHard else .undeploy)

/-- `DispatchManager::poweroff`. -/
def poweroff (hard : Bool) : Reply :=
  whenRunning vm (-2) (if hard then .poweroffHard else .poweroff)

/-- `DispatchManager::stop`. -/
def stop : Reply := whenRunning vm (-2) .stop

/-- `DispatchManager::cancel`; the VM is unlocked before the event is sent. -/
def cancel : Reply := whenRunning vm (-2) .cancel

/-- `DispatchManager::suspend`. -/
def suspend : Reply := whenRunning vm (-2) .suspend

/-- `DispatchManager::reboot`. -/
def reboot : Reply :=
  if vm.In .running then .accept { vm with resched := false } [.vmm .reboot]
  else .refuse (-2) vm

/-- `DispatchManager::reset`. -/
def reset : Reply :=
  if vm.In .running then .accept { vm with resched := false } [.vmm .reset]
  else .refuse (-2) vm

/-- `DispatchManager::resched`. -/
def resched (doResched : Bool) : Reply :=
  if vm.In .running then .accept { vm with resched := doResched } [] else .refuse (-2) vm

/-! ## Other states -/

/-- `DispatchManager::hold`. -/
def hold : Reply :=
  if vm.state = .pending then .accept { vm with state := .hold } [] else .refuse (-2) vm

/-- `DispatchManager::release`. -/
def release : Reply :=
  if vm.state = .hold then .accept { vm with state := .pending } [] else .refuse (-2) vm

/-- `DispatchManager::resume`. -/
def resume : Reply :=
  match vm.state with
  | .stopped | .undeployed => .accept { vm with state := .pending } []
  | .suspended => .accept vm [.lcm .restore]
  | .poweroff => .accept vm [.lcm .restart]
  | _ => .refuse (-2) vm

/-- `DispatchManager::restart`. -/
def restart : Reply :=
  if vm.state = .active then
    match vm.lcmState with
    | .unknown | .boot | .bootUnknown | .bootPoweroff | .bootSuspended | .bootStopped
    | .bootUndeploy => .accept vm [.lcm .restart]
    | _ => .refuse (-2) vm
  else .refuse (-2) vm

/-- `DispatchManager::finalize_cleanup`: the VM, and what follows the effects before it. -/
def finalizeCleanup (before : List Effect) : Reply :=
  .accept { vm with state := .done, lcmState := .lcmInit }
    (before ++ [.releaseNetworkLeases, .releaseDiskImages, .vmDel vm.uid vm.gid])

/-- `DispatchManager::finalize`. -/
def finalize : Reply :=
  match vm.state with
  | .suspended | .poweroff => finalizeCleanup vm [.delCapacity vm.hid, .tm .epilogDelete]
  | .failed => finalizeCleanup vm [.tm .epilogDelete]
  | .stopped | .undeployed => finalizeCleanup vm [.tm .epilogDeleteStop]
  | .init | .pending | .hold => finalizeCleanup vm []
  | .active => .accept vm [.lcm .delete]
  | .done => .accept vm []

/-- `DispatchManager::resubmit`. -/
def resubmit : Reply :=
  match vm.state with
  | .poweroff | .suspended | .done => .refuse (-2) vm
  | .init | .pending => .accept vm []
  | .failed =>
    .accept { vm with state := .active, lcmState := .cleanupResubmit } [.tm .epilogDelete]
  | .hold | .stopped | .undeployed =>
    .accept { vm with state := .pending, lcmState := .lcmInit } []
  | .active => .accept vm [.lcm .clean]

/-! ## Hotplug -/

/-- The stage of an operation on a part of the VM is entered. -/
def enter (lcmState : LcmState) : VirtualMachine := { vm with lcmState, resched := false }

/-- `DispatchManager::attach`, until it unlocks the VM to set up the disk. -/
def attach : Reply :=
  if vm.In .running then .accept (enter vm .hotplug) [] else .refuse (-1) vm

/-- `DispatchManager::attach`, after the disk was set up: the state of the VM is not looked
at again. -/
def attachSetUp (disk : Option Disk) : Reply :=
  match disk with
  | none => { rc := -1, outcome := { vm := { vm with lcmState := .running } } }
  | some disk => .accept (vm.addAttachDisk disk) [.vmm .attach]

/-- An operation on an element the VM has, which gets the mark. -/
def onElement (lcmState : LcmState) (marked : Option VirtualMachine) (action : VmmAction) :
    Reply :=
  if vm.In .running then
    match marked with
    | none => .refuse (-1) vm
    | some vm' => .accept (enter vm' lcmState) [.vmm action]
  else .refuse (-1) vm

/-- `DispatchManager::detach`. -/
def detach (diskId : Nat) : Reply := onElement vm .hotplug (vm.setAttachDisk diskId) .detach

/-- `DispatchManager::attach_nic`, until it unlocks the VM to set up the NIC. -/
def attachNic : Reply :=
  if vm.In .running then .accept (enter vm .hotplugNic) [] else .refuse (-1) vm

/-- `DispatchManager::attach_nic`, after the NIC was set up. -/
def attachNicSetUp (nic : Option Nic) : Reply :=
  match nic with
  | none => { rc := -1, outcome := { vm := { vm with lcmState := .running } } }
  | some nic => .accept (vm.addAttachNic nic) [.vmm .attachNic]

/-- `DispatchManager::detach_nic`. -/
def detachNic (nicId : Nat) : Reply :=
  onElement vm .hotplugNic (vm.setAttachNic nicId) .detachNic

/-- `DispatchManager::snapshot_create`. -/
def snapshotCreate (name : String) : Reply :=
  onElement vm .hotplugSnapshot (some (vm.newSnapshot name)) .snapshotCreate

/-- `DispatchManager::snapshot_revert`. -/
def snapshotRevert (snapId : Nat) : Reply :=
  onElement vm .hotplugSnapshot (vm.setActiveSnapshot snapId) .snapshotRevert

/-- `DispatchManager::snapshot_delete`. -/
def snapshotDelete (snapId : Nat) : Reply :=
  onElement vm .hotplugSnapshot (vm.setActiveSnapshot snapId) .snapshotDelete

end DispatchManager

end Ezilla
