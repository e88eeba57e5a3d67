import Ezilla.Vm.Managers

/-!
# Answers of the drivers

A message of a driver names an action, a result and a VM. `VirtualMachineManagerDriver` and
`TransferManagerDriver` turn it into an event for the life-cycle manager, unless the VM is
found in FAILURE or has no stage at all.

* `VirtualMachineManagerDriver.protocol`: the event depends on the action of the message;
* `TransferManagerDriver.protocol`: all transfers are one action, so that the event depends
  on the state the VM is found in.
-/

namespace Ezilla

/-- What the monitoring of a VM reports; `unknown` stands for '-' and other letters, `error`
for a report that cannot be read. -/
inductive PollState where
  | active
  | paused
  | failed
  | notFound
  | unknown
  | error
  deriving DecidableEq, Repr

/-- The actions of the messages of a virtualization driver. -/
inductive VmmMessage where
  | deploy
  | shutdown
  | cancel
  | save
  | restore
  | migrate
  | reboot
  | reset
  | attachDisk
  | detachDisk
  | attachNic
  | detachNic
  | snapshotCreate
  | snapshotRevert
  | snapshotDelete
  | cleanup
  | poll (state : PollState)
  deriving DecidableEq, Repr

/-- `VirtualMachine::update_snapshot_id`. -/
def VirtualMachine.updateSnapshotId (vm : VirtualMachine) (hypervisorId : String) :
    VirtualMachine :=
  { vm with
    snapshots := clearFirst Snapshot.active (fun snap => { snap with hypervisorId })
      vm.snapshots }

namespace VirtualMachineManagerDriver

variable (vm : VirtualMachine)

/-- The answers of a VM in these states are dropped. -/
def ignored : Bool := vm.lcmState = .failure ∨ vm.lcmState = .lcmInit

/-- One event for a success and one for a failure. -/
def answer (success : Bool) (onSuccess onFailure : LcmAction) : Outcome :=
  { vm, effects := [.lcm (if success then onSuccess else onFailure)] }

/-- `VirtualMachineManagerDriver::process_poll`, after the monitored values were stored. -/
def processPoll (state : PollState) : Outcome :=
  match state with
  | .error => { vm, effects := [.lcm .monitorDone] }
  | .unknown => { vm }
  | .active =>
    match vm.lcmState with
    | .unknown => { vm := { vm with lcmState := .running } }
    | _ => { vm }
  | .paused => monitored .monitorSuspend
  | .failed => monitored .monitorFailure
  | .notFound => monitored .monitorDone
where
  /-- The event for a VM that should be running. -/
  monitored (action : LcmAction) : Outcome :=
    match vm.lcmState with
    | .running | .unknown => { vm, effects := [.lcm action] }
    | _ => { vm }

/-- `VirtualMachineManagerDriver::protocol`; `info` is the rest of the message. -/
def protocol (message : VmmMessage) (success : Bool) (info : String) : Outcome :=
  if ignored vm then { vm }
  else
    match message with
    | .deploy =>
      answer (if success then { vm with deployId := info } else vm) success .deploySuccess
        .deployFailure
    | .shutdown => answer vm success .shutdownSuccess .shutdownFailure
    | .cancel => answer vm success .cancelSuccess .cancelFailure
    | .save => answer vm success .saveSuccess .saveFailure
    | .restore => answer vm success .deploySuccess .deployFailure
    | .migrate => answer vm success .deploySuccess .deployFailure
    | .reboot => { vm }
    | .reset => { vm }
    | .attachDisk => answer vm success .attachSuccess .attachFailure
    | .detachDisk => answer vm success .detachSuccess .detachFailure
    | .attachNic => answer vm success .attachNicSuccess .attachNicFailure
    | .detachNic => answer vm success .detachNicSuccess .detachNicFailure
    | .snapshotCreate =>
      answer (if success then vm.updateSnapshotId info else vm) success .snapshotCreateSuccess
        .snapshotCreateFailure
    | .snapshotRevert => answer vm success .snapshotRevertSuccess .snapshotRevertFailure
    | .snapshotDelete => answer vm success .snapshotDeleteSuccess .snapshotDeleteFailure
    | .cleanup => answer vm success .cleanupSuccess .cleanupFailure
    | .poll state => if success then processPoll vm state else { vm, effects := [.lcm .monitorDone] }

end VirtualMachineManagerDriver

/-- What `InformationManagerDriver::protocol` does about a VM of a host that was monitored: it
was found there, or not. -/
def InformationManagerDriver.monitor (vm : VirtualMachine) : Option PollState → Outcome
  | some state => VirtualMachineManagerDriver.processPoll vm state
  | none => { vm, effects := [.lcm .monitorDone] }

namespace TransferManagerDriver

/-- `TransferManagerDriver::protocol` of a TRANSFER message. -/
def protocol (vm : VirtualMachine) (success : Bool) : Outcome :=
  match vm.lcmState with
  | .failure | .lcmInit => { vm }
  | .prolog | .prologMigrate | .prologResume | .prologUndeploy =>
    { vm, effects := [.lcm (if success then .prologSuccess else .prologFailure)] }
  | .epilog | .epilogStop | .epilogUndeploy | .cleanupResubmit =>
    { vm, effects := [.lcm (if success then .epilogSuccess else .epilogFailure)] }
  | .hotplugSaveas | .hotplugSaveasPoweroff | .hotplugSaveasSuspended =>
    { vm, effects := [.lcm (if success then .saveasHotSuccess else .saveasHotFailure)] }
  | _ => .wrongState vm

end TransferManagerDriver

end Ezilla
