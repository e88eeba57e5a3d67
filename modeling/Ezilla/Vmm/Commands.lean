import Ezilla.Vmm.Protocol

/-!
# Commands for the drivers

A command that a manager asked for is sent to a driver, which answers it at some time, in any
order and also after it was told to cancel; or it cannot be sent, and the manager itself sends
the event of a failure.

* `Command.answer`: the answer of the driver, seen through the protocols;
* `Command.failure?`: the event when there is no driver for it, or no record to build it from.
-/

namespace Ezilla

/-- A command for one of the two drivers. -/
inductive Command where
  | vmm (action : VmmAction)
  | tm (action : TmAction)
  deriving DecidableEq, Repr

/-- The message that answers a command of `VirtualMachineManager`. -/
def VmmAction.message? (state : PollState) : VmmAction → Option VmmMessage
  | .deploy => some .deploy
  | .save => some .save
  | .shutdown => some .shutdown
  | .cancel | .cancelPrevious => some .cancel
  | .cleanup | .cleanupBoth | .cleanupPrevious => some .cleanup
  | .migrate => some .migrate
  | .restore => some .restore
  | .reboot => some .reboot
  | .reset => some .reset
  | .poll => some (.poll state)
  | .driverCancel => none
  | .attach => some .attachDisk
  | .detach => some .detachDisk
  | .attachNic => some .attachNic
  | .detachNic => some .detachNic
  | .snapshotCreate => some .snapshotCreate
  | .snapshotRevert => some .snapshotRevert
  | .snapshotDelete => some .snapshotDelete

/-- The commands of `TransferManager` that are a transfer. -/
def TmAction.isTransfer : TmAction → Bool
  | .checkpoint | .driverCancel => false
  | _ => true

namespace Command

/-- The driver answers the command. -/
def isAnswered : Command → Bool
  | .vmm action => (action.message? .unknown).isSome
  | .tm action => action.isTransfer

/-- What the answer of the driver does; `state` is what a poll found. -/
def answer (command : Command) (vm : VirtualMachine) (success : Bool) (info : String)
    (state : PollState) : Outcome :=
  match command with
  | .vmm action =>
    match action.message? state with
    | none => { vm }
    | some message => VirtualMachineManagerDriver.protocol vm message success info
  | .tm action => if action.isTransfer then TransferManagerDriver.protocol vm success else { vm }

/-- The event for a command that cannot be sent. -/
def failure? : Command → Option LcmAction
  | .vmm .deploy | .vmm .migrate | .vmm .restore => some .deployFailure
  | .vmm .save => some .saveFailure
  | .vmm .shutdown => some .shutdownFailure
  | .vmm .cancel => some .cancelFailure
  | .vmm .cleanup | .vmm .cleanupBoth | .vmm .cleanupPrevious => some .cleanupFailure
  | .vmm .attach => some .attachFailure
  | .vmm .detach => some .detachFailure
  | .vmm .attachNic => some .attachNicFailure
  | .vmm .detachNic => some .detachNicFailure
  | .vmm .snapshotCreate => some .snapshotCreateFailure
  | .vmm .snapshotRevert => some .snapshotRevertFailure
  | .vmm .snapshotDelete => some .snapshotDeleteFailure
  | .vmm .cancelPrevious | .vmm .reboot | .vmm .reset | .vmm .poll | .vmm .driverCancel => none
  | .tm .prolog | .tm .prologMigr | .tm .prologResume => some .prologFailure
  | .tm .epilog | .tm .epilogStop | .tm .epilogDelete | .tm .epilogDeletePrevious
  | .tm .epilogDeleteStop | .tm .epilogDeleteBoth => some .epilogFailure
  | .tm .saveasHot => some .saveasHotFailure
  | .tm .checkpoint | .tm .driverCancel => none

end Command

/-- The command an effect stands for, where a driver answers it. -/
def Effect.command? : Effect → Option Command
  | .vmm action => if (Command.vmm action).isAnswered then some (.vmm action) else none
  | .tm action => if (Command.tm action).isAnswered then some (.tm action) else none
  | _ => none

/-- The life-cycle event an effect stands for. -/
def Effect.lcm? : Effect → Option LcmAction
  | .lcm action => some action
  | _ => none

/-- The dispatch event an effect stands for. -/
def Effect.dm? : Effect → Option DmAction
  | .dm action => some action
  | _ => none

end Ezilla
