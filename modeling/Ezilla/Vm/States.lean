/-!
# Virtual machine states

`VmState` is the state the dispatch manager looks at, `LcmState` the stage of an
active VM in the life-cycle manager.
-/

namespace Ezilla

/-- `VirtualMachine::VmState`. -/
inductive VmState where
  | init
  | pending
  | hold
  | active
  | stopped
  | suspended
  | done
  | failed
  | poweroff
  | undeployed
  deriving DecidableEq, Repr

/-- `VirtualMachine::LcmState`. -/
inductive LcmState where
  | lcmInit
  | prolog
  | boot
  | running
  | migrate
  | saveStop
  | saveSuspend
  | saveMigrate
  | prologMigrate
  | prologResume
  | epilogStop
  | epilog
  | shutdown
  | cancel
  | failure
  | cleanupResubmit
  | unknown
  | hotplug
  | shutdownPoweroff
  | bootUnknown
  | bootPoweroff
  | bootSuspended
  | bootStopped
  | cleanupDelete
  | hotplugSnapshot
  | hotplugNic
  | hotplugSaveas
  | hotplugSaveasPoweroff
  | hotplugSaveasSuspended
  | shutdownUndeploy
  | epilogUndeploy
  | prologUndeploy
  | bootUndeploy
  deriving DecidableEq, Repr

end Ezilla
