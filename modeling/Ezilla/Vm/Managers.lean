import Ezilla.Vm.VirtualMachine

/-!
# The managers and what they ask of each other

Each manager runs the actions it is sent one after the other, in its own thread. A handler
works on a VM it has locked: it leaves the VM as in `Outcome.vm` and does the things in
`Outcome.effects`, in that order.
-/

namespace Ezilla

/-- `LifeCycleManager::Actions`. -/
inductive LcmAction where
  | saveSuccess
  | saveFailure
  | deploySuccess
  | deployFailure
  | shutdownSuccess
  | shutdownFailure
  | cancelSuccess
  | cancelFailure
  | monitorFailure
  | monitorSuspend
  | monitorDone
  | prologSuccess
  | prologFailure
  | epilogSuccess
  | epilogFailure
  | attachSuccess
  | attachFailure
  | detachSuccess
  | detachFailure
  | attachNicSuccess
  | attachNicFailure
  | detachNicSuccess
  | detachNicFailure
  | cleanupSuccess
  | cleanupFailure
  | saveasHotSuccess
  | saveasHotFailure
  | snapshotCreateSuccess
  | snapshotCreateFailure
  | snapshotRevertSuccess
  | snapshotRevertFailure
  | snapshotDeleteSuccess
  | snapshotDeleteFailure
  | deploy
  | suspend
  | restore
  | stop
  | cancel
  | migrate
  | liveMigrate
  | shutdown
  | undeploy
  | undeployHard
  | poweroff
  | poweroffHard
  | restart
  | delete
  | clean
  | finalize
  deriving DecidableEq, Repr

/-- `DispatchManager::Actions`. -/
inductive DmAction where
  | suspendSuccess
  | stopSuccess
  | undeploySuccess
  | poweroffSuccess
  | done
  | failed
  | resubmit
  | finalize
  deriving DecidableEq, Repr

/-- `VirtualMachineManager::Actions` about one VM. -/
inductive VmmAction where
  | deploy
  | save
  | shutdown
  | cancel
  | cancelPrevious
  | cleanup
  | cleanupBoth
  | cleanupPrevious
  | migrate
  | restore
  | reboot
  | reset
  | poll
  | driverCancel
  | attach
  | detach
  | attachNic
  | detachNic
  | snapshotCreate
  | snapshotRevert
  | snapshotDelete
  deriving DecidableEq, Repr

/-- `TransferManager::Actions` about one VM. -/
inductive TmAction where
  | prolog
  | prologMigr
  | prologResume
  | epilog
  | epilogStop
  | epilogDelete
  | epilogDeletePrevious
  | epilogDeleteStop
  | epilogDeleteBoth
  | checkpoint
  | driverCancel
  | saveasHot
  deriving DecidableEq, Repr

/-- What a handler does besides changing the VM. -/
inductive Effect where
  | lcm (action : LcmAction)
  | dm (action : DmAction)
  | vmm (action : VmmAction)
  | tm (action : TmAction)
  /-- `HostPool::add_capacity` of what the VM requires, on the host of a record. -/
  | addCapacity (hid : Option Nat)
  /-- `HostPool::del_capacity` of what the VM requires. -/
  | delCapacity (hid : Option Nat)
  /-- `Quotas::quota_del` of the disk for the owner of the VM. -/
  | quotaDelDisk (uid gid : Nat) (disk : Disk)
  /-- `Quotas::quota_del` of the NIC for the owner of the VM. -/
  | quotaDelNic (uid gid : Nat) (nic : Nic)
  /-- `ImageManager::release_image`. -/
  | releaseImage (imageId : Nat)
  /-- `VirtualMachine::release_network_leases` of one NIC. -/
  | releaseLease (nic : Nic)
  /-- `Image::set_state(READY)` of the image a disk was copied to. -/
  | imageReady (imageId : Nat)
  /-- `Image::set_state(ERROR)` of the image a disk was to be copied to. -/
  | imageError (imageId : Nat)
  /-- `VirtualMachine::release_network_leases` of all NICs. -/
  | releaseNetworkLeases
  /-- `VirtualMachine::release_disk_images`. -/
  | releaseDiskImages
  /-- `Quotas::vm_del`. -/
  | vmDel (uid gid : Nat)
  deriving DecidableEq, Repr

/-- How a handler ends: most unlock the VM on every path. -/
structure Outcome where
  vm : VirtualMachine
  effects : List Effect := []
  unlocked : Bool := true
  deriving DecidableEq, Repr

/-- A handler that only logs an error. -/
def Outcome.wrongState (vm : VirtualMachine) : Outcome where
  vm := vm

/-- The VM is active in one stage of its life cycle. -/
def VirtualMachine.In (vm : VirtualMachine) (lcmState : LcmState) : Prop :=
  vm.state = .active ∧ vm.lcmState = lcmState

instance (vm : VirtualMachine) (lcmState : LcmState) : Decidable (vm.In lcmState) :=
  inferInstanceAs (Decidable (_ ∧ _))

end Ezilla
