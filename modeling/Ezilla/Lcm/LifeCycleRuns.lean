import Ezilla.Lcm.Recover
import Ezilla.Dm.DispatchManagerStates
import Ezilla.Rm.VirtualMachinePlacement
import Ezilla.Vmm.Commands
import Ezilla.Lib.Transition

/-!
# Runs of the life cycle

One VM with everything that is under way for it: the events in the queues of the life-cycle
manager and of the dispatch manager, the commands the drivers have not answered, and the
requests that let go of the lock of the VM and come back to it.

* `LifeState`, `LifeLabel`, `LifeState.next`: the system. Each manager takes the events of its
  queue in order; the drivers answer in any order;
* `LifeState.Reached`: the states of the runs from a new VM.

A command has a serial number, and the event that its answer sends keeps it. The code has
neither; nothing but the labels looks at them.
-/

namespace Ezilla

/-- An event in the queue of the life-cycle manager, with the command it is about. -/
structure LcmEvent where
  action : LcmAction
  serial : Option Nat := none
  deriving DecidableEq, Repr

/-- A request that has let go of the lock of the VM. -/
inductive PendingRequest where
  | place (placement : Placement)
  | setUpDisk
  | setUpNic
  | saveDisk (diskId : Nat) (hot : Bool)
  deriving DecidableEq, Repr

/-- A VM and what is under way for it. A handler that does not unlock the VM locks it for
good. -/
structure LifeState where
  vm : VirtualMachine
  lcmQueue : List LcmEvent := []
  dmQueue : List DmAction := []
  commands : List (Nat × Command) := []
  nextSerial : Nat := 0
  pending : List PendingRequest := []
  locked : Bool := false
  deriving DecidableEq, Repr

/-- The requests that hold the lock of the VM until they are done. -/
inductive VmRequest where
  | shutdown
  | undeploy (hard : Bool)
  | poweroff (hard : Bool)
  | stop
  | cancel
  | suspend
  | reboot
  | reset
  | resched (doResched : Bool)
  | hold
  | release
  | resume
  | restart
  | finalize
  | resubmit
  | detach (diskId : Nat)
  | detachNic (nicId : Nat)
  | snapshotCreate (name : String)
  | snapshotRevert (snapId : Nat)
  | snapshotDelete (snapId : Nat)
  deriving DecidableEq, Repr

/-- The dispatch manager's part of a request. -/
def VmRequest.run (vm : VirtualMachine) : VmRequest → Reply
  | .shutdown => DispatchManager.shutdown vm
  | .undeploy hard => DispatchManager.undeploy vm hard
  | .poweroff hard => DispatchManager.poweroff vm hard
  | .stop => DispatchManager.stop vm
  | .cancel => DispatchManager.cancel vm
  | .suspend => DispatchManager.suspend vm
  | .reboot => DispatchManager.reboot vm
  | .reset => DispatchManager.reset vm
  | .resched doResched => DispatchManager.resched vm doResched
  | .hold => DispatchManager.hold vm
  | .release => DispatchManager.release vm
  | .resume => DispatchManager.resume vm
  | .restart => DispatchManager.restart vm
  | .finalize => DispatchManager.finalize vm
  | .resubmit => DispatchManager.resubmit vm
  | .detach diskId => DispatchManager.detach vm diskId
  | .detachNic nicId => DispatchManager.detachNic vm nicId
  | .snapshotCreate name => DispatchManager.snapshotCreate vm name
  | .snapshotRevert snapId => DispatchManager.snapshotRevert vm snapId
  | .snapshotDelete snapId => DispatchManager.snapshotDelete vm snapId

/-- What can happen next. -/
inductive LifeLabel where
  /-- A request that is done at once. -/
  | request (request : VmRequest)
  /-- A placement is asked for, and later committed or given up; the database stores the record
  of one that is committed, or refuses it. -/
  | place (placement : Placement) (enforce : Bool) (stored : Bool)
  | commit (placement : Placement) (stored : Bool)
  | giveUp (placement : Placement)
  /-- A disk or NIC is to be attached, and is set up. -/
  | attach
  | setUpDisk (disk : Option Disk)
  | attachNic
  | setUpNic (nic : Option Nic)
  /-- A disk is to be copied; the image of the copy is there, or not. -/
  | saveDisk (diskId : Nat) (hot : Bool)
  | saveDiskImage (diskId : Nat) (hot : Bool) (image : Option (Nat × String))
  /-- A manager takes the first event of its queue. -/
  | lcm
  | dm
  /-- A driver answers a command; a command cannot be sent. -/
  | answer (serial : Nat) (success : Bool) (info : String) (state : PollState)
  | unsent (serial : Nat)
  /-- The VM is polled; its host is monitored, and the VM is found there or not. -/
  | poll (success : Bool) (state : PollState)
  | monitor (state : Option PollState)
  | recover (success : Bool)
  deriving DecidableEq, Repr

/-- `VirtualMachine::save_disk` and `save_disk_hot`, of a disk that is there. -/
def VirtualMachine.saveDisk (vm : VirtualMachine) (diskId : Nat) (hot : Bool) (imageId : Nat)
    (source : String) : Option VirtualMachine :=
  match vm.lcmState with
  | .hotplugSaveas | .hotplugSaveasSuspended | .hotplugSaveasPoweroff =>
    some { vm with
      disks := clearFirst (fun disk => disk.diskId = diskId)
        (fun disk =>
          if hot then
            { disk with hotplugSaveAs := some imageId, hotplugSaveAsSource := source }
          else { disk with saveAs := some imageId, save := "YES" }) vm.disks }
  | _ => none

/-- `VirtualMachine::clear_saveas_state`; the caller does not look at its result. -/
def VirtualMachine.clearSaveasState (vm : VirtualMachine) (diskId : Nat) (hot : Bool) :
    VirtualMachine :=
  ((vm.clearSaveasDisk diskId hot).leaveSaveas).getD (vm.clearSaveasDisk diskId hot)

/-- The end of a request to copy a disk: it failed before the image was made, or the image is
there and the copy is left to the transfer driver, or to the end of the VM. -/
def saveDiskImage (vm : VirtualMachine) (diskId : Nat) (hot : Bool) :
    Option (Nat × String) → Outcome
  | none => { vm := vm.clearSaveasState diskId hot }
  | some (imageId, source) =>
    match vm.saveDisk diskId hot imageId source with
    | none => { vm, effects := [.imageError imageId] }
    | some vm' =>
      if hot then { vm := vm', effects := [.tm .saveasHot] }
      else { vm := vm'.clearSaveasState diskId hot }

namespace LifeState

/-- What an outcome does: the VM, and the events and commands it asks for. -/
def apply (s : LifeState) (outcome : Outcome) (serial : Option Nat) : LifeState :=
  { s with
    vm := outcome.vm
    lcmQueue := s.lcmQueue ++
      (outcome.effects.filterMap Effect.lcm?).map fun action => { action, serial }
    dmQueue := s.dmQueue ++ outcome.effects.filterMap Effect.dm?
    commands := s.commands ++
      ((outcome.effects.filterMap Effect.command?).zipIdx s.nextSerial).map Prod.swap
    nextSerial := s.nextSerial + (outcome.effects.filterMap Effect.command?).length
    locked := !outcome.unlocked }

/-- A request that lets go of the VM, when it was taken. -/
def leave (s : LifeState) (reply : Reply) (request : PendingRequest) : LifeState :=
  if reply.rc = 0 then
    { s.apply reply.outcome none with pending := s.pending ++ [request] }
  else s

/-- A request that comes back to the VM, when there is one. -/
def comeBack (s : LifeState) (request : PendingRequest) (outcome : Outcome) : LifeState :=
  if request ∈ s.pending then
    { s.apply outcome none with pending := s.pending.erase request }
  else s

/-- The command with a serial number. -/
def command? (s : LifeState) (serial : Nat) : Option Command :=
  (s.commands.find? fun entry => entry.1 = serial).map Prod.snd

/-- The command is not waited for any more. -/
def forget (s : LifeState) (serial : Nat) : LifeState :=
  { s with commands := s.commands.filter fun entry => entry.1 ≠ serial }

/-- A step on a VM that is not locked. -/
def nextUnlocked (s : LifeState) : LifeLabel → LifeState
  | .request request => s.apply (request.run s.vm).outcome none
  | .place placement enforce stored =>
    if placement.check s.vm then
      if placement.kind = .deploy ∧ enforce = false then
        s.apply (placement.commit s.vm stored).outcome none
      else { s with pending := s.pending ++ [.place placement] }
    else s
  | .commit placement stored =>
    s.comeBack (.place placement) (placement.commit s.vm stored).outcome
  | .giveUp placement => s.comeBack (.place placement) { vm := s.vm }
  | .attach => s.leave (DispatchManager.attach s.vm) .setUpDisk
  | .setUpDisk disk => s.comeBack .setUpDisk (DispatchManager.attachSetUp s.vm disk).outcome
  | .attachNic => s.leave (DispatchManager.attachNic s.vm) .setUpNic
  | .setUpNic nic => s.comeBack .setUpNic (DispatchManager.attachNicSetUp s.vm nic).outcome
  | .saveDisk diskId hot =>
    match s.vm.setSaveasState diskId hot with
    | none => s
    | some vm => s.leave (.accept vm []) (.saveDisk diskId hot)
  | .saveDiskImage diskId hot image =>
    s.comeBack (.saveDisk diskId hot) (Ezilla.saveDiskImage s.vm diskId hot image)
  | .lcm =>
    match s.lcmQueue with
    | [] => s
    | event :: rest =>
      { s with lcmQueue := rest }.apply
        (LifeCycleManager.doAction (LifeCycleManager.trigger event.action) s.vm) none
  | .dm =>
    match s.dmQueue with
    | [] => s
    | action :: rest => { s with dmQueue := rest }.apply (DispatchManager.handler action s.vm) none
  | .answer serial success info state =>
    match s.command? serial with
    | none => s
    | some command =>
      (s.forget serial).apply (command.answer s.vm success info state) (some serial)
  | .unsent serial =>
    match s.command? serial with
    | none => s
    | some command =>
      (s.forget serial).apply { vm := s.vm, effects := (command.failure?.map Effect.lcm).toList }
        (some serial)
  | .poll success state =>
    s.apply (VirtualMachineManagerDriver.protocol s.vm (.poll state) success "") none
  | .monitor state => s.apply (InformationManagerDriver.monitor s.vm state) none
  | .recover success =>
    if s.vm.state = .active then s.apply (LifeCycleManager.recover s.vm success) none else s

/-- One step; what cannot come now changes nothing. -/
def next (s : LifeState) (l : LifeLabel) : LifeState :=
  if s.locked then s else s.nextUnlocked l

/-- A VM that was just created. -/
structure Initial (s : LifeState) : Prop where
  state : s.vm.state = .pending ∨ s.vm.state = .hold
  lcmState : s.vm.lcmState = .lcmInit
  history : s.vm.history = []
  idle : s.lcmQueue = [] ∧ s.dmQueue = [] ∧ s.commands = [] ∧ s.pending = []
  unlocked : s.locked = false

/-- The states of the runs from a new VM. -/
def Reached (s : LifeState) : Prop :=
  Transition.Reachable Initial (fun s l s' => next s l = s') s

end LifeState

end Ezilla
