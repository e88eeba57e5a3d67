import Ezilla.Vm.States

/-!
# The virtual machine record

The part of a VM that the life cycle reads and writes: its two states, its history records,
and the disks, NICs and snapshots of its template.

* `VirtualMachine.addHistory`, `cpHistory`, `cpPreviousHistory`: the ways a record is
  appended;
* `markAttach`, `clearAttach`, `deleteAttach`: the ATTACH mark of the element that a
  hotplug operation is about, and the ACTIVE mark of a snapshot.

The times of the records and the monitored values are left out.
-/

namespace Ezilla

/-! ## History records -/

/-- `History::VMAction`: the action that closes a record. -/
inductive VMAction where
  | none
  | migrate
  | liveMigrate
  | shutdown
  | shutdownHard
  | undeploy
  | undeployHard
  | hold
  | release
  | stop
  | suspend
  | resume
  | boot
  | delete
  | deleteRecreate
  | reboot
  | rebootHard
  | resched
  | unresched
  | poweroff
  | poweroffHard
  deriving DecidableEq, Repr

/-- `History::EndReason`. -/
inductive EndReason where
  | none
  | error
  | user
  deriving DecidableEq, Repr

/-- `History`: a stay of the VM on a host. -/
structure History where
  seq : Nat
  hid : Nat
  action : VMAction := .none
  reason : EndReason := .none
  deriving DecidableEq, Repr

/-! ## Template elements -/

/-- A disk, with the sub-attributes the life cycle looks at. `attach` is the text of ATTACH,
empty when there is none. -/
structure Disk where
  diskId : Nat
  imageId : Option Nat
  attach : String := ""
  save : String := ""
  saveAs : Option Nat := none
  saveAsActive : Bool := false
  hotplugSaveAs : Option Nat := none
  hotplugSaveAsActive : Bool := false
  hotplugSaveAsSource : String := ""
  deriving DecidableEq, Repr

/-- A NIC; `networkId` is missing for one that is in no predefined network. -/
structure Nic where
  nicId : Nat
  networkId : Option Nat
  ip : String
  attach : String := ""
  deriving DecidableEq, Repr

/-- A snapshot of the VM. -/
structure Snapshot where
  snapshotId : Nat
  name : String
  hypervisorId : String := ""
  active : Bool := false
  deriving DecidableEq, Repr

/-- `VirtualMachine`. The history records come latest first. -/
structure VirtualMachine where
  oid : Nat
  uid : Nat
  gid : Nat
  state : VmState
  lcmState : LcmState
  resched : Bool := false
  deployId : String := ""
  history : List History := []
  disks : List Disk := []
  nics : List Nic := []
  snapshots : List Snapshot := []
  deriving DecidableEq, Repr

/-! ## Marks -/

section Marks

variable {α : Type}

/-- The first element with the mark loses it. -/
def clearFirst (marked : α → Bool) (clear : α → α) : List α → List α
  | [] => []
  | x :: xs => if marked x then clear x :: xs else x :: clearFirst marked clear xs

/-- The first element with the mark, and the list without it. -/
def deleteFirst (marked : α → Bool) : List α → Option α × List α
  | [] => (none, [])
  | x :: xs =>
    if marked x then (some x, xs)
    else ((deleteFirst marked xs).1, x :: (deleteFirst marked xs).2)

theorem length_clearFirst (marked : α → Bool) (clear : α → α) (xs : List α) :
    (clearFirst marked clear xs).length = xs.length := by
  induction xs with
  | nil => rfl
  | cons x xs ih =>
    rw [clearFirst]
    split
    · rfl
    · rw [List.length_cons, ih, List.length_cons]

/-- One element is missing when there was one with the mark. -/
theorem length_deleteFirst {marked : α → Bool} {xs : List α} (some_marked : ∃ x ∈ xs, marked x) :
    (deleteFirst marked xs).2.length + 1 = xs.length := by
  induction xs with
  | nil =>
    obtain ⟨x, mem, -⟩ := some_marked
    cases mem
  | cons x xs ih =>
    rw [deleteFirst]
    split
    · rfl
    · rename_i unmarked
      obtain ⟨y, mem, marked_y⟩ := some_marked
      rcases List.mem_cons.mp mem with rfl | later
      · exact absurd marked_y unmarked
      · rw [List.length_cons, ih ⟨y, later, marked_y⟩, List.length_cons]

end Marks

/-- ATTACH = YES. -/
def Disk.marked (disk : Disk) : Bool := disk.attach = "YES"

/-- ATTACH = YES. -/
def Nic.marked (nic : Nic) : Bool := nic.attach = "YES"

namespace VirtualMachine

variable (vm : VirtualMachine)

/-! ## History -/

/-- `VirtualMachine::add_history`. -/
def addHistory (hid : Nat) : VirtualMachine :=
  { vm with
    history := match vm.history with
      | [] => [{ seq := 0, hid }]
      | last :: _ => { seq := last.seq + 1, hid } :: vm.history }

/-- `VirtualMachine::cp_history`: a new record on the same host. -/
def cpHistory : VirtualMachine :=
  { vm with
    history := match vm.history with
      | [] => []
      | last :: _ => { seq := last.seq + 1, hid := last.hid } :: vm.history }

/-- `VirtualMachine::cp_previous_history`: a new record on the host of the previous one. -/
def cpPreviousHistory : VirtualMachine :=
  { vm with
    history := match vm.history with
      | last :: previous :: _ => { seq := last.seq + 1, hid := previous.hid } :: vm.history
      | _ => vm.history }

/-- The host of the last record. -/
def hid : Option Nat := vm.history.head?.map History.hid

/-- The host of the record before it. -/
def previousHid : Option Nat := vm.history.tail.head?.map History.hid

/-- `VirtualMachine::get_previous_action`, where there is a previous record. -/
def previousAction : Option VMAction := vm.history.tail.head?.map History.action

/-- `VirtualMachine::get_previous_reason`, where there is a previous record. -/
def previousReason : Option EndReason := vm.history.tail.head?.map History.reason

/-- A change of the last record. -/
def setLast (change : History → History) : VirtualMachine :=
  { vm with history := vm.history.modifyHead change }

/-- A change of the record before it. -/
def setPrevious (change : History → History) : VirtualMachine :=
  { vm with history := vm.history.modify 1 change }

/-- `VirtualMachine::set_action`. -/
def setAction (action : VMAction) : VirtualMachine := vm.setLast fun h => { h with action }

/-- `VirtualMachine::set_reason`. -/
def setReason (reason : EndReason) : VirtualMachine := vm.setLast fun h => { h with reason }

/-- `VirtualMachine::set_previous_action`. -/
def setPreviousAction (action : VMAction) : VirtualMachine :=
  vm.setPrevious fun h => { h with action }

/-- `VirtualMachine::set_previous_reason`. -/
def setPreviousReason (reason : EndReason) : VirtualMachine :=
  vm.setPrevious fun h => { h with reason }

/-! ## Disks -/

/-- `VirtualMachine::get_disk`. -/
def getDisk (diskId : Nat) : Option Disk := vm.disks.find? fun disk => disk.diskId = diskId

/-- `VirtualMachine::set_attach_disk` of a new disk. -/
def addAttachDisk (disk : Disk) : VirtualMachine :=
  { vm with disks := vm.disks ++ [{ disk with attach := "YES" }] }

/-- `VirtualMachine::set_attach_disk` of a disk the VM has. -/
def setAttachDisk (diskId : Nat) : Option VirtualMachine :=
  match vm.getDisk diskId with
  | none => none
  | some _ => some { vm with
      disks := clearFirst (fun disk => disk.diskId = diskId)
        (fun disk => { disk with attach := "YES" }) vm.disks }

/-- `VirtualMachine::clear_attach_disk`. -/
def clearAttachDisk : VirtualMachine :=
  { vm with disks := clearFirst Disk.marked (fun disk => { disk with attach := "" }) vm.disks }

/-- `VirtualMachine::delete_attach_disk`. -/
def deleteAttachDisk : Option Disk × VirtualMachine :=
  ((deleteFirst Disk.marked vm.disks).1,
    { vm with disks := (deleteFirst Disk.marked vm.disks).2 })

/-! ## NICs -/

/-- `VirtualMachine::set_attach_nic` of a new NIC. -/
def addAttachNic (nic : Nic) : VirtualMachine :=
  { vm with nics := vm.nics ++ [{ nic with attach := "YES" }] }

/-- `VirtualMachine::set_attach_nic` of a NIC the VM has. -/
def setAttachNic (nicId : Nat) : Option VirtualMachine :=
  match vm.nics.find? fun nic => nic.nicId = nicId with
  | none => none
  | some _ => some { vm with
      nics := clearFirst (fun nic => nic.nicId = nicId) (fun nic => { nic with attach := "YES" })
        vm.nics }

/-- `VirtualMachine::clear_attach_nic`. -/
def clearAttachNic : VirtualMachine :=
  { vm with nics := clearFirst Nic.marked (fun nic => { nic with attach := "" }) vm.nics }

/-- `VirtualMachine::delete_attach_nic`. -/
def deleteAttachNic : Option Nic × VirtualMachine :=
  ((deleteFirst Nic.marked vm.nics).1, { vm with nics := (deleteFirst Nic.marked vm.nics).2 })

/-! ## Snapshots -/

/-- `VirtualMachine::new_snapshot`; the id follows the largest one. -/
def newSnapshot (name : String) : VirtualMachine :=
  let snapId := match (vm.snapshots.map Snapshot.snapshotId).max? with
    | none => 0
    | some id => id + 1
  let name := if name = "" then s!"snapshot-{snapId}" else name
  { vm with snapshots := vm.snapshots ++ [{ snapshotId := snapId, name, active := true }] }

/-- `VirtualMachine::set_active_snapshot`. -/
def setActiveSnapshot (snapId : Nat) : Option VirtualMachine :=
  match vm.snapshots.find? fun snap => snap.snapshotId = snapId with
  | none => none
  | some _ => some { vm with
      snapshots := clearFirst (fun snap => snap.snapshotId = snapId)
        (fun snap => { snap with active := true }) vm.snapshots }

/-- `VirtualMachine::clear_active_snapshot`. -/
def clearActiveSnapshot : VirtualMachine :=
  { vm with
    snapshots := clearFirst Snapshot.active (fun snap => { snap with active := false })
      vm.snapshots }

/-- `VirtualMachine::delete_active_snapshot`. -/
def deleteActiveSnapshot : VirtualMachine :=
  { vm with snapshots := (deleteFirst Snapshot.active vm.snapshots).2 }

/-- `VirtualMachine::delete_snapshots`. -/
def deleteSnapshots : VirtualMachine := { vm with snapshots := [] }

/-! ## Copies of disks -/

/-- `VirtualMachine::set_saveas_state`. -/
def setSaveasState (diskId : Nat) (hot : Bool) : Option VirtualMachine :=
  let mark (vm : VirtualMachine) : VirtualMachine :=
    { vm with
      disks := clearFirst (fun disk => disk.diskId = diskId)
        (fun disk =>
          if hot then { disk with hotplugSaveAsActive := true }
          else { disk with saveAsActive := true }) vm.disks }
  match vm.state, vm.lcmState with
  | .active, .running => some (mark { vm with lcmState := .hotplugSaveas })
  | .poweroff, _ => some (mark { vm with state := .active, lcmState := .hotplugSaveasPoweroff })
  | .suspended, _ => some (mark { vm with state := .active, lcmState := .hotplugSaveasSuspended })
  | _, _ => none

/-- `VirtualMachine::get_saveas_disk_hot`: the disk that is being copied, with the image it is
copied to where its source is known too. Without such a disk the caller's id stays unset. -/
def getSaveasDiskHot : Option (Nat × Option Nat) :=
  (vm.disks.find? Disk.hotplugSaveAsActive).map fun disk =>
    (disk.diskId, if disk.hotplugSaveAsSource = "" then none else disk.hotplugSaveAs)

/-- The disk part of `VirtualMachine::clear_saveas_state`. -/
def clearSaveasDisk (diskId : Nat) (hot : Bool) : VirtualMachine :=
  { vm with
    disks := clearFirst (fun disk => disk.diskId = diskId)
      (fun disk =>
        if hot then
          { disk with
            hotplugSaveAsActive := false, hotplugSaveAs := none, hotplugSaveAsSource := "" }
        else { disk with saveAsActive := false }) vm.disks }

/-- The state part of `VirtualMachine::clear_saveas_state`; `none` stands for -1. -/
def leaveSaveas : Option VirtualMachine :=
  match vm.lcmState with
  | .hotplugSaveas => some { vm with lcmState := .running }
  | .hotplugSaveasPoweroff => some { vm with state := .poweroff, lcmState := .lcmInit }
  | .hotplugSaveasSuspended => some { vm with state := .suspended, lcmState := .lcmInit }
  | _ => none

end VirtualMachine

end Ezilla
