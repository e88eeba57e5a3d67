import Ezilla.Lcm.LifeCycleManager
import Ezilla.Vmm.Protocol
import Mathlib.Tactic.SplitIfs
import Mathlib.Tactic.Tauto

/-!
# Recovery of a VM

`LifeCycleManager::recover` stands in for a driver that does not answer: it triggers the event
the answer would have triggered, and it finds that event from the stage of the VM alone.

* `LifeCycleManager.recovered`, `answered`: the two ways out of a stage;
* `LifeCycleManager.Awaits`: which answer a VM waits for;
* `LifeCycleManager.recovered_eq_answered_iff`: when they lead to the same place.

A stage is shared by several operations. The event for a disk or NIC in hotplug is the one of
an attachment, and the event for any snapshot is the one of a creation that failed.
-/

namespace Ezilla

/-- The outcome up to the names the driver gives to the VM and to its snapshots. -/
def Outcome.anonymous (o : Outcome) : Outcome where
  vm := { o.vm with
    deployId := ""
    snapshots := o.vm.snapshots.map fun snap => { snap with hypervisorId := "" } }
  effects := o.effects
  unlocked := o.unlocked

namespace LifeCycleManager

variable (vm : VirtualMachine)

/-- `LifeCycleManager::recover`. -/
def recover (success : Bool) : Outcome :=
  match vm.lcmState with
  | .lcmInit | .running => { vm }
  | .cleanupDelete => { vm, effects := [.dm .done] }
  | .cleanupResubmit => { vm, effects := [.dm .resubmit] }
  | .unknown => { vm := { vm with lcmState := .running } }
  | .failure => { vm, effects := [.dm .failed] }
  | .prolog | .prologMigrate | .prologResume | .prologUndeploy =>
    { vm, effects := [.lcm (if success then .prologSuccess else .prologFailure)] }
  | .epilog | .epilogStop | .epilogUndeploy =>
    { vm, effects := [.lcm (if success then .epilogSuccess else .epilogFailure)] }
  | .hotplugSaveas | .hotplugSaveasPoweroff | .hotplugSaveasSuspended =>
    { vm, effects := [.lcm (if success then .saveasHotSuccess else .saveasHotFailure)] }
  | .boot | .bootUnknown | .bootPoweroff | .bootSuspended | .bootStopped | .bootUndeploy
  | .migrate =>
    if success then
      { vm := if vm.deployId = "" then { vm with deployId := s!"one-{vm.oid}" } else vm
        effects := [.lcm .deploySuccess] }
    else { vm, effects := [.lcm .deployFailure] }
  | .shutdown | .shutdownPoweroff | .shutdownUndeploy =>
    { vm, effects := [.lcm (if success then .shutdownSuccess else .shutdownFailure)] }
  | .cancel => { vm, effects := [.lcm (if success then .cancelSuccess else .cancelFailure)] }
  | .saveStop | .saveSuspend | .saveMigrate =>
    { vm, effects := [.lcm (if success then .saveSuccess else .saveFailure)] }
  | .hotplug => { vm, effects := [.lcm (if success then .attachSuccess else .attachFailure)] }
  | .hotplugNic =>
    { vm, effects := [.lcm (if success then .attachNicSuccess else .attachNicFailure)] }
  | .hotplugSnapshot => { vm, effects := [.lcm .snapshotCreateFailure] }

/-- The life-cycle event an outcome ends with is run too; other outcomes stay. -/
def settle (o : Outcome) : Outcome :=
  match o.effects with
  | [.lcm action] => doAction (trigger action) o.vm
  | _ => o

/-- `recover`, followed by the event it triggers. -/
def recovered (success : Bool) : Outcome := settle (recover vm success)

/-- The operations a driver may owe an answer for. -/
inductive DriverOperation where
  | transfer
  | deploy
  | restore
  | migrate
  | save
  | shutdown
  | cancel
  | cleanup
  | attachDisk
  | detachDisk
  | attachNic
  | detachNic
  | snapshotCreate
  | snapshotRevert
  | snapshotDelete
  deriving DecidableEq, Repr

/-- The message that answers an operation of the virtualization driver; transfers are answered
by the other driver. -/
def DriverOperation.message? : DriverOperation → Option VmmMessage
  | .transfer => none
  | .deploy => some .deploy
  | .restore => some .restore
  | .migrate => some .migrate
  | .save => some .save
  | .shutdown => some .shutdown
  | .cancel => some .cancel
  | .cleanup => some .cleanup
  | .attachDisk => some .attachDisk
  | .detachDisk => some .detachDisk
  | .attachNic => some .attachNic
  | .detachNic => some .detachNic
  | .snapshotCreate => some .snapshotCreate
  | .snapshotRevert => some .snapshotRevert
  | .snapshotDelete => some .snapshotDelete

/-- The answer of the driver, followed by the event it triggers. -/
def answered (operation : DriverOperation) (success : Bool) (info : String) : Outcome :=
  settle (match operation.message? with
    | none => TransferManagerDriver.protocol vm success
    | some message => VirtualMachineManagerDriver.protocol vm message success info)

/-- The VM is in a stage in which it waits for the answer to the operation: what the stage was
entered for, or what was sent again in it. An operation on a disk, a NIC or a snapshot has
marked it. In CLEANUP_DELETE the VM waits for no driver. -/
def Awaits (operation : DriverOperation) : Prop :=
  match operation with
  | .transfer => vm.lcmState ∈ ([.prolog, .prologMigrate, .prologResume, .prologUndeploy, .epilog,
      .epilogStop, .epilogUndeploy, .cleanupResubmit, .hotplugSaveas, .hotplugSaveasPoweroff,
      .hotplugSaveasSuspended] : List LcmState)
  | .deploy => vm.lcmState ∈ ([.boot, .bootUnknown, .bootPoweroff, .bootSuspended, .bootStopped,
      .bootUndeploy] : List LcmState)
  | .restore => vm.lcmState ∈ ([.boot, .bootSuspended, .bootStopped] : List LcmState)
  | .migrate => vm.lcmState = .migrate
  | .save => vm.lcmState ∈ ([.saveStop, .saveSuspend, .saveMigrate] : List LcmState)
  | .shutdown => vm.lcmState ∈ ([.shutdown, .shutdownPoweroff, .shutdownUndeploy] : List LcmState)
  | .cancel => vm.lcmState ∈ ([.cancel, .shutdownPoweroff, .shutdownUndeploy] : List LcmState)
  | .cleanup => vm.lcmState = .cleanupResubmit
  | .attachDisk | .detachDisk => vm.lcmState = .hotplug ∧ ∃ disk ∈ vm.disks, disk.marked = true
  | .attachNic | .detachNic => vm.lcmState = .hotplugNic ∧ ∃ nic ∈ vm.nics, nic.marked = true
  | .snapshotCreate | .snapshotRevert | .snapshotDelete =>
    vm.lcmState = .hotplugSnapshot ∧ ∃ snap ∈ vm.snapshots, snap.active = true

/-- The operations and results recover stands in for. -/
def Agrees (operation : DriverOperation) (success : Bool) : Prop :=
  match operation with
  | .detachDisk | .detachNic | .snapshotRevert => False
  | .snapshotCreate => success = false
  | .snapshotDelete => success = true
  | _ => True

/-! ## One event -/

theorem settle_lcm (vm : VirtualMachine) (action : LcmAction) :
    settle { vm, effects := [.lcm action] } = handler action vm :=
  doAction_trigger action vm

/-- The name the driver gives to a VM is only copied. -/
theorem anonymous_deploySuccess (vm : VirtualMachine) (deployId : String) :
    (deploySuccessAction { vm with deployId }).anonymous =
      (deploySuccessAction vm).anonymous := by
  rcases vm with ⟨_, _, _, _, lcmState, _, _, _, _, _, _⟩
  cases lcmState <;> rfl

section Agreement

variable {vm : VirtualMachine} {success : Bool} {info : String}

/-- A transfer is answered by the event recover triggers. -/
theorem recovered_transfer (awaits : Awaits vm .transfer) :
    recovered vm success = answered vm .transfer success info := by
  simp only [Awaits, List.mem_cons, List.not_mem_nil, or_false] at awaits
  unfold recovered recover answered TransferManagerDriver.protocol
  rcases awaits with h | h | h | h | h | h | h | h | h | h | h
  all_goals simp only [h, DriverOperation.message?]
  -- only in CLEANUP_RESUBMIT recover goes to the dispatch manager by itself
  rw [settle_lcm]
  cases success
  · simp only [handler, epilogFailureAction, h, Bool.false_eq_true, if_false]
    rfl
  · simp only [handler, epilogSuccessAction, h, if_true]
    rfl

/-- What recover does with a VM that boots or moves. -/
theorem recovered_boot (booting : vm.lcmState ∈ ([.boot, .bootUnknown, .bootPoweroff,
    .bootSuspended, .bootStopped, .bootUndeploy, .migrate] : List LcmState)) :
    (recovered vm success).anonymous =
      (handler (if success then .deploySuccess else .deployFailure) vm).anonymous := by
  have event : recover vm success =
      if success then
        { vm := if vm.deployId = "" then { vm with deployId := s!"one-{vm.oid}" } else vm
          effects := [.lcm .deploySuccess] }
      else { vm, effects := [.lcm .deployFailure] } := by
    simp only [List.mem_cons, List.not_mem_nil, or_false] at booting
    unfold recover
    rcases booting with h | h | h | h | h | h | h <;> simp only [h]
  rw [recovered, event]
  cases success with
  | false =>
    simp only [Bool.false_eq_true, if_false]
    rw [settle_lcm]
  | true =>
    simp only [if_true]
    rw [settle_lcm]
    split_ifs
    · exact anonymous_deploySuccess vm _
    · rfl

/-- What a driver answer does with a VM that boots or moves. -/
theorem answered_boot {operation : DriverOperation}
    (started : operation ∈ ([.deploy, .restore, .migrate] : List DriverOperation))
    (heard : VirtualMachineManagerDriver.ignored vm = false) :
    (answered vm operation success info).anonymous =
      (handler (if success then .deploySuccess else .deployFailure) vm).anonymous := by
  simp only [List.mem_cons, List.not_mem_nil, or_false] at started
  rcases started with rfl | rfl | rfl
  all_goals
    simp only [answered, DriverOperation.message?, VirtualMachineManagerDriver.protocol, heard,
      Bool.false_eq_true, if_false, VirtualMachineManagerDriver.answer, settle_lcm]
  -- only a deployment reports a name
  cases success with
  | false => simp only [Bool.false_eq_true, if_false]
  | true =>
    simp only [if_true]
    exact anonymous_deploySuccess vm info

theorem heard_of_ne (noFailure : vm.lcmState ≠ .failure) (noInit : vm.lcmState ≠ .lcmInit) :
    VirtualMachineManagerDriver.ignored vm = false := by
  simp only [VirtualMachineManagerDriver.ignored, noFailure, noInit, or_self, decide_false]

/-- A deployment, a restore or a migration: recover and the driver agree on all but names. -/
theorem anonymous_boot {operation : DriverOperation}
    (started : operation ∈ ([.deploy, .restore, .migrate] : List DriverOperation))
    (awaits : Awaits vm operation) :
    (recovered vm success).anonymous = (answered vm operation success info).anonymous := by
  have booting : vm.lcmState ∈ ([.boot, .bootUnknown, .bootPoweroff, .bootSuspended,
      .bootStopped, .bootUndeploy, .migrate] : List LcmState) := by
    simp only [List.mem_cons, List.not_mem_nil, or_false] at started ⊢
    rcases started with rfl | rfl | rfl <;>
      simp only [Awaits, List.mem_cons, List.not_mem_nil, or_false] at awaits <;> tauto
  have heard : VirtualMachineManagerDriver.ignored vm = false := by
    simp only [List.mem_cons, List.not_mem_nil, or_false] at booting
    apply heard_of_ne <;> intro h <;> simp only [h, reduceCtorEq, or_self] at booting
  rw [recovered_boot booting, answered_boot started heard]

/-- A save, a shutdown or a cancel is answered as recover does it. In the stages of a power off
and of an undeploy the two commands that may have been sent are answered alike. -/
theorem recovered_down {operation : DriverOperation}
    (started : operation ∈ ([.save, .shutdown, .cancel] : List DriverOperation))
    (awaits : Awaits vm operation) :
    recovered vm success = answered vm operation success info := by
  simp only [List.mem_cons, List.not_mem_nil, or_false] at started
  rcases started with rfl | rfl | rfl <;>
    simp only [Awaits, List.mem_cons, List.not_mem_nil, or_false] at awaits <;>
    rcases awaits with h | h | h <;> cases success <;>
    simp only [recovered, recover, answered, DriverOperation.message?,
      VirtualMachineManagerDriver.protocol, VirtualMachineManagerDriver.ignored,
      VirtualMachineManagerDriver.answer, h, reduceCtorEq, or_self, decide_false,
      Bool.false_eq_true, if_false, if_true, settle_lcm, handler, shutdownSuccessAction,
      shutdownFailureAction, cancelSuccessAction, cancelFailureAction]

theorem recovered_cleanup (awaits : Awaits vm .cleanup) :
    recovered vm success = answered vm .cleanup success info := by
  simp only [Awaits] at awaits
  cases success <;>
    simp only [recovered, recover, answered, DriverOperation.message?,
      VirtualMachineManagerDriver.protocol, VirtualMachineManagerDriver.ignored,
      VirtualMachineManagerDriver.answer, awaits, reduceCtorEq, or_self, decide_false,
      Bool.false_eq_true, if_false, if_true, settle_lcm, handler, cleanupCallbackAction] <;>
    rfl

/-- The events recover and the driver choose for a disk in hotplug. -/
theorem hotplug_events (success : Bool) (info : String) (h : vm.lcmState = .hotplug) :
    recovered vm success = handler (if success then .attachSuccess else .attachFailure) vm ∧
    answered vm .attachDisk success info =
      handler (if success then .attachSuccess else .attachFailure) vm ∧
    answered vm .detachDisk success info =
      handler (if success then .detachSuccess else .detachFailure) vm := by
  have heard : VirtualMachineManagerDriver.ignored vm = false := by
    apply heard_of_ne <;> rw [h] <;> exact LcmState.noConfusion
  refine ⟨?_, ?_, ?_⟩
  · simp only [recovered, recover, h, settle_lcm]
  all_goals
    simp only [answered, DriverOperation.message?, VirtualMachineManagerDriver.protocol, heard,
      Bool.false_eq_true, if_false, VirtualMachineManagerDriver.answer, settle_lcm]

/-- The events recover and the driver choose for a NIC in hotplug. -/
theorem hotplugNic_events (success : Bool) (info : String) (h : vm.lcmState = .hotplugNic) :
    recovered vm success =
      handler (if success then .attachNicSuccess else .attachNicFailure) vm ∧
    answered vm .attachNic success info =
      handler (if success then .attachNicSuccess else .attachNicFailure) vm ∧
    answered vm .detachNic success info =
      handler (if success then .detachNicSuccess else .detachNicFailure) vm := by
  have heard : VirtualMachineManagerDriver.ignored vm = false := by
    apply heard_of_ne <;> rw [h] <;> exact LcmState.noConfusion
  refine ⟨?_, ?_, ?_⟩
  · simp only [recovered, recover, h, settle_lcm]
  all_goals
    simp only [answered, DriverOperation.message?, VirtualMachineManagerDriver.protocol, heard,
      Bool.false_eq_true, if_false, VirtualMachineManagerDriver.answer, settle_lcm]

/-- A disk that is dropped and one that is kept leave lists of different lengths. -/
theorem length_disks_hotplug (h : vm.lcmState = .hotplug)
    (marked : ∃ disk ∈ vm.disks, disk.marked = true) :
    (attachFailureAction vm).anonymous.vm.disks.length + 1 = vm.disks.length ∧
      (attachSuccessAction vm).anonymous.vm.disks.length = vm.disks.length := by
  simp only [attachFailureAction, attachSuccessAction, h, Outcome.anonymous,
    VirtualMachine.deleteAttachDisk, VirtualMachine.clearAttachDisk]
  exact ⟨length_deleteFirst marked, length_clearFirst _ _ _⟩

theorem length_nics_hotplug (h : vm.lcmState = .hotplugNic)
    (marked : ∃ nic ∈ vm.nics, nic.marked = true) :
    (attachNicFailureAction vm).anonymous.vm.nics.length + 1 = vm.nics.length ∧
      (attachNicSuccessAction vm).anonymous.vm.nics.length = vm.nics.length ∧
      (cleanupCallbackAction vm).anonymous.vm.nics.length = vm.nics.length := by
  simp only [attachNicFailureAction, attachNicSuccessAction, cleanupCallbackAction, h,
    Outcome.anonymous, VirtualMachine.deleteAttachNic, VirtualMachine.clearAttachNic]
  exact ⟨length_deleteFirst marked, length_clearFirst _ _ _, rfl⟩

/-- A snapshot that is dropped and one that is kept, whatever the driver calls it. -/
theorem length_snapshots_hotplug (info : String) (h : vm.lcmState = .hotplugSnapshot)
    (active : ∃ snap ∈ vm.snapshots, snap.active = true) :
    (dropActiveSnapshot vm).anonymous.vm.snapshots.length + 1 = vm.snapshots.length ∧
      (keepActiveSnapshot vm).anonymous.vm.snapshots.length = vm.snapshots.length ∧
      (keepActiveSnapshot (vm.updateSnapshotId info)).anonymous.vm.snapshots.length =
        vm.snapshots.length := by
  simp only [dropActiveSnapshot, keepActiveSnapshot, VirtualMachine.updateSnapshotId, h,
    Outcome.anonymous, VirtualMachine.deleteActiveSnapshot, VirtualMachine.clearActiveSnapshot,
    List.length_map, length_clearFirst, and_self, and_true]
  exact length_deleteFirst active

/-- Recover gives up any snapshot; the driver's answer depends on the operation. -/
theorem snapshot_events (success : Bool) (info : String) (h : vm.lcmState = .hotplugSnapshot) :
    recovered vm success = dropActiveSnapshot vm ∧
    answered vm .snapshotCreate success info =
      (if success then keepActiveSnapshot (vm.updateSnapshotId info)
        else dropActiveSnapshot vm) ∧
    answered vm .snapshotRevert success info = keepActiveSnapshot vm ∧
    answered vm .snapshotDelete success info =
      (if success then dropActiveSnapshot vm else keepActiveSnapshot vm) := by
  have heard : VirtualMachineManagerDriver.ignored vm = false := by
    apply heard_of_ne <;> rw [h] <;> exact LcmState.noConfusion
  refine ⟨?_, ?_, ?_, ?_⟩
  · simp only [recovered, recover, h, settle_lcm, handler, snapshotCreateFailure]
  all_goals
    simp only [answered, DriverOperation.message?, VirtualMachineManagerDriver.protocol, heard,
      Bool.false_eq_true, if_false, VirtualMachineManagerDriver.answer, settle_lcm]
    cases success <;> rfl

/-! ## All events -/

/-- A disk in hotplug: recover always answers an attachment. -/
theorem agrees_disk (awaits : vm.lcmState = .hotplug ∧ ∃ disk ∈ vm.disks, disk.marked = true) :
    (recovered vm success).anonymous = (answered vm .attachDisk success info).anonymous ∧
    (recovered vm success).anonymous ≠ (answered vm .detachDisk success info).anonymous := by
  obtain ⟨h, marked⟩ := awaits
  obtain ⟨recover_eq, attach_eq, detach_eq⟩ := hotplug_events success info h
  obtain ⟨dropped, kept⟩ := length_disks_hotplug h marked
  rw [recover_eq, attach_eq, detach_eq]
  refine ⟨rfl, fun same => ?_⟩
  have lengths := congrArg (fun o => o.vm.disks.length) same
  cases success <;>
    simp only [Bool.false_eq_true, if_false, if_true, handler, detachSuccessAction,
      detachFailureAction] at lengths <;> omega

/-- A NIC in hotplug: recover always answers an attachment. -/
theorem agrees_nic (awaits : vm.lcmState = .hotplugNic ∧ ∃ nic ∈ vm.nics, nic.marked = true) :
    (recovered vm success).anonymous = (answered vm .attachNic success info).anonymous ∧
    (recovered vm success).anonymous ≠ (answered vm .detachNic success info).anonymous := by
  obtain ⟨h, marked⟩ := awaits
  obtain ⟨recover_eq, attach_eq, detach_eq⟩ := hotplugNic_events success info h
  obtain ⟨dropped, kept, unheard⟩ := length_nics_hotplug h marked
  rw [recover_eq, attach_eq, detach_eq]
  refine ⟨rfl, fun same => ?_⟩
  have lengths := congrArg (fun o => o.vm.nics.length) same
  -- a detachment that failed reaches the clean-up callback and leaves the NICs alone
  cases success <;>
    simp only [Bool.false_eq_true, if_false, if_true, handler, detachNicSuccessAction]
      at lengths <;> omega

/-- A snapshot in hotplug: recover always drops it. -/
theorem agrees_snapshot
    (awaits : vm.lcmState = .hotplugSnapshot ∧ ∃ snap ∈ vm.snapshots, snap.active = true) :
    ((recovered vm success).anonymous = (answered vm .snapshotCreate success info).anonymous ↔
      success = false) ∧
    (recovered vm success).anonymous ≠ (answered vm .snapshotRevert success info).anonymous ∧
    ((recovered vm success).anonymous = (answered vm .snapshotDelete success info).anonymous ↔
      success = true) := by
  obtain ⟨h, active⟩ := awaits
  obtain ⟨recover_eq, create_eq, revert_eq, delete_eq⟩ := snapshot_events success info h
  obtain ⟨dropped, kept, kept_named⟩ := length_snapshots_hotplug info h active
  have drop_ne_keep : (dropActiveSnapshot vm).anonymous ≠ (keepActiveSnapshot vm).anonymous := by
    intro same
    have lengths := congrArg (fun o => o.vm.snapshots.length) same
    omega
  have drop_ne_named : (dropActiveSnapshot vm).anonymous ≠
      (keepActiveSnapshot (vm.updateSnapshotId info)).anonymous := by
    intro same
    have lengths := congrArg (fun o => o.vm.snapshots.length) same
    omega
  rw [recover_eq, create_eq, revert_eq, delete_eq]
  refine ⟨?_, drop_ne_keep, ?_⟩ <;> cases success <;>
    simp only [Bool.false_eq_true, if_false, if_true, drop_ne_named, drop_ne_keep,
      reduceCtorEq]

end Agreement

/-- Recover leads where the answer of the driver would have led, for every operation but those
whose event is not told from another one by the stage of the VM. -/
theorem recovered_eq_answered_iff (vm : VirtualMachine) (operation : DriverOperation)
    (success : Bool) (info : String) (awaits : Awaits vm operation) :
    (recovered vm success).anonymous = (answered vm operation success info).anonymous ↔
      Agrees operation success := by
  cases operation with
  | transfer => exact iff_of_true (congrArg _ (recovered_transfer awaits)) trivial
  | deploy => exact iff_of_true (anonymous_boot (by decide) awaits) trivial
  | restore => exact iff_of_true (anonymous_boot (by decide) awaits) trivial
  | migrate => exact iff_of_true (anonymous_boot (by decide) awaits) trivial
  | save => exact iff_of_true (congrArg _ (recovered_down (by decide) awaits)) trivial
  | shutdown => exact iff_of_true (congrArg _ (recovered_down (by decide) awaits)) trivial
  | cancel => exact iff_of_true (congrArg _ (recovered_down (by decide) awaits)) trivial
  | cleanup => exact iff_of_true (congrArg _ (recovered_cleanup awaits)) trivial
  | attachDisk => exact iff_of_true (agrees_disk awaits).1 trivial
  | detachDisk => exact iff_of_false (agrees_disk awaits).2 id
  | attachNic => exact iff_of_true (agrees_nic awaits).1 trivial
  | detachNic => exact iff_of_false (agrees_nic awaits).2 id
  | snapshotCreate => exact (agrees_snapshot awaits).1
  | snapshotRevert => exact iff_of_false (agrees_snapshot awaits).2.1 id
  | snapshotDelete => exact (agrees_snapshot awaits).2.2

/-- A VM with one disk, which is being detached. -/
def detaching : VirtualMachine where
  oid := 4
  uid := 2
  gid := 100
  state := .active
  lcmState := .hotplug
  history := [{ seq := 0, hid := 7 }]
  disks := [{ diskId := 0, imageId := some 12, attach := "YES" }]

theorem recovered_eq_answered_detaching :
    Awaits detaching .attachDisk ∧
      ((recovered detaching true).anonymous =
        (answered detaching .attachDisk true "").anonymous ↔ Agrees .attachDisk true) := by
  have awaits : Awaits detaching .attachDisk := by
    refine ⟨rfl, { diskId := 0, imageId := some 12, attach := "YES" }, ?_, ?_⟩
    · exact List.mem_singleton.mpr rfl
    · decide
  exact ⟨awaits, recovered_eq_answered_iff detaching .attachDisk true "" awaits⟩

/-- The driver could not detach the disk and the VM keeps it; with the same result, recover
drops it and releases its image. -/
theorem recover_drops_disk :
    Awaits detaching .detachDisk ∧
      (answered detaching .detachDisk false "").vm.disks =
        [{ diskId := 0, imageId := some 12 }] ∧
      (answered detaching .detachDisk false "").effects = [] ∧
      (recovered detaching false).vm.disks = [] ∧
      (recovered detaching false).effects =
        [.quotaDelDisk 2 100 { diskId := 0, imageId := some 12, attach := "YES" },
          .releaseImage 12] := by
  refine ⟨⟨rfl, { diskId := 0, imageId := some 12, attach := "YES" }, ?_, ?_⟩, ?_, ?_, ?_, ?_⟩
  · exact List.mem_singleton.mpr rfl
  all_goals decide

end LifeCycleManager

end Ezilla
