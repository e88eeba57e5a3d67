import Ezilla.Lcm.Recover
import Ezilla.Dm.DispatchManagerActions
import Ezilla.Vm.Marks
import Ezilla.Lib.Transition

/-!
# Disks and NICs in hotplug

A run of requests for one VM to attach and detach disks and NICs, each answered by the driver.
A request marks an element with ATTACH, and the answer looks for that mark. The VM is unlocked
while a new disk or NIC is set up.

* `Hotplug.Applied`: the answer does what the request asked for;
* `Hotplug.Proper`: no other element had the mark, and the answer is not the failure of a
  NIC detachment;
* `Hotplug.applied_iff_proper`: on every run the two are the same.
-/

namespace Ezilla

/-! ## Operations -/

/-- What a request asks for; a new element is as it was set up. -/
inductive HotplugOperation where
  | disk (change : Change Disk)
  | nic (change : Change Nic)
  deriving DecidableEq, Repr

/-- The operation of the driver. -/
def HotplugOperation.driver : HotplugOperation → LifeCycleManager.DriverOperation
  | .disk (.attach _) => .attachDisk
  | .disk (.detach _) => .detachDisk
  | .nic (.attach _) => .attachNic
  | .nic (.detach _) => .detachNic

/-- The disk with ATTACH = YES. -/
def Disk.mark (disk : Disk) : Disk := { disk with attach := "YES" }

/-- The disk without ATTACH. -/
def Disk.plain (disk : Disk) : Disk := { disk with attach := "" }

/-- The NIC with ATTACH = YES. -/
def Nic.mark (nic : Nic) : Nic := { nic with attach := "YES" }

/-- The NIC without ATTACH. -/
def Nic.plain (nic : Nic) : Nic := { nic with attach := "" }

@[simp] theorem Disk.marked_mark (disk : Disk) : disk.mark.marked = true := rfl

@[simp] theorem Disk.marked_plain (disk : Disk) : disk.plain.marked = false := rfl

@[simp] theorem Disk.plain_plain (disk : Disk) : disk.plain.plain = disk.plain := rfl

@[simp] theorem Disk.plain_mark (disk : Disk) : disk.mark.plain = disk.plain := rfl

@[simp] theorem Nic.marked_mark (nic : Nic) : nic.mark.marked = true := rfl

@[simp] theorem Nic.marked_plain (nic : Nic) : nic.plain.marked = false := rfl

@[simp] theorem Nic.plain_plain (nic : Nic) : nic.plain.plain = nic.plain := rfl

@[simp] theorem Nic.plain_mark (nic : Nic) : nic.mark.plain = nic.plain := rfl

namespace Hotplug

/-- How far the operation on the VM has come, with the VM as the request found it. -/
inductive Stage where
  | idle
  | settingUpDisk (before : VirtualMachine)
  | settingUpNic (before : VirtualMachine)
  | waiting (before : VirtualMachine) (operation : HotplugOperation)

/-- A VM and the operation on it. -/
structure State where
  vm : VirtualMachine
  stage : Stage

/-- What can come: a request, the new element of one, or the answer of the driver. -/
inductive Label where
  | attachDisk
  | setUpDisk (disk : Option Disk)
  | detachDisk (diskId : Nat)
  | attachNic
  | setUpNic (nic : Option Nic)
  | detachNic (nicId : Nat)
  | answer (success : Bool) (info : String)

/-- A request that is refused changes nothing. -/
def request (s : State) (reply : Reply) (stage : Stage) : State :=
  if reply.rc = 0 then { vm := reply.outcome.vm, stage } else s

/-- One step; what cannot come now changes nothing. -/
def next (s : State) : Label → State
  | .attachDisk => request s (DispatchManager.attach s.vm) (.settingUpDisk s.vm)
  | .attachNic => request s (DispatchManager.attachNic s.vm) (.settingUpNic s.vm)
  | .detachDisk diskId =>
    request s (DispatchManager.detach s.vm diskId) (.waiting s.vm (.disk (.detach diskId)))
  | .detachNic nicId =>
    request s (DispatchManager.detachNic s.vm nicId) (.waiting s.vm (.nic (.detach nicId)))
  | .setUpDisk disk =>
    match s.stage with
    | .settingUpDisk before =>
      { vm := (DispatchManager.attachSetUp s.vm disk).outcome.vm
        stage := match disk with
          | none => .idle
          | some disk => .waiting before (.disk (.attach disk)) }
    | _ => s
  | .setUpNic nic =>
    match s.stage with
    | .settingUpNic before =>
      { vm := (DispatchManager.attachNicSetUp s.vm nic).outcome.vm
        stage := match nic with
          | none => .idle
          | some nic => .waiting before (.nic (.attach nic)) }
    | _ => s
  | .answer success info =>
    match s.stage with
    | .waiting _ operation =>
      { vm := (LifeCycleManager.answered s.vm operation.driver success info).vm, stage := .idle }
    | _ => s

/-! ## What is asked for -/

/-- The disks after an operation. -/
def disksAfter (before : VirtualMachine) (success : Bool) : HotplugOperation → List Disk
  | .disk change => change.after Disk.diskId before.disks success
  | .nic _ => before.disks

/-- The NICs after an operation. -/
def nicsAfter (before : VirtualMachine) (success : Bool) : HotplugOperation → List Nic
  | .disk _ => before.nics
  | .nic change => change.after Nic.nicId before.nics success

/-- What is given back by an operation: image, lease and quota of the element that leaves. -/
def givenBack (before : VirtualMachine) (success : Bool) : HotplugOperation → List Effect
  | .disk change =>
    (change.gone Disk.diskId before.disks success).toList.flatMap fun disk =>
      LifeCycleManager.giveBackDisk before disk.mark
  | .nic change =>
    (change.gone Nic.nicId before.nics success).toList.flatMap fun nic =>
      LifeCycleManager.giveBackNic before nic.mark

/-- No disk and no NIC has ATTACH = YES. -/
def Unmarked (disks : List Disk) (nics : List Nic) : Prop :=
  disks.countP Disk.marked = 0 ∧ nics.countP Nic.marked = 0

instance (disks : List Disk) (nics : List Nic) : Decidable (Unmarked disks nics) :=
  inferInstanceAs (Decidable (_ ∧ _))

/-- The outcome of an answer is what the operation asked for. -/
structure Does (outcome : Outcome) (before : VirtualMachine) (operation : HotplugOperation)
    (success : Bool) : Prop where
  running : outcome.vm.In .running
  disks : outcome.vm.disks.map Disk.plain = (disksAfter before success operation).map Disk.plain
  nics : outcome.vm.nics.map Nic.plain = (nicsAfter before success operation).map Nic.plain
  unmarked : Unmarked outcome.vm.disks outcome.vm.nics
  givenBack : outcome.effects = givenBack before success operation

/-- The step applies what was asked for: an answer as above, and a new element that could not
be set up leaves the VM as it was. -/
def Applied (s : State) : Label → Prop
  | .answer success info =>
    match s.stage with
    | .waiting before operation =>
      Does (LifeCycleManager.answered s.vm operation.driver success info) before operation success
    | _ => True
  | .setUpDisk none =>
    match s.stage with
    | .settingUpDisk before =>
      (DispatchManager.attachSetUp s.vm none).outcome =
        { vm := { before with resched := false } }
    | _ => True
  | .setUpNic none =>
    match s.stage with
    | .settingUpNic before =>
      (DispatchManager.attachNicSetUp s.vm none).outcome =
        { vm := { before with resched := false } }
    | _ => True
  | _ => True

/-- The elements the operation is not about had no mark when it was requested. -/
def OthersUnmarked (before : VirtualMachine) : HotplugOperation → Prop
  | .disk change => Unmarked (change.others Disk.diskId before.disks) before.nics
  | .nic change => Unmarked before.disks (change.others Nic.nicId before.nics)

/-- The driver did not fail to detach a NIC. -/
def NotDetachNicFailure (success : Bool) : HotplugOperation → Prop
  | .nic (.detach _) => success = true
  | _ => True

/-- An answer that finds the right element, and whose event is the right one. -/
def Proper (s : State) : Label → Prop
  | .answer success _ =>
    match s.stage with
    | .waiting before operation =>
      OthersUnmarked before operation ∧ NotDetachNicFailure success operation
    | _ => True
  | _ => True

/-! ## The VM while an operation waits -/

/-- What the operation did to the VM it was requested for. -/
def Asked (before : VirtualMachine) (vm : VirtualMachine) : HotplugOperation → Prop
  | .disk change =>
    vm.lcmState = .hotplug ∧ vm.nics = before.nics ∧
      vm.disks = change.requested Disk.diskId Disk.mark before.disks ∧
      ∃ disk, change.selected Disk.diskId before.disks = some disk
  | .nic change =>
    vm.lcmState = .hotplugNic ∧ vm.disks = before.disks ∧
      vm.nics = change.requested Nic.nicId Nic.mark before.nics ∧
      ∃ nic, change.selected Nic.nicId before.nics = some nic

/-- The VM an operation waits with. -/
structure Requested (before : VirtualMachine) (operation : HotplugOperation)
    (vm : VirtualMachine) : Prop where
  active : vm.state = .active
  uid : vm.uid = before.uid
  gid : vm.gid = before.gid
  asked : Asked before vm operation

/-- The VM fits the stage the operation on it is in. -/
def Sound (s : State) : Prop :=
  match s.stage with
  | .idle => True
  | .settingUpDisk before => before.In .running ∧ s.vm = DispatchManager.enter before .hotplug
  | .settingUpNic before => before.In .running ∧ s.vm = DispatchManager.enter before .hotplugNic
  | .waiting before operation => Requested before operation s.vm

theorem sound_request {s : State} {reply : Reply} {stage : Stage} (sound : Sound s)
    (accepted : reply.rc = 0 → Sound { vm := reply.outcome.vm, stage }) :
    Sound (request s reply stage) := by
  unfold request
  split
  · rename_i taken
    exact accepted taken
  · exact sound

/-- A detachment that is accepted has found its element and marked it. -/
theorem onElement_rc {vm : VirtualMachine} {lcmState : LcmState}
    {marked : Option VirtualMachine} {action : VmmAction}
    (taken : (DispatchManager.onElement vm lcmState marked action).rc = 0) :
    vm.In .running ∧ ∃ vm', marked = some vm' ∧
      (DispatchManager.onElement vm lcmState marked action).outcome.vm =
        DispatchManager.enter vm' lcmState := by
  unfold DispatchManager.onElement at taken ⊢
  split_ifs at taken ⊢ with running
  · cases marked with
    | none => cases taken
    | some vm' => exact ⟨running, vm', rfl, rfl⟩
  · cases taken

theorem requested_detachDisk {vm : VirtualMachine} {diskId : Nat}
    (taken : (DispatchManager.detach vm diskId).rc = 0) :
    Requested vm (.disk (.detach diskId)) (DispatchManager.detach vm diskId).outcome.vm := by
  obtain ⟨running, vm', marked, after⟩ := onElement_rc taken
  rw [VirtualMachine.setAttachDisk] at marked
  cases found : vm.getDisk diskId with
  | none =>
    rw [found] at marked
    cases marked
  | some disk =>
    rw [found] at marked
    cases marked
    rw [DispatchManager.detach, after]
    exact ⟨running.1, rfl, rfl, rfl, rfl, rfl, disk, found⟩

theorem requested_detachNic {vm : VirtualMachine} {nicId : Nat}
    (taken : (DispatchManager.detachNic vm nicId).rc = 0) :
    Requested vm (.nic (.detach nicId)) (DispatchManager.detachNic vm nicId).outcome.vm := by
  obtain ⟨running, vm', marked, after⟩ := onElement_rc taken
  rw [VirtualMachine.setAttachNic] at marked
  cases found : vm.nics.find? fun nic => nic.nicId = nicId with
  | none =>
    rw [found] at marked
    cases marked
  | some nic =>
    rw [found] at marked
    cases marked
    rw [DispatchManager.detachNic, after]
    exact ⟨running.1, rfl, rfl, rfl, rfl, rfl, nic, found⟩

/-- Every step keeps the VM in the stage of its operation. -/
theorem sound_next (s : State) (l : Label) (sound : Sound s) : Sound (next s l) := by
  cases l with
  | attachDisk =>
    apply sound_request sound
    intro taken
    unfold DispatchManager.attach at taken ⊢
    split_ifs at taken ⊢ with running
    · exact ⟨running, rfl⟩
    · cases taken
  | attachNic =>
    apply sound_request sound
    intro taken
    unfold DispatchManager.attachNic at taken ⊢
    split_ifs at taken ⊢ with running
    · exact ⟨running, rfl⟩
    · cases taken
  | detachDisk diskId =>
    apply sound_request sound
    exact requested_detachDisk
  | detachNic nicId =>
    apply sound_request sound
    exact requested_detachNic
  | setUpDisk disk =>
    rcases s with ⟨vm, stage⟩
    cases stage with
    | settingUpDisk before =>
      obtain ⟨running, rfl⟩ := sound
      cases disk with
      | none => trivial
      | some disk => exact ⟨running.1, rfl, rfl, rfl, rfl, rfl, disk, rfl⟩
    | idle | settingUpNic | waiting => exact sound
  | setUpNic nic =>
    rcases s with ⟨vm, stage⟩
    cases stage with
    | settingUpNic before =>
      obtain ⟨running, rfl⟩ := sound
      cases nic with
      | none => trivial
      | some nic => exact ⟨running.1, rfl, rfl, rfl, rfl, rfl, nic, rfl⟩
    | idle | settingUpDisk | waiting => exact sound
  | answer success info =>
    rcases s with ⟨vm, stage⟩
    cases stage with
    | waiting before operation => trivial
    | idle | settingUpDisk | settingUpNic => exact sound

/-! ## Answers -/

section Answers

variable {vm before : VirtualMachine} {success : Bool} {info : String}

theorem giveBackDisk_congr (uid : vm.uid = before.uid) (gid : vm.gid = before.gid) :
    LifeCycleManager.giveBackDisk vm = LifeCycleManager.giveBackDisk before := by
  funext disk
  rw [LifeCycleManager.giveBackDisk, LifeCycleManager.giveBackDisk, uid, gid]

theorem giveBackNic_congr (uid : vm.uid = before.uid) (gid : vm.gid = before.gid) :
    LifeCycleManager.giveBackNic vm = LifeCycleManager.giveBackNic before := by
  funext nic
  rw [LifeCycleManager.giveBackNic, LifeCycleManager.giveBackNic, uid, gid]

/-- The answer of a disk operation. -/
theorem answered_disk {change : Change Disk} (stage : vm.lcmState = .hotplug) :
    LifeCycleManager.answered vm (HotplugOperation.disk change).driver success info =
      if change.drops success then LifeCycleManager.attachFailureAction vm
      else LifeCycleManager.attachSuccessAction vm := by
  obtain ⟨-, attached, detached⟩ := LifeCycleManager.hotplug_events success info stage
  cases change with
  | attach disk =>
    rw [HotplugOperation.driver, attached]
    cases success <;> rfl
  | detach diskId =>
    rw [HotplugOperation.driver, detached]
    cases success <;> rfl

/-- The answer of a NIC operation, when it reaches its handler. -/
theorem answered_nic {change : Change Nic} (stage : vm.lcmState = .hotplugNic)
    (heard : NotDetachNicFailure success (.nic change)) :
    LifeCycleManager.answered vm (HotplugOperation.nic change).driver success info =
      if change.drops success then LifeCycleManager.attachNicFailureAction vm
      else LifeCycleManager.attachNicSuccessAction vm := by
  obtain ⟨-, attached, detached⟩ := LifeCycleManager.hotplugNic_events success info stage
  cases change with
  | attach nic =>
    rw [HotplugOperation.driver, attached]
    cases success <;> rfl
  | detach nicId =>
    rw [HotplugOperation.driver, detached]
    cases heard
    rfl

/-- The failure of a NIC detachment leaves the VM in hotplug. -/
theorem answered_detachNic_failure {nicId : Nat} (stage : vm.lcmState = .hotplugNic) :
    ¬ (LifeCycleManager.answered vm (HotplugOperation.nic (.detach nicId)).driver false
      info).vm.In .running := by
  rw [HotplugOperation.driver, (LifeCycleManager.hotplugNic_events false info stage).2.2]
  simp only [Bool.false_eq_true, if_false, LifeCycleManager.handler,
    LifeCycleManager.cleanupCallbackAction, stage, Outcome.wrongState, VirtualMachine.In,
    reduceCtorEq, and_false, not_false_eq_true]

/-- The disk that is taken away is the right one when no other mark is there. -/
theorem does_disk_drop {change : Change Disk} (requested : Requested before (.disk change) vm)
    (out : change.drops success = true) :
    Does (LifeCycleManager.attachFailureAction vm) before (.disk change) success ↔
      OthersUnmarked before (.disk change) := by
  obtain ⟨active, uid, gid, stage, nics, disks, disk, found⟩ := requested
  have one : vm.disks.countP Disk.marked =
      (change.others Disk.diskId before.disks).countP Disk.marked + 1 := by
    rw [disks]
    exact Change.countP_requested Disk.marked_mark found
  have less : (deleteFirst Disk.marked vm.disks).2.countP Disk.marked + 1 = _ :=
    countP_deleteFirst (by omega)
  simp only [LifeCycleManager.attachFailureAction, stage]
  constructor
  · intro does
    obtain ⟨disks_clean, nics_clean⟩ := does.unmarked
    simp only [VirtualMachine.deleteAttachDisk] at disks_clean nics_clean
    exact ⟨by omega, nics ▸ nics_clean⟩
  · intro clean
    obtain ⟨others_clean, nics_clean⟩ := clean
    have away := Change.deleteFirst_requested Disk.marked_mark found others_clean
    rw [← disks] at away
    refine ⟨⟨active, rfl⟩, ?_, ?_, ⟨?_, ?_⟩, ?_⟩ <;>
      simp only [VirtualMachine.deleteAttachDisk, away]
    · rw [disksAfter, Change.after_of_drops out]
    · rw [nics, nicsAfter]
    · exact others_clean
    · rw [nics, nics_clean]
    · rw [giveBackDisk_congr uid gid, givenBack, Change.gone, if_pos out, found]
      rfl

/-- The mark that is taken away is the right one when no other mark is there. -/
theorem does_disk_keep {change : Change Disk} (requested : Requested before (.disk change) vm)
    (stays : change.drops success = false) :
    Does (LifeCycleManager.attachSuccessAction vm) before (.disk change) success ↔
      OthersUnmarked before (.disk change) := by
  obtain ⟨active, -, -, stage, nics, disks, disk, found⟩ := requested
  have one : vm.disks.countP Disk.marked =
      (change.others Disk.diskId before.disks).countP Disk.marked + 1 := by
    rw [disks]
    exact Change.countP_requested Disk.marked_mark found
  have less : (clearFirst Disk.marked Disk.plain vm.disks).countP Disk.marked + 1 = _ :=
    countP_clearFirst Disk.marked_plain (by omega)
  have same : (clearFirst Disk.marked Disk.plain vm.disks).map Disk.plain =
      vm.disks.map Disk.plain :=
    map_clearFirst Disk.marked Disk.plain_plain vm.disks
  simp only [LifeCycleManager.attachSuccessAction, stage]
  constructor
  · intro does
    have disks_clean : (clearFirst Disk.marked Disk.plain vm.disks).countP Disk.marked = 0 :=
      does.unmarked.1
    have nics_clean : vm.nics.countP Nic.marked = 0 := does.unmarked.2
    exact ⟨by omega, nics ▸ nics_clean⟩
  · intro clean
    obtain ⟨others_clean, nics_clean⟩ := clean
    have disks_clean : (clearFirst Disk.marked Disk.plain vm.disks).countP Disk.marked = 0 := by
      omega
    refine ⟨⟨active, rfl⟩, same.trans ?_, ?_, ⟨disks_clean, ?_⟩, ?_⟩
    · rw [disks]
      exact Change.map_requested Disk.plain_mark stays
    · exact congrArg _ nics
    · exact (congrArg _ nics).trans nics_clean
    · rw [givenBack, Change.gone, if_neg (ne_true_of_eq_false stays)]
      rfl

/-- The NIC that is taken away is the right one when no other mark is there. -/
theorem does_nic_drop {change : Change Nic} (requested : Requested before (.nic change) vm)
    (out : change.drops success = true) :
    Does (LifeCycleManager.attachNicFailureAction vm) before (.nic change) success ↔
      OthersUnmarked before (.nic change) := by
  obtain ⟨active, uid, gid, stage, disks, nics, nic, found⟩ := requested
  have one : vm.nics.countP Nic.marked =
      (change.others Nic.nicId before.nics).countP Nic.marked + 1 := by
    rw [nics]
    exact Change.countP_requested Nic.marked_mark found
  have less : (deleteFirst Nic.marked vm.nics).2.countP Nic.marked + 1 = _ :=
    countP_deleteFirst (by omega)
  simp only [LifeCycleManager.attachNicFailureAction, stage]
  constructor
  · intro does
    obtain ⟨disks_clean, nics_clean⟩ := does.unmarked
    simp only [VirtualMachine.deleteAttachNic] at disks_clean nics_clean
    exact ⟨disks ▸ disks_clean, by omega⟩
  · intro clean
    obtain ⟨disks_clean, others_clean⟩ := clean
    have away := Change.deleteFirst_requested Nic.marked_mark found others_clean
    rw [← nics] at away
    refine ⟨⟨active, rfl⟩, ?_, ?_, ⟨?_, ?_⟩, ?_⟩ <;>
      simp only [VirtualMachine.deleteAttachNic, away]
    · rw [disks, disksAfter]
    · rw [nicsAfter, Change.after_of_drops out]
    · rw [disks, disks_clean]
    · exact others_clean
    · rw [giveBackNic_congr uid gid, givenBack, Change.gone, if_pos out, found]
      rfl

theorem does_nic_keep {change : Change Nic} (requested : Requested before (.nic change) vm)
    (stays : change.drops success = false) :
    Does (LifeCycleManager.attachNicSuccessAction vm) before (.nic change) success ↔
      OthersUnmarked before (.nic change) := by
  obtain ⟨active, -, -, stage, disks, nics, nic, found⟩ := requested
  have one : vm.nics.countP Nic.marked =
      (change.others Nic.nicId before.nics).countP Nic.marked + 1 := by
    rw [nics]
    exact Change.countP_requested Nic.marked_mark found
  have less : (clearFirst Nic.marked Nic.plain vm.nics).countP Nic.marked + 1 = _ :=
    countP_clearFirst Nic.marked_plain (by omega)
  have same : (clearFirst Nic.marked Nic.plain vm.nics).map Nic.plain = vm.nics.map Nic.plain :=
    map_clearFirst Nic.marked Nic.plain_plain vm.nics
  simp only [LifeCycleManager.attachNicSuccessAction, stage]
  constructor
  · intro does
    have disks_clean : vm.disks.countP Disk.marked = 0 := does.unmarked.1
    have nics_clean : (clearFirst Nic.marked Nic.plain vm.nics).countP Nic.marked = 0 :=
      does.unmarked.2
    exact ⟨disks ▸ disks_clean, by omega⟩
  · intro clean
    obtain ⟨disks_clean, others_clean⟩ := clean
    have nics_clean : (clearFirst Nic.marked Nic.plain vm.nics).countP Nic.marked = 0 := by
      omega
    refine ⟨⟨active, rfl⟩, ?_, same.trans ?_, ⟨?_, nics_clean⟩, ?_⟩
    · exact congrArg _ disks
    · rw [nics]
      exact Change.map_requested Nic.plain_mark stays
    · exact (congrArg _ disks).trans disks_clean
    · rw [givenBack, Change.gone, if_neg (ne_true_of_eq_false stays)]
      rfl

/-- A disk operation is answered as it should be when no other mark is there. -/
theorem does_disk {change : Change Disk} (requested : Requested before (.disk change) vm) :
    Does (LifeCycleManager.answered vm (HotplugOperation.disk change).driver success info) before
        (.disk change) success ↔
      OthersUnmarked before (.disk change) := by
  rw [answered_disk requested.asked.1]
  cases out : change.drops success with
  | true => exact does_disk_drop requested out
  | false => exact does_disk_keep requested out

/-- A NIC operation is answered as it should be when no other mark is there and its event
reaches its handler. -/
theorem does_nic {change : Change Nic} (requested : Requested before (.nic change) vm) :
    Does (LifeCycleManager.answered vm (HotplugOperation.nic change).driver success info) before
        (.nic change) success ↔
      OthersUnmarked before (.nic change) ∧ NotDetachNicFailure success (.nic change) := by
  by_cases heard : NotDetachNicFailure success (.nic change)
  · rw [answered_nic requested.asked.1 heard, and_iff_left heard]
    cases out : change.drops success with
    | true => exact does_nic_drop requested out
    | false => exact does_nic_keep requested out
  · cases change with
    | attach nic => exact absurd trivial heard
    | detach nicId =>
      cases success with
      | true => exact absurd rfl heard
      | false =>
        refine iff_of_false ?_ (fun both => heard both.2)
        intro does
        exact answered_detachNic_failure requested.asked.1 does.running

end Answers

/-! ## Runs -/

theorem attachSetUp_none {before : VirtualMachine} (running : before.In .running) :
    (DispatchManager.attachSetUp (DispatchManager.enter before .hotplug) none).outcome =
      { vm := { before with resched := false } } := by
  rcases before with ⟨_, _, _, state, lcmState, _, _, _, _, _, _⟩
  cases running.2
  rfl

theorem attachNicSetUp_none {before : VirtualMachine} (running : before.In .running) :
    (DispatchManager.attachNicSetUp (DispatchManager.enter before .hotplugNic) none).outcome =
      { vm := { before with resched := false } } := by
  rcases before with ⟨_, _, _, state, lcmState, _, _, _, _, _, _⟩
  cases running.2
  rfl

/-- One step applies what was asked for exactly when the answer is a proper one. -/
theorem applied_iff (s : State) (l : Label) (sound : Sound s) : Applied s l ↔ Proper s l := by
  rcases s with ⟨vm, stage⟩
  cases l with
  | attachDisk | detachDisk | attachNic | detachNic => exact Iff.rfl
  | setUpDisk disk =>
    cases stage with
    | settingUpDisk before =>
      obtain ⟨running, rfl⟩ := sound
      cases disk with
      | none =>
        exact iff_of_true (attachSetUp_none running) trivial
      | some disk => exact Iff.rfl
    | idle | settingUpNic | waiting => cases disk <;> exact Iff.rfl
  | setUpNic nic =>
    cases stage with
    | settingUpNic before =>
      obtain ⟨running, rfl⟩ := sound
      cases nic with
      | none =>
        exact iff_of_true (attachNicSetUp_none running) trivial
      | some nic => exact Iff.rfl
    | idle | settingUpDisk | waiting => cases nic <;> exact Iff.rfl
  | answer success info =>
    cases stage with
    | waiting before operation =>
      cases operation with
      | disk change => exact (does_disk sound).trans (and_iff_left trivial).symm
      | nic change => exact does_nic sound
    | idle | settingUpDisk | settingUpNic => exact Iff.rfl

/-- In every run, whatever the VM, each answer is applied to the operation that asked for it
exactly when each answer is a proper one. -/
theorem applied_iff_proper (vm : VirtualMachine) (labels : List Label) :
    Transition.Along next Applied { vm, stage := .idle } labels ↔
      Transition.Along next Proper { vm, stage := .idle } labels :=
  Transition.along_congr (fun s l sound _ => sound_next s l sound) applied_iff labels trivial

/-- A running VM with two disks and a NIC; the owner wrote ATTACH in the first disk. -/
def withAttach : VirtualMachine where
  oid := 4
  uid := 2
  gid := 100
  state := .active
  lcmState := .running
  disks := [{ diskId := 0, imageId := some 12, attach := "YES" },
    { diskId := 1, imageId := some 13 }]
  nics := [{ nicId := 0, networkId := some 3, ip := "10.0.0.4" }]

/-- The driver detached disk 1, and disk 0 leaves the VM. The driver could not detach the NIC,
and the VM stays in hotplug. -/
theorem wrong_disk_and_stuck_nic :
    ([Label.detachDisk 1, .answer true ""].foldl next
        { vm := withAttach, stage := .idle }).vm.disks =
        [{ diskId := 1, imageId := some 13, attach := "YES" }] ∧
      ([Label.detachNic 0, .answer false ""].foldl next
        { vm := withAttach, stage := .idle }).vm.lcmState = .hotplugNic ∧
      ¬ Transition.Along next Applied { vm := withAttach, stage := .idle }
        [.detachDisk 1, .answer true ""] ∧
      ¬ Transition.Along next Applied { vm := withAttach, stage := .idle }
        [.detachNic 0, .answer false ""] := by
  refine ⟨by decide, by decide, ?_, ?_⟩
  · intro applied
    have clean := applied.2.1.unmarked
    revert clean
    decide
  · intro applied
    have running := applied.2.1.running
    revert running
    decide

end Hotplug

end Ezilla
