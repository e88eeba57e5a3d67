import Mathlib.Data.List.Basic
import Mathlib.Data.List.Count

/-!
# The VMs that use images

What a VM and the threads that work for it have to do with the images of its disks. A creation
acquires them one after the other. An attach sets the VM to HOTPLUG and unlocks it, acquires the
image and adds the disk to the VM, whatever that is by then. A disk is taken off a VM that is
unlocked before `release_image` is called, and a VM that is deleted releases all its disks.

* `UsageVm.next`: the steps that leave the images alone;
* `UsageVm.acquired`, `UsageVm.takeCall`: those around `acquire_image` and `release_image`;
* `UsageVm.refs`: how often the VM and its threads are on an image.
-/

namespace Ezilla

/-- A DISK of a VM. Its owner can have written any `SAVE_AS`. -/
structure VmDisk where
  diskId : Nat
  imageId : Option Nat
  saveAs : Option Nat
  /-- ATTACH=YES -/
  attach : Bool
  deriving DecidableEq, Repr

def VmDisk.isOn (iid : Nat) (disk : VmDisk) : Bool := disk.imageId = some iid

/-- A call of `release_image`, by where its id comes from. -/
inductive ReleaseCall where
  /-- the IMAGE_ID of a disk -/
  | image (iid : Nat)
  /-- its SAVE_AS -/
  | saveAs (iid : Nat)
  /-- what `image_id` holds after a volatile disk -/
  | stale (iid? : Option Nat)
  deriving DecidableEq, Repr

def ReleaseCall.iid? : ReleaseCall → Option Nat
  | .image iid => some iid
  | .saveAs iid => some iid
  | .stale iid? => iid?

/-- What a thread still has to do for a VM. -/
inductive UsageTask where
  /-- `DispatchManager::attach` has unlocked the VM -/
  | attach (diskId : Nat)
  /-- the disk is set up -/
  | attached (disk : VmDisk)
  /-- it could not be set up -/
  | notAttached
  /-- the calls of `release_image` that were made, the last first, and those that are left; with
  `undo` they are for an attach that fails -/
  | release (failed : Bool) (made left : List ReleaseCall) (undo : Bool)
  deriving DecidableEq, Repr

/-- The states of a VM that is not DONE, as far as disks are concerned. -/
inductive LiveState where
  | running
  | hotplug
  | failed
  | other
  deriving DecidableEq, Repr

inductive UsagePhase where
  /-- `VirtualMachine::insert`, with what `image_id` is at first -/
  | creating (imageId : Option Nat)
  | live (state : LiveState)
  | done
  /-- the creation has failed -/
  | never
  deriving DecidableEq, Repr

/-- `set_state(RUNNING)` after an attach that could not be set up. -/
def UsagePhase.setBack : UsagePhase → UsagePhase
  | .live .hotplug => .live .running
  | phase => phase

structure UsageVm where
  phase : UsagePhase
  disks : List VmDisk
  tasks : List UsageTask
  deriving DecidableEq, Repr

/-- The steps of a VM that leave the images alone. -/
inductive VmStep where
  /-- a creation sets up a disk without an image -/
  | volatile (diskId : Nat) (saveAs : Option Nat)
  /-- `get_disk_images` fails -/
  | createFails
  /-- the rest of `VirtualMachine::insert` -/
  | insert (ok : Bool)
  | attach (diskId : Nat)
  /-- an attach sets up a disk without an image, or fails before it has one -/
  | attachVolatile (i : Nat) (saveAs : Option Nat) (ok : Bool)
  /-- the end of an attach -/
  | add (i : Nat)
  | setBack (i : Nat)
  /-- `attach_success_action`, also for a detach that failed -/
  | attachSuccess
  /-- `attach_failure_action`, also for a detach that succeeded -/
  | attachFailure
  | detach (diskId : Nat)
  /-- the SAVE_AS of a disk is set or removed -/
  | saveDisk (diskId : Nat) (saveAs : Option Nat)
  /-- any other change of the state; a VM that is cleaned up in HOTPLUG loses the mark -/
  | move (state : LiveState) (clear : Bool)
  /-- `done_action` and `finalize_cleanup` -/
  | delete
  /-- a thread has made its calls -/
  | finish (i : Nat)
  deriving DecidableEq, Repr

/-- What comes after a creation has acquired an image. -/
inductive SetUpOutcome where
  | ok
  /-- the image gives no attributes, or its datastore is gone -/
  | noDatastore
  /-- the TARGET of the disk is used -/
  | duplicated
  deriving DecidableEq, Repr

/-- How a VM gets an image: by a creation, or by the attach of one of its threads. -/
inductive Acquisition where
  | create (diskId : Nat) (saveAs : Option Nat) (outcome : SetUpOutcome)
  | attach (i : Nat) (saveAs : Option Nat) (ok : Bool)
  deriving DecidableEq, Repr

/-- Changes the first disk of a kind. -/
def updateFirst (p : VmDisk → Bool) (f : VmDisk → VmDisk) : List VmDisk → List VmDisk
  | [] => []
  | disk :: disks => if p disk then f disk :: disks else disk :: updateFirst p f disks

/-- `set_attach_disk`. -/
def setAttachDisk (diskId : Nat) (disks : List VmDisk) : List VmDisk :=
  updateFirst (·.diskId = diskId) (fun disk => { disk with attach := true }) disks

/-- `clear_attach_disk`. -/
def clearAttachDisk (disks : List VmDisk) : List VmDisk :=
  updateFirst VmDisk.attach (fun disk => { disk with attach := false }) disks

def setSaveAs (diskId : Nat) (saveAs : Option Nat) (disks : List VmDisk) : List VmDisk :=
  updateFirst (·.diskId = diskId) (fun disk => { disk with saveAs }) disks

/-- `acquired_images` of `get_disk_images`, after some disks. A disk without an image adds what
`image_id` holds. -/
def acquiredImages : Option Nat → List VmDisk → List ReleaseCall
  | _, [] => []
  | imageId, disk :: disks =>
    match disk.imageId with
    | some iid => .image iid :: acquiredImages (some iid) disks
    | none => .stale imageId :: acquiredImages imageId disks

/-- The calls of `release_disk_images`. -/
def diskCalls (disks : List VmDisk) : List ReleaseCall :=
  disks.flatMap fun disk =>
    (disk.imageId.map ReleaseCall.image).toList ++ (disk.saveAs.map ReleaseCall.saveAs).toList

/-- Is the image in the hands of a thread: acquired for a disk that is not added yet, or still to
be released for a disk that is gone. -/
def UsageTask.holds (iid : Nat) : UsageTask → Bool
  | .attached disk => disk.isOn iid
  | .release _ made left _ => .image iid ∈ left ∧ .image iid ∉ made
  | _ => false

namespace UsageVm

variable (v : UsageVm)

def addTask (task : UsageTask) : UsageVm := { v with tasks := v.tasks ++ [task] }

/-- A thread goes on with other tasks. -/
def setTask (i : Nat) (tasks : List UsageTask) : UsageVm :=
  { v with tasks := v.tasks.take i ++ (tasks ++ v.tasks.drop (i + 1)) }

/-- A creation fails with some calls to be made. -/
def fails (calls : List ReleaseCall) : UsageVm :=
  { v with phase := .never }.addTask (.release false [] calls false)

def next : VmStep → Option UsageVm
  | .volatile diskId saveAs =>
    match v.phase with
    | .creating _ => some { v with disks := v.disks ++ [⟨diskId, none, saveAs, false⟩] }
    | _ => none
  | .createFails =>
    match v.phase with
    | .creating imageId => some (v.fails (acquiredImages imageId v.disks))
    | _ => none
  | .insert ok =>
    match v.phase with
    | .creating _ =>
      some (if ok then { v with phase := .live .other } else v.fails (diskCalls v.disks))
    | _ => none
  | .attach diskId =>
    if v.phase = .live .running then
      some ({ v with phase := .live .hotplug }.addTask (.attach diskId))
    else none
  | .attachVolatile i saveAs ok =>
    match v.tasks[i]? with
    | some (.attach diskId) =>
      some (v.setTask i [if ok then .attached ⟨diskId, none, saveAs, false⟩ else .notAttached])
    | _ => none
  | .add i =>
    match v.tasks[i]? with
    | some (.attached disk) =>
      some ({ v with disks := v.disks ++ [{ disk with attach := true }] }.setTask i [])
    | _ => none
  | .setBack i =>
    match v.tasks[i]? with
    | some .notAttached =>
      some ({ v with phase := v.phase.setBack }.setTask i [])
    | _ => none
  | .attachSuccess =>
    if v.phase = .live .hotplug then
      some { v with phase := .live .running, disks := clearAttachDisk v.disks }
    else none
  | .attachFailure =>
    if v.phase = .live .hotplug then
      match v.disks.find? VmDisk.attach with
      | some disk =>
        some ({ v with
          phase := .live .running
          disks := v.disks.eraseP VmDisk.attach }.addTask
            (.release false [] (disk.imageId.map ReleaseCall.image).toList false))
      | none => some { v with phase := .live .running }
    else none
  | .detach diskId =>
    if v.phase = .live .running ∧ v.disks.any (·.diskId = diskId) then
      some { v with phase := .live .hotplug, disks := setAttachDisk diskId v.disks }
    else none
  | .saveDisk diskId saveAs =>
    match v.phase with
    | .live _ =>
      some { v with disks := setSaveAs diskId saveAs v.disks }
    | _ => none
  | .move state clear =>
    match v.phase with
    | .live _ =>
      some { v with
        phase := .live state
        disks := if clear then clearAttachDisk v.disks else v.disks }
    | _ => none
  | .delete =>
    match v.phase with
    | .live state =>
      some ({ v with phase := .done }.addTask
        (.release (state == LiveState.failed) [] (diskCalls v.disks) false))
    | _ => none
  | .finish i =>
    match v.tasks[i]? with
    | some (.release _ _ [] undo) => some (v.setTask i (if undo then [.notAttached] else []))
    | _ => none

/-- The VM after the image of a disk was acquired. -/
def acquired (iid : Nat) : Acquisition → Option UsageVm
  | .create diskId saveAs outcome =>
    match v.phase with
    | .creating imageId =>
      let v' : UsageVm := { v with disks := v.disks ++ [⟨diskId, some iid, saveAs, false⟩] }
      match outcome with
      | .ok => some v'
      | .noDatastore => some (v'.fails (.image iid :: acquiredImages imageId v.disks))
      | .duplicated => some (v'.fails (acquiredImages imageId v'.disks))
    | _ => none
  | .attach i saveAs ok =>
    match v.tasks[i]? with
    | some (.attach diskId) =>
      some (v.setTask i [if ok then .attached ⟨diskId, some iid, saveAs, false⟩
        else .release false [] [.image iid] true])
    | _ => none

/-- The VM after the image could not be acquired. -/
def refused : Acquisition → Option UsageVm
  | .create _ _ _ => v.next .createFails
  | .attach i _ _ => v.next (.attachVolatile i none false)

/-- The next call of a thread: whether it is for a failed VM, the call and the VM after it. -/
def takeCall (i : Nat) : Option (Bool × ReleaseCall × UsageVm) :=
  match v.tasks[i]? with
  | some (.release failed made (call :: left) undo) =>
    some (failed, call, v.setTask i [.release failed (call :: made) left undo])
  | _ => none

/-! ## How often a VM is on an image -/

/-- The disks of a VM that is created or not DONE. -/
def disksOn (iid : Nat) : Nat :=
  match v.phase with
  | .creating _ => v.disks.countP (VmDisk.isOn iid)
  | .live _ => v.disks.countP (VmDisk.isOn iid)
  | .done => 0
  | .never => 0

def refs (iid : Nat) : Nat := v.disksOn iid + v.tasks.countP (UsageTask.holds iid)

/-- A VM that is not DONE has a disk on the image. -/
def HasDisk (iid : Nat) : Prop :=
  ∃ state, v.phase = .live state ∧ ∃ disk ∈ v.disks, disk.imageId = some iid

/-- A creation has acquired the image, or it is in the hands of a thread. -/
def UnderWay (iid : Nat) : Prop :=
  (∃ imageId, v.phase = .creating imageId ∧ ∃ disk ∈ v.disks, disk.imageId = some iid) ∨
    ∃ task ∈ v.tasks, task.holds iid = true

/-! ## What the steps do to it -/

variable {v} {v' : UsageVm} {iid j i : Nat}

theorem image_mem_acquiredImages {imageId : Option Nat} {disks : List VmDisk} :
    .image iid ∈ acquiredImages imageId disks ↔ ∃ disk ∈ disks, disk.imageId = some iid := by
  induction disks generalizing imageId with
  | nil => simp [acquiredImages]
  | cons disk disks ih =>
    unfold acquiredImages
    cases is : disk.imageId with
    | none => simp [is, ih]
    | some own => simp [is, ih, eq_comm]

theorem image_mem_diskCalls {disks : List VmDisk} :
    .image iid ∈ diskCalls disks ↔ ∃ disk ∈ disks, disk.imageId = some iid := by
  simp [diskCalls]

theorem countP_isOn_pos {disks : List VmDisk} :
    0 < disks.countP (VmDisk.isOn iid) ↔ ∃ disk ∈ disks, disk.imageId = some iid := by
  simp [List.countP_pos_iff, VmDisk.isOn]

theorem holds_release (failed undo : Bool) (calls : List ReleaseCall) (iid : Nat) :
    UsageTask.holds iid (.release failed [] calls undo) = true ↔ .image iid ∈ calls := by
  simp [UsageTask.holds]

theorem countP_updateFirst {p : VmDisk → Bool} {f : VmDisk → VmDisk}
    (same : ∀ disk, (f disk).imageId = disk.imageId) (disks : List VmDisk) :
    (updateFirst p f disks).countP (VmDisk.isOn iid) = disks.countP (VmDisk.isOn iid) := by
  induction disks with
  | nil => rfl
  | cons disk disks ih =>
    unfold updateFirst
    split
    · rw [List.countP_cons, List.countP_cons, VmDisk.isOn, same]
      rfl
    · rw [List.countP_cons, List.countP_cons, ih]

theorem countP_setAttachDisk (diskId : Nat) (disks : List VmDisk) :
    (setAttachDisk diskId disks).countP (VmDisk.isOn iid) = disks.countP (VmDisk.isOn iid) := by
  unfold setAttachDisk
  rw [countP_updateFirst]
  exact fun _ => rfl

theorem countP_clearAttachDisk (disks : List VmDisk) :
    (clearAttachDisk disks).countP (VmDisk.isOn iid) = disks.countP (VmDisk.isOn iid) := by
  unfold clearAttachDisk
  rw [countP_updateFirst]
  exact fun _ => rfl

theorem countP_setSaveAs (diskId : Nat) (saveAs : Option Nat) (disks : List VmDisk) :
    (setSaveAs diskId saveAs disks).countP (VmDisk.isOn iid) = disks.countP (VmDisk.isOn iid) := by
  unfold setSaveAs
  rw [countP_updateFirst]
  exact fun _ => rfl

theorem countP_eraseP {p : VmDisk → Bool} {disk : VmDisk} {disks : List VmDisk}
    (found : disks.find? VmDisk.attach = some disk) :
    (disks.eraseP VmDisk.attach).countP p + (if p disk then 1 else 0) = disks.countP p := by
  induction disks with
  | nil => cases found
  | cons first disks ih =>
    by_cases marked : first.attach = true
    · rw [List.find?_cons_of_pos marked] at found
      cases found
      rw [List.eraseP_cons_of_pos marked, List.countP_cons]
    · rw [List.find?_cons_of_neg marked] at found
      rw [List.eraseP_cons_of_neg marked, List.countP_cons, List.countP_cons, ← ih found]
      omega

theorem refs_addTask {task : UsageTask} : (v.addTask task).refs iid =
    v.refs iid + if task.holds iid then 1 else 0 := by
  unfold refs addTask
  rw [List.countP_append, List.countP_singleton, ← Nat.add_assoc]
  rfl

theorem refs_setTask {task : UsageTask} (is : v.tasks[i]? = some task)
    (tasks : List UsageTask) (iid : Nat) :
    (v.setTask i tasks).refs iid + (if task.holds iid then 1 else 0) =
      v.refs iid + tasks.countP (UsageTask.holds iid) := by
  obtain ⟨inside, at_i⟩ := List.getElem?_eq_some_iff.mp is
  have split : v.tasks = v.tasks.take i ++ task :: v.tasks.drop (i + 1) := by
    rw [← at_i, List.getElem_cons_drop, List.take_append_drop]
  have before := congrArg (List.countP (UsageTask.holds iid)) split
  rw [List.countP_append, List.countP_cons] at before
  have same : (v.setTask i tasks).disksOn iid = v.disksOn iid := rfl
  unfold refs
  rw [same, before, setTask, List.countP_append, List.countP_append]
  omega

/-- The VM is on every image at most as often as before, and still on those it was on. -/
def Keeps (v v' : UsageVm) (iid : Nat) : Prop :=
  v'.refs iid ≤ v.refs iid ∧ (0 < v.refs iid → 0 < v'.refs iid)

theorem keeps_of_eq (same : v'.refs iid = v.refs iid) : v.Keeps v' iid :=
  ⟨Nat.le_of_eq same, fun positive => same ▸ positive⟩

/-- The disks of a VM that is gone are on their images as long as the calls for them are left. -/
theorem keeps_calls {phase : UsagePhase} {failed : Bool} {calls : List ReleaseCall}
    (disks : v.disksOn iid = v.disks.countP (VmDisk.isOn iid))
    (gone : ({ v with phase } : UsageVm).disksOn iid = 0)
    (covers : .image iid ∈ calls ↔ ∃ disk ∈ v.disks, disk.imageId = some iid) :
    v.Keeps (({ v with phase } : UsageVm).addTask (.release failed [] calls false)) iid := by
  have before : v.refs iid = v.disks.countP (VmDisk.isOn iid) +
      v.tasks.countP (UsageTask.holds iid) := by rw [refs, disks]
  have after : ({ v with phase } : UsageVm).refs iid = v.tasks.countP (UsageTask.holds iid) := by
    rw [refs, gone, Nat.zero_add]
  have held := holds_release failed false calls iid
  rw [covers, ← countP_isOn_pos] at held
  unfold Keeps
  rw [refs_addTask, before, after]
  split
  · rename_i holds
    have some_disk := held.mp holds
    omega
  · rename_i nothing
    have no_disk : ¬ 0 < v.disks.countP (VmDisk.isOn iid) := fun positive =>
      nothing (held.mpr positive)
    omega

theorem keeps_fails {imageId : Option Nat} {calls : List ReleaseCall}
    (creating : v.phase = .creating imageId)
    (covers : .image iid ∈ calls ↔ ∃ disk ∈ v.disks, disk.imageId = some iid) :
    v.Keeps (v.fails calls) iid := by
  refine keeps_calls ?_ rfl covers
  rw [disksOn, creating]

/-- A thread that holds the image as often as before goes on. -/
theorem keeps_setTask {task : UsageTask} {tasks : List UsageTask} (is : v.tasks[i]? = some task)
    (same : tasks.countP (UsageTask.holds iid) = if task.holds iid then 1 else 0) :
    v.Keeps (v.setTask i tasks) iid := by
  have moved := refs_setTask is tasks iid
  exact keeps_of_eq (by omega)

/-- The steps of a VM keep it on its images; a disk is added to a VM that is not DONE. -/
theorem keeps_next {l : VmStep} (taken : v.next l = some v')
    (alive : ∀ i, l = .add i → ∃ state, v.phase = .live state) : v.Keeps v' iid := by
  have live {w : UsageVm} {state state' : LiveState} (here : v.phase = .live state)
      (there : w.phase = .live state') (tasks : w.tasks = v.tasks)
      (disks : w.disks.countP (VmDisk.isOn iid) = v.disks.countP (VmDisk.isOn iid)) :
      v.Keeps w iid := by
    refine keeps_of_eq ?_
    rw [refs, refs, disksOn, disksOn, here, there, tasks, disks]
  cases l with
  | volatile diskId saveAs =>
    simp only [next] at taken
    split at taken
    · rename_i imageId creating
      cases taken
      refine keeps_of_eq ?_
      rw [refs, refs, disksOn, disksOn, creating, List.countP_append, List.countP_singleton]
      rfl
    · cases taken
  | createFails =>
    simp only [next] at taken
    split at taken
    · rename_i imageId creating
      cases taken
      exact keeps_fails creating image_mem_acquiredImages
    · cases taken
  | insert ok =>
    simp only [next] at taken
    split at taken
    · rename_i imageId creating
      cases taken
      cases ok with
      | true =>
        refine keeps_of_eq ?_
        rw [refs, refs, disksOn, disksOn, creating]
        rfl
      | false => exact keeps_fails creating image_mem_diskCalls
    · cases taken
  | attach diskId =>
    simp only [next] at taken
    split at taken
    · rename_i running
      cases taken
      refine keeps_of_eq ?_
      rw [refs_addTask, refs, refs, disksOn, disksOn, running]
      rfl
    · cases taken
  | attachVolatile i saveAs ok =>
    simp only [next] at taken
    split at taken
    · rename_i diskId is
      cases taken
      refine keeps_setTask is ?_
      cases ok with
      | true => rfl
      | false => rfl
    · cases taken
  | add i =>
    obtain ⟨state, here⟩ := alive i rfl
    simp only [next] at taken
    split at taken
    · rename_i disk is
      cases taken
      have moved :=
        refs_setTask (v := { v with disks := v.disks ++ [{ disk with attach := true }] }) is [] iid
      have more :
          ({ v with disks := v.disks ++ [{ disk with attach := true }] } : UsageVm).refs iid =
            v.refs iid + if disk.isOn iid then 1 else 0 := by
        rw [refs, refs, disksOn, disksOn, here, List.countP_append, List.countP_singleton]
        exact Nat.add_right_comm _ _ _
      rw [more] at moved
      exact keeps_of_eq (Nat.add_right_cancel moved)
    · cases taken
  | setBack i =>
    simp only [next] at taken
    split at taken
    · rename_i is
      cases taken
      have moved := refs_setTask (v := { v with phase := v.phase.setBack }) is [] iid
      refine keeps_of_eq (moved.trans ?_)
      rw [refs, refs, disksOn, disksOn]
      cases phase : v.phase with
      | live state => cases state <;> rfl
      | _ => rfl
    · cases taken
  | attachSuccess =>
    simp only [next] at taken
    split at taken
    · rename_i hotplug
      cases taken
      exact live hotplug rfl rfl (countP_clearAttachDisk v.disks)
    · cases taken
  | attachFailure =>
    simp only [next] at taken
    split at taken
    · rename_i hotplug
      split at taken
      · rename_i disk found
        cases taken
        have fewer := countP_eraseP (p := VmDisk.isOn iid) found
        have less : ({ v with
            phase := .live .running
            disks := v.disks.eraseP VmDisk.attach } : UsageVm).refs iid +
              (if disk.isOn iid then 1 else 0) = v.refs iid := by
          rw [refs, refs, disksOn, disksOn, hotplug, ← fewer]
          exact Nat.add_right_comm _ _ _
        refine keeps_of_eq (Eq.trans ?_ less)
        rw [refs_addTask]
        cases is : disk.imageId with
        | none => simp [UsageTask.holds, VmDisk.isOn, is]
        | some own => simp [UsageTask.holds, VmDisk.isOn, is, eq_comm]
      · cases taken
        exact live hotplug rfl rfl rfl
    · cases taken
  | detach diskId =>
    simp only [next] at taken
    split at taken
    · rename_i running
      cases taken
      exact live running.1 rfl rfl (countP_setAttachDisk diskId v.disks)
    · cases taken
  | saveDisk diskId saveAs =>
    simp only [next] at taken
    split at taken
    · rename_i state here
      cases taken
      exact live here here rfl (countP_setSaveAs diskId saveAs v.disks)
    · cases taken
  | move state clear =>
    simp only [next] at taken
    split at taken
    · rename_i before here
      cases taken
      refine live here rfl rfl ?_
      cases clear with
      | true => exact countP_clearAttachDisk v.disks
      | false => rfl
    · cases taken
  | delete =>
    simp only [next] at taken
    split at taken
    · rename_i state here
      cases taken
      refine keeps_calls ?_ rfl image_mem_diskCalls
      rw [disksOn, here]
    · cases taken
  | finish i =>
    simp only [next] at taken
    split at taken
    · rename_i failed made undo is
      cases taken
      refine keeps_setTask is ?_
      cases undo with
      | true => simp [UsageTask.holds]
      | false => simp [UsageTask.holds]
    · cases taken

/-- An acquisition brings the VM on the image once more, and keeps it on the others. -/
theorem refs_acquired {how : Acquisition} (taken : v.acquired iid how = some v') :
    v'.refs j ≤ v.refs j + (if j = iid then 1 else 0) ∧
      (0 < v'.refs j ↔ 0 < v.refs j ∨ j = iid) := by
  have more {w w' : UsageVm} (same : w.refs j = v.refs j + if j = iid then 1 else 0)
      (keeps : w.Keeps w' j) : w'.refs j ≤ v.refs j + (if j = iid then 1 else 0) ∧
        (0 < w'.refs j ↔ 0 < v.refs j ∨ j = iid) := by
    obtain ⟨fewer, still⟩ := keeps
    by_cases own : j = iid
    · rw [if_pos own] at same ⊢
      omega
    · rw [if_neg own] at same ⊢
      omega
  cases how with
  | create diskId saveAs outcome =>
    simp only [acquired] at taken
    split at taken
    · rename_i imageId creating
      have added : ({ v with disks := v.disks ++ [⟨diskId, some iid, saveAs, false⟩] } :
          UsageVm).refs j = v.refs j + if j = iid then 1 else 0 := by
        have own : VmDisk.isOn j ⟨diskId, some iid, saveAs, false⟩ = decide (j = iid) := by
          exact decide_eq_decide.mpr (Option.some_inj.trans eq_comm)
        rw [refs, refs, disksOn, disksOn, creating, List.countP_append, List.countP_singleton, own]
        simp only [decide_eq_true_eq]
        exact Nat.add_right_comm _ _ _
      split at taken
      · cases taken
        exact more added (keeps_of_eq rfl)
      · cases taken
        refine more added (keeps_fails creating ?_)
        rw [List.mem_cons, image_mem_acquiredImages, ReleaseCall.image.injEq]
        simp only [List.mem_append, List.mem_singleton, or_and_right, exists_or,
          exists_eq_left, Option.some.injEq]
        rw [or_comm, @eq_comm _ iid]
      · cases taken
        exact more added (keeps_fails creating image_mem_acquiredImages)
    · cases taken
  | attach i saveAs ok =>
    simp only [acquired] at taken
    split at taken
    · rename_i diskId is
      cases taken
      have moved := refs_setTask is
        [if ok then .attached ⟨diskId, some iid, saveAs, false⟩
          else .release false [] [.image iid] true] j
      refine more (moved.trans ?_) (keeps_of_eq rfl)
      rw [List.countP_singleton]
      cases ok with
      | true => simp [UsageTask.holds, VmDisk.isOn, eq_comm]
      | false => simp [UsageTask.holds]
    · cases taken

theorem keeps_refused {how : Acquisition} (taken : v.refused how = some v') : v.Keeps v' iid := by
  cases how with
  | create diskId saveAs outcome =>
    exact @keeps_next v v' iid .createFails taken fun _ other => by cases other
  | attach i saveAs ok =>
    exact @keeps_next v v' iid (.attachVolatile i none false) taken fun _ other => by cases other

/-- A call leaves the VM on all images but its own. -/
theorem refs_takeCall {failed : Bool} {call : ReleaseCall}
    (taken : v.takeCall i = some (failed, call, v')) :
    v'.refs j ≤ v.refs j ∧ (call.iid? ≠ some j → 0 < v.refs j → 0 < v'.refs j) := by
  simp only [takeCall] at taken
  split at taken
  · rename_i failed' made call' left undo is
    cases taken
    have moved := refs_setTask is [.release failed (call :: made) left undo] j
    have fewer : UsageTask.holds j (.release failed (call :: made) left undo) = true →
        UsageTask.holds j (.release failed made (call :: left) undo) = true := by
      simp only [UsageTask.holds, decide_eq_true_eq, List.mem_cons, not_or]
      exact fun both => ⟨Or.inr both.1, both.2.2⟩
    have others : call.iid? ≠ some j →
        UsageTask.holds j (.release failed made (call :: left) undo) = true →
        UsageTask.holds j (.release failed (call :: made) left undo) = true := by
      intro other
      have apart : ReleaseCall.image j ≠ call := fun same => other (same ▸ rfl)
      simp only [UsageTask.holds, decide_eq_true_eq, List.mem_cons, not_or]
      exact fun both => ⟨both.1.resolve_left apart, apart, both.2⟩
    rw [List.countP_singleton] at moved
    split at moved
    · rename_i held
      split at moved
      · omega
      · rename_i gone
        exact ⟨by omega, fun other => absurd (others other held) gone⟩
    · rename_i free
      rw [if_neg fun held => free (fewer held)] at moved
      omega
  · cases taken

theorem refs_pos_iff : 0 < v.refs iid ↔ v.HasDisk iid ∨ v.UnderWay iid := by
  have tasks : 0 < v.tasks.countP (UsageTask.holds iid) ↔
      ∃ task ∈ v.tasks, task.holds iid = true := List.countP_pos_iff
  have disks : 0 < v.disksOn iid ↔ v.HasDisk iid ∨
      ∃ imageId, v.phase = .creating imageId ∧ ∃ disk ∈ v.disks, disk.imageId = some iid := by
    unfold disksOn HasDisk
    cases v.phase with
    | creating imageId => simpa using countP_isOn_pos
    | live state => simpa using countP_isOn_pos
    | done => simp
    | never => simp
  rw [refs, Nat.add_pos_iff_pos_or_pos, tasks, disks, UnderWay, or_assoc]

/-- A VM has at most as many disks on an image as it is on it. -/
theorem countP_le_refs {state : LiveState} (live : v.phase = .live state) :
    v.disks.countP (VmDisk.isOn iid) ≤ v.refs iid := by
  rw [refs, disksOn, live]
  exact Nat.le_add_right _ _

end UsageVm

end Ezilla
