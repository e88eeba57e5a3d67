import Ezilla.Image.DiskUsers
import Ezilla.Image.ImageManager
import Ezilla.Lib.Transition
import Mathlib.Data.Set.Card
import Mathlib.Logic.Function.Basic

/-!
# Images in use

The VMs with their threads, and the images that they acquire and release, interleaved with the
requests on the images.

`UsageState.step` is one section under the lock of an image or a VM. `UsageState.Good` is the
invariant: a VM is in the collection of an image when it or one of its threads is on it. Three
kinds of steps break it: a VM with two disks on an image releases one of them, a call of
`release_image` is for an image that the VM does not use, and an attach adds its disk to a VM that
is DONE by then. `UsageState.Proper` excludes them, and `reachable_usage_exact` is about the runs
without them.
-/

namespace Ezilla

open ImageManager Transition

/-- The images, the VMs and the RM messages that the driver has not answered. -/
structure UsageState where
  images : Nat → Option Image
  vms : Nat → Option UsageVm
  rmSent : List Nat

/-- One section. -/
inductive UsageLabel where
  /-- `VirtualMachine::insert` starts; `imageId` is what `image_id` is at first -/
  | create (vmId : Nat) (imageId : Option Nat)
  | vm (vmId : Nat) (l : VmStep)
  /-- `ImagePool::disk_attribute` -/
  | acquire (vmId iid : Nat) (how : Acquisition)
  /-- the next `release_image` of a thread -/
  | release (vmId i : Nat)
  | enable (iid : Nat) (toEnable : Bool)
  | persistent (iid : Nat) (persis : Bool)
  /-- `db` is whether the database drops an image -/
  | delete (iid : Nat) (driver db : Bool)
  | rmAnswer (iid : Nat) (db : Bool)
  /-- a clone of the image starts or ends -/
  | clone (iid newId : Nat)
  | cloneEnd (iid newId : Nat)
  deriving DecidableEq, Repr

namespace UsageState

def setImage (s : UsageState) (iid : Nat) (img? : Option Image) : UsageState :=
  { s with images := Function.update s.images iid img? }

def setVm (s : UsageState) (vmId : Nat) (v : UsageVm) : UsageState :=
  { s with vms := Function.update s.vms vmId (some v) }

/-- An operation of the image manager on an image of the pool; an error changes nothing. -/
def onImage (s : UsageState) (iid : Nat) (op : Image → Except ImageError Image) : UsageState :=
  match s.images iid with
  | some img =>
    match op img with
    | .ok img' => s.setImage iid (some img')
    | .error _ => s
  | none => s

/-- `release_image`, of an id that may be missing. -/
def releaseId (s : UsageState) (vmId : Nat) (iid? : Option Nat) (failed : Bool) : UsageState :=
  match iid? with
  | some iid => s.onImage iid fun img => .ok (releaseImage vmId failed img)
  | none => s

/-- The image of a disk is acquired, or not. -/
def acquire (s : UsageState) (vmId iid : Nat) (how : Acquisition) (v : UsageVm) :
    Option UsageState :=
  match s.images iid with
  | some img =>
    match acquireImage vmId img with
    | .ok img' => (v.acquired iid how).map ((s.setImage iid (some img')).setVm vmId)
    | .error _ => (v.refused how).map (s.setVm vmId)
  | none => (v.refused how).map (s.setVm vmId)

/-- One section; `none` when the label has nothing to act on. -/
def step (s : UsageState) : UsageLabel → Option UsageState
  | .create vmId imageId =>
    -- the id of a creation that failed is given out again
    if (s.vms vmId).all fun v => v.phase = .never ∧ v.tasks = [] then
      some (s.setVm vmId ⟨.creating imageId, [], []⟩)
    else none
  | .vm vmId l => (s.vms vmId).bind fun v => (v.next l).map (s.setVm vmId)
  | .acquire vmId iid how => (s.vms vmId).bind (s.acquire vmId iid how)
  | .release vmId i =>
    (s.vms vmId).bind fun v => (v.takeCall i).map fun call =>
      (s.setVm vmId call.2.2).releaseId vmId call.2.1.iid? call.1
  | .enable iid toEnable => some (s.onImage iid (enableImage toEnable))
  | .persistent iid persis => some (s.onImage iid fun img => img.persistent persis)
  | .delete iid driver db =>
    match s.images iid with
    | some img =>
      match deleteImage driver img with
      | .ok (.dropped, _) => some (if db then s.setImage iid none else s)
      | .ok (.removing img', _) =>
        some ({ s with rmSent := iid :: s.rmSent }.setImage iid (some img'))
      | .error _ => some s
    | none => none
  | .rmAnswer iid db =>
    if iid ∈ s.rmSent then
      some (if db then { s with rmSent := s.rmSent.erase iid }.setImage iid none
        else { s with rmSent := s.rmSent.erase iid })
    else none
  | .clone iid newId =>
    if (s.images iid).any fun img => img.type.isDisk then
      some (s.onImage iid (startCloning newId))
    else none
  | .cloneEnd iid newId => some (s.onImage iid fun img => .ok (releaseCloningImage newId img))

def Step (s : UsageState) (l : UsageLabel) (s' : UsageState) : Prop := s.step l = some s'

/-- How often a VM and its threads are on an image. -/
def refs (s : UsageState) (vmId iid : Nat) : Nat := (s.vms vmId).elim 0 fun v => v.refs iid

/-- There is no VM yet. -/
structure Initial (s : UsageState) : Prop where
  sound : ∀ iid img, s.images iid = some img → img.Sound
  unused : ∀ iid img, s.images iid = some img → img.running.ids = ∅
  noVm : ∀ vmId, s.vms vmId = none
  nothingSent : s.rmSent = []

/-- A section in the right place: a disk is added to a VM that is not DONE, and after a call of
`release_image` for a VM it is no longer on the image; where it was not before, the image is not in
persistent use. -/
def Proper (s : UsageState) : UsageLabel → Prop
  | .vm vmId (.add _) => ∀ v, s.vms vmId = some v → ∃ state, v.phase = .live state
  | .release vmId i => ∀ v failed call v' iid, s.vms vmId = some v →
    v.takeCall i = some (failed, call, v') → call.iid? = some iid →
      v'.refs iid = 0 ∧ (v.refs iid = 0 → ∀ img, s.images iid = some img → img.state ≠ .usedPers)
  | _ => True

/-- The usage of the images is exact. -/
structure UsageExact (s : UsageState) : Prop where
  /-- an image with a disk is used, so it can not be deleted -/
  used : ∀ vmId v iid, s.vms vmId = some v → v.HasDisk iid → ∃ img, s.images iid = some img ∧
    (img.state = .used ∨ img.state = .usedPers) ∧
    ∀ driver, ∃ e, deleteImage driver img = .error e
  /-- the VMs with a disk on the image, or with a call that is under way -/
  running : ∀ iid img, s.images iid = some img → img.running.count =
    ({vmId | ∃ v, s.vms vmId = some v ∧ (v.HasDisk iid ∨ v.UnderWay iid)} : Set Nat).ncard
  persistent : ∀ iid img, s.images iid = some img → img.persistentImg = true →
    ∀ vmId v vmId' v', s.vms vmId = some v → s.vms vmId' = some v' → v.HasDisk iid →
      v'.HasDisk iid → vmId = vmId' ∧ v.disks.countP (VmDisk.isOn iid) = 1

/-- The counter of an image is the number of the VMs with a disk on it. -/
def CountsDisks (s : UsageState) (iid : Nat) : Prop :=
  ∀ img, s.images iid = some img →
    img.running.count = ({vmId | ∃ v, s.vms vmId = some v ∧ v.HasDisk iid} : Set Nat).ncard

/-- What every section in the right place keeps. -/
structure Good (s : UsageState) : Prop where
  sound : ∀ iid img, s.images iid = some img → img.Sound
  users : ∀ iid img, s.images iid = some img → ∀ vmId,
    vmId ∈ img.running.ids ↔ 0 < s.refs vmId iid
  there : ∀ vmId iid, 0 < s.refs vmId iid → ∃ img, s.images iid = some img
  single : ∀ iid img, s.images iid = some img → img.state = .usedPers → ∀ vmId,
    s.refs vmId iid ≤ 1
  rmSent : ∀ iid img, iid ∈ s.rmSent → s.images iid = some img → img.state = .delete

variable {s s' : UsageState} {iid vmId : Nat} {img img' : Image} {img? : Option Image}
  {v v' : UsageVm}

/-! ## Views of the changed states -/

theorem setImage_cases {i : Nat} {after : Image}
    (there : (s.setImage iid img?).images i = some after) :
    (i = iid ∧ img? = some after) ∨ (i ≠ iid ∧ s.images i = some after) := by
  have view : (s.setImage iid img?).images i = if i = iid then img? else s.images i :=
    Function.update_apply s.images iid img? i
  rw [view] at there
  split at there
  · rename_i same
    exact .inl ⟨same, there⟩
  · rename_i other
    exact .inr ⟨other, there⟩

theorem images_setImage : (s.setImage iid img?).images iid = img? := by
  unfold setImage
  exact Function.update_self iid img? s.images

theorem exists_setImage {i : Nat} (there : ∃ before, s.images i = some before) :
    ∃ after, (s.setImage iid (some img')).images i = some after := by
  rcases eq_or_ne i iid with rfl | other
  · exact ⟨img', images_setImage⟩
  · obtain ⟨before, is⟩ := there
    refine ⟨before, ?_⟩
    rw [← is]
    exact Function.update_of_ne other (some img') s.images

theorem refs_of_vm (is : s.vms vmId = some v) (i : Nat) : s.refs vmId i = v.refs i := by
  rw [refs, is, Option.elim_some]

theorem refs_setVm (w i : Nat) :
    (s.setVm vmId v').refs w i = if w = vmId then v'.refs i else s.refs w i := by
  have view : (s.setVm vmId v').vms w = if w = vmId then some v' else s.vms w :=
    Function.update_apply s.vms vmId (some v') w
  rw [refs, view]
  split
  · rfl
  · rfl

/-- Steps of the VMs that keep them on their images. -/
theorem Good.keep (good : s.Good) (images : s'.images = s.images) (sent : s'.rmSent = s.rmSent)
    (keeps : ∀ w i, s'.refs w i ≤ s.refs w i ∧ (0 < s.refs w i → 0 < s'.refs w i)) : s'.Good := by
  have same : ∀ w i, 0 < s'.refs w i ↔ 0 < s.refs w i := fun w i =>
    ⟨fun positive => Nat.lt_of_lt_of_le positive (keeps w i).1, (keeps w i).2⟩
  refine ⟨fun i img found => ?_, fun i img found w => ?_, fun w i on => ?_,
    fun i img found pers w => ?_, fun i img asked found => ?_⟩
  · exact good.sound i img (images ▸ found)
  · rw [same]
    exact good.users i img (images ▸ found) w
  · rw [images]
    exact good.there w i ((same w i).mp on)
  · exact (keeps w i).1.trans (good.single i img (images ▸ found) pers w)
  · exact good.rmSent i img (sent ▸ asked) (images ▸ found)

theorem Good.setVm (good : s.Good) (is : s.vms vmId = some v) (keeps : ∀ i, v.Keeps v' i) :
    (s.setVm vmId v').Good := by
  refine good.keep rfl rfl fun w i => ?_
  rw [refs_setVm]
  split
  · rename_i same
    rw [same, refs_of_vm is]
    exact keeps i
  · exact ⟨Nat.le_refl _, id⟩

/-- An operation on one image that keeps its VMs and its persistent use. -/
theorem Good.setImage (good : s.Good) (found : s.images iid = some img) (sound : img'.Sound)
    (running : img'.running.ids = img.running.ids)
    (single : img'.state = .usedPers → img.state = .usedPers)
    (deleted : img.state = .delete → img'.state = .delete) :
    (s.setImage iid (some img')).Good := by
  refine ⟨fun i after there => ?_, fun i after there v => ?_, fun v i on => ?_,
    fun i after there pers => ?_, fun i after sent there => ?_⟩
  · rcases setImage_cases there with ⟨_, new⟩ | ⟨_, before⟩
    · cases new
      exact sound
    · exact good.sound i after before
  · rcases setImage_cases there with ⟨same, new⟩ | ⟨_, before⟩
    · cases new
      rw [running, same]
      exact good.users iid img found v
    · exact good.users i after before v
  · exact exists_setImage (good.there v i on)
  · rcases setImage_cases there with ⟨same, new⟩ | ⟨_, before⟩
    · cases new
      rw [same]
      exact good.single iid img found (single pers)
    · exact good.single i after before pers
  · rcases setImage_cases there with ⟨same, new⟩ | ⟨_, before⟩
    · cases new
      rw [same] at sent
      exact deleted (good.rmSent iid img sent found)
    · exact good.rmSent i after sent before

/-! ## The calls -/

/-- A VM is on an image once more. -/
theorem Good.acquire (good : s.Good) (is : s.vms vmId = some v) (found : s.images iid = some img)
    (acquired : acquireImage vmId img = .ok img')
    (once : ∀ i, v'.refs i ≤ v.refs i + (if i = iid then 1 else 0) ∧
      (0 < v'.refs i ↔ 0 < v.refs i ∨ i = iid)) :
    ((s.setImage iid (some img')).setVm vmId v').Good := by
  have sound := good.sound iid img found
  have sound' := acquireImage_sound sound acquired
  obtain ⟨_, cases⟩ := acquireImage_cases acquired
  have running : img'.running = img.running.add vmId := by
    rcases cases with ⟨_, rfl⟩ | ⟨_, rfl⟩ <;> rfl
  have view : ∀ w i, ((s.setImage iid (some img')).setVm vmId v').refs w i =
      if w = vmId then v'.refs i else s.refs w i := refs_setVm
  have has : ∀ w i, 0 < ((s.setImage iid (some img')).setVm vmId v').refs w i ↔
      0 < s.refs w i ∨ w = vmId ∧ i = iid := by
    intro w i
    rw [view]
    split
    · rename_i same
      rw [same, refs_of_vm is, (once i).2, and_iff_right rfl]
    · rename_i other
      rw [or_iff_left fun same => other same.1]
  refine ⟨fun i now there => ?_, fun i now there w => ?_, fun w i on => ?_,
    fun i now there pers w => ?_, fun i now sent there => ?_⟩
  · rcases setImage_cases there with ⟨_, new⟩ | ⟨_, before⟩
    · cases new
      exact sound'
    · exact good.sound i now before
  · rw [has]
    rcases setImage_cases there with ⟨same, new⟩ | ⟨other, before⟩
    · cases new
      rw [running, CountedSet.mem_add, same, and_iff_left rfl, good.users iid img found w, or_comm]
    · rw [or_iff_left fun same => other same.2]
      exact good.users i now before w
  · rcases eq_or_ne i iid with rfl | other
    · exact ⟨img', images_setImage⟩
    · exact exists_setImage (good.there w i (((has w i).mp on).resolve_right fun same =>
        other same.2))
  · rw [view]
    rcases setImage_cases there with ⟨same, new⟩ | ⟨other, before⟩
    · -- only a ready image gets into persistent use, and nobody was on it
      cases new
      have ready : img.state = .ready := by
        rcases cases with ⟨ready, _⟩ | ⟨used, rfl⟩
        · exact ready
        · rw [used] at pers
          cases pers
      have empty := (sound.empty_of_idle (by simp [ready, Image.Idle])).1
      have unused : ∀ w, s.refs w iid = 0 := fun w => by
        refine Nat.eq_zero_of_not_pos fun on => ?_
        have member := (good.users iid img found w).mpr on
        rw [empty] at member
        exact Finset.notMem_empty w member
      rw [same]
      split
      · have most := (once iid).1
        rwa [if_pos rfl, ← refs_of_vm is, unused, Nat.zero_add] at most
      · rw [unused]
        exact Nat.zero_le 1
    · have old := good.single i now before pers w
      split
      · rename_i own
        rw [own, refs_of_vm is] at old
        have most := (once i).1
        rw [if_neg other] at most
        exact most.trans old
      · exact old
  · rcases setImage_cases there with ⟨same, new⟩ | ⟨_, before⟩
    · rw [same] at sent
      have deleted := good.rmSent iid img sent found
      rcases cases with ⟨no, _⟩ | ⟨no, _⟩ <;> rw [no] at deleted <;> cases deleted
    · exact good.rmSent i now sent before

/-- A call of `release_image` after which the VM is not on the image. -/
theorem Good.release {iid? : Option Nat} (failed : Bool) (good : s.Good) (is : s.vms vmId = some v)
    (call : ∀ i, v'.refs i ≤ v.refs i ∧ (iid? ≠ some i → 0 < v.refs i → 0 < v'.refs i))
    (proper : ∀ iid, iid? = some iid → v'.refs iid = 0 ∧
      (v.refs iid = 0 → ∀ img, s.images iid = some img → img.state ≠ .usedPers)) :
    ((s.setVm vmId v').releaseId vmId iid? failed).Good := by
  -- a VM that was not on the image is on the others as before
  have foreign (unused : ∀ iid, iid? = some iid → v.refs iid = 0) : (s.setVm vmId v').Good := by
    refine good.setVm is fun i => ⟨(call i).1, fun on => (call i).2 (fun same => ?_) on⟩
    rw [unused i same] at on
    exact Nat.lt_irrefl 0 on
  cases iid? with
  | none => exact foreign nofun
  | some iid =>
    obtain ⟨off, notPers⟩ := proper iid rfl
    have refs := refs_of_vm is iid
    have view : (s.setVm vmId v').images iid = s.images iid := rfl
    dsimp only [releaseId, onImage]
    rw [view]
    cases found : s.images iid with
    | none =>
      refine foreign fun i same => Nat.eq_zero_of_not_pos fun on => ?_
      cases same
      obtain ⟨img, there⟩ := good.there vmId iid (refs ▸ on)
      rw [found] at there
      cases there
    | some img =>
      have sound := good.sound iid img found
      have member := good.users iid img found vmId
      rw [refs] at member
      dsimp only
      rcases Nat.eq_zero_or_pos (v.refs iid) with unused | on
      · have absent : vmId ∉ img.running.ids := fun there =>
          absurd (member.mp there) (by rw [unused]; exact Nat.lt_irrefl 0)
        obtain ⟨sound', running, state⟩ :=
          @releaseImage_foreign _ _ failed sound absent (notPers unused img found)
        refine (foreign fun i same => by cases same; exact unused).setImage
          (view.trans found) sound' running (fun pers => ?_) fun deleted => ?_
        · rcases state with same | ⟨_, idle⟩
          · rw [← same, pers]
          · exact absurd pers idle.2.1
        · rcases state with same | ⟨locked, _⟩
          · rw [same, deleted]
          · rw [locked] at deleted
            cases deleted
      · have own : vmId ∈ img.running.ids := member.mpr on
        have disk := sound.disk (.inl ⟨vmId, own⟩)
        obtain ⟨sound', running⟩ := @releaseImage_own _ _ failed sound own
        have state := sound.running ⟨vmId, own⟩
        have released : (releaseImage vmId failed img).state ≠ .usedPers := by
          rcases state with used | used
          · rw [releaseImage_used disk used]
            dsimp only
            split <;> simp
          · rw [releaseImage_usedPers disk used]
            cases failed <;> simp
        have now : ∀ w i, ((s.setVm vmId v').setImage iid
            (some (releaseImage vmId failed img))).refs w i =
              if w = vmId then v'.refs i else s.refs w i := refs_setVm
        have others : ∀ w i, (w, i) ≠ (vmId, iid) →
            ((if w = vmId then v'.refs i else s.refs w i) ≤ s.refs w i ∧
              (0 < (if w = vmId then v'.refs i else s.refs w i) ↔ 0 < s.refs w i)) := by
          intro w i other
          split
          · rename_i same
            rw [same] at other ⊢
            rw [refs_of_vm is]
            have apart : some iid ≠ some i := fun eq => other (by cases eq; rfl)
            exact ⟨(call i).1, fun after => Nat.lt_of_lt_of_le after (call i).1, (call i).2 apart⟩
          · exact ⟨Nat.le_refl _, Iff.rfl⟩
        refine ⟨fun i after there => ?_, fun i after there w => ?_, fun w i stays => ?_,
          fun i after there pers w => ?_, fun i after sent there => ?_⟩
        · rcases setImage_cases there with ⟨_, new⟩ | ⟨_, before⟩
          · cases new
            exact sound'
          · exact good.sound i after before
        · rw [now]
          rcases setImage_cases there with ⟨same, new⟩ | ⟨other, before⟩
          · cases new
            rw [running, CountedSet.mem_del, same, good.users iid img found w]
            by_cases mine : w = vmId
            · rw [if_pos mine, off]
              exact iff_of_false (fun both => both.1 mine) (Nat.lt_irrefl 0)
            · rw [if_neg mine]
              exact and_iff_right mine
          · rw [(others w i fun same => other (congrArg Prod.snd same)).2]
            exact good.users i after before w
        · refine exists_setImage (good.there w i ?_)
          rw [now] at stays
          by_cases same : (w, i) = (vmId, iid)
          · cases same
            rw [if_pos rfl, off] at stays
            exact absurd stays (Nat.lt_irrefl 0)
          · exact (others w i same).2.mp stays
        · rcases setImage_cases there with ⟨_, new⟩ | ⟨other, before⟩
          · cases new
            exact absurd pers released
          · rw [now]
            exact (others w i fun same => other (congrArg Prod.snd same)).1.trans
              (good.single i after before pers w)
        · rcases setImage_cases there with ⟨same, new⟩ | ⟨_, before⟩
          · rw [same] at sent
            have deleted := good.rmSent iid img sent found
            rcases state with no | no <;> rw [no] at deleted <;> cases deleted
          · exact good.rmSent i after sent before

/-- An image that no VM uses is dropped. -/
theorem Good.dropImage (good : s.Good) (unused : ∀ img, s.images iid = some img →
    img.running.ids = ∅) : (s.setImage iid none).Good := by
  have old : ∀ i now, (s.setImage iid none).images i = some now → s.images i = some now :=
    fun i now there => by
      rcases setImage_cases there with ⟨_, no⟩ | ⟨_, before⟩
      · cases no
      · exact before
  refine ⟨fun i now there => good.sound i now (old i now there),
    fun i now there => good.users i now (old i now there), fun v i is => ?_,
    fun i now there => good.single i now (old i now there),
    fun i now sent there => good.rmSent i now sent (old i now there)⟩
  obtain ⟨img, found⟩ := good.there v i is
  rcases eq_or_ne i iid with rfl | other
  · have member := (good.users i img found v).mpr is
    rw [unused img found] at member
    exact absurd member (Finset.notMem_empty v)
  · refine ⟨img, ?_⟩
    rw [← found]
    exact Function.update_of_ne other _ s.images

/-- An operation on one image that may fail and keeps its VMs. -/
theorem Good.onImage {op : Image → Except ImageError Image} (good : s.Good)
    (keeps : ∀ img img', s.images iid = some img → op img = .ok img' → img'.Sound ∧
      img'.running = img.running ∧ (img'.state = .usedPers → img.state = .usedPers) ∧
      (img.state = .delete → img'.state = .delete)) : (s.onImage iid op).Good := by
  unfold UsageState.onImage
  cases found : s.images iid with
  | none => exact good
  | some img =>
    cases done : op img with
    | error _ => simpa only [done] using good
    | ok img' =>
      obtain ⟨sound, running, single, deleted⟩ := keeps img img' found done
      simpa only [done] using good.setImage found sound (by rw [running]) single deleted

/-! ## Steps and runs -/

/-- Every section in the right place keeps the invariant. -/
theorem Good.step {l : UsageLabel} (good : s.Good) (proper : s.Proper l) (taken : s.Step l s') :
    s'.Good := by
  unfold Step at taken
  cases l with
  | create vmId imageId =>
    unfold UsageState.step at taken
    simp only at taken
    split at taken
    · rename_i free
      cases taken
      refine good.keep rfl rfl fun w i => ?_
      rw [refs_setVm]
      split
      · rename_i same
        have none : s.refs vmId i = 0 := by
          unfold refs
          cases is : s.vms vmId with
          | none => rfl
          | some v =>
            rw [is, Option.all_some, decide_eq_true_iff] at free
            rw [Option.elim_some, UsageVm.refs, UsageVm.disksOn, free.1, free.2]
            rfl
        rw [same, none]
        exact ⟨Nat.le_refl 0, id⟩
      · exact ⟨Nat.le_refl _, id⟩
    · cases taken
  | vm vmId l =>
    obtain ⟨v, is, taken⟩ := Option.bind_eq_some_iff.mp taken
    obtain ⟨v', next, rfl⟩ := Option.map_eq_some_iff.mp taken
    refine good.setVm is fun i => UsageVm.keeps_next next fun k added => ?_
    rw [added] at proper
    exact proper v is
  | acquire vmId iid how =>
    obtain ⟨v, is, taken⟩ := Option.bind_eq_some_iff.mp taken
    have refused {s' : UsageState} (taken : (v.refused how).map (s.setVm vmId) = some s') :
        s'.Good := by
      obtain ⟨v', refused, rfl⟩ := Option.map_eq_some_iff.mp taken
      exact good.setVm is fun i => UsageVm.keeps_refused refused
    unfold UsageState.acquire at taken
    split at taken
    · rename_i img found
      split at taken
      · rename_i img' acquired
        obtain ⟨v', next, rfl⟩ := Option.map_eq_some_iff.mp taken
        exact good.acquire is found acquired fun i => UsageVm.refs_acquired next
      · exact refused taken
    · exact refused taken
  | release vmId i =>
    obtain ⟨v, is, taken⟩ := Option.bind_eq_some_iff.mp taken
    obtain ⟨⟨failed, call, v'⟩, next, rfl⟩ := Option.map_eq_some_iff.mp taken
    exact good.release failed is (fun j => UsageVm.refs_takeCall next) fun iid same =>
      proper v failed call v' iid is next same
  | enable iid toEnable =>
    cases taken
    refine good.onImage fun img img' found enabled => ?_
    have sound := enableImage_sound (good.sound iid img found) enabled
    obtain ⟨before, state, after, rfl⟩ := enableImage_cases enabled
    refine ⟨sound, rfl, fun pers => ?_, fun deleted => ?_⟩
    · rcases after with is | is <;> rw [is] at pers <;> cases pers
    · rcases before with is | is | is <;> rw [is] at deleted <;> cases deleted
  | persistent iid persis =>
    cases taken
    refine good.onImage fun img img' found done => ?_
    have sound := persistent_sound (good.sound iid img found) done
    obtain ⟨_, rfl⟩ := Image.persistent_cases done
    exact ⟨sound, rfl, id, id⟩
  | delete iid driver db =>
    unfold UsageState.step at taken
    simp only at taken
    split at taken
    · rename_i img found
      have sound := good.sound iid img found
      split at taken
      · rename_i deleted
        cases taken
        obtain ⟨idle, _⟩ := deleteImage_cases deleted
        split
        · refine good.dropImage fun img' found' => ?_
          rw [found] at found'
          cases found'
          exact (sound.empty_of_idle idle).1
        · exact good
      · rename_i img' _ deleted
        cases taken
        have sound' := deleteImage_sound sound deleted
        obtain ⟨_, _, no | removing⟩ := deleteImage_cases deleted
        · cases no
        · cases removing
          have next := good.setImage found sound' rfl (fun pers => by cases pers) fun _ => rfl
          refine { next with rmSent := fun i now sent there => ?_ }
          rcases List.mem_cons.mp sent with same | before
          · rw [same] at there
            have is := images_setImage.symm.trans there
            cases is
            rfl
          · exact next.rmSent i now before there
      · cases taken
        exact good
    · cases taken
  | rmAnswer iid db =>
    unfold UsageState.step at taken
    simp only at taken
    split at taken
    · rename_i sent
      cases taken
      split
      · have next : (s.setImage iid none).Good := good.dropImage fun img found =>
          ((good.sound iid img found).empty_of_idle
            (by simp [good.rmSent iid img sent found, Image.Idle])).1
        exact { next with
          rmSent := fun i now sent => next.rmSent i now (List.mem_of_mem_erase sent) }
      · exact { good with
          rmSent := fun i now sent => good.rmSent i now (List.mem_of_mem_erase sent) }
    · cases taken
  | clone iid newId =>
    unfold UsageState.step at taken
    simp only at taken
    split at taken
    · rename_i disk
      cases taken
      refine good.onImage fun img img' found started => ?_
      rw [found, Option.any_some] at disk
      have sound := startCloning_sound (good.sound iid img found) disk started
      rcases startCloning_cases started with ⟨state, rfl⟩ | ⟨state, rfl⟩
      · refine ⟨sound, rfl, fun pers => ?_, fun deleted => ?_⟩
        · cases persistent : img.persistentImg <;> simp [persistent] at pers
        · rw [state] at deleted
          cases deleted
      · exact ⟨sound, rfl, id, id⟩
    · cases taken
  | cloneEnd iid newId =>
    cases taken
    refine good.onImage fun img img' found released => ?_
    cases released
    have sound := @releaseCloningImage_sound _ newId (good.sound iid img found)
    refine ⟨sound, ?_⟩
    rcases releaseCloningImage_cases with same | ⟨state, now⟩
    · rw [same]
      exact ⟨rfl, id, id⟩
    · rw [now]
      refine ⟨rfl, fun pers => ?_, fun deleted => ?_⟩
      · dsimp only at pers
        split at pers
        · cases pers
        · exact pers
      · rcases state with is | is <;> rw [is] at deleted <;> cases deleted

theorem Initial.good (initial : s.Initial) : s.Good := by
  have off : ∀ w i, s.refs w i = 0 := fun w i => by
    rw [refs, initial.noVm]
    rfl
  refine ⟨initial.sound, fun i img found w => ?_, fun w i on => ?_, fun i img _ _ w => ?_,
    fun i img sent => ?_⟩
  · rw [initial.unused i img found, off]
    exact iff_of_false (Finset.notMem_empty w) (Nat.lt_irrefl 0)
  · rw [off] at on
    exact absurd on (Nat.lt_irrefl 0)
  · rw [off]
    exact Nat.zero_le 1
  · rw [initial.nothingSent] at sent
    exact absurd sent List.not_mem_nil

theorem refs_pos_iff (w i : Nat) :
    0 < s.refs w i ↔ ∃ v, s.vms w = some v ∧ (v.HasDisk i ∨ v.UnderWay i) := by
  unfold refs
  cases is : s.vms w with
  | none => simp
  | some v => simp [UsageVm.refs_pos_iff]

theorem Good.usageExact (good : s.Good) : s.UsageExact := by
  have on {w i : Nat} {v : UsageVm} (is : s.vms w = some v) (has : v.HasDisk i) :
      0 < s.refs w i := (refs_pos_iff w i).mpr ⟨v, is, .inl has⟩
  have used {w i : Nat} {v : UsageVm} {img : Image} (is : s.vms w = some v) (has : v.HasDisk i)
      (found : s.images i = some img) : img.state = .used ∨ img.state = .usedPers :=
    (good.sound i img found).running ⟨w, (good.users i img found w).mpr (on is has)⟩
  refine ⟨fun w v i is has => ?_, fun i img found => ?_,
    fun i img found pers w v w' v' is is' has has' => ?_⟩
  · obtain ⟨img, found⟩ := good.there w i (on is has)
    have state := used is has found
    refine ⟨img, found, state, fun driver => ⟨.inUse img.running.count, ?_⟩⟩
    unfold deleteImage
    rcases state with state | state <;> rw [state]
  · have ids : ({w | ∃ v, s.vms w = some v ∧ (v.HasDisk i ∨ v.UnderWay i)} : Set Nat) =
        img.running.ids := by
      ext w
      exact ((refs_pos_iff w i).symm.trans (good.users i img found w).symm)
    rw [ids, Set.ncard_coe_finset]
    exact img.running.exact
  · rcases used is has found with state | state
    · rw [((good.sound i img found).used state).1] at pers
      cases pers
    · obtain ⟨_, vm, only⟩ := (good.sound i img found).usedPers state
      have one := (good.users i img found w).mpr (on is has)
      have other := (good.users i img found w').mpr (on is' has')
      rw [only, Finset.mem_singleton] at one other
      refine ⟨one.trans other.symm, Nat.le_antisymm ?_ ?_⟩
      · obtain ⟨live, here, _⟩ := has
        have most := good.single i img found state w
        rw [refs_of_vm is] at most
        exact (UsageVm.countP_le_refs here).trans most
      · obtain ⟨_, _, disks⟩ := has
        exact UsageVm.countP_isOn_pos.mpr disks

/-- Where nothing is under way, the counter is that of the VMs with a disk. -/
theorem UsageExact.countsDisks (usage : s.UsageExact)
    (quiet : ∀ w v, s.vms w = some v → ¬ v.UnderWay iid) : s.CountsDisks iid := by
  intro img found
  rw [usage.running iid img found]
  refine congrArg (fun ws : Set Nat => (ws.ncard : Int)) (Set.ext fun w => ?_)
  refine exists_congr fun v => and_congr_right fun is => ?_
  exact or_iff_left (quiet w v is)

/-- The states in which every section was in the right place. -/
abbrev Reached : UsageState → Prop := Reachable Initial (Guarded Proper Step)

/-- A pool with one image that is ready, and no VM. -/
def onePool : UsageState where
  images iid := if iid = 0 then
      some ⟨.os, .ready, false, ∅, ∅, none, "/var/lib/one/datastores/1/0", false, false⟩
    else none
  vms _ := none
  rmSent := []

theorem onePool_initial : onePool.Initial := by
  have only : ∀ iid img, onePool.images iid = some img →
      img = ⟨.os, .ready, false, ∅, ∅, none, "/var/lib/one/datastores/1/0", false, false⟩ := by
    intro iid img found
    simp only [onePool] at found
    split at found <;> cases found
    rfl
  refine ⟨fun iid img found => ?_, fun iid img found => ?_, fun _ => rfl, rfl⟩
  · rw [only iid img found]
    exact Image.sound_of_idle rfl rfl ⟨by decide, by decide, by decide⟩
  · rw [only iid img found]
    rfl

/-- The state of the image, and the VM, after some sections. -/
def imageAndVm (labels : List UsageLabel) : Option (Option ImageState × Option UsageVm) :=
  (labels.foldlM step onePool).map fun s => ((s.images 0).map Image.state, s.vms 7)

/-- A VM has two disks on an image and one is detached: the other one is on an image that is
ready. -/
example : imageAndVm [.create 7 none, .acquire 7 0 (.create 0 none .ok),
    .acquire 7 0 (.create 1 none .ok), .vm 7 (.insert true), .vm 7 (.move .running false),
    .vm 7 (.detach 0), .vm 7 .attachFailure, .release 7 0, .vm 7 (.finish 0)] =
      some (some .ready, some ⟨.live .running, [⟨1, some 0, none, false⟩], []⟩) := by
  decide +kernel

/-- An attach adds its disk to a VM that was deleted, and nobody releases the image. -/
example : imageAndVm [.create 7 none, .vm 7 (.insert true), .vm 7 (.move .running false),
    .vm 7 (.attach 0), .acquire 7 0 (.attach 0 none true), .vm 7 (.move .other true),
    .vm 7 .delete, .vm 7 (.finish 1), .vm 7 (.add 0)] =
      some (some .used, some ⟨.done, [⟨0, some 0, none, true⟩], []⟩) := by
  decide +kernel

end UsageState

end Ezilla
