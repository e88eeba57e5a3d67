import Ezilla.Lib.CountedSet

/-!
# Images

The record of an image: its state, the VMs that use it and the images that are cloned from
it, each as a set of ids with its counter. The attributes that no operation of the image
manager looks at (names, sizes, permissions, the disk attributes) are left out.
-/

namespace Ezilla

/-- `Image::ImageType`. -/
inductive ImageType where
  | os
  | cdrom
  | datablock
  | kernel
  | ramdisk
  | context
  deriving DecidableEq, Repr

/-- The types of a disk; the others are files. -/
def ImageType.isDisk : ImageType → Bool
  | .os | .cdrom | .datablock => true
  | .kernel | .ramdisk | .context => false

/-- `Image::ImageState`. -/
inductive ImageState where
  | init
  | ready
  | used
  | disabled
  | locked
  | error
  | clone
  | delete
  | usedPers
  deriving DecidableEq, Repr

/-- `Image::state_to_str`, the same word for both states of a used image. -/
def ImageState.toStr : ImageState → String
  | .init => "INIT"
  | .ready => "READY"
  | .used => "USED"
  | .disabled => "DISABLED"
  | .locked => "LOCKED"
  | .error => "ERROR"
  | .clone => "CLONE"
  | .delete => "DELETE"
  | .usedPers => "USED"

/-- `Image`. `running` is `running_vms` with `vm_collection`, `cloning` is `cloning_ops`
with `img_clone_collection`. -/
structure Image where
  type : ImageType
  state : ImageState
  persistentImg : Bool
  running : CountedSet Nat
  cloning : CountedSet Nat
  /-- the image this one is cloned from, -1 in the source if there is none -/
  cloningId : Option Nat
  source : String
  /-- `isSaving`: the image will be filled by a VM that saves its disk -/
  saving : Bool
  /-- `isPublic`: group or others can use it -/
  isPublic : Bool

/-- The errors of the operations on one image. -/
inductive ImageError where
  /-- Image does not exist -/
  | notExists
  /-- Image of the type cannot be used as DISK. -/
  | notDisk (type : ImageType)
  /-- Cannot acquire image, it is persistent and already in use -/
  | persistentInUse
  /-- Cannot acquire image, it is in state: state -/
  | acquireState (state : ImageState)
  /-- Image cannot be in state state. -/
  | badState (state : ImageState)
  /-- Image cannot be public and persistent. -/
  | publicPersistent
  /-- There are n VMs using it. -/
  | inUse (vms : Int)
  /-- There are n active clone operations. -/
  | cloning (ops : Int)
  /-- Error getting ImageManagerDriver -/
  | noDriver
  /-- Cannot clone image, it does not exist -/
  | cloneNotExists
  /-- Cannot clone image in state: state -/
  | cloneState (state : ImageState)
  deriving DecidableEq, Repr

namespace Image

/-- `Image::persistent`. -/
def persistent (img : Image) (persis : Bool) : Except ImageError Image :=
  match img.state with
  | .used | .clone | .usedPers => .error (.badState img.state)
  | .init | .ready | .disabled | .locked | .error | .delete =>
    if persis && img.isPublic then .error .publicPersistent
    else .ok { img with persistentImg := persis }

/-- The state of an image fits its users: only a used image has any, and an image is used
or cloned only while something uses it. -/
structure Sound (img : Image) : Prop where
  running : img.running.ids.Nonempty → img.state = .used ∨ img.state = .usedPers
  cloning : img.cloning.ids.Nonempty → img.state = .used ∨ img.state = .clone
  used : img.state = .used →
    img.persistentImg = false ∧ (img.running.ids.Nonempty ∨ img.cloning.ids.Nonempty)
  usedPers : img.state = .usedPers → img.persistentImg = true ∧ ∃ vm, img.running.ids = {vm}
  clone : img.state = .clone → img.persistentImg = true ∧ img.cloning.ids.Nonempty
  disk : img.running.ids.Nonempty ∨ img.cloning.ids.Nonempty → img.type.isDisk = true

/-- A state in which no operation uses an image. -/
def Idle (state : ImageState) : Prop := state ≠ .used ∧ state ≠ .usedPers ∧ state ≠ .clone

variable {img img' : Image}

theorem Sound.running_empty (sound : img.Sound) (used : img.state ≠ .used)
    (usedPers : img.state ≠ .usedPers) : img.running.ids = ∅ := by
  rcases img.running.ids.eq_empty_or_nonempty with empty | some
  · exact empty
  · rcases sound.running some with is | is
    · exact absurd is used
    · exact absurd is usedPers

theorem Sound.cloning_empty (sound : img.Sound) (used : img.state ≠ .used)
    (clone : img.state ≠ .clone) : img.cloning.ids = ∅ := by
  rcases img.cloning.ids.eq_empty_or_nonempty with empty | some
  · exact empty
  · rcases sound.cloning some with is | is
    · exact absurd is used
    · exact absurd is clone

/-- An image without users is sound in every state but the used ones. -/
theorem sound_of_idle (running : img.running.ids = ∅) (cloning : img.cloning.ids = ∅)
    (idle : Idle img.state) : img.Sound := by
  obtain ⟨used, usedPers, clone⟩ := idle
  refine ⟨fun some => ?_, fun some => ?_, fun is => absurd is used, fun is => absurd is usedPers,
    fun is => absurd is clone, fun some => ?_⟩
  · rw [running] at some
    exact absurd some Finset.not_nonempty_empty
  · rw [cloning] at some
    exact absurd some Finset.not_nonempty_empty
  · rw [running, cloning, or_self] at some
    exact absurd some Finset.not_nonempty_empty

/-- In an idle state an image has no users. -/
theorem Sound.empty_of_idle (sound : img.Sound) (idle : Idle img.state) :
    img.running.ids = ∅ ∧ img.cloning.ids = ∅ :=
  ⟨sound.running_empty idle.1 idle.2.1, sound.cloning_empty idle.1 idle.2.2⟩

/-- From one idle state to another one an image stays sound. -/
theorem Sound.move (sound : img.Sound) (idle : Idle img.state) (idle' : Idle img'.state)
    (running : img'.running = img.running) (cloning : img'.cloning = img.cloning) :
    img'.Sound := by
  obtain ⟨noVm, noClone⟩ := sound.empty_of_idle idle
  exact sound_of_idle (by rw [running, noVm]) (by rw [cloning, noClone]) idle'

theorem persistent_cases {persis : Bool} (done : img.persistent persis = .ok img') :
    Idle img.state ∧ img' = { img with persistentImg := persis } := by
  unfold persistent at done
  unfold Idle
  cases state : img.state <;> simp only [state] at done
  case used => cases done
  case clone => cases done
  case usedPers => cases done
  all_goals
    split at done
    · cases done
    · cases done
      exact ⟨by decide, rfl⟩

end Image

end Ezilla
