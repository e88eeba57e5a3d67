import Ezilla.Image.Image

/-!
# The image manager

The operations of the image manager on one image, each under the lock of that image. What
an operation does to the pool (an image is dropped, a message goes to the driver) is in its
result.

* `acquireImage`, `releaseImage`: a disk of a VM uses the image;
* `startCloning`, `releaseCloningImage`: another image is cloned from it;
* `enableImage`, `deleteImage`: the requests of users.

Each has a lemma with everything it can do, and the lemmas that it keeps the image sound.
-/

namespace Ezilla

/-- What `ImageManager::delete_image` leaves behind. -/
inductive Deleted where
  /-- the image had no source and is dropped from the pool -/
  | dropped
  /-- the driver was asked to remove the source -/
  | removing (img : Image)

namespace ImageManager

/-- `ImageManager::acquire_image`. -/
def acquireImage (vmId : Nat) (img : Image) : Except ImageError Image :=
  if !img.type.isDisk then
    .error (.notDisk img.type)
  else
    match img.state with
    | .ready =>
      .ok { img with
        running := img.running.add vmId
        state := if img.persistentImg then .usedPers else .used }
    | .usedPers => .error .persistentInUse
    | .used => .ok { img with running := img.running.add vmId }
    | .init | .disabled | .locked | .error | .delete | .clone => .error (.acquireState img.state)

/-- `ImageManager::release_image`. In a wrong state it only logs. -/
def releaseImage (vmId : Nat) (failed : Bool) (img : Image) : Image :=
  if !img.type.isDisk then
    img
  else
    match img.state with
    | .usedPers =>
      { img with
        running := img.running.del vmId
        state := if failed then .error else .ready }
    | .used =>
      let running := img.running.del vmId
      { img with
        running
        state := if running.count = 0 ∧ img.cloning.count = 0 then .ready else .used }
    | .locked =>
      if img.saving then { img with state := if failed then .error else .ready } else img
    | .clone | .delete | .init | .disabled | .ready | .error => img

/-- `ImageManager::release_cloning_image`. -/
def releaseCloningImage (cloneImgId : Nat) (img : Image) : Image :=
  if !img.type.isDisk then
    img
  else
    match img.state with
    | .used | .clone =>
      let cloning := img.cloning.del cloneImgId
      { img with
        cloning
        state := if cloning.count = 0 ∧ img.running.count = 0 then .ready else img.state }
    | .delete | .init | .disabled | .ready | .error | .usedPers | .locked => img

/-- `ImageManager::enable_image`. -/
def enableImage (toEnable : Bool) (img : Image) : Except ImageError Image :=
  if toEnable then
    match img.state with
    | .disabled | .error => .ok { img with state := .ready }
    | .ready => .ok img
    | _ => .error (.badState img.state)
  else
    match img.state with
    | .ready | .error => .ok { img with state := .disabled }
    | .disabled => .ok img
    | _ => .error (.badState img.state)

/-- The part of `ImageManager::delete_image` that asks the driver to remove the source. An
image without a source is dropped at once. -/
def removeSource (driver : Bool) (cloningId : Option Nat) (img : Image) :
    Except ImageError (Deleted × Option Nat) :=
  if !driver then .error .noDriver
  else if img.source = "" then .ok (.dropped, cloningId)
  else .ok (.removing { img with state := .delete, cloningId := none }, cloningId)

/-- `ImageManager::delete_image` up to its last step: the image is dropped or marked, and
the id of the image it is cloned from, whose count is released afterwards, is given back.
`driver` is whether the driver is loaded. -/
def deleteImage (driver : Bool) (img : Image) : Except ImageError (Deleted × Option Nat) :=
  match img.state with
  | .ready =>
    if img.running.count ≠ 0 then .error (.inUse img.running.count)
    else removeSource driver none img
  | .clone => .error (.cloning img.cloning.count)
  | .used | .usedPers => .error (.inUse img.running.count)
  | .init | .disabled | .error | .delete => removeSource driver none img
  | .locked => removeSource driver img.cloningId img

/-- `ImageManager::can_clone_image` on an image that exists. -/
def canCloneImage (img : Image) : Except ImageError Unit :=
  match img.state with
  | .usedPers | .init | .disabled | .error | .delete | .locked => .error (.cloneState img.state)
  | .clone | .ready | .used => .ok ()

/-- The first part of `ImageManager::clone_image`, on the image that is cloned. -/
def startCloning (newId : Nat) (img : Image) : Except ImageError Image :=
  match img.state with
  | .ready =>
    .ok { img with
      cloning := img.cloning.add newId
      state := if img.persistentImg then .clone else .used }
  | .used | .clone => .ok { img with cloning := img.cloning.add newId }
  | .usedPers | .init | .disabled | .error | .delete | .locked => .error (.cloneState img.state)

/-- `clone_action`, the answer of the driver, on the new image if it still exists. The
source that a successful answer names is `some`. -/
def cloneAction (source? : Option String) (img : Image) : Image :=
  match source? with
  | some source => { img with source, state := .ready, cloningId := none }
  | none => { img with state := .error, cloningId := none }

/-! ## What the operations do -/

variable {img img' : Image} {vmId newId : Nat}

theorem acquireImage_cases (acquired : acquireImage vmId img = .ok img') :
    img.type.isDisk = true ∧
      ((img.state = .ready ∧ img' = { img with
          running := img.running.add vmId
          state := if img.persistentImg then .usedPers else .used }) ∨
        (img.state = .used ∧ img' = { img with running := img.running.add vmId })) := by
  unfold acquireImage at acquired
  split at acquired
  · cases acquired
  · rename_i disk
    refine ⟨by simpa using disk, ?_⟩
    split at acquired
    · rename_i state
      cases acquired
      exact .inl ⟨state, rfl⟩
    · cases acquired
    · rename_i state
      cases acquired
      exact .inr ⟨state, rfl⟩
    all_goals cases acquired

theorem startCloning_cases (started : startCloning newId img = .ok img') :
    (img.state = .ready ∧ img' = { img with
        cloning := img.cloning.add newId
        state := if img.persistentImg then .clone else .used }) ∨
      ((img.state = .used ∨ img.state = .clone) ∧
        img' = { img with cloning := img.cloning.add newId }) := by
  unfold startCloning at started
  split at started <;> rename_i state <;> cases started
  · exact .inl ⟨state, rfl⟩
  · exact .inr ⟨.inl state, rfl⟩
  · exact .inr ⟨.inr state, rfl⟩

theorem removeSource_cases {driver : Bool} {cloningId : Option Nat}
    {out : Deleted × Option Nat} (removed : removeSource driver cloningId img = .ok out) :
    out.2 = cloningId ∧
      (out.1 = .dropped ∨ out.1 = .removing { img with state := .delete, cloningId := none }) := by
  unfold removeSource at removed
  split at removed
  · cases removed
  · split at removed <;> cases removed
    · exact ⟨rfl, .inl rfl⟩
    · exact ⟨rfl, .inr rfl⟩

/-- A used image is not deleted, and only a locked one was being cloned. -/
theorem deleteImage_cases {driver : Bool} {out : Deleted × Option Nat}
    (deleted : deleteImage driver img = .ok out) :
    Image.Idle img.state ∧ out.2 = (if img.state = .locked then img.cloningId else none) ∧
      (out.1 = .dropped ∨ out.1 = .removing { img with state := .delete, cloningId := none }) := by
  unfold deleteImage at deleted
  unfold Image.Idle
  cases state : img.state <;> simp only [state] at deleted
  case ready =>
    split at deleted
    · cases deleted
    · exact ⟨by decide, removeSource_cases deleted⟩
  case locked => exact ⟨by decide, removeSource_cases deleted⟩
  case init => exact ⟨by decide, removeSource_cases deleted⟩
  case disabled => exact ⟨by decide, removeSource_cases deleted⟩
  case error => exact ⟨by decide, removeSource_cases deleted⟩
  case delete => exact ⟨by decide, removeSource_cases deleted⟩
  all_goals cases deleted

theorem enableImage_cases {toEnable : Bool} (enabled : enableImage toEnable img = .ok img') :
    (img.state = .ready ∨ img.state = .disabled ∨ img.state = .error) ∧
      ∃ state, (state = .ready ∨ state = .disabled) ∧ img' = { img with state } := by
  unfold enableImage at enabled
  split at enabled <;> split at enabled <;> cases enabled <;> rename_i state
  · exact ⟨.inr (.inl state), .ready, .inl rfl, rfl⟩
  · exact ⟨.inr (.inr state), .ready, .inl rfl, rfl⟩
  · exact ⟨.inl state, .ready, .inl rfl, by rw [← state]⟩
  · exact ⟨.inl state, .disabled, .inr rfl, rfl⟩
  · exact ⟨.inr (.inr state), .disabled, .inr rfl, rfl⟩
  · exact ⟨.inr (.inl state), .disabled, .inr rfl, by rw [← state]⟩

theorem releaseImage_used {failed : Bool} (disk : img.type.isDisk = true)
    (state : img.state = .used) : releaseImage vmId failed img = { img with
      running := img.running.del vmId
      state := if (img.running.del vmId).count = 0 ∧ img.cloning.count = 0 then .ready
        else .used } := by
  simp only [releaseImage, disk, state, Bool.not_true, Bool.false_eq_true, if_false]

theorem releaseImage_usedPers {failed : Bool} (disk : img.type.isDisk = true)
    (state : img.state = .usedPers) : releaseImage vmId failed img = { img with
      running := img.running.del vmId
      state := if failed then .error else .ready } := by
  simp only [releaseImage, disk, state, Bool.not_true, Bool.false_eq_true, if_false]

theorem releaseCloningImage_cases :
    releaseCloningImage newId img = img ∨
      (img.state = .used ∨ img.state = .clone) ∧ releaseCloningImage newId img = { img with
        cloning := img.cloning.del newId
        state := if (img.cloning.del newId).count = 0 ∧ img.running.count = 0 then .ready
          else img.state } := by
  unfold releaseCloningImage
  split
  · exact .inl rfl
  · cases state : img.state
    case used => exact .inr ⟨.inl rfl, rfl⟩
    case clone => exact .inr ⟨.inr rfl, rfl⟩
    all_goals exact .inl rfl

/-! ## Images stay sound -/

theorem acquireImage_sound (sound : img.Sound) (acquired : acquireImage vmId img = .ok img') :
    img'.Sound := by
  obtain ⟨disk, ⟨state, rfl⟩ | ⟨state, rfl⟩⟩ := acquireImage_cases acquired
  · -- a ready image had no users, so it now has the one VM
    obtain ⟨noVm, noClone⟩ := sound.empty_of_idle (by simp [state, Image.Idle])
    cases img.persistentImg with
    | true =>
      exact ⟨by simp, by simp [noClone], by simp, fun _ => ⟨rfl, vmId, by simp [noVm]⟩,
        by simp, fun _ => disk⟩
    | false =>
      exact ⟨by simp, by simp [noClone], fun _ => ⟨rfl, by simp⟩, by simp, by simp,
        fun _ => disk⟩
  · have before := sound.used state
    exact ⟨by simp [state], fun some => sound.cloning some, fun _ => ⟨before.1, .inl (by simp)⟩,
      by simp [state], by simp [state], fun _ => disk⟩

theorem startCloning_sound (sound : img.Sound) (disk : img.type.isDisk = true)
    (started : startCloning newId img = .ok img') : img'.Sound := by
  rcases startCloning_cases started with ⟨state, rfl⟩ | ⟨state, rfl⟩
  · obtain ⟨noVm, noClone⟩ := sound.empty_of_idle (by simp [state, Image.Idle])
    cases img.persistentImg with
    | true =>
      exact ⟨by simp [noVm], by simp, by simp, by simp, fun _ => ⟨rfl, by simp⟩,
        fun _ => disk⟩
    | false =>
      exact ⟨by simp [noVm], by simp, fun _ => ⟨rfl, by simp⟩, by simp, by simp,
        fun _ => disk⟩
  · refine ⟨fun some => sound.running some, fun _ => state, fun used => ?_, fun pers => ?_,
      fun clone => ?_, fun _ => disk⟩
    · exact ⟨(sound.used used).1, .inr (by simp)⟩
    · rcases state with is | is <;> rw [is] at pers <;> cases pers
    · exact ⟨(sound.clone clone).1, by simp⟩

/-- A VM that uses the image releases it. -/
theorem releaseImage_own {failed : Bool} (sound : img.Sound) (own : vmId ∈ img.running.ids) :
    (releaseImage vmId failed img).Sound ∧
      (releaseImage vmId failed img).running = img.running.del vmId := by
  have disk := sound.disk (.inl ⟨vmId, own⟩)
  rcases sound.running ⟨vmId, own⟩ with state | state
  · rw [releaseImage_used disk state]
    refine ⟨?_, rfl⟩
    have before := sound.used state
    split
    · rename_i noUser
      rw [CountedSet.count_eq_zero_iff, CountedSet.count_eq_zero_iff] at noUser
      exact Image.sound_of_idle noUser.1 noUser.2 (by simp [Image.Idle])
    · rename_i someUser
      rw [CountedSet.count_eq_zero_iff, CountedSet.count_eq_zero_iff, not_and_or,
        ← ne_eq, ← ne_eq, ← Finset.nonempty_iff_ne_empty, ← Finset.nonempty_iff_ne_empty]
        at someUser
      exact ⟨fun _ => .inl rfl, fun _ => .inl rfl, fun _ => ⟨before.1, someUser⟩, by simp,
        by simp, fun _ => disk⟩
  · rw [releaseImage_usedPers disk state]
    refine ⟨?_, rfl⟩
    obtain ⟨_, vm, only⟩ := sound.usedPers state
    have same : vmId = vm := by rwa [only, Finset.mem_singleton] at own
    have noClone : img.cloning.ids = ∅ := sound.cloning_empty (by simp [state]) (by simp [state])
    refine Image.sound_of_idle (by simp [only, same]) noClone ?_
    cases failed <;> simp [Image.Idle]

/-- A release for a VM that does not use the image only unlocks an image that waits to be
saved, unless the image is persistent and used. -/
theorem releaseImage_foreign {failed : Bool} (sound : img.Sound) (foreign : vmId ∉ img.running.ids)
    (free : img.state ≠ .usedPers) :
    (releaseImage vmId failed img).Sound ∧
      (releaseImage vmId failed img).running.ids = img.running.ids ∧
      ((releaseImage vmId failed img).state = img.state ∨
        img.state = .locked ∧ Image.Idle (releaseImage vmId failed img).state) := by
  unfold releaseImage
  split
  · exact ⟨sound, rfl, .inl rfl⟩
  · rename_i disk
    rw [Bool.not_eq_true', Bool.not_eq_false] at disk
    cases state : img.state
    case usedPers => exact absurd state free
    case used =>
      have before := sound.used state
      have same : (img.running.del vmId).ids = img.running.ids := by simp [foreign]
      have users : ¬ ((img.running.del vmId).count = 0 ∧ img.cloning.count = 0) := by
        rw [CountedSet.count_eq_zero_iff, CountedSet.count_eq_zero_iff, same]
        rintro ⟨noVm, noClone⟩
        rcases before.2 with some | some
        · exact some.ne_empty noVm
        · exact some.ne_empty noClone
      simp only [if_neg users]
      exact ⟨⟨fun _ => .inl rfl, fun _ => .inl rfl, fun _ => ⟨before.1, by rw [same]; exact before.2⟩,
        by simp, by simp, fun _ => disk⟩, same, .inl trivial⟩
    case locked =>
      simp only
      split
      · have idle : Image.Idle img.state := by simp [state, Image.Idle]
        have idle' : Image.Idle (if failed then ImageState.error else .ready) := by
          cases failed <;> simp [Image.Idle]
        exact ⟨sound.move idle idle' rfl rfl, rfl, .inr ⟨trivial, idle'⟩⟩
      · exact ⟨sound, rfl, .inl state⟩
    all_goals exact ⟨sound, rfl, .inl state⟩

theorem releaseCloningImage_sound (sound : img.Sound) : (releaseCloningImage newId img).Sound := by
  rcases releaseCloningImage_cases with same | ⟨state, now⟩
  · rw [same]
    exact sound
  · rw [now]
    split
    · rename_i noUser
      rw [CountedSet.count_eq_zero_iff, CountedSet.count_eq_zero_iff] at noUser
      exact Image.sound_of_idle noUser.2 noUser.1 (by simp [Image.Idle])
    · rename_i someUser
      rw [CountedSet.count_eq_zero_iff, CountedSet.count_eq_zero_iff, not_and_or,
        ← ne_eq, ← ne_eq, ← Finset.nonempty_iff_ne_empty, ← Finset.nonempty_iff_ne_empty]
        at someUser
      have disk : img.type.isDisk = true := by
        rcases state with is | is
        · exact sound.disk (sound.used is).2
        · exact sound.disk (.inr (sound.clone is).2)
      refine ⟨fun some => sound.running some, fun _ => state, fun used => ?_, fun pers => ?_,
        fun clone => ?_, fun _ => disk⟩
      · exact ⟨(sound.used used).1, someUser.symm⟩
      · rcases state with is | is <;> simp [is] at pers
      · refine ⟨(sound.clone clone).1, someUser.resolve_right ?_⟩
        -- an image that is being cloned has no VM
        rw [Finset.not_nonempty_iff_eq_empty]
        exact sound.running_empty (by simp [show img.state = .clone from clone])
          (by simp [show img.state = .clone from clone])

theorem enableImage_sound {toEnable : Bool} (sound : img.Sound)
    (enabled : enableImage toEnable img = .ok img') : img'.Sound := by
  obtain ⟨before, state, after, rfl⟩ := enableImage_cases enabled
  refine sound.move ?_ ?_ rfl rfl
  · rcases before with is | is | is <;> simp [is, Image.Idle]
  · rcases after with is | is <;> simp [is, Image.Idle]

theorem persistent_sound {persis : Bool} (sound : img.Sound)
    (done : img.persistent persis = .ok img') : img'.Sound := by
  obtain ⟨idle, rfl⟩ := Image.persistent_cases done
  exact sound.move idle idle rfl rfl

theorem deleteImage_sound {driver : Bool} {cloningId : Option Nat} (sound : img.Sound)
    (deleted : deleteImage driver img = .ok (.removing img', cloningId)) : img'.Sound := by
  obtain ⟨idle, _, dropped | removing⟩ := deleteImage_cases deleted
  · cases dropped
  · cases removing
    exact sound.move idle (by simp [Image.Idle]) rfl rfl

theorem cloneAction_sound {source? : Option String} (sound : img.Sound)
    (idle : Image.Idle img.state) : (cloneAction source? img).Sound := by
  cases source? <;> exact sound.move idle (by simp [cloneAction, Image.Idle]) rfl rfl

/-- Releasing a clone takes it out of the set in every state that can have it there. -/
theorem releaseCloningImage_ids (sound : img.Sound) :
    (releaseCloningImage newId img).cloning.ids = img.cloning.ids.erase newId := by
  rcases img.cloning.ids.eq_empty_or_nonempty with empty | some
  · rcases releaseCloningImage_cases with same | ⟨_, now⟩
    · rw [same, empty, Finset.erase_empty]
    · rw [now, CountedSet.ids_del]
  · have disk := sound.disk (.inr some)
    unfold releaseCloningImage
    rcases sound.cloning some with state | state <;>
      simp only [disk, state, Bool.not_true, Bool.false_eq_true, if_false, CountedSet.ids_del]

end ImageManager

end Ezilla
