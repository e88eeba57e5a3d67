import Ezilla.Acl.AclManager
import Ezilla.Image.ImageManager
import Ezilla.Template
import Mathlib.Logic.Function.Basic

/-!
# The images that the disks of a template name

A disk names an image by `IMAGE`, with the owner in `IMAGE_UID` or `IMAGE_UNAME`, or by
`IMAGE_ID`. The image is looked up twice: `authorize_disk` asks for the right to use it,
and `disk_attribute` acquires it for a VM. Each lookup goes through the pool of users
first and the pool of images then, under two locks.

* `DiskLookup.authorizeDisk`, `DiskLookup.diskAttribute`: the two functions;
* `DiskLookup.finds`: the image that a disk names, in the pools of the lookup;
* `authorizeDisk_tokens`, `acquires_iff`: both functions in terms of it.
-/

namespace Ezilla

/-- An image in the pool. -/
structure PoolImage where
  image : Image
  /-- what `get_permissions` gives -/
  perms : PoolObjectAuth
  dsId : Nat
  /-- `TARGET` of its template, which a disk without one gets -/
  target : String

/-- The pools that a lookup reads. `byName` is the index of the image pool by name and
owner. -/
structure ImageWorld where
  users : String → Option Nat
  images : Nat → Option PoolImage
  byName : String → Int → Option Nat
  datastores : Nat → Bool
  acls : AclManager

namespace ImageWorld

/-- `ImagePool::get` with an id. -/
def get (w : ImageWorld) (oid : Int) : Option (Nat × PoolImage) :=
  if oid < 0 then none else (w.images oid.toNat).map fun img => (oid.toNat, img)

/-- `ImagePool::get` with a name and the id of an owner. -/
def getByName (w : ImageWorld) (name : String) (uid : Int) : Option (Nat × PoolImage) :=
  (w.byName name uid).bind fun oid => (w.images oid).map fun img => (oid, img)

def setImage (w : ImageWorld) (oid : Nat) (img : PoolImage) : ImageWorld :=
  { w with images := Function.update w.images oid (some img) }

/-- `ImagePool::get_disk_uid`. -/
def getDiskUid (w : ImageWorld) (disk : List (String × String)) (uid : Int) : Int :=
  let uidText := Attribute.vectorValue disk "IMAGE_UID"
  if uidText ≠ "" then (readInt uidText).getD (-1)
  else
    let uname := Attribute.vectorValue disk "IMAGE_UNAME"
    if uname ≠ "" then
      match w.users uname with
      | none => -1
      | some oid => oid
    else uid

end ImageWorld

/-- `ImagePool::get_disk_id`. -/
def getDiskId (text : String) : Int := (readInt text).getD (-1)

/-- One lookup: the disk, the user whose images are meant where the disk does not say,
and the pools at the moment when the users and when the images are read. -/
structure DiskLookup where
  disk : List (String × String)
  uid : Int
  users : ImageWorld
  pool : ImageWorld

/-- An answer that `add_auth` stores for the use of an image. -/
structure UseToken where
  oid : Nat
  allowed : Bool
  deriving DecidableEq

/-- What `disk_attribute` has done before it looks at the datastore. -/
inductive Acquired where
  | failed
  | volatile
  | image (oid : Nat) (img : PoolImage)

namespace DiskLookup

/-- `ImagePool::authorize_disk`: the disk it leaves, and what it adds to the request. -/
def authorizeDisk (l : DiskLookup) (uid gid : Oid) : List (String × String) × List UseToken :=
  let token (found : Nat × PoolImage) : List UseToken :=
    [⟨found.1, l.pool.acls.addAuth uid gid found.2.perms .use⟩]
  let source := Attribute.vectorValue l.disk "IMAGE"
  if source ≠ "" then
    let uiid := l.users.getDiskUid l.disk l.uid
    if uiid = -1 then (l.disk, [])
    else
      match l.pool.getByName source uiid with
      | none => (l.disk, [])
      | some found => (Attribute.replace l.disk "IMAGE_ID" (toString found.1), token found)
  else
    let source := Attribute.vectorValue l.disk "IMAGE_ID"
    if source ≠ "" then
      let iid := getDiskId source
      if iid = -1 then (l.disk, [])
      else
        match l.pool.get iid with
        | none => (l.disk, [])
        | some found => (l.disk, token found)
    else (l.disk, [])

/-- `ImageManager::acquire_image` on an image that was looked up. -/
def acquire (vmId : Nat) (found : Option (Nat × PoolImage)) : Acquired :=
  match found with
  | none => .failed
  | some (oid, img) =>
    match ImageManager.acquireImage vmId img.image with
    | .error _ => .failed
    | .ok image => .image oid { img with image }

/-- The first part of `ImagePool::disk_attribute`. -/
def diskAttribute (l : DiskLookup) (vmId : Nat) : Acquired :=
  let source := Attribute.vectorValue l.disk "IMAGE"
  if source ≠ "" then
    let uiid := l.users.getDiskUid l.disk l.uid
    if uiid = -1 then .failed else acquire vmId (l.pool.getByName source uiid)
  else
    let source := Attribute.vectorValue l.disk "IMAGE_ID"
    if source ≠ "" then
      let iid := getDiskId source
      if iid = -1 then .failed else acquire vmId (l.pool.get iid)
    else
      let type := (Attribute.vectorValue l.disk "TYPE").toUpper
      if type ≠ "SWAP" ∧ type ≠ "FS" then .failed else .volatile

/-! ## The image that a disk names -/

/-- The image that the disk names. -/
def finds (l : DiskLookup) : Option (Nat × PoolImage) :=
  let name := Attribute.vectorValue l.disk "IMAGE"
  let uiid := l.users.getDiskUid l.disk l.uid
  let iid := getDiskId (Attribute.vectorValue l.disk "IMAGE_ID")
  if name ≠ "" then
    if uiid = -1 then none else l.pool.getByName name uiid
  else l.pool.get iid

/-- The id that the disk is charged for: the user's own text, unless the disk names an
image that is found. -/
def chargedId (l : DiskLookup) : String :=
  if Attribute.vectorValue l.disk "IMAGE" ≠ "" then
    match l.finds with
    | none => Attribute.vectorValue l.disk "IMAGE_ID"
    | some (oid, _) => toString oid
  else Attribute.vectorValue l.disk "IMAGE_ID"

variable {l : DiskLookup} {uid gid : Oid}

theorem getDiskId_empty : getDiskId "" = -1 := by decide

theorem get_of_neg {w : ImageWorld} : w.get (-1) = none := by
  rw [ImageWorld.get, if_pos (by decide)]

/-- The tokens of a disk are those of the image that it names. -/
theorem authorizeDisk_tokens : (l.authorizeDisk uid gid).2 =
    (l.finds.map fun found =>
      (⟨found.1, l.pool.acls.addAuth uid gid found.2.perms .use⟩ : UseToken)).toList := by
  unfold authorizeDisk finds
  by_cases named : Attribute.vectorValue l.disk "IMAGE" = ""
  · by_cases given : Attribute.vectorValue l.disk "IMAGE_ID" = ""
    · simp only [named, given, ne_eq, not_true_eq_false, if_false, getDiskId_empty, get_of_neg]
      rfl
    · by_cases bad : getDiskId (Attribute.vectorValue l.disk "IMAGE_ID") = -1
      · simp only [named, given, bad, ne_eq, not_true_eq_false, not_false_eq_true, if_false, if_true,
          get_of_neg]
        rfl
      · simp only [named, given, bad, ne_eq, not_true_eq_false, not_false_eq_true, if_false, if_true]
        split <;> rename_i found <;> rw [found] <;> rfl
  · by_cases nobody : l.users.getDiskUid l.disk l.uid = -1
    · simp only [named, nobody, ne_eq, not_false_eq_true, if_true]
      rfl
    · simp only [named, nobody, ne_eq, not_false_eq_true, if_true, if_false]
      split <;> rename_i found <;> rw [found] <;> rfl

/-- The id that `authorize_disk` leaves in a disk. -/
theorem authorizeDisk_chargedId :
    Attribute.vectorValue (l.authorizeDisk uid gid).1 "IMAGE_ID" = l.chargedId := by
  unfold authorizeDisk chargedId finds
  by_cases named : Attribute.vectorValue l.disk "IMAGE" = ""
  · simp only [named, ne_eq, not_true_eq_false, if_false]
    split
    · split
      · rfl
      · split <;> rfl
    · rfl
  · by_cases nobody : l.users.getDiskUid l.disk l.uid = -1
    · simp only [named, nobody, ne_eq, not_false_eq_true, if_true]
    · simp only [named, nobody, ne_eq, not_false_eq_true, if_true, if_false]
      split <;> rename_i found <;> rw [found]
      exact Attribute.vectorValue_replace

/-- The image that is acquired. -/
def acquires (l : DiskLookup) (vmId : Nat) : Option Nat :=
  match l.diskAttribute vmId with
  | .image oid _ => some oid
  | _ => none

theorem acquire_eq_image_iff {vmId oid : Nat} {found : Option (Nat × PoolImage)} :
    (∃ img, acquire vmId found = .image oid img) ↔
      ∃ img, found = some (oid, img) ∧
        ∃ image, ImageManager.acquireImage vmId img.image = .ok image := by
  constructor
  · intro ⟨img, is⟩
    unfold acquire at is
    split at is
    · cases is
    · rename_i oid' img'
      split at is
      · cases is
      · rename_i image accepted
        cases is
        exact ⟨img', rfl, image, accepted⟩
  · rintro ⟨img, rfl, image, accepted⟩
    exact ⟨{ img with image }, by simp only [acquire, accepted]⟩

theorem acquires_eq_some_iff {vmId oid : Nat} :
    l.acquires vmId = some oid ↔ ∃ img, l.diskAttribute vmId = .image oid img := by
  unfold acquires
  split
  · rename_i oid' img is
    rw [is]
    constructor
    · intro same
      cases same
      exact ⟨img, rfl⟩
    · intro ⟨_, same⟩
      cases same
      rfl
  · rename_i other
    exact iff_of_false (fun impossible => by cases impossible) fun ⟨img, is⟩ => other oid img is

/-- Only images of disks are acquired. -/
theorem isDisk_of_diskAttribute {vmId oid : Nat} {img : PoolImage}
    (acquired : l.diskAttribute vmId = .image oid img) : img.image.type.isDisk = true := by
  have only : ∀ {found}, acquire vmId found = .image oid img → img.image.type.isDisk = true := by
    intro found is
    unfold acquire at is
    split at is
    · cases is
    · split at is
      · cases is
      · rename_i image accepted
        cases is
        obtain ⟨disk, ⟨_, rfl⟩ | ⟨_, rfl⟩⟩ := ImageManager.acquireImage_cases accepted
        · exact disk
        · exact disk
  unfold diskAttribute at acquired
  dsimp only at acquired
  repeat' split at acquired
  all_goals first | exact only acquired | cases acquired

/-- An image is acquired if the disk names it and it accepts the VM. -/
theorem acquires_iff {vmId oid : Nat} : l.acquires vmId = some oid ↔
    ∃ img, l.finds = some (oid, img) ∧
      ∃ image, ImageManager.acquireImage vmId img.image = .ok image := by
  have nothing {answer : Acquired} (other : ∀ oid img, answer ≠ .image oid img) :
      (∃ img, answer = .image oid img) ↔
        ∃ img, (none : Option (Nat × PoolImage)) = some (oid, img) ∧
          ∃ image, ImageManager.acquireImage vmId img.image = .ok image :=
    iff_of_false (fun ⟨img, is⟩ => other oid img is) fun ⟨_, impossible, _⟩ => by cases impossible
  have failed : ∀ oid img, Acquired.failed ≠ .image oid img := fun _ _ same => by cases same
  have volatile : ∀ oid img, Acquired.volatile ≠ .image oid img := fun _ _ same => by cases same
  rw [acquires_eq_some_iff]
  unfold diskAttribute finds
  by_cases named : Attribute.vectorValue l.disk "IMAGE" = ""
  · simp only [named, ne_eq, not_true_eq_false, if_false]
    by_cases given : Attribute.vectorValue l.disk "IMAGE_ID" = ""
    · simp only [given, not_true_eq_false, if_false, getDiskId_empty, get_of_neg]
      split
      · exact nothing failed
      · exact nothing volatile
    · by_cases bad : getDiskId (Attribute.vectorValue l.disk "IMAGE_ID") = -1
      · simp only [given, bad, not_false_eq_true, if_true, get_of_neg]
        exact nothing failed
      · simp only [given, bad, not_false_eq_true, if_true, if_false]
        exact acquire_eq_image_iff
  · by_cases nobody : l.users.getDiskUid l.disk l.uid = -1
    · simp only [named, nobody, ne_eq, not_false_eq_true, if_true]
      exact nothing failed
    · simp only [named, nobody, ne_eq, not_false_eq_true, if_true, if_false]
      exact acquire_eq_image_iff

end DiskLookup

end Ezilla
