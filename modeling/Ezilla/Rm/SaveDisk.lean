import Ezilla.Image.Image
import Ezilla.Pool.ObjectNames
import Ezilla.Um.UsageLedger
import Ezilla.Vm.VirtualMachine

/-!
# Saving a disk as a new image

`VirtualMachineSaveDisk::request_execute` marks the disk and moves the VM to a state of its own,
and then looks at the image and the datastore, asks for the rights and the quotas, and allocates
the new image. The driver makes the image, and `mkfs_action` gets its answer. The request holds
no lock for long, and other threads run in between.

* `SavingVm.setSaveasState`, `clearSaveasState`: the states and the marks;
* `SaveDiskRequest.requestExecute`: the request, with the locks of its thread;
* `mkfsAction`: the answer of the driver;
* `SaveDiskRequest.saveDisk`: one after the other.

Texts for users and the log are left out, and what the new image gets but nothing here reads.
-/

namespace Ezilla

/-! ## The VM -/

/-- A DISK of the template of a VM, by its DISK_ID. -/
structure DiskAttribute where
  diskId : Int
  values : List (String × String)
  deriving DecidableEq, Repr

/-- What the request reads and writes of a VM. -/
structure SavingVm where
  state : VmState
  lcmState : LcmState
  disks : List DiskAttribute
  deriving DecidableEq, Repr

/-- The errors of `get_image_from_disk`. -/
inductive DiskError where
  /-- The DISK does not exist for VM. -/
  | notFound
  /-- The DISK is already going to be saved. -/
  | saved
  /-- Source image for DISK is persistent. -/
  | persistent
  /-- The DISK does not have a valid IMAGE_ID. -/
  | imageId
  deriving DecidableEq, Repr

/-- The sub-attributes that `clear_saveas_state` removes; the first one is the mark of a disk that
is being saved. -/
def saveMarks (hot : Bool) : List String :=
  if hot then ["HOTPLUG_SAVE_AS_ACTIVE", "HOTPLUG_SAVE_AS", "HOTPLUG_SAVE_AS_SOURCE"]
  else ["SAVE_AS_ACTIVE"]

def markValues (hot : Bool) (values : List (String × String)) : List (String × String) :=
  Attribute.replace values (if hot then "HOTPLUG_SAVE_AS_ACTIVE" else "SAVE_AS_ACTIVE") "YES"

def unmarkValues (hot : Bool) (values : List (String × String)) : List (String × String) :=
  (saveMarks hot).foldl Attribute.remove values

namespace SavingVm

variable (vm : SavingVm)

/-- `VirtualMachine::get_disk`. -/
def getDisk (diskId : Int) : Option DiskAttribute :=
  vm.disks.find? fun disk => disk.diskId = diskId

/-- A change of the disk that `get_disk` finds, if there is one. -/
def changeDisk (diskId : Int) (change : List (String × String) → List (String × String)) :
    SavingVm :=
  { vm with
    disks := clearFirst (fun disk => disk.diskId = diskId)
      (fun disk => { disk with values := change disk.values }) vm.disks }

/-- `VirtualMachine::get_image_from_disk`. -/
def getImageFromDisk (diskId : Int) (hot : Bool) : Except DiskError Int :=
  match vm.getDisk diskId with
  | none => .error .notFound
  | some disk =>
    if Attribute.vectorValue disk.values "SAVE_AS" ≠ "" then .error .saved
    else if Attribute.vectorValue disk.values "PERSISTENT" ≠ "" ∧ hot = false then
      .error .persistent
    else
      match Attribute.vectorInt disk.values "IMAGE_ID" with
      | none => .error .imageId
      | some iid => .ok iid

/-- The switch of `VirtualMachine::set_saveas_state`. -/
def enterSaveas : Option SavingVm :=
  match vm.state, vm.lcmState with
  | .active, .running => some { vm with lcmState := .hotplugSaveas }
  | .poweroff, _ => some { vm with state := .active, lcmState := .hotplugSaveasPoweroff }
  | .suspended, _ => some { vm with state := .active, lcmState := .hotplugSaveasSuspended }
  | _, _ => none

/-- `VirtualMachine::set_saveas_state`. -/
def setSaveasState (diskId : Int) (hot : Bool) : Option SavingVm :=
  vm.enterSaveas.map fun vm => vm.changeDisk diskId (markValues hot)

/-- The switch of `VirtualMachine::clear_saveas_state`. -/
def leaveSaveas : SavingVm :=
  match vm.lcmState with
  | .hotplugSaveas => { vm with lcmState := .running }
  | .hotplugSaveasPoweroff => { vm with state := .poweroff, lcmState := .lcmInit }
  | .hotplugSaveasSuspended => { vm with state := .suspended, lcmState := .lcmInit }
  | _ => vm

/-- `VirtualMachine::clear_saveas_state`; no caller looks at its result. -/
def clearSaveasState (diskId : Int) (hot : Bool) : SavingVm :=
  (vm.changeDisk diskId (unmarkValues hot)).leaveSaveas

/-- The states in which a disk can be given an image. -/
def InSaveas : Prop :=
  vm.lcmState = .hotplugSaveas ∨ vm.lcmState = .hotplugSaveasSuspended ∨
    vm.lcmState = .hotplugSaveasPoweroff

instance : Decidable vm.InSaveas := inferInstanceAs (Decidable (_ ∨ _))

/-- `VirtualMachine::save_disk`; `none` stands for -1. -/
def saveDisk (diskId : Int) (source : String) (imgId : Int) : Option SavingVm :=
  if vm.InSaveas then
    some (vm.changeDisk diskId fun values =>
      Attribute.replace (Attribute.replace (Attribute.replace values "SAVE_AS_SOURCE" source)
        "SAVE_AS" (toString imgId)) "SAVE" "YES")
  else none

/-- `VirtualMachine::save_disk_hot`. -/
def saveDiskHot (diskId : Int) (source : String) (imgId : Int) : Option SavingVm :=
  if vm.InSaveas then
    some (vm.changeDisk diskId fun values =>
      Attribute.replace (Attribute.replace values "HOTPLUG_SAVE_AS" (toString imgId))
        "HOTPLUG_SAVE_AS_SOURCE" source)
  else none

end SavingVm

/-! ## The quotas of users and groups -/

abbrev QuotaPool := Principal → Option Quotas

namespace QuotaPool

/-- `user_quota_authorization` and `group_quota_authorization`. -/
def authorizeOne (defaults : Principal → Quotas) (tmpl : Template) (pool : QuotaPool)
    (p : Principal) : Bool × QuotaPool :=
  match pool p with
  | none => (false, pool)
  | some qs =>
    match qs.quotaCheck .datastore tmpl (defaults p) .float with
    | (.ok (), qs') => (true, Function.update pool p (some qs'))
    | (.error _, qs') => (false, Function.update pool p (some qs'))

/-- `user_quota_rollback` and `group_quota_rollback`. -/
def rollbackOne (tmpl : Template) (pool : QuotaPool) (p : Principal) : QuotaPool :=
  match pool p with
  | none => pool
  | some qs => Function.update pool p (some (qs.quotaDel .datastore tmpl .float))

/-- `Request::quota_authorization` over the user and the group: a group that refuses gives the
charge back to the user. -/
def authorize (defaults : Principal → Quotas) (tmpl : Template) (pool : QuotaPool) :
    List Principal → Bool × QuotaPool
  | [] => (true, pool)
  | p :: ps =>
    match pool.authorizeOne defaults tmpl p with
    | (false, pool) => (false, pool)
    | (true, pool) =>
      match authorize defaults tmpl pool ps with
      | (false, pool) => (false, pool.rollbackOne tmpl p)
      | (true, pool) => (true, pool)

/-- `Request::quota_rollback`. -/
def rollback (tmpl : Template) (pool : QuotaPool) (ps : List Principal) : QuotaPool :=
  ps.foldl (rollbackOne tmpl) pool

end QuotaPool

/-! ## The pools -/

structure ImageObject where
  name : String
  uid : Int
  type : ImageType
  state : ImageState
  source : String
  size : Int
  dsId : Int
  template : Template

/-- What a thread can lock. -/
inductive ObjectRef where
  | user (uid : Int)
  | vm (oid : Int)
  | image (oid : Int)
  | datastore (oid : Int)
  deriving DecidableEq, Repr

/-- The pools, and the locks that are held. A datastore is the list of its images. -/
structure SaveWorld where
  users : Int → Bool
  vms : Nat → Option SavingVm
  images : List (Nat × ImageObject)
  datastores : Nat → Option (List Nat)
  quotas : QuotaPool
  nextOid : Nat
  held : List ObjectRef

/-- `PoolSQL::get`. -/
def fromPool {α : Type} (pool : Nat → Option α) (oid : Int) : Option α :=
  if oid < 0 then none else pool oid.toNat

namespace SaveWorld

variable (w : SaveWorld)

def lock (x : ObjectRef) : SaveWorld := { w with held := x :: w.held }

def unlock (x : ObjectRef) : SaveWorld := { w with held := w.held.erase x }

def vm? (oid : Int) : Option SavingVm := fromPool w.vms oid

def image? (oid : Int) : Option ImageObject := fromPool (fun n => w.images.lookup n) oid

def setVm (oid : Int) (vm : SavingVm) : SaveWorld :=
  { w with vms := Function.update w.vms oid.toNat (some vm) }

def dropImage (oid : Int) : SaveWorld :=
  { w with images := w.images.filter fun entry => entry.1 ≠ oid.toNat }

def setImage (oid : Int) (img : ImageObject) : SaveWorld :=
  { w with images := (oid.toNat, img) :: (w.dropImage oid).images }

def setQuotas (quotas : QuotaPool) : SaveWorld := { w with quotas }

/-- Where a save-as is given up: the VM is looked up again. -/
def clearSaveas (vmId diskId : Int) (hot : Bool) : SaveWorld :=
  match w.vm? vmId with
  | none => w
  | some vm =>
    ((w.lock (.vm vmId)).setVm vmId (vm.clearSaveasState diskId hot)).unlock (.vm vmId)

end SaveWorld

/-! ## The request -/

/-- The arguments of a request and the user it comes from; ids are integers of 32 bits. -/
structure SaveDiskRequest where
  uid : Int
  gid : Int
  vmId : Int
  diskId : Int
  imgName : String
  imgType : String
  isHot : Bool
  vmId_range : -2 ^ 31 ≤ vmId ∧ vmId < 2 ^ 31
  diskId_range : -2 ^ 31 ≤ diskId ∧ diskId < 2 ^ 31

/-- Where the request, or the answer of the driver, holds no lock. -/
inductive SavePause where
  | image
  | datastore
  | authorization
  | quota
  | allocation
  | registration
  | collection
  | driver
  | saved
  deriving DecidableEq, Repr

/-- What is around the request: what other threads do in between, and what it is answered. -/
structure SaveSurroundings where
  pause : SavePause → SaveWorld → SaveWorld
  /-- `UserPool::authorize` -/
  authorized : Bool
  /-- the default quotas of users and of groups -/
  defaults : Principal → Quotas
  /-- `ImagePool::default_type` -/
  defaultType : ImageType
  /-- the database takes the new image -/
  inserted : Bool
  /-- the datastore driver is loaded -/
  driver : Bool

/-- The errors of `ImagePool::allocate`. -/
inductive AllocateError where
  | name
  /-- KERNEL, RAMDISK and CONTEXT cannot be registered in an IMAGE_DS datastore -/
  | fileType
  /-- NAME is already taken -/
  | duplicated
  /-- Incorrect TYPE in template. -/
  | type
  /-- Error inserting Image in DB. -/
  | database
  /-- Could not get datastore driver -/
  | noDriver
  /-- Image deleted during copy operation -/
  | deleted
  deriving DecidableEq, Repr

/-- The failures of the request. -/
inductive SaveFailure where
  | noUser
  | noVm
  /-- VM has to be RUNNING, POWEROFF or SUSPENDED to saveas disks. -/
  | wrongState
  /-- Cannot use selected DISK; an IMAGE_ID of -1 has no text. -/
  | cannotUseDisk (error : Option DiskError)
  | noImage (iid : Int)
  | noDatastore (dsId : Int)
  /-- Cannot save_as image of type -/
  | cannotSave (type : ImageType)
  /-- the VM is gone or the user has no right -/
  | authorization
  | quota
  | allocation (error : AllocateError)
  deriving DecidableEq, Repr

/-- `Image::type_to_str`. -/
def ImageType.toStr : ImageType → String
  | .os => "OS"
  | .cdrom => "CDROM"
  | .datablock => "DATABLOCK"
  | .kernel => "KERNEL"
  | .ramdisk => "RAMDISK"
  | .context => "CONTEXT"

/-- `Image::set_type`: the type of a text. -/
def ImageType.ofStr (text : String) : Option ImageType :=
  [ImageType.os, .cdrom, .datablock, .kernel, .ramdisk, .context].find? fun type =>
    type.toStr = text.toUpper

/-- `Image::isSaving`. -/
def ImageObject.isSaving (img : ImageObject) : Bool := img.template.getString "SAVE_AS" ≠ ""

/-- `Image::isHot`. -/
def ImageObject.isHot (img : ImageObject) : Bool := img.template.getString "SAVE_AS_HOT" ≠ ""

/-- The template that an image is charged for. -/
def imgUsage (img : ImageObject) : Template :=
  [.single "SIZE" (toString img.size), .single "DATASTORE" (toString img.dsId)]

namespace SaveDiskRequest

variable (r : SaveDiskRequest) (s : SaveSurroundings) (w : SaveWorld)

/-- The VM and the disk are checked; the id of the image of the disk. -/
def checkVm : Except SaveFailure Int × SaveWorld :=
  match w.vm? r.vmId with
  | none => (.error .noVm, w)
  | some vm =>
    let w := w.lock (.vm r.vmId)
    match vm.setSaveasState r.diskId r.isHot with
    | none => (.error .wrongState, w.unlock (.vm r.vmId))
    | some saving =>
      let cleared := w.setVm r.vmId (saving.clearSaveasState r.diskId r.isHot)
      match saving.getImageFromDisk r.diskId r.isHot with
      | .error e => (.error (.cannotUseDisk (some e)), cleared.unlock (.vm r.vmId))
      | .ok iid =>
        if iid = -1 then (.error (.cannotUseDisk none), cleared.unlock (.vm r.vmId))
        else (.ok iid, (w.setVm r.vmId saving).unlock (.vm r.vmId))

/-- The save-as is given up. -/
def giveUp : SaveWorld := w.clearSaveas r.vmId r.diskId r.isHot

/-- The data of the image that is saved. -/
def readImage (iid : Int) : Except SaveFailure ImageObject × SaveWorld :=
  match w.image? iid with
  | none => (.error (.noImage iid), r.giveUp w)
  | some img => (.ok img, (w.lock (.image iid)).unlock (.image iid))

/-- The data of the datastore, and the switch over the type of the image. -/
def readDatastore (img : ImageObject) : Except SaveFailure Unit × SaveWorld :=
  match fromPool w.datastores img.dsId with
  | none => (.error (.noDatastore img.dsId), r.giveUp w)
  | some _ =>
    let w := w.lock (.datastore img.dsId)
    if img.type.isDisk then (.ok (), w.unlock (.datastore img.dsId))
    -- this return leaves the datastore locked and the VM as it is
    else (.error (.cannotSave img.type), w)

/-- The template of the new image. -/
def newTemplate (iid : Int) (img : ImageObject) : Template :=
  let copied (name : String) : Template :=
    let value := img.template.getString name
    if value = "" then [] else [.single name value]
  [.single "NAME" r.imgName, .single "SIZE" (toString img.size),
    .single "SAVED_IMAGE_ID" (toString iid), .single "SAVED_DISK_ID" (toString r.diskId),
    .single "SAVED_VM_ID" (toString r.vmId), .single "SAVE_AS" "YES"] ++
  (if r.isHot then [.single "SAVE_AS_HOT" "YES"] else []) ++
  [.single "TYPE" (if r.imgType = "" then img.type.toStr else r.imgType)] ++
  copied "DRIVER" ++ copied "TARGET" ++ copied "DEV_PREFIX"

/-- The image that the request is charged for. -/
def diskImage : Option ImageObject :=
  match r.checkVm w with
  | (.error _, _) => none
  | (.ok iid, w) => (s.pause .image w).image? iid

/-- `vm_authorization`. -/
def vmAuthorization : Bool := (w.vm? r.vmId).isSome && (r.uid = 0 || s.authorized)

/-- The users and groups that are charged. -/
def principals : List Principal := quotaPrincipals r.uid r.gid

/-- The rights and the quotas. -/
def authorize (img : ImageObject) : Except SaveFailure Unit × SaveWorld :=
  if r.vmAuthorization s w = false then (.error .authorization, r.giveUp w)
  else
    let w := s.pause .quota w
    match w.quotas.authorize s.defaults (imgUsage img) r.principals with
    | (false, quotas) => (.error .quota, r.giveUp (w.setQuotas quotas))
    | (true, quotas) => (.ok (), w.setQuotas quotas)

/-- `ImageManager::register_image` of an image that will be filled by a VM; whether it was. -/
def registerImage (oid : Int) : Except AllocateError Unit :=
  if s.driver = false then .error .noDriver
  else if (w.image? oid).isSome then .ok () else .error .deleted

/-- `ImagePool::allocate`; an image that cannot be registered is dropped again. -/
def allocate (tmpl : Template) (img : ImageObject) : Except AllocateError Int × SaveWorld :=
  let type := ImageType.ofStr (tmpl.getString "TYPE")
  if nameIsValid r.imgName = false then (.error .name, w)
  else if (type.getD .os).isDisk = false then (.error .fileType, w)
  else if w.images.any fun other => other.2.name = r.imgName ∧ other.2.uid = r.uid then
    (.error .duplicated, w)
  else
    match type with
    | none => (.error .type, w)
    | some type =>
      if s.inserted = false then (.error .database, w)
      else
        let oid : Int := w.nextOid
        let new : ImageObject :=
          { name := r.imgName, uid := r.uid, type, state := .locked, source := "",
            size := img.size, dsId := img.dsId, template := tmpl }
        let w := s.pause .registration ({ w with nextOid := w.nextOid + 1 }.setImage oid new)
        match registerImage s w oid with
        | .ok () => (.ok oid, w)
        | .error e => (.error e, w.dropImage oid)

/-- The new image is added to its datastore. -/
def collect (dsId oid : Int) : SaveWorld :=
  match fromPool w.datastores dsId with
  | none => w
  | some images =>
    ({ w.lock (.datastore dsId) with
      datastores :=
        Function.update w.datastores dsId.toNat (some (oid.toNat :: images)) }).unlock
          (.datastore dsId)

/-- The new image is created. -/
def createImage (iid : Int) (img : ImageObject) : Except SaveFailure Int × SaveWorld :=
  match r.allocate s w (r.newTemplate iid img) img with
  | (.error e, w) =>
    (.error (.allocation e), r.giveUp (w.setQuotas (w.quotas.rollback (imgUsage img) r.principals)))
  | (.ok oid, w) => (.ok oid, collect (s.pause .collection w) img.dsId oid)

/-- `VirtualMachineSaveDisk::request_execute`. -/
def requestExecute : Except SaveFailure Int × SaveWorld :=
  if w.users r.uid = false then (.error .noUser, w)
  else
    match r.checkVm ((w.lock (.user r.uid)).unlock (.user r.uid)) with
    | (.error e, w) => (.error e, w)
    | (.ok iid, w) =>
      match r.readImage (s.pause .image w) iid with
      | (.error e, w) => (.error e, w)
      | (.ok img, w) =>
        match r.readDatastore (s.pause .datastore w) img with
        | (.error e, w) => (.error e, w)
        | (.ok (), w) =>
          match r.authorize s (s.pause .authorization w) img with
          | (.error e, w) => (.error e, w)
          | (.ok (), w) => r.createImage s (s.pause .allocation w) iid img

end SaveDiskRequest

/-! ## The answer of the driver -/

namespace ImageManagerDriver

variable (s : SaveSurroundings)

/-- The end of `mkfs_action` where something went wrong, with the image locked. -/
def mkfsError (w : SaveWorld) (id : Int) (img : ImageObject) (vmId diskId : Int) (hot : Bool) :
    SaveWorld :=
  let w := (w.setImage id { img with state := .error }).unlock (.image id)
  if img.isSaving && vmId ≠ -1 then w.clearSaveas vmId diskId hot else w

/-- Where the VM cannot take the new image, the image is looked up again. -/
def mkfsSaveError (w : SaveWorld) (id : Int) (vmId diskId : Int) (hot : Bool) : SaveWorld :=
  match w.image? id with
  | none => w
  | some img => mkfsError (w.lock (.image id)) id img vmId diskId hot

/-- `mkfs_action`. `answer` is the source of the new image, and `none` for FAILURE and for an
answer that cannot be read. -/
def mkfsAction (w : SaveWorld) (id : Int) (answer : Option String) : SaveWorld :=
  match w.image? id with
  | none => w
  | some img =>
    let w := w.lock (.image id)
    let vmId := if img.isSaving then (img.template.getInt "SAVED_VM_ID").getD (-1) else -1
    let diskId := (img.template.getInt "SAVED_DISK_ID").getD 0
    match answer with
    | none => mkfsError w id img vmId diskId img.isHot
    | some source =>
      let state := if img.isSaving then img.state else .ready
      let w := (w.setImage id { img with source, state }).unlock (.image id)
      if img.isSaving = false then w
      else
        let w := s.pause .saved w
        match w.vm? vmId with
        | none => mkfsSaveError w id vmId diskId img.isHot
        | some vm =>
          let w := w.lock (.vm vmId)
          let given :=
            if img.isHot then vm.saveDiskHot diskId source id
            else (vm.saveDisk diskId source id).map fun vm => vm.clearSaveasState diskId img.isHot
          match given with
          | none => mkfsSaveError (w.unlock (.vm vmId)) id vmId diskId img.isHot
          | some vm => (w.setVm vmId vm).unlock (.vm vmId)

end ImageManagerDriver

/-- What comes of a request to save a disk. -/
inductive SaveOutcome where
  | failed (e : SaveFailure)
  | driverFailed (iid : Int)
  | created (iid : Int)
  deriving DecidableEq, Repr

/-- The request, and the answer of the driver when the image was allocated. -/
def SaveDiskRequest.saveDisk (r : SaveDiskRequest) (s : SaveSurroundings) (answer : Option String)
    (w : SaveWorld) : SaveOutcome × SaveWorld :=
  match r.requestExecute s w with
  | (.error e, w) => (.failed e, w)
  | (.ok iid, w) =>
    (if answer.isSome then .created iid else .driverFailed iid,
      ImageManagerDriver.mkfsAction s (s.pause .driver w) iid answer)

end Ezilla
