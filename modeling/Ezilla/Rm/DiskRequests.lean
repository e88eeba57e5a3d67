import Ezilla.Image.ImagePool
import Ezilla.Um.QuotaRuns

/-!
# Requests that acquire images for the disks of a VM

A VM is allocated with the disks of its template, or gets one more disk. The request
first authorizes the disks and charges the quotas of its sender, then acquires the images.
Every look at a pool is a moment of its own, and other requests may change the pools in
between in any way.

* `DiskRequest.run`: the whole request;
* `DiskOutcome.Covered`: an image was authorized and charged;
* `DiskRequest.covered_iff`: when every acquired image is.
-/

namespace Ezilla

/-- The pools at a moment, with the number of moments before. -/
structure Moment where
  time : Nat
  world : ImageWorld

/-- The next moment: the others have changed the pools. -/
def Moment.next (m : Moment) (between : Nat → ImageWorld → ImageWorld) : Moment :=
  ⟨m.time + 1, between m.time m.world⟩

/-- The quotas of the sender and of the group of the sender, and the default ones. -/
structure SenderQuotas where
  user : Quotas
  group : Quotas
  defaultUser : Quotas
  defaultGroup : Quotas

/-- `Request::quota_authorization`, for a user that is not oneadmin. -/
def SenderQuotas.authorize (q : SenderQuotas) (gid : Oid) (type : QuotaType) (tmpl : Template) :
    Bool × SenderQuotas :=
  match q.user.quotaCheck type tmpl q.defaultUser with
  | (.error _, user) => (false, { q with user })
  | (.ok (), user) =>
    if gid = oneadminId then (true, { q with user })
    else
      match q.group.quotaCheck type tmpl q.defaultGroup with
      | (.ok (), group) => (true, { q with user, group })
      | (.error _, group) => (false, { q with user := user.quotaDel type tmpl, group })

/-- `VirtualMachine::set_auth_request` for the disks: the template it leaves, the lookups
that it makes, and the moment after them. -/
def setAuthRequest (between : Nat → ImageWorld → ImageWorld) (uid gid : Oid) :
    Moment → Template → Template × List DiskLookup × Moment
  | m, [] => ([], [], m)
  | m, .single name value :: rest =>
    let (rest', lookups, m') := setAuthRequest between uid gid m rest
    (.single name value :: rest', lookups, m')
  | m, .vector name disk :: rest =>
    if name = "DISK" then
      let users := m.next between
      let pool := users.next between
      let l : DiskLookup := ⟨disk, uid.val.toNat, users.world, pool.world⟩
      let (rest', lookups, m') := setAuthRequest between uid gid pool rest
      (.vector name (l.authorizeDisk uid gid).1 :: rest', l :: lookups, m')
    else
      let (rest', lookups, m') := setAuthRequest between uid gid m rest
      (.vector name disk :: rest', lookups, m')

/-- The rest of `disk_attribute`: the datastore of an acquired image is looked up, and the
image is given back where it is gone. -/
def datastoreFound (between : Nat → ImageWorld → ImageWorld) (vmId : Nat) (m : Moment)
    (oid : Nat) (img : PoolImage) : Bool × Moment :=
  let ds := { m with world := m.world.setImage oid img }.next between
  if ds.world.datastores img.dsId then (true, ds)
  else
    let release := ds.next between
    match release.world.images oid with
    | none => (false, release)
    | some img' =>
      (false, { release with
        world := release.world.setImage oid
          { img' with image := ImageManager.releaseImage vmId false img'.image } })

/-- `VirtualMachine::get_disk_images`: the lookups it makes, up to the first failure. What
it gives back after a failure is left out. -/
def getDiskImages (between : Nat → ImageWorld → ImageWorld) (vmId : Nat) (uid : Int) :
    Moment → List String → List (List (String × String)) → List DiskLookup
  | _, _, [] => []
  | m, usedTargets, disk :: rest =>
    let users := m.next between
    let pool := users.next between
    let l : DiskLookup := ⟨disk, uid, users.world, pool.world⟩
    let goOn (m' : Moment) (target : String) : List DiskLookup :=
      if target = "" then getDiskImages between vmId uid m' usedTargets rest
      else if target ∈ usedTargets then []
      else getDiskImages between vmId uid m' (target :: usedTargets) rest
    let target := Attribute.vectorValue disk "TARGET"
    match l.diskAttribute vmId with
    | .failed => [l]
    | .volatile => l :: goOn pool target
    | .image oid img =>
      match datastoreFound between vmId pool oid img with
      | (false, _) => [l]
      | (true, m') => l :: goOn m' (if target = "" then img.target else target)

/-- The targets that are taken before the disks: the one of the first `CONTEXT`. -/
def contextTargets (tmpl : Template) : List String :=
  match tmpl.get "CONTEXT" with
  | .vector _ context :: _ =>
    let target := Attribute.vectorValue context "TARGET"
    if target = "" then [] else [target]
  | _ => []

/-- What a request is for: a new VM, or a disk for a VM with this owner. -/
inductive DiskPurpose where
  | allocate
  | attach (owner : Oid)

/-- A request of a user who is not oneadmin. `otherAuth` is the answer to the rest of its
authorization, `ready` that of the checks between the quotas and the disks. -/
structure DiskRequest where
  uid : Oid
  gid : Oid
  sender : uid ≠ oneadminId
  purpose : DiskPurpose
  vmId : Nat
  tmpl : Template
  otherAuth : Bool
  ready : Bool

/-- What a request has done: the lookups of its authorization, the quotas before and after
it, and the lookups of the disks. -/
structure DiskOutcome where
  authorized : List DiskLookup
  before : SenderQuotas
  after : SenderQuotas
  attempts : List DiskLookup

namespace DiskRequest

/-- The quotas that are charged. -/
def quotaType (r : DiskRequest) : QuotaType :=
  match r.purpose with
  | .allocate => .virtualMachine
  | .attach _ => .image

/-- `get_disk_images`, or `set_up_attach_disk` with the owner of the VM. -/
def acquire (between : Nat → ImageWorld → ImageWorld) (r : DiskRequest) (m : Moment)
    (tmpl : Template) : List DiskLookup :=
  match r.ready, r.purpose with
  | false, _ => []
  | true, .allocate =>
    if (tmpl.get "DISK").length > 20 then []
    else
      getDiskImages between r.vmId r.uid.val.toNat m (contextTargets tmpl) (tmpl.vectors "DISK")
  | true, .attach owner =>
    match tmpl.get "DISK" with
    | [.vector _ disk] => getDiskImages between r.vmId owner.val.toNat m [] [disk]
    | _ => []

/-- `allocate_authorization` and `pool_allocate`, or `VirtualMachineAttach::request_execute`. -/
def run (between : Nat → ImageWorld → ImageWorld) (r : DiskRequest) (start : ImageWorld)
    (q : SenderQuotas) : DiskOutcome :=
  match setAuthRequest between r.uid r.gid ⟨0, start⟩ r.tmpl with
  | (tmpl, authorized, m) =>
    let tokens := authorized.flatMap fun l => (l.authorizeDisk r.uid r.gid).2
    if r.otherAuth && tokens.all UseToken.allowed then
      match q.authorize r.gid r.quotaType tmpl with
      | (false, after) => ⟨authorized, q, after, []⟩
      | (true, after) => ⟨authorized, q, after, r.acquire between m tmpl⟩
    else ⟨authorized, q, q, []⟩

/-- The images that are acquired. -/
def acquired (r : DiskRequest) (out : DiskOutcome) : List Nat :=
  out.attempts.filterMap fun l => l.acquires r.vmId

/-- The request has passed the USE authorization on the image, and the image quotas of its
sender have been charged for it. -/
def Covered (r : DiskRequest) (out : DiskOutcome) (oid : Nat) : Prop :=
  (∃ l ∈ out.authorized, ⟨oid, true⟩ ∈ (l.authorizeDisk r.uid r.gid).2) ∧
    out.before.user.used .image (toString oid) .rvms <
      out.after.user.used .image (toString oid) .rvms ∧
    (r.gid ≠ oneadminId → out.before.group.used .image (toString oid) .rvms <
      out.after.group.used .image (toString oid) .rvms)

/-- The image that an attempt acquires was named by a disk when the disks were authorized,
and a disk had its id as `IMAGE_ID` then. -/
def Foreseen (r : DiskRequest) (out : DiskOutcome) (attempt : DiskLookup) : Prop :=
  ∀ oid img image, attempt.finds = some (oid, img) →
    ImageManager.acquireImage r.vmId img.image = .ok image →
    (∃ l ∈ out.authorized, ∃ img, l.finds = some (oid, img)) ∧
      ∃ l ∈ out.authorized, l.chargedId = toString oid

/-! ## What is authorized and charged -/

variable {between : Nat → ImageWorld → ImageWorld} {r : DiskRequest} {uid gid : Oid} {m : Moment}
  {tmpl : Template} {q q' : SenderQuotas} {type : QuotaType} {oid : Nat}

theorem ids_single (name value : String) (rest : Template) :
    QuotaImage.ids (.single name value :: rest) = QuotaImage.ids rest := by
  by_cases disk : name = "DISK" <;>
    simp [QuotaImage.ids, Template.vectorValues, Template.vectors, Template.get, Attribute.name, disk]

theorem ids_disk (disk : List (String × String)) (rest : Template) :
    QuotaImage.ids (.vector "DISK" disk :: rest) =
      Attribute.vectorValue disk "IMAGE_ID" :: QuotaImage.ids rest := by
  simp [QuotaImage.ids, Template.vectorValues, Template.vectors, Template.get, Attribute.name]

theorem ids_other {name : String} (other : name ≠ "DISK") (values : List (String × String))
    (rest : Template) : QuotaImage.ids (.vector name values :: rest) = QuotaImage.ids rest := by
  simp [QuotaImage.ids, Template.vectorValues, Template.vectors, Template.get, Attribute.name, other]

/-- The image ids of the template after its authorization. -/
theorem ids_setAuthRequest :
    QuotaImage.ids (setAuthRequest between uid gid m tmpl).1 =
      (setAuthRequest between uid gid m tmpl).2.1.map DiskLookup.chargedId := by
  induction tmpl generalizing m with
  | nil => rfl
  | cons a rest ih =>
    cases a with
    | single name value =>
      simp only [setAuthRequest]
      rw [ids_single, ih]
    | vector name values =>
      by_cases disk : name = "DISK"
      · simp only [setAuthRequest, disk, if_true, List.map_cons]
        rw [ids_disk, DiskLookup.authorizeDisk_chargedId, ih]
      · simp only [setAuthRequest, disk, if_false]
        rw [ids_other disk, ih]

/-- An accepted check raises the counters of the images that the template has as `IMAGE_ID`. -/
theorem raised_iff {qs qs' ds : Quotas}
    (accepted : qs.quotaCheck r.quotaType tmpl ds = (.ok (), qs')) :
    qs.used .image (toString oid) .rvms < qs'.used .image (toString oid) .rvms ↔
      toString oid ∈ QuotaImage.ids tmpl := by
  have amounts : r.quotaType.amounts tmpl .image = QuotaImage.amounts tmpl := by
    unfold quotaType
    cases r.purpose <;> rfl
  rcases Quotas.quotaCheck_cases qs ds r.quotaType tmpl with
    ⟨qs'', run, charged, -⟩ | ⟨err, qs'', run, -⟩
  · cases accepted.symm.trans run
    have listed : toString oid ∈ Quotas.imageIds tmpl ↔ toString oid ∈ QuotaImage.ids tmpl := by
      simp [Quotas.imageIds]
    have counted : Metric.rvms ∈ QuotaKind.image.metrics := by decide
    rw [charged.used (toString oid) counted, amounts, lt_add_iff_pos_right,
      QuotaImage.amounts, Quota.unitsOf, if_pos rfl, Nat.cast_pos, List.count_pos_iff, listed]
  · cases accepted.symm.trans run

/-- Accepted quotas are raised for the images that the template has as `IMAGE_ID`. -/
theorem authorize_raised_iff (accepted : q.authorize gid r.quotaType tmpl = (true, q')) :
    (q.user.used .image (toString oid) .rvms < q'.user.used .image (toString oid) .rvms ∧
      (gid ≠ oneadminId →
        q.group.used .image (toString oid) .rvms < q'.group.used .image (toString oid) .rvms)) ↔
      toString oid ∈ QuotaImage.ids tmpl := by
  unfold SenderQuotas.authorize at accepted
  split at accepted
  · cases accepted
  · rename_i user userFits
    split at accepted
    · rename_i noGroup
      cases accepted
      rw [raised_iff userFits]
      exact and_iff_left fun other => absurd noGroup other
    · split at accepted
      · rename_i group groupFits
        cases accepted
        rw [raised_iff userFits, raised_iff groupFits]
        exact and_iff_left_of_imp fun listed _ => listed
      · cases accepted

/-- The USE authorization is asked for the images that the disks name. -/
theorem mem_tokens_iff {authorized : List DiskLookup}
    (passed : (authorized.flatMap fun l => (l.authorizeDisk uid gid).2).all UseToken.allowed = true) :
    (∃ l ∈ authorized, ⟨oid, true⟩ ∈ (l.authorizeDisk uid gid).2) ↔
      ∃ l ∈ authorized, ∃ img, l.finds = some (oid, img) := by
  refine exists_congr fun l => and_congr_right fun mem => ?_
  rw [DiskLookup.authorizeDisk_tokens]
  cases found : l.finds with
  | none => simp
  | some pair =>
    obtain ⟨oid', img⟩ := pair
    have token : (⟨oid', l.pool.acls.addAuth uid gid img.perms .use⟩ : UseToken) ∈
        (authorized.flatMap fun l => (l.authorizeDisk uid gid).2) := by
      refine List.mem_flatMap.mpr ⟨l, mem, ?_⟩
      rw [DiskLookup.authorizeDisk_tokens, found]
      exact List.mem_singleton_self _
    have may := List.all_eq_true.mp passed _ token
    simp only [Option.map_some, Option.toList_some, List.mem_singleton, UseToken.mk.injEq]
    constructor
    · intro both
      exact ⟨img, by rw [both.1]⟩
    · intro ⟨img', same⟩
      cases same
      exact ⟨rfl, may.symm⟩

/-- Every image that is acquired was authorized and charged if and only if the image of each
attempt was foreseen. -/
theorem covered_iff (between : Nat → ImageWorld → ImageWorld) (r : DiskRequest)
    (start : ImageWorld) (q : SenderQuotas) :
    (∀ oid ∈ r.acquired (r.run between start q), r.Covered (r.run between start q) oid) ↔
      ∀ attempt ∈ (r.run between start q).attempts, r.Foreseen (r.run between start q) attempt := by
  have covered {out : DiskOutcome} (same : ∀ oid, r.Covered out oid ↔
      (∃ l ∈ out.authorized, ∃ img, l.finds = some (oid, img)) ∧
        ∃ l ∈ out.authorized, l.chargedId = toString oid) :
      (∀ oid ∈ r.acquired out, r.Covered out oid) ↔
        ∀ attempt ∈ out.attempts, r.Foreseen out attempt := by
    simp only [acquired, List.mem_filterMap, DiskLookup.acquires_iff, same, Foreseen]
    constructor
    · intro all attempt mem oid img image found accepts
      exact all oid ⟨attempt, mem, img, found, image, accepts⟩
    · intro all oid ⟨attempt, mem, img, found, image, accepts⟩
      exact all attempt mem oid img image found accepts
  have nothing {out : DiskOutcome} (none : out.attempts = []) :
      (∀ oid ∈ r.acquired out, r.Covered out oid) ↔
        ∀ attempt ∈ out.attempts, r.Foreseen out attempt := by
    simp [acquired, none]
  have ids : QuotaImage.ids (setAuthRequest between r.uid r.gid ⟨0, start⟩ r.tmpl).1 =
      (setAuthRequest between r.uid r.gid ⟨0, start⟩ r.tmpl).2.1.map DiskLookup.chargedId :=
    ids_setAuthRequest
  unfold run
  split
  rename_i tmpl authorized m authorization
  rw [authorization] at ids
  simp only
  split
  · rename_i passed
    split
    · exact nothing rfl
    · rename_i after accepted
      refine covered fun oid => ?_
      rw [Covered, mem_tokens_iff (Bool.and_eq_true_iff.mp passed).2, authorize_raised_iff accepted,
        ids, List.mem_map]
  · exact nothing rfl

/-! ## A disk for the VM of another user -/

/-- Image 7 of user 2, which nobody else may use. -/
def privateImage : PoolImage where
  image := ⟨.datablock, .ready, false, ∅, ∅, none, "", false, false⟩
  perms := { objType := .image, oid := 7, uid := 2, gid := 2, cid := -1, ownerU := true }
  dsId := 1
  target := ""

def imagesOfTwo : ImageWorld where
  users _ := none
  images oid := if oid = 7 then some privateImage else none
  byName name uid := if name = "data" ∧ uid = 2 then some 7 else none
  datastores _ := true
  acls := ⟨[], AclManager.wellFormed_nil⟩

/-- User 3 manages a VM of user 2 and attaches a disk to it. -/
def attachData : DiskRequest where
  uid := ⟨3, rfl⟩
  gid := ⟨5, rfl⟩
  sender := by decide
  purpose := .attach ⟨2, rfl⟩
  vmId := 0
  tmpl := [.vector "DISK" [("IMAGE", "data")]]
  otherAuth := true
  ready := true

def unlimited : SenderQuotas :=
  ⟨QuotaSystem.noQuotas false, QuotaSystem.noQuotas false, QuotaSystem.noQuotas true,
    QuotaSystem.noQuotas true⟩

/-- User 3 has no image of this name, so nothing is asked; the image of user 2 is acquired. -/
theorem foreign_image_acquired :
    ¬ ∀ (between : Nat → ImageWorld → ImageWorld) (r : DiskRequest) (start : ImageWorld)
      (q : SenderQuotas), ∀ oid ∈ r.acquired (r.run between start q),
        r.Covered (r.run between start q) oid := by
  intro always
  have acquired : 7 ∈ attachData.acquired (attachData.run (fun _ w => w) imagesOfTwo unlimited) := by
    decide +kernel
  have tokens : (attachData.run (fun _ w => w) imagesOfTwo unlimited).authorized.flatMap
      (fun l => (l.authorizeDisk attachData.uid attachData.gid).2) = [] := by
    decide +kernel
  obtain ⟨⟨l, mem, token⟩, -⟩ := always (fun _ w => w) attachData imagesOfTwo unlimited 7 acquired
  have asked : (⟨7, true⟩ : UseToken) ∈
      (attachData.run (fun _ w => w) imagesOfTwo unlimited).authorized.flatMap
        (fun l => (l.authorizeDisk attachData.uid attachData.gid).2) :=
    List.mem_flatMap.mpr ⟨l, mem, token⟩
  rw [tokens] at asked
  cases asked

end DiskRequest

end Ezilla
