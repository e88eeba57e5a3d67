import Ezilla.Image.ImagePool

/-!
# The disks of a new VM

A DISK of the user's template names an image or is volatile. `disk_attribute` of the image
pool fills it from the image and from its datastore and numbers it; `get_disk_images` does this
for all disks and gives a target to those that have none: the first disk with an operating
system, the CDs (the context is the first of them) and the others, in this order.

* `DiskWorld.diskAttribute`: one disk, over `ImageDetails.diskAttribute` and
  `DiskDatastore.diskAttribute`;
* `chooseTarget`, `assignDiskTargets`: the search for a free target;
* `VmDisks.getDiskImages`: the disks and the context of a new VM;
* `VmDisks.map_of_getDiskImages`: what the disks keep of the way they were set up.
-/

namespace Ezilla

/-! ## One disk -/

/-- `Image::DiskType`. -/
inductive DiskType where
  | file
  | cdRom
  | block
  | rbd
  deriving DecidableEq, Repr

/-- `Image::disk_type_to_str`. -/
def DiskType.toStr : DiskType → String
  | .file => "FILE"
  | .cdRom => "CDROM"
  | .block => "BLOCK"
  | .rbd => "RBD"

/-- What a disk gets of its image beside the record of the pool. -/
structure ImageDetails where
  name : String
  diskType : DiskType
  /-- its template, but for the `TARGET`, which the pool's record has -/
  tmpl : Template

/-- What a disk gets of the datastore of its image. -/
structure DiskDatastore where
  oid : Nat
  name : String
  tmMad : String
  /-- -1 where it is in no cluster -/
  clusterId : Int

/-- The pools at the moment when a disk is set up. -/
structure DiskWorld where
  users : ImageWorld
  pool : ImageWorld
  details : Nat → ImageDetails
  datastore : Nat → Option DiskDatastore
  defaultDevPrefix : String

/-- `VectorAttribute::replace` with a truth value. -/
def yesNo (value : Bool) : String := if value then "YES" else "NO"

/-- `Image::disk_attribute`: the disk and its device prefix. -/
def ImageDetails.diskAttribute (details : ImageDetails) (oid : Nat) (img : PoolImage)
    (defaultDevPrefix : String) (disk : List (String × String)) :
    List (String × String) × String :=
  let target := Attribute.vectorValue disk "TARGET"
  let driver := Attribute.vectorValue disk "DRIVER"
  let own := Attribute.vectorValue disk "DEV_PREFIX"
  let templateDriver := details.tmpl.getString "DRIVER"
  let templatePtype := (details.tmpl.getString "PERSISTENT_TYPE").toUpper
  let templatePrefix := details.tmpl.getString "DEV_PREFIX"
  let devPrefix :=
    if own ≠ "" then own else if templatePrefix ≠ "" then templatePrefix else defaultDevPrefix
  let disk := if own = "" then Attribute.replace disk "DEV_PREFIX" devPrefix else disk
  let disk := Attribute.replace disk "IMAGE" details.name
  let disk := Attribute.replace disk "IMAGE_ID" (toString oid)
  let disk := Attribute.replace disk "SOURCE" img.image.source
  let disk :=
    if driver = "" ∧ templateDriver ≠ "" then Attribute.replace disk "DRIVER" templateDriver
    else disk
  let disk :=
    if img.image.type = .cdrom ∨ templatePtype = "IMMUTABLE" then
      Attribute.replace disk "READONLY" "YES"
    else if Attribute.vectorValue disk "READONLY" = "" then
      Attribute.replace disk "READONLY"
        (yesNo ((details.tmpl.getString "READONLY").toUpper = "YES"))
    else disk
  let disk :=
    if img.image.persistentImg then
      let disk := Attribute.replace disk "PERSISTENT" "YES"
      let disk := Attribute.replace disk "CLONE" "NO"
      Attribute.replace disk "SAVE" (yesNo (templatePtype ≠ "IMMUTABLE"))
    else
      let disk := Attribute.replace disk "CLONE" "YES"
      Attribute.replace disk "SAVE" "NO"
  let disk := Attribute.replace disk "TYPE" <|
    match img.image.type with
    -- the label `RBD` of the switch is that of a disk type, with the number of `KERNEL`
    | .os | .datablock | .kernel => details.diskType.toStr
    | .cdrom => "CDROM"
    | _ => ""
  let disk :=
    if target = "" ∧ img.target ≠ "" then Attribute.replace disk "TARGET" img.target else disk
  (disk, devPrefix)

/-- `Datastore::disk_attribute`. -/
def DiskDatastore.diskAttribute (ds : DiskDatastore) (disk : List (String × String)) :
    List (String × String) :=
  let disk := Attribute.replace disk "DATASTORE" ds.name
  let disk := Attribute.replace disk "DATASTORE_ID" (toString ds.oid)
  let disk := Attribute.replace disk "TM_MAD" ds.tmMad
  if ds.clusterId ≠ -1 then Attribute.replace disk "CLUSTER_ID" (toString ds.clusterId) else disk

/-- What `ImagePool::disk_attribute` leaves in its arguments. -/
structure DiskAnswer where
  disk : List (String × String)
  imgType : ImageType
  devPrefix : String
  /-- the acquired image, if the disk is not volatile -/
  imageId : Option Nat

/-- `ImagePool::disk_attribute`, `none` for an error. -/
def DiskWorld.diskAttribute (w : DiskWorld) (vmId : Nat) (uid : Int)
    (disk : List (String × String)) (diskId : Int) : Option DiskAnswer :=
  match (DiskLookup.mk disk uid w.users w.pool).diskAttribute vmId with
  | .failed => none
  | .volatile =>
    let own := Attribute.vectorValue disk "DEV_PREFIX"
    let disk := if own = "" then Attribute.replace disk "DEV_PREFIX" w.defaultDevPrefix else disk
    some { disk := Attribute.replace disk "DISK_ID" (toString diskId)
           imgType := .datablock
           devPrefix := if own = "" then w.defaultDevPrefix else own
           imageId := none }
  | .image oid img =>
    let filled := (w.details oid).diskAttribute oid img w.defaultDevPrefix disk
    (w.datastore img.dsId).map fun ds =>
      { disk := Attribute.replace (ds.diskAttribute filled.1) "DISK_ID" (toString diskId)
        imgType := img.image.type
        devPrefix := filled.2
        imageId := some oid }

/-! ## All disks -/

/-- The attributes that the queues point to: the context, or a disk by its position. -/
inductive DiskRef where
  | context
  | disk (position : Nat)
  deriving DecidableEq, Repr

/-- The context and the DISK attributes of a VM. -/
structure VmDisks where
  context : Option (List (String × String))
  disks : List Attribute
  deriving DecidableEq, Repr

/-- Changes one attribute in its place. -/
def VmDisks.modify (vm : VmDisks) (f : List (String × String) → List (String × String)) :
    DiskRef → VmDisks
  | .context => { vm with context := vm.context.map f }
  | .disk i => { vm with disks := vm.disks.modify i (Attribute.modify f) }

/-- The targets with one prefix, in the order of the search. -/
def candidates (devPrefix : String) : List String :=
  (List.range 26).map fun index => devPrefix.push (Char.ofNat ('a'.toNat + index))

/-- The inner loop of `assign_disk_targets`. It ends at the last letter, used or not. -/
def chooseTarget (used : List String) (devPrefix : String) : String :=
  ((candidates devPrefix).find? fun target => target ∉ used).getD (devPrefix.push 'z')

/-- `assign_disk_targets`. -/
def assignDiskTargets : List (String × DiskRef) → VmDisks × List String → VmDisks × List String
  | [], state => state
  | (devPrefix, ref) :: queue, (vm, used) =>
    let target := chooseTarget used devPrefix
    assignDiskTargets queue
      (vm.modify (fun disk => Attribute.replace disk "TARGET" target) ref, target :: used)

/-- The errors of `get_disk_images`. -/
inductive DiskImagesError where
  /-- Exceeded the maximum number of disks (20) -/
  | maxDisks
  /-- Two disks have defined the same target -/
  | duplicatedTarget (target : String)
  /-- the error of `disk_attribute` for a disk -/
  | attribute (diskId : Nat)
  deriving DecidableEq, Repr

/-- The local variables of `get_disk_images`. -/
structure DiskQueues where
  vm : VmDisks
  used : List String
  osDisk : List (String × DiskRef)
  cdromDisks : List (String × DiskRef)
  datablockDisks : List (String × DiskRef)

namespace DiskQueues

/-- The context before the disks; its number is the one after theirs. -/
def start (defaultDevPrefix : String) (numDisks : Nat) : List Attribute → DiskQueues
  | .vector _ values :: _ =>
    let target := Attribute.vectorValue values "TARGET"
    { vm := ⟨some (Attribute.replace values "DISK_ID" (toString numDisks)), []⟩
      used := if target ≠ "" then [target] else []
      osDisk := []
      cdromDisks := if target ≠ "" then [] else [(defaultDevPrefix, .context)]
      datablockDisks := [] }
  | _ => ⟨⟨none, []⟩, [], [], [], []⟩

/-- One DISK attribute after the others. -/
def add (q : DiskQueues) (a : Attribute) : DiskQueues :=
  { q with vm := { q.vm with disks := q.vm.disks ++ [a] } }

/-- One disk that was set up, with the queue that it waits in for a target. -/
def push (q : DiskQueues) (name : String) (answer : DiskAnswer) : Except DiskImagesError DiskQueues :=
  let target := Attribute.vectorValue answer.disk "TARGET"
  let entry := (answer.devPrefix, DiskRef.disk q.vm.disks.length)
  let q := q.add (.vector name answer.disk)
  if target ≠ "" then
    if target ∈ q.used then .error (.duplicatedTarget target)
    else .ok { q with used := target :: q.used }
  else
    match answer.imgType with
    | .os =>
      if q.osDisk = [] then .ok { q with osDisk := [entry] }
      else .ok { q with datablockDisks := q.datablockDisks ++ [entry] }
    | .cdrom => .ok { q with cdromDisks := q.cdromDisks ++ [entry] }
    | .datablock => .ok { q with datablockDisks := q.datablockDisks ++ [entry] }
    | _ => .ok q

/-- The loop over the disks, which are numbered by their position. -/
def setUp (w : Nat → DiskWorld) (vmId : Nat) (uid : Int) :
    List Attribute → DiskQueues → Except DiskImagesError DiskQueues
  | [], q => .ok q
  | .single name value :: disks, q => setUp w vmId uid disks (q.add (.single name value))
  | .vector name values :: disks, q =>
    let i := q.vm.disks.length
    match (w i).diskAttribute vmId uid values i with
    | none => .error (.attribute i)
    | some answer => (q.push name answer).bind (setUp w vmId uid disks)

end DiskQueues

/-- The three queues, one after the other. -/
def DiskQueues.assign (q : DiskQueues) : VmDisks :=
  let state := assignDiskTargets q.osDisk (q.vm, q.used)
  let state := assignDiskTargets q.cdromDisks state
  (assignDiskTargets q.datablockDisks state).1

/-- `VirtualMachine::get_disk_images` on the CONTEXT and the DISK attributes of the user.
`w i` are the pools when disk `i` is set up. -/
def VmDisks.getDiskImages (w : Nat → DiskWorld) (defaultDevPrefix : String) (vmId : Nat) (uid : Int)
    (contextDisks disks : List Attribute) : Except DiskImagesError VmDisks :=
  if disks.length > 20 then .error .maxDisks
  else
    (DiskQueues.setUp w vmId uid disks
      (.start defaultDevPrefix disks.length contextDisks)).map DiskQueues.assign

/-! ## What a disk keeps -/

theorem toOption_eq_some_iff {ε α : Type} {x : Except ε α} {a : α} :
    x.toOption = some a ↔ x = .ok a := by
  cases x with
  | error e => exact iff_of_false nofun nofun
  | ok b => exact ⟨fun same => congrArg Except.ok (Option.some.inj same), congrArg Except.toOption⟩

/-- The names that `Image::disk_attribute` writes. -/
def imageNames : List String :=
  ["DEV_PREFIX", "IMAGE", "IMAGE_ID", "SOURCE", "DRIVER", "READONLY", "PERSISTENT", "CLONE", "SAVE",
    "TYPE", "TARGET"]

theorem ImageDetails.diskAttribute_kept {details : ImageDetails} {oid : Nat} {img : PoolImage}
    {defaultDevPrefix name : String} {disk : List (String × String)} (other : name ∉ imageNames) :
    Attribute.vectorValue (details.diskAttribute oid img defaultDevPrefix disk).1 name =
      Attribute.vectorValue disk name := by
  simp only [imageNames, List.mem_cons, List.not_mem_nil, or_false, not_or] at other
  obtain ⟨h1, h2, h3, h4, h5, h6, h7, h8, h9, h10, h11⟩ := other
  unfold ImageDetails.diskAttribute
  simp only [Attribute.vectorValue_ite, Attribute.vectorValue_replace_ite, h1, h2, h3, h4, h5, h6,
    h7, h8, h9, h10, h11, if_false, ite_self]

/-- A DISK attribute after `disk_attribute`, `none` for an error. -/
def DiskWorld.setUpAttribute (w : DiskWorld) (vmId : Nat) (uid : Int) (i : Nat) :
    Attribute → Option Attribute
  | .single name value => some (.single name value)
  | .vector name values =>
    (w.diskAttribute vmId uid values i).map fun answer => .vector name answer.disk

namespace DiskQueues

variable {q q' : DiskQueues} {w : Nat → DiskWorld} {vmId : Nat} {uid : Int}

theorem vm_push {name : String} {answer : DiskAnswer} (pushed : q.push name answer = .ok q') :
    q'.vm = (q.add (.vector name answer.disk)).vm := by
  unfold push at pushed
  dsimp only at pushed
  repeat' split at pushed
  all_goals cases pushed
  all_goals rfl

theorem setUp_vector {name : String} {values : List (String × String)} {disks : List Attribute}
    (done : setUp w vmId uid (.vector name values :: disks) q = .ok q') : ∃ answer r,
      (w q.vm.disks.length).diskAttribute vmId uid values q.vm.disks.length = some answer ∧
        q.push name answer = .ok r ∧ setUp w vmId uid disks r = .ok q' := by
  rw [setUp] at done
  split at done
  · cases done
  · rename_i answer found
    cases pushed : q.push name answer with
    | error e =>
      rw [pushed] at done
      cases done
    | ok r =>
      rw [pushed] at done
      exact ⟨answer, r, found, pushed, done⟩

/-- The loop leaves every disk in its place. -/
theorem disks_setUp {disks : List Attribute} (done : setUp w vmId uid disks q = .ok q') :
    q'.vm.context = q.vm.context ∧ ∃ added, q'.vm.disks = q.vm.disks ++ added ∧
      added.map some = disks.mapIdx fun i a =>
        (w (q.vm.disks.length + i)).setUpAttribute vmId uid (q.vm.disks.length + i) a := by
  induction disks generalizing q with
  | nil =>
    cases done
    exact ⟨rfl, [], (List.append_nil _).symm, rfl⟩
  | cons a disks ih =>
    -- the next disk has the next number
    have next : ∀ {b : Attribute} {r : DiskQueues}, r.vm = (q.add b).vm →
        some b = (w q.vm.disks.length).setUpAttribute vmId uid q.vm.disks.length a →
        setUp w vmId uid disks r = .ok q' → q'.vm.context = q.vm.context ∧
          ∃ added, q'.vm.disks = q.vm.disks ++ added ∧
            added.map some = (a :: disks).mapIdx fun i a =>
              (w (q.vm.disks.length + i)).setUpAttribute vmId uid (q.vm.disks.length + i) a := by
      intro b r same set rest
      obtain ⟨context, added, tail, each⟩ := ih rest
      rw [same] at context tail each
      refine ⟨context, b :: added, tail.trans (List.append_cons _ _ _).symm, ?_⟩
      rw [List.map_cons, each, List.mapIdx_cons, Nat.add_zero, ← set]
      refine congrArg (some b :: ·) (List.mapIdx_eq_mapIdx_iff.mpr fun i _ => ?_)
      have number : (q.add b).vm.disks.length + i = q.vm.disks.length + (i + 1) := by
        simp only [add, List.length_append, List.length_singleton]
        omega
      rw [number]
    cases a with
    | single name value => exact next rfl rfl done
    | vector name values =>
      obtain ⟨answer, r, found, pushed, rest⟩ := setUp_vector done
      refine next (vm_push pushed) ?_ rest
      rw [DiskWorld.setUpAttribute, found]
      rfl

end DiskQueues

/-- What is read of a disk does not depend on its target. -/
def Attribute.IgnoresTarget {β : Type} (f : Attribute → β) : Prop :=
  ∀ a target, f (a.modify fun disk => Attribute.replace disk "TARGET" target) = f a

theorem Attribute.ignoresTarget_valueText {name : String} (other : name ≠ "TARGET") :
    IgnoresTarget (valueText name) := by
  intro a target
  cases a with
  | single _ _ => rfl
  | vector _ values => exact vectorValue_replace_ne other

namespace VmDisks

variable {β : Type} {f : Attribute → β}

theorem map_modify {vm : VmDisks} {ref : DiskRef} {target : String}
    (ignores : Attribute.IgnoresTarget f) :
    (vm.modify (fun disk => Attribute.replace disk "TARGET" target) ref).disks.map f =
      vm.disks.map f := by
  cases ref with
  | context => rfl
  | disk i =>
    refine List.ext_getElem? fun j => ?_
    simp only [VmDisks.modify, List.getElem?_map, List.getElem?_modify]
    cases vm.disks[j]? with
    | none => rfl
    | some a =>
      dsimp only [Option.map_eq_map, Option.map_some]
      split
      · rw [ignores]
      · rfl

theorem map_assignDiskTargets {queue : List (String × DiskRef)} {vm : VmDisks}
    {used : List String} (ignores : Attribute.IgnoresTarget f) :
    (assignDiskTargets queue (vm, used)).1.disks.map f = vm.disks.map f := by
  induction queue generalizing vm used with
  | nil => rfl
  | cons entry queue ih =>
    rw [assignDiskTargets, ih]
    exact map_modify ignores

end VmDisks

theorem DiskQueues.disks_start {defaultDevPrefix : String} {numDisks : Nat}
    {contextDisks : List Attribute} :
    (DiskQueues.start defaultDevPrefix numDisks contextDisks).vm.disks = [] := by
  unfold DiskQueues.start
  split <;> rfl

theorem VmDisks.setUp_of_getDiskImages {w : Nat → DiskWorld} {defaultDevPrefix : String}
    {vmId : Nat} {uid : Int} {contextDisks disks : List Attribute} {vm : VmDisks}
    (created : getDiskImages w defaultDevPrefix vmId uid contextDisks disks = .ok vm) :
    disks.length ≤ 20 ∧ ∃ q, DiskQueues.setUp w vmId uid disks
      (.start defaultDevPrefix disks.length contextDisks) = .ok q ∧ vm = q.assign := by
  unfold getDiskImages at created
  split at created
  · cases created
  · rename_i few
    refine ⟨Nat.le_of_not_lt few, ?_⟩
    cases done : DiskQueues.setUp w vmId uid disks
      (.start defaultDevPrefix disks.length contextDisks) with
    | error e =>
      rw [done] at created
      cases created
    | ok q =>
      rw [done] at created
      cases created
      exact ⟨q, rfl, rfl⟩

/-- The targets are all that changes in the disks after `disk_attribute`. -/
theorem VmDisks.map_of_getDiskImages {w : Nat → DiskWorld} {defaultDevPrefix : String}
    {vmId : Nat} {uid : Int} {contextDisks disks : List Attribute} {vm : VmDisks} {β : Type}
    {f : Attribute → β} {g : Nat → Attribute → β} (ignores : Attribute.IgnoresTarget f)
    (each : ∀ i < 20, ∀ a b, (w i).setUpAttribute vmId uid i a = some b → f b = g i a)
    (created : getDiskImages w defaultDevPrefix vmId uid contextDisks disks = .ok vm) :
    vm.disks.map f = disks.mapIdx g := by
  obtain ⟨few, q, done, rfl⟩ := setUp_of_getDiskImages created
  obtain ⟨_, added, tail, set⟩ := DiskQueues.disks_setUp done
  rw [DiskQueues.disks_start] at tail set
  simp only [List.length_nil, Nat.zero_add] at set
  unfold DiskQueues.assign
  rw [map_assignDiskTargets ignores, map_assignDiskTargets ignores,
    map_assignDiskTargets ignores, tail, List.nil_append]
  refine List.ext_getElem? fun i => ?_
  have here := congrArg (fun l => l[i]?) set
  simp only [List.getElem?_map, List.getElem?_mapIdx] at here ⊢
  cases found : disks[i]? with
  | none =>
    rw [found] at here
    rw [Option.map_eq_none_iff.mp here]
    rfl
  | some a =>
    rw [found] at here
    obtain ⟨b, there, set⟩ := Option.map_eq_some_iff.mp here
    have below : i < disks.length := (List.getElem?_eq_some_iff.mp found).1
    rw [there]
    exact congrArg some (each i (by omega) a b set.symm)

end Ezilla
