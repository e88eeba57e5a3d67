import Ezilla.Vm.ClusterBinding
import Ezilla.Vm.DiskRuns
import Ezilla.Vm.RestrictedAttributes

/-!
# What a new VM has from its user

`insert` takes the attributes of the user's text apart: some go, some are moved under another
name, and into the networks, the disks, the files and the context it writes values of its own,
over those of the user or beside them.

* `VmCreation.create`: the attributes that are set up, with the context as it is parsed;
* `NicWorld.sets`, `DiskWorld.sets`, `FileWorld.sets`: the values that the machine writes,
  whatever the user wrote there;
* `VmCreation.supplied`: what is left of the user.
-/

namespace Ezilla

/-! ## The new VM -/

/-- The pools while a VM is created, and what its context may refer to. -/
structure VmCreation where
  world : VmWorld
  files : ContextWorld
  scope : VariableScope
  vmId : Nat
  uid : Int

/-- The attributes of a VM after `get_disk_images`, and the context after `parse_context`. -/
structure CreatedVm where
  resources : VmResources
  context : Option (List (String × String))
  deriving DecidableEq, Repr

namespace VmCreation

/-- The request for the disks and the context. -/
def disks (c : VmCreation) (tmpl : Template) : DiskCreation :=
  ⟨c.world.disks, c.world.defaultDevPrefix, c.files, c.scope, tmpl⟩

/-- The part of `VirtualMachine::insert` that sets up attributes of the user. -/
def create (c : VmCreation) (tmpl : Template) : Option CreatedVm := do
  let resources ← c.world.setUp c.vmId c.uid tmpl
  let context ← (parseContext c.files c.scope
    ((c.disks tmpl).contexts resources.disks)).toOption
  return ⟨resources, context⟩

end VmCreation

/-! ## The values that the machine writes -/

/-- The values that `VirtualNetwork::nic_attribute` and the pool write. A network that the user
names and an address that he asks for are his; with a name, the id is not. -/
def VirtualNetwork.sets (net : VirtualNetwork) (nic : List (String × String)) : List String :=
  ["BRIDGE", "MAC", "IP6_LINK", "VLAN", "NIC_ID"] ++
    (if Attribute.vectorValue nic "NETWORK" ≠ "" then ["NETWORK_ID"] else []) ++
    (if net.global ≠ "" then ["IP6_GLOBAL"] else []) ++
    (if net.site ≠ "" then ["IP6_SITE"] else []) ++
    (if net.phydev ≠ "" then ["PHYDEV"] else []) ++
    (if net.vlanId ≠ "" then ["VLAN_ID"] else []) ++
    (if net.clusterId ≠ -1 then ["CLUSTER_ID"] else [])

def NicWorld.sets (w : NicWorld) (nic : List (String × String)) : List String :=
  ((w.networkOf nic).map fun net => net.sets nic).getD []

/-- The values that `Image::disk_attribute` writes. -/
def ImageDetails.sets (details : ImageDetails) (img : PoolImage) (disk : List (String × String)) :
    List String :=
  ["SOURCE", "CLONE", "SAVE", "TYPE"] ++
    (if Attribute.vectorValue disk "IMAGE" ≠ "" then ["IMAGE_ID"] else []) ++
    (if img.image.type = .cdrom ∨
        (details.tmpl.getString "PERSISTENT_TYPE").toUpper = "IMMUTABLE" then ["READONLY"] else []) ++
    (if img.image.persistentImg then ["PERSISTENT"] else [])

/-- The values that `Datastore::disk_attribute` writes. -/
def DiskDatastore.sets (ds : DiskDatastore) : List String :=
  ["DATASTORE", "DATASTORE_ID", "TM_MAD"] ++ if ds.clusterId ≠ -1 then ["CLUSTER_ID"] else []

/-- The values that `ImagePool::disk_attribute` writes. -/
def DiskWorld.sets (w : DiskWorld) (vmId : Nat) (uid : Int) (disk : List (String × String)) :
    List String :=
  "DISK_ID" ::
    match (DiskLookup.mk disk uid w.users w.pool).diskAttribute vmId with
    | .image oid img =>
      (w.details oid).sets img disk ++ ((w.datastore img.dsId).map DiskDatastore.sets).getD []
    | _ => []

/-- The values that `set_os_file` writes or removes. -/
def FileWorld.sets (w : FileWorld) (os : List (String × String)) (baseName : String) :
    List String :=
  if Attribute.vectorValue os (baseName ++ "_DS") = "" then []
  else
    [baseName, baseName ++ "_DS_ID", baseName ++ "_DS_SOURCE", baseName ++ "_DS_DSID",
        baseName ++ "_DS_TM"] ++
      if (w.osDatastore os baseName).any fun ds => ds.clusterId ≠ -1 then
        [baseName ++ "_DS_CLUSTER_ID"]
      else []

section Sets

variable {name : String}

/-- What the network writes does not depend on the user. -/
theorem VirtualNetwork.leaseValues_set {net : VirtualNetwork} {nic : List (String × String)}
    {inetNtop : Nat → Nat → Nat → Nat → String} {ip : String} {lease : Lease}
    (set : name ∈ net.sets nic) (pool : name ≠ "NIC_ID") :
    Attribute.vectorValue (net.leaseValues inetNtop nic ip lease) name =
      Attribute.vectorValue (net.leaseValues inetNtop [] ip lease) name := by
  unfold leaseValues
  simp only [Attribute.vectorValue_ite, Attribute.vectorValue_replace_ite]
  simp only [sets, List.mem_append, List.mem_cons, List.mem_ite_nil_right, List.not_mem_nil,
    or_false] at set
  rcases set with ((((((h | h | h | h | h) | ⟨-, h⟩) | ⟨c, h⟩) | ⟨c, h⟩) | ⟨c, h⟩) | ⟨c, h⟩) | ⟨c, h⟩
  all_goals subst h
  all_goals simp_all

/-- The rest of a NIC stays as the user wrote it. -/
theorem VirtualNetwork.leaseValues_kept {net : VirtualNetwork} {nic : List (String × String)}
    {inetNtop : Nat → Nat → Nat → Nat → String} {ip : String} {lease : Lease}
    (unset : name ∉ net.sets nic) (asked : name ∉ ["NETWORK", "NETWORK_ID", "IP"]) :
    Attribute.vectorValue (net.leaseValues inetNtop nic ip lease) name =
      Attribute.vectorValue nic name := by
  unfold leaseValues
  simp only [Attribute.vectorValue_ite, Attribute.vectorValue_replace_ite]
  simp only [sets, List.mem_append, List.mem_cons, List.mem_ite_nil_right, List.not_mem_nil,
    or_false, not_or, not_and] at unset asked
  simp_all

/-- What the image writes does not depend on the user. -/
theorem ImageDetails.diskAttribute_set {details : ImageDetails} {img : PoolImage} {oid : Nat}
    {defaultDevPrefix : String} {disk : List (String × String)} (set : name ∈ details.sets img disk) :
    Attribute.vectorValue (details.diskAttribute oid img defaultDevPrefix disk).1 name =
      Attribute.vectorValue (details.diskAttribute oid img defaultDevPrefix []).1 name := by
  unfold diskAttribute
  simp only [Attribute.vectorValue_ite, Attribute.vectorValue_replace_ite]
  simp only [sets, List.mem_append, List.mem_cons, List.mem_ite_nil_right, List.not_mem_nil,
    or_false] at set
  rcases set with (((h | h | h | h) | ⟨-, h⟩) | ⟨c, h⟩) | ⟨c, h⟩
  all_goals subst h
  all_goals simp_all

/-- The rest of a disk stays as the user wrote it, where he did. -/
theorem ImageDetails.diskAttribute_left {details : ImageDetails} {img : PoolImage} {oid : Nat}
    {defaultDevPrefix : String} {disk : List (String × String)}
    (unset : name ∉ details.sets img disk) (asked : name ∉ ["IMAGE", "IMAGE_ID"])
    (written : Attribute.vectorValue disk name ≠ "") :
    Attribute.vectorValue (details.diskAttribute oid img defaultDevPrefix disk).1 name =
      Attribute.vectorValue disk name := by
  unfold diskAttribute
  simp only [Attribute.vectorValue_ite, Attribute.vectorValue_replace_ite]
  simp only [sets, List.mem_append, List.mem_cons, List.mem_ite_nil_right, List.not_mem_nil,
    or_false, not_or, not_and] at unset asked
  -- the values that are written only where the user left them open, and the rest
  by_cases open_ : name ∈ ["DEV_PREFIX", "DRIVER", "READONLY", "TARGET"]
  · simp only [List.mem_cons, List.not_mem_nil, or_false] at open_
    rcases open_ with rfl | rfl | rfl | rfl <;> simp_all
  · simp only [List.mem_cons, List.not_mem_nil, or_false, not_or] at open_
    simp_all

end Sets

/-! ## The values of the user -/

namespace Attribute

/-- The values of a vector attribute. -/
def values : Attribute → List (String × String)
  | vector _ values => values
  | single _ _ => []

/-- An attribute as it is stored, without the values that the machine wrote: those that it
writes in any case, and those that the user left open. -/
def ofUser (stored written : Attribute) (sets : List String) : Attribute :=
  stored.without fun field => vectorValue written.values field = "" || field ∈ sets

end Attribute

/-- The context as it is stored, without its number, and without its device where the user gave
none. The rest of it, whatever became of it in `parse_context`, is from the user. -/
def contextOfUser (written setUp stored : List (String × String)) : Attribute :=
  .vector "CONTEXT" <| stored.filter fun v =>
    !(v = ("DISK_ID", Attribute.vectorValue setUp "DISK_ID")) &&
      !(Attribute.vectorValue written "TARGET" = "" &&
        v = ("TARGET", Attribute.vectorValue setUp "TARGET"))

/-- The contexts of the VM without what the machine wrote. -/
def CreatedVm.contextsOfUser (vm : CreatedVm) (tmpl : Template) : List Attribute :=
  ((tmpl.get "CONTEXT").zip vm.context.toList).map fun context =>
    contextOfUser context.1.values (vm.resources.disks.context.getD []) context.2

/-- The attributes that `insert` sets up one by one. -/
def setUpNames : List String := ["NIC", "DISK", "OS", "CONTEXT"]

/-- What `insert` leaves of the other attributes. It numbers the VM itself, takes single values
for some names and erases all of them, and stores the requirements under one name. -/
def Template.leaves (tmpl : Template) : Attribute → Option Attribute
  | .single name value =>
    if name ∈ setUpNames ++ ["VMID", "TEMPLATE_NAME"] then none
    else if name = "REQUIREMENTS" then
      if tmpl.get "SCHED_REQUIREMENTS" = [] then some (.single "SCHED_REQUIREMENTS" value) else none
    else some (.single name value)
  | .vector name values =>
    if name ∈ setUpNames ++ ["VMID", "TEMPLATE_ID", "NAME", "TEMPLATE_NAME", "MEMORY", "CPU",
        "SCHED_REQUIREMENTS", "REQUIREMENTS"] then none
    else if name = "VCPU" ∧ tmpl.getString "VCPU" ≠ "" then none
    else some (.vector name values)

namespace VmCreation

variable (c : VmCreation) (tmpl : Template) (vm : CreatedVm)

/-- The networks without what the machine wrote. -/
def nicsOfUser : List Attribute :=
  ((tmpl.get "NIC").zip vm.resources.nics).mapIdx fun i nic =>
    nic.2.ofUser nic.1 ((c.world.nics i).sets nic.1.values)

/-- The disks without what the machine wrote. -/
def disksOfUser : List Attribute :=
  ((tmpl.get "DISK").zip vm.resources.disks.disks).mapIdx fun i disk =>
    disk.2.ofUser disk.1 ((c.world.disks i).sets c.vmId c.uid disk.1.values)

/-- The files without what the machine wrote. -/
def osOfUser : List Attribute :=
  ((tmpl.get "OS").zip vm.resources.os.toList).map fun os =>
    (Attribute.vector "OS" os.2).ofUser os.1
      ((c.world.files .kernel).sets os.1.values "KERNEL" ++
        (c.world.files .ramdisk).sets os.1.values "INITRD")

/-- What the VM has from some attributes of its text. -/
def supplied (mine : Template) : Template :=
  (if mine.get "NIC" = [] then [] else c.nicsOfUser tmpl vm) ++
    (if mine.get "DISK" = [] then [] else c.disksOfUser tmpl vm) ++
    (if mine.get "OS" = [] then [] else c.osOfUser tmpl vm) ++
    (if mine.get "CONTEXT" = [] then [] else vm.contextsOfUser tmpl) ++
    mine.filterMap tmpl.leaves

end VmCreation

/-! ## Attributes that are attached -/

/-- A VM to which a disk or a network is attached. -/
structure AttachWorld where
  vmId : Nat
  uid : Int
  disk : DiskWorld
  usedTargets : List String
  maxDiskId : Int
  nic : NicWorld
  maxNicId : Nat
  inetNtop : Nat → Nat → Nat → Nat → String

namespace AttachWorld

/-- The disk of an attach request, without what the machine wrote. -/
def disk? (w : AttachWorld) (tmpl : Template) : Option Attribute :=
  match tmpl.get "DISK", setUpAttachDisk w.disk w.vmId w.uid w.usedTargets w.maxDiskId
      (tmpl.get "DISK") with
  | [written], .ok stored =>
    some ((Attribute.vector "DISK" stored).ofUser written
      ("ATTACH" :: w.disk.sets w.vmId w.uid written.values))
  | _, _ => none

/-- `VirtualMachine::set_up_attach_nic`, with what the machine did not write. -/
def nic? (w : AttachWorld) (tmpl : Template) : Option Attribute :=
  match tmpl.get "NIC" with
  | [.vector name written] =>
    let own (stored : List (String × String)) : Attribute :=
      (Attribute.vector "NIC" stored).ofUser (.vector name written)
        ("ATTACH" :: w.nic.sets written)
    match w.nic.nicAttribute w.inetNtop written (w.maxNicId + 1) w.vmId with
    | .failed => none
    | .unused => some (own written)
    | .leased stored => some (own stored)
  | _ => none

end AttachWorld

end Ezilla
