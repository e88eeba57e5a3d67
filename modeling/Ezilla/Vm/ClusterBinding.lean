import Ezilla.Sched.Requirements
import Ezilla.Vm.OsFiles
import Ezilla.Vnm.LeaseFailures

/-!
# The cluster of a new VM

`insert` sets up the files, the networks and the disks of a VM one after the other, and each
routine writes the cluster of the datastore or the network into the attribute that it fills.
`automatic_requirements` reads these values back and requires the one cluster that they name.

* `VmWorld.setUp`: the three routines;
* `ClusterUse`: the clusters of a VM, beside the values that the user wrote himself;
* `automaticRequirements_eq_ok_iff`: the fold over the values that are read;
* `bound_iff`: when the VM is bound to the clusters that occur. The kernel and the ramdisk are
  written under `KERNEL_DS_CLUSTER_ID` and `INITRD_DS_CLUSTER_ID` and read under other names.
-/

namespace Ezilla

/-! ## The networks -/

/-- The networks at the moment when a NIC is set up: the one that it names, and the answers of
the database. -/
structure NicWorld where
  network : List (String × String) → Option VirtualNetwork
  db : Nat → LeaseAnswer

/-- What `VirtualNetworkPool::nic_attribute` returns, with the NIC. -/
inductive NicAnswer where
  /-- -2: the NIC is in no network of the pool -/
  | unused
  | failed
  | leased (nic : List (String × String))

/-- `VirtualNetworkPool::nic_attribute`. A search for a lease that is not defined is a failure
here: there is no VM then. -/
def NicWorld.nicAttribute (w : NicWorld) (inetNtop : Nat → Nat → Nat → Nat → String)
    (nic : List (String × String)) (nicId : Nat) (vid : Int) : NicAnswer :=
  if Attribute.vectorValue nic "NETWORK" = "" ∧ Attribute.vectorValue nic "NETWORK_ID" = "" then
    .unused
  else
    match w.network nic with
    | none => .failed
    | some vnet =>
      match vnet.nicAttribute inetNtop nic vid w.db with
      | some (true, nic, _) => .leased (Attribute.replace nic "NIC_ID" (toString nicId))
      | _ => .failed

/-- `VirtualMachine::get_network_leases` on the NIC attributes from number `i` on. -/
def getNetworkLeases (w : Nat → NicWorld) (inetNtop : Nat → Nat → Nat → Nat → String) (vid : Int) :
    Nat → List Attribute → Option (List Attribute)
  | _, [] => some []
  | i, .single name value :: nics =>
    (getNetworkLeases w inetNtop vid (i + 1) nics).map (.single name value :: ·)
  | i, .vector name nic :: nics =>
    match (w i).nicAttribute inetNtop nic i vid with
    | .failed => none
    | .unused => (getNetworkLeases w inetNtop vid (i + 1) nics).map (.vector name nic :: ·)
    | .leased nic => (getNetworkLeases w inetNtop vid (i + 1) nics).map (.vector name nic :: ·)

/-! ## The new VM -/

/-- The pools while a VM is created. -/
structure VmWorld where
  files : ImageType → FileWorld
  nics : Nat → NicWorld
  disks : Nat → DiskWorld
  inetNtop : Nat → Nat → Nat → Nat → String
  defaultDevPrefix : String

/-- The attributes that `insert` has set up when it comes to the requirements. -/
structure VmResources where
  os : Option (List (String × String))
  nics : List Attribute
  disks : VmDisks
  deriving DecidableEq, Repr

/-- The part of `VirtualMachine::insert` that sets up the files, the networks and the disks. -/
def VmWorld.setUp (w : VmWorld) (vid : Nat) (uid : Int) (tmpl : Template) : Option VmResources := do
  let os ← (parseOs w.files (tmpl.get "OS")).toOption
  let nics ← getNetworkLeases w.nics w.inetNtop vid 0 (tmpl.get "NIC")
  let disks ← (VmDisks.getDiskImages w.disks w.defaultDevPrefix vid uid (tmpl.get "CONTEXT")
    (tmpl.get "DISK")).toOption
  return ⟨os, nics, disks⟩

/-- The values that `automatic_requirements` reads. -/
def VmResources.clusters (vm : VmResources) : VmClusters where
  disks := vm.disks.disks.map (Attribute.valueText "CLUSTER_ID")
  kernel := Attribute.vectorValue (vm.os.getD []) "KERNEL_CLUSTER_ID"
  initrd := Attribute.vectorValue (vm.os.getD []) "INITRD_CLUSTER_ID"
  nics := vm.nics.map (Attribute.valueText "CLUSTER_ID")

/-! ## The clusters that occur -/

/-- A cluster, unless it is `ClusterPool::NONE_CLUSTER_ID`. -/
def clusterOf (clusterId : Int) : Option Int := if clusterId = -1 then none else some clusterId

/-- The datastore of the image that a disk acquires. -/
def DiskWorld.imageDatastore (w : DiskWorld) (vmId : Nat) (uid : Int)
    (disk : List (String × String)) : Option DiskDatastore :=
  match (DiskLookup.mk disk uid w.users w.pool).diskAttribute vmId with
  | .image _ img => w.datastore img.dsId
  | _ => none

/-- The network of a NIC. -/
def NicWorld.networkOf (w : NicWorld) (nic : List (String × String)) : Option VirtualNetwork :=
  if Attribute.vectorValue nic "NETWORK" = "" ∧ Attribute.vectorValue nic "NETWORK_ID" = "" then none
  else w.network nic

/-- An element of a VM: the cluster of its datastore or network, and the value that the user
wrote where the daemon reads the cluster. -/
structure ClusterEntry where
  cluster : Option Int
  own : String

/-- The value of an element that its cluster is written over. -/
def ClusterEntry.text (e : ClusterEntry) : String :=
  match e.cluster with
  | none => e.own
  | some c => toString c

/-- The elements of a VM. -/
structure ClusterUse where
  disks : List ClusterEntry
  kernel : ClusterEntry
  initrd : ClusterEntry
  nics : List ClusterEntry

/-- The element of a DISK. -/
def DiskWorld.entry (w : DiskWorld) (vmId : Nat) (uid : Int) (disk : List (String × String)) :
    ClusterEntry where
  cluster := (w.imageDatastore vmId uid disk).bind fun ds => clusterOf ds.clusterId
  own := Attribute.vectorValue disk "CLUSTER_ID"

/-- The element of a NIC. -/
def NicWorld.entry (w : NicWorld) (nic : List (String × String)) : ClusterEntry where
  cluster := (w.networkOf nic).bind fun net => clusterOf net.clusterId
  own := Attribute.vectorValue nic "CLUSTER_ID"

/-- An attribute without values has no cluster. -/
def Attribute.entry (f : List (String × String) → ClusterEntry) : Attribute → ClusterEntry
  | single _ _ => ⟨none, ""⟩
  | vector _ values => f values

/-- The element of a file; its cluster is not written over the value of the user. -/
def FileWorld.entry (w : FileWorld) (os : List (String × String)) (baseName : String) :
    ClusterEntry where
  cluster := (w.osDatastore os baseName).bind fun ds => clusterOf ds.clusterId
  own := Attribute.vectorValue os (baseName ++ "_CLUSTER_ID")

/-- The elements of the VM that a template describes. -/
def VmWorld.clusterUse (w : VmWorld) (vid : Nat) (uid : Int) (tmpl : Template) : ClusterUse where
  disks := (tmpl.get "DISK").mapIdx fun i => Attribute.entry ((w.disks i).entry vid uid)
  kernel := (w.files .kernel).entry (osValues (tmpl.get "OS")) "KERNEL"
  initrd := (w.files .ramdisk).entry (osValues (tmpl.get "OS")) "INITRD"
  nics := (tmpl.get "NIC").mapIdx fun i => Attribute.entry (w.nics i).entry

namespace ClusterUse

/-- The clusters that occur in a VM. -/
def occurring (u : ClusterUse) : List Int :=
  (u.disks ++ [u.kernel, u.initrd] ++ u.nics).filterMap ClusterEntry.cluster

/-- The values that the daemon reads. -/
def read (u : ClusterUse) : List String :=
  u.disks.map ClusterEntry.text ++ [u.kernel.own, u.initrd.own] ++ u.nics.map ClusterEntry.text

/-- The values among these that the user wrote. -/
def own (u : ClusterUse) : List String :=
  ((u.disks ++ u.nics).filter fun e => e.cluster = none).map ClusterEntry.own ++
    [u.kernel.own, u.initrd.own]

/-- The user names no cluster that does not occur, and the clusters of the kernel and of the
ramdisk are also those of a disk, of a network or of the user. -/
def Counted (u : ClusterUse) : Prop :=
  (∀ text ∈ u.own, text = "" ∨ ∃ c ∈ u.occurring, text = toString c) ∧
    ∀ c, u.kernel.cluster = some c ∨ u.initrd.cluster = some c → toString c ∈ u.read

/-- Two clusters occur, and two are read. -/
def Split (u : ClusterUse) : Prop :=
  (∃ a ∈ u.occurring, ∃ b ∈ u.occurring, a ≠ b) ∧
    ∃ s ∈ u.read, ∃ t ∈ u.read, s ≠ "" ∧ t ≠ "" ∧ s ≠ t

/-- The values that are read name the clusters that occur, and only these. -/
def Matching (u : ClusterUse) : Prop :=
  ∀ text, text ≠ "" → (text ∈ u.read ↔ ∃ c ∈ u.occurring, text = toString c)

end ClusterUse

/-- The requirements step succeeds if and only if the clusters that occur are one, and then it
requires this one, or nothing if there is none. -/
def Bound (occurring : List Int) (result : Except ClusterError String) : Prop :=
  ((∃ requirements, result = .ok requirements) ↔ ∀ a ∈ occurring, ∀ b ∈ occurring, a = b) ∧
    ∀ requirements, result = .ok requirements →
      (∀ a ∈ occurring, requirements = "CLUSTER_ID = " ++ toString a) ∧
        (occurring = [] → requirements = "")

/-! ## What the daemon reads -/

/-- The values of all elements, in the order in which they are read. -/
def VmClusters.texts (vm : VmClusters) : List String :=
  vm.disks ++ [vm.kernel, vm.initrd] ++ vm.nics

/-- The value that the others agree on, empty if all are. -/
structure Agreed (texts : List String) (clusterId : String) : Prop where
  same : ∀ text ∈ texts, text = "" ∨ text = clusterId
  read : clusterId = "" ∨ clusterId ∈ texts

theorem checkAndSetClusterId_eq_some_iff {text clusterId result : String} :
    checkAndSetClusterId text clusterId = some result ↔
      (text = "" ∨ clusterId = "" ∨ text = clusterId) ∧
        result = if clusterId = "" then text else clusterId := by
  unfold checkAndSetClusterId
  grind

/-- Two values that fit stand for one. -/
theorem Agreed.cons_iff {texts : List String} {text clusterId result : String} :
    Agreed (clusterId :: text :: texts) result ↔ (text = "" ∨ clusterId = "" ∨ text = clusterId) ∧
      Agreed ((if clusterId = "" then text else clusterId) :: texts) result := by
  constructor
  · intro agreed
    have first := agreed.same clusterId List.mem_cons_self
    have second := agreed.same text (List.mem_cons_of_mem _ List.mem_cons_self)
    refine ⟨by grind, fun t member => ?_, ?_⟩
    · rcases List.mem_cons.mp member with rfl | member
      · split <;> assumption
      · exact agreed.same t (List.mem_cons_of_mem _ (List.mem_cons_of_mem _ member))
    · have read := agreed.read
      simp only [List.mem_cons] at read ⊢
      grind
  · intro ⟨fits, agreed⟩
    have first := agreed.same _ List.mem_cons_self
    refine ⟨fun t member => ?_, ?_⟩
    · rcases List.mem_cons.mp member with rfl | member
      · grind
      · rcases List.mem_cons.mp member with rfl | member
        · grind
        · exact agreed.same t (List.mem_cons_of_mem _ member)
    · have read := agreed.read
      simp only [List.mem_cons] at read ⊢
      grind

theorem foldlM_checkAndSetClusterId {texts : List String} {clusterId result : String} :
    texts.foldlM (fun clusterId text => checkAndSetClusterId text clusterId) clusterId =
      some result ↔ Agreed (clusterId :: texts) result := by
  induction texts generalizing clusterId with
  | nil =>
    constructor
    · intro same
      cases same
      exact ⟨fun text member => .inr (List.mem_singleton.mp member), .inr List.mem_cons_self⟩
    · intro agreed
      have first := agreed.same clusterId List.mem_cons_self
      have read := agreed.read
      rw [List.mem_singleton] at read
      have same : clusterId = result := by
        rcases first with none | same
        · rcases read with empty | same
          · rw [none, empty]
          · exact same.symm
        · exact same
      rw [same]
      rfl
  | cons text texts ih =>
    rw [List.foldlM_cons, Agreed.cons_iff]
    constructor
    · intro folded
      obtain ⟨next, step, rest⟩ := Option.bind_eq_some_iff.mp folded
      obtain ⟨fits, rfl⟩ := checkAndSetClusterId_eq_some_iff.mp step
      exact ⟨fits, ih.mp rest⟩
    · intro ⟨fits, agreed⟩
      have step := checkAndSetClusterId_eq_some_iff.mpr ⟨fits, rfl⟩
      exact Option.bind_eq_some_iff.mpr ⟨_, step, ih.mpr agreed⟩

theorem toOption_checkClusterIds {error : Nat → String → ClusterError} {i : Nat}
    {texts : List String} {clusterId : String} :
    (checkClusterIds error i texts clusterId).toOption =
      texts.foldlM (fun clusterId text => checkAndSetClusterId text clusterId) clusterId := by
  induction texts generalizing i clusterId with
  | nil => rfl
  | cons text texts ih =>
    rw [checkClusterIds, List.foldlM_cons]
    cases checkAndSetClusterId text clusterId with
    | none => rfl
    | some next => exact ih

theorem toOption_bind {ε α β : Type} (x : Except ε α) (f : α → Except ε β) :
    (x >>= f).toOption = x.toOption >>= fun a => (f a).toOption := by
  cases x <;> rfl

/-- The requirements of the daemon are those of the value that all elements agree on. -/
theorem automaticRequirements_eq_ok_iff {vm : VmClusters} {requirements : String} :
    automaticRequirements vm = .ok requirements ↔ ∃ clusterId, Agreed vm.texts clusterId ∧
      requirements = if clusterId ≠ "" then "CLUSTER_ID = " ++ clusterId else "" := by
  have folded : (automaticRequirements vm).toOption =
      (vm.texts.foldlM (fun clusterId text => checkAndSetClusterId text clusterId) "").map
        fun clusterId => if clusterId ≠ "" then "CLUSTER_ID = " ++ clusterId else "" := by
    unfold automaticRequirements VmClusters.texts
    rw [← Option.map_eq_map, map_eq_pure_bind]
    simp only [toOption_bind, toOption_checkClusterIds, List.foldlM_append, List.foldlM_cons,
      List.foldlM_nil, bind_assoc, bind_pure]
    rfl
  rw [← toOption_eq_some_iff, folded, Option.map_eq_some_iff]
  refine exists_congr fun clusterId => and_congr ?_ eq_comm
  rw [foldlM_checkAndSetClusterId]
  constructor
  · intro agreed
    refine ⟨fun text member => agreed.same text (List.mem_cons_of_mem _ member), ?_⟩
    rcases agreed.read with empty | member
    · exact .inl empty
    · exact List.mem_cons.mp member
  · intro agreed
    refine ⟨fun text member => ?_, agreed.read.imp_right (List.mem_cons_of_mem _)⟩
    rcases List.mem_cons.mp member with rfl | member
    · exact .inl rfl
    · exact agreed.same text member

/-! ## The values that were written -/

variable {w : VmWorld} {vid : Nat} {uid : Int} {tmpl : Template} {vm : VmResources}

theorem DiskDatastore.cluster_diskAttribute (ds : DiskDatastore) (disk : List (String × String)) :
    Attribute.vectorValue (ds.diskAttribute disk) "CLUSTER_ID" =
      (ClusterEntry.mk (clusterOf ds.clusterId) (Attribute.vectorValue disk "CLUSTER_ID")).text := by
  unfold DiskDatastore.diskAttribute clusterOf ClusterEntry.text
  dsimp only
  split
  · rename_i clustered
    exact Attribute.vectorValue_replace
  · rename_i alone
    rw [if_pos (not_not.mp alone), Attribute.vectorValue_replace_ne (by decide),
      Attribute.vectorValue_replace_ne (by decide), Attribute.vectorValue_replace_ne (by decide)]

/-- The cluster of a disk is that of its datastore. -/
theorem DiskWorld.cluster_diskAttribute {w : DiskWorld} {disk : List (String × String)} {i : Int}
    {answer : DiskAnswer} (done : w.diskAttribute vid uid disk i = some answer) :
    Attribute.vectorValue answer.disk "CLUSTER_ID" = (w.entry vid uid disk).text := by
  unfold DiskWorld.diskAttribute at done
  unfold DiskWorld.entry DiskWorld.imageDatastore
  split at done
  · cases done
  · rename_i volatile
    cases done
    rw [volatile]
    dsimp only
    rw [Attribute.vectorValue_replace_ne (by decide), Attribute.vectorValue_ite,
      Attribute.vectorValue_replace_ne (by decide), ite_self]
    rfl
  · rename_i oid img acquired
    obtain ⟨ds, found, rfl⟩ := Option.map_eq_some_iff.mp done
    have kept := @ImageDetails.diskAttribute_kept (w.details oid) oid img w.defaultDevPrefix
      "CLUSTER_ID" disk (by decide)
    rw [Attribute.vectorValue_replace_ne (by decide), DiskDatastore.cluster_diskAttribute, kept,
      acquired]
    exact congrArg (fun ds? : Option DiskDatastore => (ClusterEntry.mk
      (ds?.bind fun ds => clusterOf ds.clusterId) _).text) found.symm

theorem DiskWorld.cluster_setUpAttribute {w : DiskWorld} {i : Nat} {a b : Attribute}
    (done : w.setUpAttribute vid uid i a = some b) :
    b.valueText "CLUSTER_ID" = (a.entry (w.entry vid uid)).text := by
  cases a with
  | single name value =>
    cases done
    rfl
  | vector name values =>
    obtain ⟨answer, set, rfl⟩ := Option.map_eq_some_iff.mp done
    exact DiskWorld.cluster_diskAttribute set

theorem clusters_getDiskImages {w : Nat → DiskWorld} {defaultDevPrefix : String}
    {contextDisks disks : List Attribute} {vm : VmDisks}
    (created : VmDisks.getDiskImages w defaultDevPrefix vid uid contextDisks disks = .ok vm) :
    vm.disks.map (Attribute.valueText "CLUSTER_ID") =
      (disks.mapIdx fun i => Attribute.entry ((w i).entry vid uid)).map ClusterEntry.text := by
  rw [VmDisks.map_of_getDiskImages (Attribute.ignoresTarget_valueText (by decide))
    (fun i _ a b set => DiskWorld.cluster_setUpAttribute set) created]
  refine List.mapIdx_eq_iff.mpr fun i => ?_
  rw [List.getElem?_map, List.getElem?_mapIdx, Option.map_map]
  rfl

theorem VirtualNetwork.cluster_nicAttribute {net : VirtualNetwork}
    {inetNtop : Nat → Nat → Nat → Nat → String} {nic nic' : List (String × String)} {vnid : Int}
    {db : Nat → LeaseAnswer} {net' : VirtualNetwork}
    (leased : net.nicAttribute inetNtop nic vnid db = some (true, nic', net')) :
    Attribute.vectorValue nic' "CLUSTER_ID" =
      (ClusterEntry.mk (clusterOf net.clusterId) (Attribute.vectorValue nic "CLUSTER_ID")).text := by
  unfold VirtualNetwork.nicAttribute at leased
  obtain ⟨out, _, same⟩ := Option.map_eq_some_iff.mp leased
  dsimp only at same
  split at same
  · cases same
  · cases same
    unfold VirtualNetwork.leaseValues clusterOf ClusterEntry.text
    simp only [Attribute.vectorValue_ite, Attribute.vectorValue_replace_ite, String.reduceEq,
      if_false, if_true, ite_self]
    split
    · rfl
    · rename_i alone
      rw [if_pos (not_not.mp alone)]

theorem NicWorld.cluster_nicAttribute {w : NicWorld} {inetNtop : Nat → Nat → Nat → Nat → String}
    {nic nic' : List (String × String)} {i : Nat} {vnid : Int} :
    (w.nicAttribute inetNtop nic i vnid = .unused →
      Attribute.vectorValue nic "CLUSTER_ID" = (w.entry nic).text) ∧
    (w.nicAttribute inetNtop nic i vnid = .leased nic' →
      Attribute.vectorValue nic' "CLUSTER_ID" = (w.entry nic).text) := by
  unfold NicWorld.nicAttribute NicWorld.entry NicWorld.networkOf
  split
  · exact ⟨fun _ => rfl, nofun⟩
  · cases found : w.network nic with
    | none => exact ⟨nofun, nofun⟩
    | some vnet =>
      dsimp only [Option.bind_some]
      split
      · rename_i leased
        refine ⟨nofun, fun same => ?_⟩
        cases same
        rw [Attribute.vectorValue_replace_ne (by decide)]
        exact VirtualNetwork.cluster_nicAttribute leased
      · exact ⟨nofun, nofun⟩

theorem clusters_getNetworkLeases {w : Nat → NicWorld} {inetNtop : Nat → Nat → Nat → Nat → String}
    {vnid : Int} {i : Nat} {nics nics' : List Attribute}
    (leased : getNetworkLeases w inetNtop vnid i nics = some nics') :
    nics'.map (Attribute.valueText "CLUSTER_ID") =
      (nics.mapIdx fun k => Attribute.entry (w (i + k)).entry).map ClusterEntry.text := by
  induction nics generalizing i nics' with
  | nil =>
    cases leased
    rfl
  | cons a nics ih =>
    -- the next NIC has the next number
    have next : ∀ b : Attribute, b.valueText "CLUSTER_ID" = (a.entry (w i).entry).text →
        (getNetworkLeases w inetNtop vnid (i + 1) nics).map (b :: ·) = some nics' →
        nics'.map (Attribute.valueText "CLUSTER_ID") =
          ((a :: nics).mapIdx fun k => Attribute.entry (w (i + k)).entry).map
            ClusterEntry.text := by
      intro b same rest
      obtain ⟨tail, done, rfl⟩ := Option.map_eq_some_iff.mp rest
      rw [List.map_cons, same, ih done, List.mapIdx_cons, List.map_cons]
      simp only [Nat.add_zero, Nat.add_assoc, Nat.add_comm 1]
    cases a with
    | single name value => exact next _ rfl leased
    | vector name nic =>
      rw [getNetworkLeases] at leased
      split at leased
      · cases leased
      · rename_i unused
        exact next (.vector name nic) ((@NicWorld.cluster_nicAttribute _ _ _ nic _ _).1 unused) leased
      · rename_i nic' found
        exact next (.vector name nic') (NicWorld.cluster_nicAttribute.2 found) leased

/-- What the daemon reads in a VM: the clusters of the files are not there. -/
theorem texts_setUp (created : w.setUp vid uid tmpl = some vm) :
    vm.clusters.texts = (w.clusterUse vid uid tmpl).read := by
  unfold VmWorld.setUp at created
  obtain ⟨os, parsed, created⟩ := Option.bind_eq_some_iff.mp created
  obtain ⟨nics, leased, created⟩ := Option.bind_eq_some_iff.mp created
  obtain ⟨disks, acquired, created⟩ := Option.bind_eq_some_iff.mp created
  cases created
  have parsed := toOption_eq_some_iff.mp parsed
  have acquired := toOption_eq_some_iff.mp acquired
  unfold VmClusters.texts VmResources.clusters ClusterUse.read VmWorld.clusterUse FileWorld.entry
  dsimp only
  rw [clusters_getDiskImages acquired, clusters_getNetworkLeases leased,
    parseOs_kept parsed (by decide) (by decide), parseOs_kept parsed (by decide) (by decide)]
  simp only [Nat.zero_add]
  rfl

/-! ## The clusters that occur and the values that are read -/

theorem exists_agreed_iff {texts : List String} : (∃ clusterId, Agreed texts clusterId) ↔
    ∀ s ∈ texts, ∀ t ∈ texts, s ≠ "" → t ≠ "" → s = t := by
  constructor
  · intro ⟨clusterId, agreed⟩ s first t second some some'
    exact ((agreed.same s first).resolve_left some).trans
      ((agreed.same t second).resolve_left some').symm
  · intro same
    rcases em (∃ t ∈ texts, t ≠ "") with ⟨t, member, some⟩ | none
    · refine ⟨t, fun s other => ?_, .inr member⟩
      exact or_iff_not_imp_left.mpr fun some' => same s other t member some' some
    · refine ⟨"", fun t member => .inl ?_, .inl rfl⟩
      exact not_not.mp fun some => none ⟨t, member, some⟩

namespace ClusterUse

variable {u : ClusterUse}

theorem counted_iff_matching : u.Counted ↔ u.Matching := by
  have written : ∀ e ∈ u.disks ++ u.nics, e.text ∈ u.read := by
    intro e member
    simp only [read, List.mem_append, List.mem_map] at member ⊢
    rcases member with member | member
    · exact .inl (.inl ⟨e, member, rfl⟩)
    · exact .inr ⟨e, member, rfl⟩
  have occurs : ∀ c, c ∈ u.occurring ↔ (∃ e ∈ u.disks ++ u.nics, e.cluster = some c) ∨
      u.kernel.cluster = some c ∨ u.initrd.cluster = some c := by
    intro c
    simp only [occurring, List.mem_filterMap, List.mem_append, List.mem_cons, List.not_mem_nil,
      or_false]
    grind
  constructor
  · intro ⟨own, files⟩ text some
    constructor
    · intro member
      have source : (∃ e ∈ u.disks ++ u.nics, e.text = text) ∨
          text = u.kernel.own ∨ text = u.initrd.own := by
        simp only [read, List.mem_append, List.mem_map, List.mem_cons, List.not_mem_nil,
          or_false] at member ⊢
        grind
      rcases source with ⟨e, element, rfl⟩ | user
      · cases cluster : e.cluster with
        | none =>
          -- no cluster is written over the value of the user
          have same : e.text = e.own := by
            rw [ClusterEntry.text, cluster]
          have mine : e.text ∈ u.own := by
            refine List.mem_append_left _ (List.mem_map.mpr ⟨e, ?_, same.symm⟩)
            exact List.mem_filter.mpr ⟨element, decide_eq_true cluster⟩
          exact (own _ mine).resolve_left some
        | some c =>
          refine ⟨c, (occurs c).mpr (.inl ⟨e, element, cluster⟩), ?_⟩
          rw [ClusterEntry.text, cluster]
      · have mine : text ∈ u.own := by
          refine List.mem_append_right _ ?_
          rcases user with rfl | rfl
          · exact List.mem_cons_self
          · exact List.mem_cons_of_mem _ List.mem_cons_self
        exact (own _ mine).resolve_left some
    · intro ⟨c, occurring, same⟩
      rw [same]
      rcases (occurs c).mp occurring with ⟨e, member, cluster⟩ | file
      · have here := written e member
        rw [ClusterEntry.text, cluster] at here
        exact here
      · exact files c file
  · intro matching
    constructor
    · intro text member
      refine or_iff_not_imp_left.mpr fun some => (matching text some).mp ?_
      rcases List.mem_append.mp member with disk | file
      · obtain ⟨e, kept, rfl⟩ := List.mem_map.mp disk
        obtain ⟨member, none⟩ := List.mem_filter.mp kept
        have here := written e member
        rw [ClusterEntry.text, of_decide_eq_true none] at here
        exact here
      · exact List.mem_append_left _ (List.mem_append_right _ file)
    · intro c file
      exact (matching _ (toString_int_ne_empty c)).mpr ⟨c, (occurs c).mpr (.inr file), rfl⟩

variable {vm : VmClusters}

theorem succeeds_iff (texts : vm.texts = u.read) :
    (∃ requirements, automaticRequirements vm = .ok requirements) ↔
      ∀ s ∈ u.read, ∀ t ∈ u.read, s ≠ "" → t ≠ "" → s = t := by
  rw [← texts, ← exists_agreed_iff]
  simp only [automaticRequirements_eq_ok_iff]
  exact ⟨fun ⟨_, c, agreed, _⟩ => ⟨c, agreed⟩, fun ⟨c, agreed⟩ => ⟨_, c, agreed, rfl⟩⟩

/-- Requirements that are not empty name their cluster. -/
theorem requirements_inj {clusterId c : String}
    (same : (if clusterId ≠ "" then "CLUSTER_ID = " ++ clusterId else "") = "CLUSTER_ID = " ++ c) :
    clusterId = c := by
  split at same
  · exact (String.append_right_inj _).mp same
  · exact absurd same.symm (by simp)

theorem matching_or_split_of_bound (texts : vm.texts = u.read)
    (bound : Bound u.occurring (automaticRequirements vm)) : u.Matching ∨ u.Split := by
  obtain ⟨one, required⟩ := bound
  cases result : automaticRequirements vm with
  | error e =>
    right
    have fails : ¬ ∃ requirements, automaticRequirements vm = .ok requirements := by
      rw [result]
      exact nofun
    have two := mt one.mpr fails
    have read := mt (succeeds_iff texts).mpr fails
    push Not at two read
    obtain ⟨s, first, t, second, some, some', apart⟩ := read
    exact ⟨two, s, first, t, second, some, some', apart⟩
  | ok requirements =>
    left
    obtain ⟨clusterId, agreed, rfl⟩ := automaticRequirements_eq_ok_iff.mp result
    rw [texts] at agreed
    obtain ⟨only, none⟩ := required _ result
    have named : ∀ c ∈ u.occurring, clusterId = toString c := fun c here =>
      requirements_inj (only c here)
    intro text some
    constructor
    · intro member
      have same := (agreed.same text member).resolve_left some
      have written : clusterId ≠ "" := fun empty => some (same.trans empty)
      have occurs : u.occurring ≠ [] := by
        intro empty
        have left := none empty
        rw [if_pos written] at left
        exact absurd left (by simp)
      obtain ⟨c, here⟩ := List.exists_mem_of_ne_nil _ occurs
      exact ⟨c, here, same.trans (named c here)⟩
    · intro ⟨c, here, same⟩
      have clusterId_eq := named c here
      rw [same, ← clusterId_eq]
      refine agreed.read.resolve_left fun empty => ?_
      exact toString_int_ne_empty c (clusterId_eq.symm.trans empty)

theorem bound_of_matching (texts : vm.texts = u.read) (matching : u.Matching) :
    Bound u.occurring (automaticRequirements vm) := by
  have one : (∀ s ∈ u.read, ∀ t ∈ u.read, s ≠ "" → t ≠ "" → s = t) ↔
      ∀ a ∈ u.occurring, ∀ b ∈ u.occurring, a = b := by
    constructor
    · intro same a first b second
      have read : ∀ c ∈ u.occurring, toString c ∈ u.read := fun c here =>
        (matching _ (toString_int_ne_empty c)).mpr ⟨c, here, rfl⟩
      exact toString_int_inj.mp (same _ (read a first) _ (read b second)
        (toString_int_ne_empty a) (toString_int_ne_empty b))
    · intro same s first t second some some'
      obtain ⟨a, left, rfl⟩ := (matching s some).mp first
      obtain ⟨b, right, rfl⟩ := (matching t some').mp second
      rw [same a left b right]
  refine ⟨(succeeds_iff texts).trans one, fun requirements result => ?_⟩
  obtain ⟨clusterId, agreed, rfl⟩ := automaticRequirements_eq_ok_iff.mp result
  rw [texts] at agreed
  constructor
  · intro a here
    have read := (matching _ (toString_int_ne_empty a)).mpr ⟨a, here, rfl⟩
    have same := (agreed.same _ read).resolve_left (toString_int_ne_empty a)
    rw [← same]
    exact if_pos (toString_int_ne_empty a)
  · intro none
    refine if_neg (not_not.mpr (not_not.mp fun some => ?_))
    obtain ⟨c, here, _⟩ := (matching clusterId some).mp (agreed.read.resolve_left some)
    rw [none] at here
    exact absurd here List.not_mem_nil

theorem bound_of_split (texts : vm.texts = u.read) (split : u.Split) :
    Bound u.occurring (automaticRequirements vm) := by
  obtain ⟨⟨a, first, b, second, apart⟩, s, left, t, right, some, some', differ⟩ := split
  have fails : ¬ ∃ requirements, automaticRequirements vm = .ok requirements := fun done =>
    differ ((succeeds_iff texts).mp done s left t right some some')
  refine ⟨iff_of_false fails fun same => apart (same a first b second), fun requirements result => ?_⟩
  exact absurd ⟨requirements, result⟩ fails

end ClusterUse

/-- The requirements bind a VM to the clusters that occur if and only if the user names no other
cluster and those of the kernel and of the ramdisk are read elsewhere, or the clusters differ
both where they occur and where they are read. -/
theorem bound_iff (created : w.setUp vid uid tmpl = some vm) :
    Bound (w.clusterUse vid uid tmpl).occurring (automaticRequirements vm.clusters) ↔
      (w.clusterUse vid uid tmpl).Counted ∨ (w.clusterUse vid uid tmpl).Split := by
  have texts := texts_setUp created
  rw [ClusterUse.counted_iff_matching]
  constructor
  · exact ClusterUse.matching_or_split_of_bound texts
  · intro condition
    exact condition.elim (ClusterUse.bound_of_matching texts) (ClusterUse.bound_of_split texts)

/-- An image in datastore 1. -/
def bootImage : PoolImage where
  image := ⟨.os, .ready, false, ∅, ∅, none, "/images/7", false, false⟩
  perms := { objType := .image, oid := 7, uid := 2, gid := 2, cid := -1, ownerU := true }
  dsId := 1
  target := ""

/-- Its pool. -/
def imagesOfBoot : ImageWorld where
  users _ := none
  images oid := if oid = 7 then some bootImage else none
  byName _ _ := none
  datastores _ := true
  acls := ⟨[], AclManager.wellFormed_nil⟩

/-- A pool with a kernel. -/
def kernelPool : ImageWorld where
  users _ := none
  images oid := if oid = 5 then some
      ⟨⟨.kernel, .ready, false, ∅, ∅, none, "/files/5", false, false⟩,
        { objType := .image, oid := 5, uid := 0, gid := 0 }, 2, ""⟩
    else none
  byName _ _ := none
  datastores _ := true
  acls := ⟨[], AclManager.wellFormed_nil⟩

/-- The datastore of the image is in cluster 100, that of the kernel in cluster 101. -/
def twoClusters : VmWorld where
  files _ :=
    { scope := ⟨oneadminId, oneadminId, kernelPool, kernelPool⟩
      image _ := some ⟨5, 2, .kernel, "/files/5"⟩
      datastore _ := some ⟨2, "files", "ssh", 101⟩ }
  nics _ := ⟨fun _ => none, fun _ => .done⟩
  disks _ :=
    { users := imagesOfBoot
      pool := imagesOfBoot
      details _ := ⟨"boot", .file, []⟩
      datastore _ := some ⟨1, "default", "ssh", 100⟩
      defaultDevPrefix := "hd" }
  inetNtop _ _ _ _ := ""
  defaultDevPrefix := "hd"

/-- A VM with the image and the kernel. -/
def bootTemplate : Template :=
  [.vector "DISK" [("IMAGE_ID", "7")], .vector "OS" [("KERNEL_DS", "$FILE[IMAGE_ID=5]")]]

/-- What `insert` has set up of it. -/
def bootResources : VmResources where
  os := some [("KERNEL_DS_CLUSTER_ID", "101"), ("KERNEL_DS_TM", "ssh"), ("KERNEL_DS_DSID", "2"),
    ("KERNEL_DS_SOURCE", "/files/5"), ("KERNEL_DS_ID", "5"), ("KERNEL_DS", "$FILE[IMAGE_ID=5]")]
  nics := []
  disks := ⟨none, [.vector "DISK" [("TARGET", "hda"), ("DISK_ID", "0"), ("CLUSTER_ID", "100"),
    ("TM_MAD", "ssh"), ("DATASTORE_ID", "1"), ("DATASTORE", "default"), ("TYPE", "FILE"),
    ("SAVE", "NO"), ("CLONE", "YES"), ("READONLY", "NO"), ("SOURCE", "/images/7"),
    ("IMAGE_ID", "7"), ("IMAGE", "boot"), ("DEV_PREFIX", "hd")]]⟩

theorem bound_iff_boot : twoClusters.setUp 3 0 bootTemplate = some bootResources ∧
    (Bound (twoClusters.clusterUse 3 0 bootTemplate).occurring
        (automaticRequirements bootResources.clusters) ↔
      (twoClusters.clusterUse 3 0 bootTemplate).Counted ∨
        (twoClusters.clusterUse 3 0 bootTemplate).Split) :=
  have created : twoClusters.setUp 3 0 bootTemplate = some bootResources := by decide +kernel
  ⟨created, bound_iff created⟩

/-- The cluster of the kernel is not read: the VM is required to be in that of the disk. -/
theorem kernel_cluster_not_read :
    twoClusters.setUp 3 0 bootTemplate = some bootResources ∧
      (twoClusters.clusterUse 3 0 bootTemplate).occurring = [100, 101] ∧
      automaticRequirements bootResources.clusters = .ok "CLUSTER_ID = 100" ∧
      ¬ Bound (twoClusters.clusterUse 3 0 bootTemplate).occurring
        (automaticRequirements bootResources.clusters) := by
  have occurring : (twoClusters.clusterUse 3 0 bootTemplate).occurring = [100, 101] := by
    decide +kernel
  have result : automaticRequirements bootResources.clusters = .ok "CLUSTER_ID = 100" := by
    decide +kernel
  refine ⟨by decide +kernel, occurring, result, fun bound => ?_⟩
  rw [occurring] at bound
  have same := bound.1.mp ⟨_, result⟩ 100 (by decide) 101 (by decide)
  exact absurd same (by decide)

end Ezilla
