import Ezilla.Cluster.Cluster
import Ezilla.Template
import Mathlib.Data.List.Forall2

/-!
# Scripts that move the files of a VM

A VM that is stopped or undeployed has its disks and its system directory moved from the host
to the front-end, and a later deploy moves them from there to the new host. Both scripts take
the datastore and the driver of the system directory from the last history record, which is
another one when the VM is deployed again.

* `epilogStop`, `prologResume`: the commands of the two scripts;
* `deploy`: the record that the request for a deploy appends;
* `SamePlace`: the new host keeps system directories where the last one did;
* `readsWritten_iff_samePlace`: a resume reads what the stop wrote exactly then.
-/

namespace Ezilla

namespace TransferScripts

/-! ## Hosts and their datastores -/

/-- `Nebula`: the names and paths of the front-end. -/
structure Nebula where
  hostname : String
  dsLocation : String
  /-- DATASTORE_LOCATION of the configuration -/
  datastoreLocation : String

/-- A host; the cluster is -1 where it is in none. -/
structure Host where
  name : String
  clusterId : Int32

structure Cluster where
  dsId : Int32
  /-- DATASTORE_LOCATION of the template, empty when there is none -/
  datastoreLocation : String

structure Datastore where
  isSystem : Bool
  tmMad : String

structure Pools where
  hosts : Int32 → Option Host
  clusters : Int32 → Option Cluster
  datastores : Int32 → Option Datastore

/-- `History`: the host of a record and where it keeps the files of VMs. -/
structure Record where
  hid : Int32
  hostname : String
  tmMad : String
  dsLocation : String
  dsId : Int32
  deriving DecidableEq

/-- A VM; the records come latest first. -/
structure Vm where
  oid : Int32
  template : Template
  history : List Record

/-- `Cluster::get_ds_location`. -/
def Cluster.getDsLocation (nd : Nebula) (cluster : Cluster) : String :=
  if cluster.datastoreLocation = "" then nd.datastoreLocation else cluster.datastoreLocation

/-- `RequestManagerVirtualMachine::get_host_information`. -/
def getHostInformation (nd : Nebula) (pools : Pools) (hid : Int32) : Option Record := do
  let host ← pools.hosts hid
  let (dsId, dsLocation) ←
    if host.clusterId ≠ -1 then
      (pools.clusters host.clusterId).map fun cluster => (cluster.dsId, cluster.getDsLocation nd)
    else
      some (Int32.ofNat systemDsId, nd.datastoreLocation)
  let ds ← pools.datastores dsId
  if ds.isSystem then some ⟨hid, host.name, ds.tmMad, dsLocation, dsId⟩ else none

/-- What `VirtualMachineDeploy::request_execute` does with the records of a VM. -/
def deploy (nd : Nebula) (pools : Pools) (hid : Int32) (vm : Vm) : Option Vm :=
  (getHostInformation nd pools hid).map fun record =>
    { vm with history := record :: vm.history }

/-- Deploys one after another, each of which failed and left its record. -/
def attempts (nd : Nebula) (hosts : List (Pools × Int32)) (vm : Vm) : Option Vm :=
  hosts.foldlM (fun vm (pools, hid) => deploy nd pools hid vm) vm

/-! ## Scripts -/

/-- `History::non_persistent_data`: the directory of the VM on the host. -/
def rsystemDir (record : Record) (oid : Int32) : String :=
  record.dsLocation ++ "/" ++ toString record.dsId ++ "/" ++ toString oid

/-- `VirtualMachine::get_system_dir`: its directory on the front-end. -/
def systemDir (nd : Nebula) (record : Record) (oid : Int32) : String :=
  nd.dsLocation ++ toString record.dsId ++ "/" ++ toString oid

/-- `isVolatile`. -/
def isVolatile (disk : List (String × String)) : Bool :=
  (Attribute.vectorValue disk "TYPE").toUpper ∈ ["SWAP", "FS"]

/-- A line of a transfer script: `MV tm_mad source destination vmid dsid`. -/
structure MvCommand where
  tmMad : String
  source : String
  destination : String
  oid : Int32
  dsId : String
  deriving DecidableEq

/-- The driver and the datastore of a disk; `none` for a disk that is passed over. -/
def diskDriver (record : Record) (disk : List (String × String)) : Option (String × String) :=
  if isVolatile disk then
    some (record.tmMad, toString record.dsId)
  else
    let tmMad := Attribute.vectorValue disk "TM_MAD"
    let dsId := Attribute.vectorValue disk "DATASTORE_ID"
    if tmMad = "" ∨ dsId = "" then none else some (tmMad, dsId)

/-- The command for a disk; DISK_ID reads as -1 where it is not a number. -/
def diskCommand (oid : Int32) (record : Record) (source destination : String)
    (disk : List (String × String)) : Option MvCommand :=
  let file := "/disk." ++ toString ((Attribute.vectorInt disk "DISK_ID").getD (-1))
  (diskDriver record disk).map fun (tmMad, dsId) =>
    ⟨tmMad, source ++ file, destination ++ file, oid, dsId⟩

/-- The command for the system directory. -/
def systemCommand (oid : Int32) (record : Record) (source destination : String) : MvCommand :=
  ⟨record.tmMad, source, destination, oid, toString record.dsId⟩

/-- The commands that move the disks and then the system directory. -/
def moveCommands (vm : Vm) (record : Record) (source destination : String) : List MvCommand :=
  (vm.template.vectors "DISK").filterMap (diskCommand vm.oid record source destination) ++
    [systemCommand vm.oid record source destination]

/-- The directory of the VM on the front-end, as the scripts name it. -/
def frontEnd (nd : Nebula) (record : Record) (oid : Int32) : String :=
  nd.hostname ++ ":" ++ systemDir nd record oid

/-- Its directory on the host. -/
def onHost (record : Record) (oid : Int32) : String :=
  record.hostname ++ ":" ++ rsystemDir record oid

/-- What both scripts need: a record with its driver and datastore, the transfer driver, and
a file to write to. -/
def withRecord (driver opened : Bool) (vm : Vm) (commands : Record → List MvCommand) :
    Option (List MvCommand) :=
  match vm.history with
  | [] => none
  | record :: _ =>
    if !driver || record.tmMad = "" || toString record.dsId = "" then none
    else if !opened then none
    else some (commands record)

/-- `TransferManager::epilog_stop_action`: the commands of its script; `none` where the VM is
told that the epilog failed. -/
def epilogStop (nd : Nebula) (driver opened : Bool) (vm : Vm) : Option (List MvCommand) :=
  withRecord driver opened vm fun record =>
    moveCommands vm record (onHost record vm.oid) (frontEnd nd record vm.oid)

/-- `TransferManager::prolog_resume_action`. -/
def prologResume (nd : Nebula) (driver opened : Bool) (vm : Vm) : Option (List MvCommand) :=
  withRecord driver opened vm fun record =>
    moveCommands vm record (frontEnd nd record vm.oid) (onHost record vm.oid)

/-! ## What a resume reads -/

/-- The commands read, one by one, what the others wrote, and with the same driver. -/
def ReadsWritten (read written : List MvCommand) : Prop :=
  List.Forall₂ (fun r w => r.source = w.destination ∧ r.tmMad = w.tmMad) read written

/-- The new host has the system datastore of the last record, with the same driver. -/
def SamePlace (nd : Nebula) (pools : Pools) (hid : Int32) (vm : Vm) : Prop :=
  (getHostInformation nd pools hid).map (fun record => (record.dsId, record.tmMad)) =
    vm.history.head?.map fun record => (record.dsId, record.tmMad)

variable {nd : Nebula} {pools : Pools} {hid oid : Int32} {vm vm' : Vm} {record record' : Record}
  {read written : List MvCommand} {driver driver' opened opened' : Bool}

theorem withRecord_eq_some {commands : Record → List MvCommand}
    (done : withRecord driver opened vm commands = some written) :
    ∃ record, vm.history.head? = some record ∧ written = commands record := by
  unfold withRecord at done
  split at done
  · cases done
  · rename_i record rest history
    split at done
    · cases done
    · split at done
      · cases done
      · cases done
        exact ⟨record, by rw [history]; rfl, rfl⟩

theorem toString_int32_inj {a b : Int32} : toString a = toString b ↔ a = b :=
  (@toString_int_inj a.toInt b.toInt).trans Int32.toInt_inj

/-- The directory on the front-end tells the datastores apart. -/
theorem frontEnd_inj : frontEnd nd record' oid = frontEnd nd record oid ↔
    record'.dsId = record.dsId := by
  unfold frontEnd systemDir
  rw [String.append_right_inj, String.append_left_inj, String.append_left_inj,
    String.append_right_inj]
  exact toString_int32_inj

/-- Two records of one place have the same drivers for every disk. -/
theorem diskDriver_congr (ds : record'.dsId = record.dsId) (tm : record'.tmMad = record.tmMad)
    (disk : List (String × String)) : diskDriver record' disk = diskDriver record disk := by
  unfold diskDriver
  rw [ds, tm]

theorem diskCommand_rel (ds : record'.dsId = record.dsId) (tm : record'.tmMad = record.tmMad)
    {front host host' : String} (disk : List (String × String)) :
    Option.Rel (fun r w : MvCommand => r.source = w.destination ∧ r.tmMad = w.tmMad)
      (diskCommand oid record' front host' disk) (diskCommand oid record host front disk) := by
  unfold diskCommand
  rw [diskDriver_congr ds tm]
  cases diskDriver record disk with
  | none => exact .none
  | some place => exact .some ⟨rfl, rfl⟩

/-- The last commands of two scripts that match are those for the system directory. -/
theorem ReadsWritten.last {r w : MvCommand} (reads : ReadsWritten (read ++ [r]) (written ++ [w])) :
    r.source = w.destination ∧ r.tmMad = w.tmMad := by
  have backwards := List.forall₂_reverse_iff.mpr reads
  rw [List.reverse_concat, List.reverse_concat] at backwards
  exact (List.forall₂_cons.mp backwards).1

theorem readsWritten_moveCommands (oid : vm'.oid = vm.oid) (tmpl : vm'.template = vm.template) :
    ReadsWritten
        (moveCommands vm' record' (frontEnd nd record' vm'.oid) (onHost record' vm'.oid))
        (moveCommands vm record (onHost record vm.oid) (frontEnd nd record vm.oid)) ↔
      record'.dsId = record.dsId ∧ record'.tmMad = record.tmMad := by
  unfold moveCommands
  rw [oid, tmpl]
  constructor
  · intro reads
    obtain ⟨path, tm⟩ := reads.last
    exact ⟨frontEnd_inj.mp path, tm⟩
  · rintro ⟨ds, tm⟩
    have path : frontEnd nd record' vm.oid = frontEnd nd record vm.oid := frontEnd_inj.mpr ds
    rw [path]
    have sameDisks : List.Forall₂ Eq (vm.template.vectors "DISK") (vm.template.vectors "DISK") :=
      List.forall₂_refl _
    refine List.rel_append ?_ (.cons ⟨rfl, tm⟩ .nil)
    refine List.rel_filterMap (fun disk disk' same => ?_) sameDisks
    rw [← same]
    exact diskCommand_rel ds tm disk

/-- A deploy changes nothing but the records. -/
theorem deploy_keeps (deployed : deploy nd pools hid vm = some vm') :
    vm'.oid = vm.oid ∧ vm'.template = vm.template := by
  obtain ⟨record, -, rfl⟩ := Option.map_eq_some_iff.mp deployed
  exact ⟨rfl, rfl⟩

theorem attempts_keep {hosts : List (Pools × Int32)} (tried : attempts nd hosts vm = some vm') :
    vm'.oid = vm.oid ∧ vm'.template = vm.template := by
  induction hosts generalizing vm with
  | nil =>
    cases tried
    exact ⟨rfl, rfl⟩
  | cons host hosts ih =>
    unfold attempts at tried
    rw [List.foldlM_cons] at tried
    obtain ⟨next, deployed, rest⟩ := Option.bind_eq_some_iff.mp tried
    obtain ⟨oid, tmpl⟩ := deploy_keeps deployed
    obtain ⟨oid', tmpl'⟩ := ih rest
    exact ⟨oid'.trans oid, tmpl'.trans tmpl⟩

/-- For every VM with any disks: where a stop wrote its script, deploys to any hosts failed
since, and the script of the resume after one more deploy is written, the resume reads what
the stop wrote, with the same drivers, exactly when the new host has the system datastore of
the host of the stop and its driver. -/
theorem readsWritten_iff_samePlace {hosts : List (Pools × Int32)} {tried : Vm}
    (stopped : epilogStop nd driver opened vm = some written)
    (failed : attempts nd hosts vm = some tried)
    (deployed : deploy nd pools hid tried = some vm')
    (resumed : prologResume nd driver' opened' vm' = some read) :
    ReadsWritten read written ↔ SamePlace nd pools hid vm := by
  obtain ⟨oid, tmpl⟩ := attempts_keep failed
  obtain ⟨record, last, rfl⟩ := withRecord_eq_some stopped
  obtain ⟨record', found, rfl⟩ := Option.map_eq_some_iff.mp deployed
  obtain ⟨new, head, rfl⟩ := withRecord_eq_some resumed
  obtain rfl : record' = new := Option.some.inj head
  unfold SamePlace
  rw [found, last]
  refine (readsWritten_moveCommands oid tmpl).trans ?_
  simp only [Option.map_some, Option.some.injEq, Prod.mk.injEq]

/-! ## A deploy to another cluster -/

def frontEndOnly : Nebula where
  hostname := "fe"
  dsLocation := "/var/lib/one/datastores/"
  datastoreLocation := "/vmfs"

/-- Hosts 1 and 2 are in no cluster, host 3 is in a cluster with a datastore of its own. -/
def twoClusters : Pools where
  hosts hid :=
    if hid = 1 then some ⟨"alpha", -1⟩ else if hid = 2 then some ⟨"beta", -1⟩
    else if hid = 3 then some ⟨"gamma", 100⟩ else none
  clusters id := if id = 100 then some ⟨101, ""⟩ else none
  datastores id := if id = 0 ∨ id = 101 then some ⟨true, "ssh"⟩ else none

/-- A VM on host 1 with an image and a volatile disk. -/
def runningVm : Vm where
  oid := 7
  template :=
    [.vector "DISK" [("DISK_ID", "0"), ("TM_MAD", "shared"), ("DATASTORE_ID", "1")],
      .vector "DISK" [("DISK_ID", "1"), ("TYPE", "swap")]]
  history := [⟨1, "alpha", "ssh", "/vmfs", 0⟩]

/-- The resume on host 3 looks for the files where no stop put them. -/
theorem resume_reads_elsewhere :
    ∃ written vm' read, epilogStop frontEndOnly true true runningVm = some written ∧
      deploy frontEndOnly twoClusters 3 runningVm = some vm' ∧
      prologResume frontEndOnly true true vm' = some read ∧
      written.map MvCommand.destination =
        ["fe:/var/lib/one/datastores/0/7/disk.0", "fe:/var/lib/one/datastores/0/7/disk.1",
          "fe:/var/lib/one/datastores/0/7"] ∧
      read.map MvCommand.source =
        ["fe:/var/lib/one/datastores/101/7/disk.0", "fe:/var/lib/one/datastores/101/7/disk.1",
          "fe:/var/lib/one/datastores/101/7"] := by
  exact ⟨_, _, _, rfl, rfl, rfl, by decide +kernel, by decide +kernel⟩

/-- The VM after a deploy to host 2. -/
def runningOnBeta : Vm :=
  { runningVm with history := ⟨2, "beta", "ssh", "/vmfs", 0⟩ :: runningVm.history }

/-- The resume on host 2 finds them. -/
theorem readsWritten_iff_samePlace_beta :
    ∃ written read, epilogStop frontEndOnly true true runningVm = some written ∧
      deploy frontEndOnly twoClusters 2 runningVm = some runningOnBeta ∧
      prologResume frontEndOnly true true runningOnBeta = some read ∧
      ReadsWritten read written := by
  have stopped : epilogStop frontEndOnly true true runningVm = some _ := rfl
  have deployed : deploy frontEndOnly twoClusters 2 runningVm = some runningOnBeta := rfl
  have resumed : prologResume frontEndOnly true true runningOnBeta = some _ := rfl
  have untried : attempts frontEndOnly [] runningVm = some runningVm := rfl
  have same : SamePlace frontEndOnly twoClusters 2 runningVm := rfl
  exact ⟨_, _, stopped, deployed, resumed,
    (readsWritten_iff_samePlace stopped untried deployed resumed).mpr same⟩

end TransferScripts

end Ezilla
