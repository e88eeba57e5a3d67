import Ezilla.Vm.DiskRuns
import Ezilla.Vm.OsFiles

/-!
# The script of the prolog

Before a VM boots, the prolog writes a transfer script: a command for each disk, for the kernel
that is taken from a file datastore and for the context. The commands are built from what
`disk_attribute`, `set_os_file` and `parse_context` left in the VM, and the driver of the
hypervisor reads the same values for the paths in the deployment file.

* `prologTransferCommand`, `prologOsTransferCommands`, `prologAction`: the script;
* `description`: the files that the deployment file of a KVM or Xen host refers to;
* `DiskWorld.transfer`, `FileWorld.transfer`: the commands that a request for a VM asks for;
* `prologAction_of_created`: the script of a new VM, and its paths.
-/

namespace Ezilla

/-! ## Commands -/

/-- What a command of a transfer script does at its path. -/
inductive TransferAction where
  | mkswap (size : String)
  | mkimage (size format : String)
  | clone (source : String)
  | ln (source : String)
  | context (file files : String)
  deriving DecidableEq, Repr

/-- A command: `ACTION tm_mad .. hostname:path vmid dsid`. -/
structure TransferCommand where
  action : TransferAction
  tmMad : String
  hostname : String
  path : String
  oid : Nat
  dsId : String
  deriving DecidableEq, Repr

/-- What the prolog reads of the last record of a VM. -/
structure TransferRecord where
  hostname : String
  rsystemDir : String
  contextFile : String
  tmMad : String
  dsId : String

/-- What the prolog reads of a VM; `parse_os` leaves at most one OS attribute. -/
structure TransferVm where
  oid : Nat
  attributes : VmDisks
  os : Option (List (String × String))
  deriving DecidableEq, Repr

/-- The calls of the prolog. -/
structure PrologCalls where
  /-- `Nebula::get_nebula_hostname` -/
  nebulaHostname : String
  /-- a transfer driver is found -/
  driver : Bool
  /-- the script can be opened -/
  file : Bool
  /-- the context file can be opened -/
  contextFile : Bool
  /-- what a variable holds that is not set -/
  read : Int

/-- The errors of the prolog. -/
inductive PrologError where
  /-- VM has no history -/
  | history
  /-- prolog, error getting drivers. -/
  | drivers
  /-- could not open file -/
  | file
  /-- missing DISK mandatory attributes (SOURCE, TM_MAD, CLONE, DATASTORE_ID) -/
  | attributes (diskId : String)
  /-- could not write context file -/
  | context
  deriving DecidableEq, Repr

/-- The path of a disk on the host. -/
def TransferRecord.diskPath (record : TransferRecord) (diskId : Int) : String :=
  record.rsystemDir ++ "/disk." ++ toString diskId

/-- The source of an image, on the front-end or for the driver's own protocol. -/
def imageSource (nebulaHostname source : String) : String :=
  if ':' ∈ source.toList then source else nebulaHostname ++ ":" ++ source

/-- `prolog_transfer_command`; no command is written for a volatile disk without its size, nor
for a file system without its format. -/
def prologTransferCommand (calls : PrologCalls) (record : TransferRecord) (oid : Nat)
    (disk : List (String × String)) : Except PrologError (Option TransferCommand) :=
  let diskId := (readInt (Attribute.vectorValue disk "DISK_ID")).getD calls.read
  let type := (Attribute.vectorValue disk "TYPE").toUpper
  let size := Attribute.vectorValue disk "SIZE"
  if type = "SWAP" then
    if size = "" then .ok none
    else .ok (some ⟨.mkswap size, record.tmMad, record.hostname, record.diskPath diskId, oid,
      record.dsId⟩)
  else if type = "FS" then
    let format := Attribute.vectorValue disk "FORMAT"
    if size = "" ∨ format = "" then .ok none
    else .ok (some ⟨.mkimage size format, record.tmMad, record.hostname, record.diskPath diskId, oid,
      record.dsId⟩)
  else
    let tmMad := Attribute.vectorValue disk "TM_MAD"
    let dsId := Attribute.vectorValue disk "DATASTORE_ID"
    let source := Attribute.vectorValue disk "SOURCE"
    let clon := Attribute.vectorValue disk "CLONE"
    if source = "" ∨ tmMad = "" ∨ dsId = "" ∨ clon = "" then
      .error (.attributes (Attribute.vectorValue disk "DISK_ID"))
    else
      let source := imageSource calls.nebulaHostname source
      let action := if clon.toUpper = "YES" then TransferAction.clone source else .ln source
      .ok (some ⟨action, tmMad, record.hostname, record.diskPath diskId, oid, dsId⟩)

/-- One step of the loop over the DISK attributes. -/
def transferDisk (calls : PrologCalls) (record : TransferRecord) (oid : Nat) :
    Attribute → Except PrologError (Option TransferCommand)
  | .single _ _ => .ok none
  | .vector _ disk => prologTransferCommand calls record oid disk

/-- The commands of a loop, up to its first error. -/
def collect : List (Except PrologError (Option TransferCommand)) →
    Except PrologError (List TransferCommand)
  | [] => .ok []
  | step :: steps => step.bind fun command => (collect steps).map fun script =>
      command.toList ++ script

/-- `prolog_os_transfer_commands`: the command and the path of a file. -/
def prologOsTransferCommands (calls : PrologCalls) (record : TransferRecord) (oid : Nat)
    (os : List (String × String)) (base : String) : Option TransferCommand :=
  let nameDs := Attribute.vectorValue os (base ++ "_DS")
  if nameDs = "" then none
  else
    let source := Attribute.vectorValue os (base ++ "_DS_SOURCE")
    let dsId := Attribute.vectorValue os (base ++ "_DS_DSID")
    let tmMad := Attribute.vectorValue os (base ++ "_DS_TM")
    if source = "" ∨ dsId = "" ∨ tmMad = "" then none
    else
      some ⟨.clone (calls.nebulaHostname ++ ":" ++ source), tmMad, record.hostname,
        record.rsystemDir ++ "/" ++ base.toLower, oid, dsId⟩

/-- The files of the context: FILES, and the images of FILES_DS. -/
def contextFiles (context : List (String × String)) : String :=
  let files := Attribute.vectorValue context "FILES"
  let filesDs := Attribute.vectorValue context "FILES_DS"
  if filesDs ≠ "" then files ++ " " ++ filesDs else files

/-- The command for the context, after `VirtualMachine::generate_context`. -/
def contextCommand (calls : PrologCalls) (record : TransferRecord) (oid : Nat) :
    Option (List (String × String)) → Except PrologError (List TransferCommand)
  | none => .ok []
  | some context =>
    if !calls.contextFile then .error .context
    else
      let diskId := (readInt (Attribute.vectorValue context "DISK_ID")).getD calls.read
      .ok [⟨.context record.contextFile (contextFiles context), record.tmMad, record.hostname,
        record.diskPath diskId, oid, record.dsId⟩]

/-- The two files of the OS attribute. The second is looked for in lower case. -/
def osCommands (calls : PrologCalls) (record : TransferRecord) (vm : TransferVm) :
    Option TransferCommand × Option TransferCommand :=
  match vm.os with
  | none => (none, none)
  | some os =>
    (prologOsTransferCommands calls record vm.oid os "KERNEL",
      prologOsTransferCommands calls record vm.oid os "initrd")

/-- `set_kernel` and `set_initrd`: the path of a file that is transferred. -/
def setOsPath (name : String) (command : Option TransferCommand) (vm : TransferVm) : TransferVm :=
  match command with
  | none => vm
  | some command => { vm with os := vm.os.map fun os => Attribute.replace os name command.path }

/-- `TransferManager::prolog_action`: the script that is handed to the driver and the VM, or the
error before PROLOG_FAILURE. -/
def prologAction (calls : PrologCalls) (record : Option TransferRecord) (vm : TransferVm) :
    Except PrologError (List TransferCommand × TransferVm) :=
  match record with
  | none => .error .history
  | some record =>
    if !calls.driver ∨ record.tmMad = "" then .error .drivers
    else if !calls.file then .error .file
    else
      (collect (vm.attributes.disks.map (transferDisk calls record vm.oid))).bind fun disks =>
        let (kernel, initrd) := osCommands calls record vm
        let vm' := setOsPath "INITRD" initrd (setOsPath "KERNEL" kernel vm)
        (contextCommand calls record vm.oid vm.attributes.context).map fun context =>
          (disks ++ kernel.toList ++ initrd.toList ++ context, vm')

/-! ## The deployment file -/

inductive Hypervisor where
  | kvm
  | xen
  deriving DecidableEq, Repr

/-- The files of the VM in its deployment file. -/
structure Description where
  disks : List String
  context : Option String
  kernel : Option String
  initrd : Option String
  deriving DecidableEq, Repr

/-- The file of a disk in `deployment_description`. A disk of a Ceph pool has no file for KVM. -/
def Hypervisor.diskFile (hypervisor : Hypervisor) (record : TransferRecord) (oid : Nat) :
    Attribute → Option String
  | .single _ _ => none
  | .vector _ disk =>
    let diskId := (Attribute.vectorInt disk "DISK_ID").getD (-1)
    let source := Attribute.vectorValue disk "SOURCE"
    let clone := Attribute.vectorValue disk "CLONE"
    if hypervisor = .kvm ∧ (Attribute.vectorValue disk "TYPE").toUpper = "RBD" then
      if clone = "YES" then some (source ++ "-" ++ toString oid ++ "-" ++ toString diskId)
      else some source
    else some (record.diskPath diskId)

/-- The file of the context, if it has a target. -/
def contextFile (record : TransferRecord) (context : List (String × String)) : Option String :=
  if Attribute.vectorValue context "TARGET" = "" then none
  else some (record.diskPath ((Attribute.vectorInt context "DISK_ID").getD (-1)))

/-- The kernel or the ramdisk: that of the VM or else the default. -/
def osFile (defaults : String → String) (os : List (String × String)) (name : String) :
    Option String :=
  let own := Attribute.vectorValue os name
  let file := if own = "" then defaults name else own
  if file = "" then none else some file

/-- The files in `deployment_description`, `none` where a disk has no target; its other parts are
left out. `defaults` are those of the driver for the OS. -/
def description (hypervisor : Hypervisor) (defaults : String → String) (record : TransferRecord)
    (vm : TransferVm) : Option Description :=
  if vm.attributes.disks.any fun disk => disk.text? "TARGET" = some "" then none
  else
    let kernel := osFile defaults (vm.os.getD []) "KERNEL"
    some
      { disks := vm.attributes.disks.filterMap (hypervisor.diskFile record vm.oid)
        context := vm.attributes.context.bind (contextFile record)
        kernel := kernel
        -- there is no ramdisk without a kernel
        initrd := kernel.bind fun _ => osFile defaults (vm.os.getD []) "INITRD" }

/-! ## What a request asks for -/

/-- The image of a disk is an RBD image. -/
def DiskWorld.ceph (w : DiskWorld) (oid : Nat) (img : PoolImage) : Bool :=
  img.image.type ≠ .cdrom && (w.details oid).diskType = .rbd

/-- The disk of the request names an RBD image. -/
def DiskWorld.cephDisk (w : DiskWorld) (vmId : Nat) (uid : Int) : Attribute → Bool
  | .single _ _ => false
  | .vector _ values =>
    match (DiskLookup.mk values uid w.users w.pool).diskAttribute vmId with
    | .image oid img => w.ceph oid img
    | _ => false

/-- The command for a disk of the request: a volatile disk is made, an image is copied, or linked
if it is persistent. -/
def DiskWorld.transfer (w : DiskWorld) (calls : PrologCalls) (record : TransferRecord) (vmId : Nat)
    (uid : Int) (i : Nat) : Attribute → Except PrologError (Option TransferCommand)
  | .single _ _ => .ok none
  | .vector _ values =>
    let size := Attribute.vectorValue values "SIZE"
    let format := Attribute.vectorValue values "FORMAT"
    match (DiskLookup.mk values uid w.users w.pool).diskAttribute vmId with
    | .failed => .ok none
    | .volatile =>
      let swap := (Attribute.vectorValue values "TYPE").toUpper = "SWAP"
      if size = "" ∨ ¬ swap ∧ format = "" then .ok none
      else .ok (some ⟨if swap then .mkswap size else .mkimage size format, record.tmMad,
        record.hostname, record.diskPath i, vmId, record.dsId⟩)
    | .image _ img =>
      match w.datastore img.dsId with
      | none => .ok none
      | some ds =>
        if img.image.source = "" ∨ ds.tmMad = "" then .error (.attributes (toString (i : Int)))
        else
          let source := imageSource calls.nebulaHostname img.image.source
          .ok (some ⟨if img.image.persistentImg then .ln source else .clone source, ds.tmMad,
            record.hostname, record.diskPath i, vmId, toString ds.oid⟩)

/-- The file of a disk of the request in the deployment file. -/
def DiskWorld.file (w : DiskWorld) (hypervisor : Hypervisor) (record : TransferRecord) (vmId : Nat)
    (uid : Int) (i : Nat) : Attribute → Option String
  | .single _ _ => none
  | .vector _ values =>
    match (DiskLookup.mk values uid w.users w.pool).diskAttribute vmId with
    | .image oid img =>
      if hypervisor = .kvm ∧ w.ceph oid img then
        if img.image.persistentImg then some img.image.source
        else some (img.image.source ++ "-" ++ toString vmId ++ "-" ++ toString (i : Int))
      else some (record.diskPath i)
    | _ => some (record.diskPath i)

/-- The command for the kernel of the request: the image is copied, if it has a source and its
datastore a driver. -/
def FileWorld.transfer (w : FileWorld) (calls : PrologCalls) (record : TransferRecord) (vmId : Nat)
    (os : List (String × String)) : Option TransferCommand :=
  match w.osImage os "KERNEL", w.osDatastore os "KERNEL" with
  | some img, some ds =>
    if img.source = "" ∨ ds.tmMad = "" then none
    else some ⟨.clone (calls.nebulaHostname ++ ":" ++ img.source), ds.tmMad, record.hostname,
      record.rsystemDir ++ "/kernel", vmId, toString img.dsId⟩
  | _, _ => none

/-- The commands for the context of the request. -/
def DiskCreation.transfer (r : DiskCreation) (record : TransferRecord) (vmId : Nat)
    (files : String) (number : Int) : List TransferCommand :=
  (r.tmpl.get "CONTEXT").map fun _ =>
    ⟨.context record.contextFile files, record.tmMad, record.hostname, record.diskPath number, vmId,
      record.dsId⟩

/-! ## The disks -/

variable {calls : PrologCalls} {record : TransferRecord} {vmId oid : Nat} {uid : Int}
  {hypervisor : Hypervisor} {w : DiskWorld}

theorem ignoresTarget_transferDisk : Attribute.IgnoresTarget (transferDisk calls record oid) := by
  intro a target
  cases a with
  | single _ _ => rfl
  | vector _ values =>
    unfold Attribute.modify transferDisk prologTransferCommand
    simp only [Attribute.vectorValue_replace_ite, String.reduceEq, if_false]

theorem ignoresTarget_diskFile :
    Attribute.IgnoresTarget (hypervisor.diskFile record oid) := by
  intro a target
  cases a with
  | single _ _ => rfl
  | vector _ values =>
    unfold Attribute.modify Hypervisor.diskFile Attribute.vectorInt
    simp only [Attribute.vectorValue_replace_ite, String.reduceEq, if_false]

theorem DiskType.toUpper_toStr (type : DiskType) : type.toStr.toUpper = type.toStr := by
  cases type <;> decide +kernel

theorem DiskType.toStr_ne (type : DiskType) : type.toStr ≠ "SWAP" ∧ type.toStr ≠ "FS" ∧
    (type.toStr = "RBD" ↔ type = .rbd) := by
  cases type <;> decide

/-- What a disk has of its image. -/
theorem ImageDetails.values_diskAttribute {details : ImageDetails} {img : PoolImage}
    {defaultDevPrefix : String} {disk : List (String × String)}
    (isDisk : img.image.type.isDisk = true) :
    Attribute.vectorValue (details.diskAttribute oid img defaultDevPrefix disk).1 "SOURCE" =
        img.image.source ∧
      Attribute.vectorValue (details.diskAttribute oid img defaultDevPrefix disk).1 "CLONE" =
        yesNo (!img.image.persistentImg) ∧
      ∃ type : DiskType,
        Attribute.vectorValue (details.diskAttribute oid img defaultDevPrefix disk).1 "TYPE" =
          type.toStr ∧ (type = .rbd ↔ img.image.type ≠ .cdrom ∧ details.diskType = .rbd) := by
  unfold ImageDetails.diskAttribute
  simp only [Attribute.vectorValue_ite, Attribute.vectorValue_replace_ite, String.reduceEq,
    if_true, if_false, ite_self, true_and]
  refine ⟨?_, ?_⟩
  · cases img.image.persistentImg <;> rfl
  · cases kind : img.image.type with
    | os | datablock => exact ⟨details.diskType, rfl, (and_iff_right nofun).symm⟩
    | cdrom => exact ⟨.cdRom, rfl, iff_of_false nofun fun both => both.1 rfl⟩
    | kernel | ramdisk | context =>
      rw [kind] at isDisk
      cases isDisk

/-- What a disk has after it was set up. -/
theorem DiskWorld.values_diskAttribute {values : List (String × String)} {i : Nat}
    {answer : DiskAnswer} (filled : w.diskAttribute vmId uid values i = some answer)
    {img : PoolImage}
    (found : (DiskLookup.mk values uid w.users w.pool).diskAttribute vmId = .image oid img) :
    ∃ ds, w.datastore img.dsId = some ds ∧
      Attribute.vectorValue answer.disk "SOURCE" = img.image.source ∧
      Attribute.vectorValue answer.disk "CLONE" = yesNo (!img.image.persistentImg) ∧
      Attribute.vectorValue answer.disk "TM_MAD" = ds.tmMad ∧
      Attribute.vectorValue answer.disk "DATASTORE_ID" = toString ds.oid ∧
      ∃ type : DiskType, Attribute.vectorValue answer.disk "TYPE" = type.toStr ∧
        (type = .rbd ↔ w.ceph oid img = true) := by
  unfold DiskWorld.diskAttribute at filled
  rw [found] at filled
  obtain ⟨ds, known, rfl⟩ := Option.map_eq_some_iff.mp filled
  refine ⟨ds, known, ?_⟩
  obtain ⟨source, clone, type, same, rbd⟩ :=
    @ImageDetails.values_diskAttribute oid (w.details oid) img w.defaultDevPrefix values
      (DiskLookup.isDisk_of_diskAttribute found)
  unfold DiskDatastore.diskAttribute
  simp only [Attribute.vectorValue_ite, Attribute.vectorValue_replace_ite, String.reduceEq,
    if_true, if_false, ite_self, true_and, source, clone, same]
  refine ⟨type, rfl, rbd.trans ?_⟩
  unfold DiskWorld.ceph
  rw [Bool.and_eq_true, decide_eq_true_eq, decide_eq_true_eq]

/-- A volatile disk has its own values. -/
theorem DiskWorld.diskAttribute_kept {values : List (String × String)} {i : Nat}
    {answer : DiskAnswer} (filled : w.diskAttribute vmId uid values i = some answer)
    (volatile : (DiskLookup.mk values uid w.users w.pool).diskAttribute vmId = .volatile)
    {name : String} (other : name ≠ "DISK_ID" ∧ name ≠ "DEV_PREFIX") :
    Attribute.vectorValue answer.disk name = Attribute.vectorValue values name := by
  unfold DiskWorld.diskAttribute at filled
  rw [volatile] at filled
  cases filled
  simp only [Attribute.vectorValue_ite, Attribute.vectorValue_replace_ite, other.1, other.2,
    if_false, ite_self]

/-- A volatile disk is a swap disk or a file system. -/
theorem DiskLookup.type_of_volatile {l : DiskLookup} (volatile : l.diskAttribute vmId = .volatile) :
    (Attribute.vectorValue l.disk "TYPE").toUpper = "SWAP" ∨
      (Attribute.vectorValue l.disk "TYPE").toUpper = "FS" := by
  have acquired : ∀ {found}, DiskLookup.acquire vmId found ≠ .volatile := by
    intro found is
    unfold DiskLookup.acquire at is
    split at is
    · cases is
    · split at is <;> cases is
  unfold DiskLookup.diskAttribute at volatile
  dsimp only at volatile
  repeat' split at volatile
  all_goals first
    | exact absurd volatile acquired
    | rename_i neither
      rwa [not_and_or, not_not, not_not] at neither
    | cases volatile

theorem toUpper_yesNo (b : Bool) : (yesNo b).toUpper = yesNo b := by
  cases b <;> decide +kernel

theorem yesNo_eq_iff (b : Bool) : yesNo b = "YES" ↔ b = true := by
  cases b <;> decide

theorem yesNo_ne_empty (b : Bool) : yesNo b ≠ "" := by
  cases b <;> decide

section

variable {a b : Attribute} {i : Nat}

/-- The number of a disk is read back. -/
theorem DiskWorld.readInt_diskId {values : List (String × String)} {answer : DiskAnswer}
    (small : i < 20) (filled : w.diskAttribute vmId uid values i = some answer) :
    Attribute.vectorValue answer.disk "DISK_ID" = toString (i : Int) ∧
      parseInt (toString (i : Int)) = some (i : Int) :=
  ⟨(DiskWorld.of_diskAttribute filled).1, parseInt_toString_int (by omega) (by omega)⟩

/-- A disk that was set up gets the command that the request asks for. -/
theorem DiskWorld.transfer_eq (small : i < 20) (done : w.setUpAttribute vmId uid i a = some b) :
    transferDisk calls record vmId b = w.transfer calls record vmId uid i a := by
  cases a with
  | single name value =>
    cases done
    rfl
  | vector name values =>
    obtain ⟨answer, filled, rfl⟩ := Option.map_eq_some_iff.mp done
    obtain ⟨text, number⟩ := DiskWorld.readInt_diskId small filled
    unfold transferDisk prologTransferCommand DiskWorld.transfer
    dsimp only
    rw [text, readInt_of_parseInt number, Option.getD_some]
    cases found : (DiskLookup.mk values uid w.users w.pool).diskAttribute vmId with
    | failed =>
      unfold DiskWorld.diskAttribute at filled
      rw [found] at filled
      cases filled
    | volatile =>
      dsimp only
      rw [DiskWorld.diskAttribute_kept filled found (by decide),
        DiskWorld.diskAttribute_kept filled found (by decide),
        DiskWorld.diskAttribute_kept filled found (by decide)]
      have type := DiskLookup.type_of_volatile found
      dsimp only at type
      rcases type with swap | fs
      · simp only [swap, if_true, not_true_eq_false, false_and, or_false]
      · simp only [fs, String.reduceEq, if_true, if_false, not_false_eq_true, true_and]
    | image oid img =>
      obtain ⟨ds, known, source, clone, tm, dsId, type, same, _⟩ :=
        DiskWorld.values_diskAttribute filled found
      have upper := type.toUpper_toStr
      obtain ⟨swap, fs, _⟩ := type.toStr_ne
      have someDs : toString ds.oid ≠ "" := toString_int_ne_empty ds.oid
      dsimp only
      rw [known, source, clone, tm, dsId, same, upper, if_neg swap, if_neg fs, toUpper_yesNo]
      simp only [yesNo_ne_empty, someDs, or_false, yesNo_eq_iff, Bool.not_eq_true']
      cases img.image.persistentImg <;> rfl

/-- The driver of the hypervisor reads the file that the request asks for. -/
theorem DiskWorld.file_eq (small : i < 20) (done : w.setUpAttribute vmId uid i a = some b) :
    hypervisor.diskFile record vmId b = w.file hypervisor record vmId uid i a := by
  cases a with
  | single name value =>
    cases done
    rfl
  | vector name values =>
    obtain ⟨answer, filled, rfl⟩ := Option.map_eq_some_iff.mp done
    obtain ⟨text, number⟩ := DiskWorld.readInt_diskId small filled
    have read : Attribute.vectorInt answer.disk "DISK_ID" = some (i : Int) := by
      unfold Attribute.vectorInt
      rw [text, if_neg (toString_int_ne_empty i), number]
    unfold Hypervisor.diskFile DiskWorld.file
    dsimp only
    rw [read, Option.getD_some]
    cases found : (DiskLookup.mk values uid w.users w.pool).diskAttribute vmId with
    | failed =>
      unfold DiskWorld.diskAttribute at filled
      rw [found] at filled
      cases filled
    | volatile =>
      rw [DiskWorld.diskAttribute_kept filled found (by decide)]
      have type := DiskLookup.type_of_volatile found
      dsimp only at type
      refine if_neg fun ceph => ?_
      rcases type with swap | fs
      · exact absurd (swap.symm.trans ceph.2) (by decide)
      · exact absurd (fs.symm.trans ceph.2) (by decide)
    | image oid img =>
      obtain ⟨ds, _, source, clone, _, _, type, same, rbd⟩ :=
        DiskWorld.values_diskAttribute filled found
      obtain ⟨_, _, ceph⟩ := type.toStr_ne
      dsimp only
      rw [source, clone, same, type.toUpper_toStr]
      simp only [ceph, rbd, yesNo_eq_iff, Bool.not_eq_true']
      cases img.image.persistentImg <;> rfl

end

/-- Each command is for the file of the disk, but for the RBD images of KVM. -/
theorem DiskWorld.path_transfer {a : Attribute} {i : Nat} {command : TransferCommand}
    (commanded : w.transfer calls record vmId uid i a = .ok (some command)) :
    hypervisor = .kvm ∧ w.cephDisk vmId uid a = true ∨
      w.file hypervisor record vmId uid i a = some command.path := by
  cases a with
  | single name value => cases commanded
  | vector name values =>
    unfold DiskWorld.transfer at commanded
    unfold DiskWorld.cephDisk DiskWorld.file
    dsimp only at commanded ⊢
    cases found : (DiskLookup.mk values uid w.users w.pool).diskAttribute vmId with
    | failed =>
      rw [found] at commanded
      cases commanded
    | volatile =>
      rw [found] at commanded
      dsimp only at commanded
      split at commanded
      · cases commanded
      · cases commanded
        exact .inr rfl
    | image oid img =>
      rw [found] at commanded
      dsimp only at commanded ⊢
      split at commanded
      · cases commanded
      · split at commanded
        · cases commanded
        · cases commanded
          by_cases ceph : hypervisor = .kvm ∧ w.ceph oid img = true
          · exact .inl ceph
          · rw [if_neg ceph]
            exact .inr rfl

/-! ## The kernel and the ramdisk -/

/-- The request names no ramdisk in a file datastore, in upper or in lower case. -/
def NoRamdisk (os : List (String × String)) : Prop :=
  ∀ name, name.toUpper = "INITRD_DS" → Attribute.vectorValue os name = ""

section

variable {files : ImageType → FileWorld} {attributes : List Attribute} {vm : TransferVm}

theorem osCommands_eq : osCommands calls record vm =
    (prologOsTransferCommands calls record vm.oid (vm.os.getD []) "KERNEL",
      prologOsTransferCommands calls record vm.oid (vm.os.getD []) "initrd") := by
  unfold osCommands
  cases vm.os with
  | none => rfl
  | some os => rfl

theorem kernel_eq (parsed : parseOs files attributes = .ok vm.os) :
    (osCommands calls record vm).1 =
      (files .kernel).transfer calls record vm.oid (osValues attributes) := by
  have kept : Attribute.vectorValue (vm.os.getD []) ("KERNEL" ++ "_DS") =
      Attribute.vectorValue (osValues attributes) ("KERNEL" ++ "_DS") :=
    parseOs_kept parsed (by decide) (by decide)
  rw [osCommands_eq]
  unfold prologOsTransferCommands
  dsimp only
  rw [kept]
  by_cases named : Attribute.vectorValue (osValues attributes) ("KERNEL" ++ "_DS") = ""
  · have none : (files .kernel).osImage (osValues attributes) "KERNEL" = none := by
      unfold FileWorld.osImage
      dsimp only
      rw [if_pos named]
    unfold FileWorld.transfer
    rw [if_pos named, none]
  · obtain ⟨img, ds, image, datastore, source, dsid, tm⟩ := parseOs_kernel parsed named
    have someDs : toString img.dsId ≠ "" := toString_int_ne_empty img.dsId
    have path : record.rsystemDir ++ "/" ++ "KERNEL".toLower = record.rsystemDir ++ "/kernel" := by
      have lower : "KERNEL".toLower = "kernel" := by decide +kernel
      rw [lower, String.append_assoc]
      rfl
    have names : "KERNEL" ++ "_DS_SOURCE" = "KERNEL_DS_SOURCE" ∧
        "KERNEL" ++ "_DS_DSID" = "KERNEL_DS_DSID" ∧ "KERNEL" ++ "_DS_TM" = "KERNEL_DS_TM" :=
      ⟨rfl, rfl, rfl⟩
    unfold FileWorld.transfer
    rw [if_neg named, image, datastore, names.1, names.2.1, names.2.2, source, dsid, tm, path]
    simp only [someDs, false_or]

theorem no_ramdisk (parsed : parseOs files attributes = .ok vm.os)
    (no : NoRamdisk (osValues attributes)) : (osCommands calls record vm).2 = none := by
  have empty : Attribute.vectorValue (vm.os.getD []) ("initrd" ++ "_DS") = "" :=
    (parseOs_kept parsed (by decide) (by decide)).trans (no _ (by decide +kernel))
  rw [osCommands_eq]
  unfold prologOsTransferCommands
  dsimp only
  rw [if_pos empty]

/-- The kernel that is transferred is the one of the deployment file. -/
theorem osFile_setOsPath {defaults : String → String} {command : TransferCommand}
    {initrd : Option TransferCommand} (some_path : command.path ≠ "") (os : vm.os.isSome) :
    osFile defaults ((setOsPath "INITRD" initrd (setOsPath "KERNEL" (some command) vm)).os.getD [])
      "KERNEL" = some command.path := by
  obtain ⟨values, has⟩ := Option.isSome_iff_exists.mp os
  have written : Attribute.vectorValue
      ((setOsPath "INITRD" initrd (setOsPath "KERNEL" (some command) vm)).os.getD []) "KERNEL" =
        command.path := by
    unfold setOsPath
    cases initrd with
    | none =>
      simp only [has, Option.map_some, Option.getD_some, Attribute.vectorValue_replace]
    | some other =>
      simp only [has, Option.map_some, Option.getD_some, Attribute.vectorValue_replace_ite,
        String.reduceEq, if_false, if_true]
  unfold osFile
  simp only [written, some_path, if_false]

end

/-! ## A new VM -/

namespace DiskCreation

variable {r : DiskCreation} {attributes : VmDisks}

theorem vm_cases (created : r.vm vmId uid = some attributes) : ∃ before,
    r.disks vmId uid = some before ∧ attributes.disks = before.disks ∧
      parseContext r.files r.scope (r.contexts before) = .ok attributes.context := by
  unfold DiskCreation.vm at created
  obtain ⟨before, found, rest⟩ := Option.bind_eq_some_iff.mp created
  obtain ⟨context, parsed, rfl⟩ := Option.map_eq_some_iff.mp rest
  exact ⟨before, found, rfl, toOption_eq_some_iff.mp parsed⟩

/-- There is a context where the user has one. -/
theorem length_context (created : r.vm vmId uid = some attributes) :
    attributes.context.toList.length = (r.tmpl.get "CONTEXT").length := by
  have one : ∀ {contexts context}, parseContext r.files r.scope contexts = .ok context →
      context.toList.length = contexts.length := by
    intro contexts context parsed
    unfold parseContext at parsed
    split at parsed
    · cases parsed
      rfl
    · cases parsed
    · rename_i values
      dsimp only at parsed
      cases written : r.files.filesDs (Attribute.vectorValue values "FILES_DS") with
      | error e =>
        rw [written] at parsed
        repeat' split at parsed
        all_goals cases parsed
      | ok files =>
        rw [written] at parsed
        repeat' split at parsed
        all_goals cases parsed
        all_goals rfl
    · cases parsed
  obtain ⟨before, _, _, parsed⟩ := vm_cases created
  rw [one parsed]
  unfold contexts
  split
  · rename_i same _
    rw [same]
    rfl
  · rfl

/-- The context has the number after the disks, if it keeps it. -/
theorem context_number (created : r.vm vmId uid = some attributes) (keeps : r.KeepsContext vmId uid)
    {context : List (String × String)} (has : attributes.context = some context) :
    Attribute.vectorValue context "DISK_ID" = toString ((r.tmpl.get "DISK").length : Int) ∧
      parseInt (toString ((r.tmpl.get "DISK").length : Int)) =
        some ((r.tmpl.get "DISK").length : Int) := by
  obtain ⟨before, found, _, _⟩ := vm_cases created
  obtain ⟨few, _, numbered, _⟩ :=
    VmDisks.assigned_of_getDiskImages (toOption_eq_some_iff.mp found)
  have same := (keeps before attributes found created).2
  have here : attributes.textAt "DISK_ID" .context =
      some (Attribute.vectorValue context "DISK_ID") := by
    unfold VmDisks.textAt
    rw [has]
    rfl
  exact ⟨numbered.context _ (same.symm.trans here), parseInt_toString_int (by omega) (by omega)⟩

/-- Every disk has a target, and the context as well if it keeps it. -/
theorem has_target (created : r.vm vmId uid = some attributes) {ref : DiskRef}
    (keeps : ref = .context → r.KeepsContext vmId uid) :
    attributes.textAt "TARGET" ref ≠ some "" := by
  obtain ⟨before, found, same, _⟩ := vm_cases created
  obtain ⟨_, _, _, used, waiting⟩ :=
    VmDisks.assigned_of_getDiskImages (toOption_eq_some_iff.mp found)
  have before_ref : attributes.textAt "TARGET" ref = before.textAt "TARGET" ref := by
    cases ref with
    | context => exact (keeps rfl before attributes found created).1
    | disk i => exact congrArg (fun disks => disks[i]?.bind (Attribute.text? "TARGET")) same
  intro empty
  rw [before_ref] at empty
  exact List.not_mem_nil ((waiting.queued ref).mpr empty)

theorem map_disks {β : Type} {f : Attribute → β} {g : Nat → Attribute → β}
    (created : r.vm vmId uid = some attributes) (ignores : Attribute.IgnoresTarget f)
    (each : ∀ i < 20, ∀ a b, (r.images i).setUpAttribute vmId uid i a = some b → f b = g i a) :
    attributes.disks.map f = (r.tmpl.get "DISK").mapIdx g := by
  obtain ⟨before, found, same, _⟩ := vm_cases created
  rw [same]
  exact VmDisks.map_of_getDiskImages ignores each (toOption_eq_some_iff.mp found)

/-- The commands for the disks of the request. -/
def diskTransfers (r : DiskCreation) (calls : PrologCalls) (record : TransferRecord) (vmId : Nat)
    (uid : Int) : List (Except PrologError (Option TransferCommand)) :=
  (r.tmpl.get "DISK").mapIdx fun i => (r.images i).transfer calls record vmId uid i

/-- The files of the disks of the request. -/
def diskFiles (r : DiskCreation) (hypervisor : Hypervisor) (record : TransferRecord) (vmId : Nat)
    (uid : Int) : List String :=
  ((r.tmpl.get "DISK").mapIdx fun i =>
    (r.images i).file hypervisor record vmId uid i).filterMap id

/-- The deployment file has the files of the commands. -/
structure Refers (r : DiskCreation) (hypervisor : Hypervisor) (calls : PrologCalls)
    (record : TransferRecord) (vmId : Nat) (uid : Int) (kernel : Option TransferCommand)
    (context : List TransferCommand) (d : Description) : Prop where
  disks : d.disks = r.diskFiles hypervisor record vmId uid
  /-- but for the RBD images of KVM, which are used where they are -/
  commands : ∀ i a command, (r.tmpl.get "DISK")[i]? = some a →
    (r.images i).transfer calls record vmId uid i a = .ok (some command) →
      hypervisor = .kvm ∧ (r.images i).cephDisk vmId uid a = true ∨
        (r.images i).file hypervisor record vmId uid i a = some command.path
  kernel : ∀ command, kernel = some command → d.kernel = some command.path
  context : r.KeepsContext vmId uid → ∀ command ∈ context, d.context = some command.path

theorem diskTransfers_eq (created : r.vm vmId uid = some attributes) :
    attributes.disks.map (transferDisk calls record vmId) =
      r.diskTransfers calls record vmId uid :=
  map_disks created ignoresTarget_transferDisk fun _ small _ _ set =>
    DiskWorld.transfer_eq small set

theorem diskFiles_eq (created : r.vm vmId uid = some attributes) :
    attributes.disks.filterMap (hypervisor.diskFile record vmId) =
      r.diskFiles hypervisor record vmId uid := by
  have files : attributes.disks.map (hypervisor.diskFile record vmId) =
      (r.tmpl.get "DISK").mapIdx fun i => (r.images i).file hypervisor record vmId uid i :=
    map_disks created ignoresTarget_diskFile fun _ small _ _ set => DiskWorld.file_eq small set
  unfold diskFiles
  rw [← files, List.filterMap_map, Function.id_comp]

/-- The number of the context that the prolog reads. -/
def contextNumber (calls : PrologCalls) (attributes : VmDisks) : Int :=
  (readInt (Attribute.vectorValue (attributes.context.getD []) "DISK_ID")).getD calls.read

/-- The command for the context is the one that the request asks for. -/
theorem contextCommand_eq (created : r.vm vmId uid = some attributes)
    (opened : calls.contextFile = true) :
    contextCommand calls record vmId attributes.context =
      .ok (r.transfer record vmId (contextFiles (attributes.context.getD []))
        (contextNumber calls attributes)) := by
  have length := length_context created
  unfold DiskCreation.transfer contextNumber
  rw [List.map_const', ← length]
  cases has : attributes.context with
  | none => rfl
  | some context =>
    unfold contextCommand
    simp only [opened, Bool.not_true, Bool.false_eq_true, if_false, Option.getD_some]
    rfl

/-- The deployment file of a new VM. -/
theorem refers_of_vm (created : r.vm vmId uid = some attributes)
    {vm : TransferVm} {kernel initrd : Option TransferCommand} {defaults : String → String}
    (oid : vm.oid = vmId) (same : vm.attributes = attributes)
    (path : ∀ command, kernel = some command → command.path ≠ "" ∧ vm.os.isSome) :
    ∃ d, description hypervisor defaults record
        (setOsPath "INITRD" initrd (setOsPath "KERNEL" kernel vm)) = some d ∧
      r.Refers hypervisor calls record vmId uid kernel
        (r.transfer record vmId (contextFiles (attributes.context.getD []))
          (contextNumber calls attributes)) d := by
  have kept : ∀ name command (vm : TransferVm), (setOsPath name command vm).oid = vm.oid ∧
      (setOsPath name command vm).attributes = vm.attributes := by
    intro name command vm
    cases command with
    | none => exact ⟨rfl, rfl⟩
    | some command => exact ⟨rfl, rfl⟩
  have attributes_eq :
      (setOsPath "INITRD" initrd (setOsPath "KERNEL" kernel vm)).attributes = attributes := by
    rw [(kept _ _ _).2, (kept _ _ _).2, same]
  have oid_eq : (setOsPath "INITRD" initrd (setOsPath "KERNEL" kernel vm)).oid = vmId := by
    rw [(kept _ _ _).1, (kept _ _ _).1, oid]
  have targets :
      ¬ (attributes.disks.any fun disk => disk.text? "TARGET" = some "") = true := by
    intro missing
    obtain ⟨a, member, empty⟩ := List.any_eq_true.mp missing
    obtain ⟨i, here⟩ := List.mem_iff_getElem?.mp member
    have some_target := @has_target vmId uid r attributes created (.disk i) nofun
    exact some_target (Option.bind_eq_some_iff.mpr ⟨a, here, of_decide_eq_true empty⟩)
  unfold description
  rw [attributes_eq, oid_eq, if_neg targets]
  refine ⟨_, rfl, diskFiles_eq created, fun i a command _ commanded => ?_,
    fun command is => ?_, fun keeps command member => ?_⟩
  · exact DiskWorld.path_transfer commanded
  · obtain ⟨some_path, os⟩ := path command is
    rw [is]
    exact osFile_setOsPath some_path os
  · unfold DiskCreation.transfer at member
    obtain ⟨a, user, rfl⟩ := List.mem_map.mp member
    cases has : attributes.context with
    | none =>
      have length := length_context created
      rw [has] at length
      rw [List.length_eq_zero_iff.mp length.symm] at user
      exact absurd user List.not_mem_nil
    | some context =>
      obtain ⟨text, number⟩ := context_number created keeps has
      have target : Attribute.vectorValue context "TARGET" ≠ "" := by
        intro empty
        have some_target := @has_target vmId uid r attributes created .context fun _ => keeps
        unfold VmDisks.textAt at some_target
        rw [has, ← empty] at some_target
        exact some_target rfl
      have read : Attribute.vectorInt context "DISK_ID" =
          some ((r.tmpl.get "DISK").length : Int) := by
        unfold Attribute.vectorInt
        rw [text, if_neg (toString_int_ne_empty _), number]
      unfold contextNumber
      rw [has, Option.getD_some, text, readInt_of_parseInt number]
      dsimp only
      rw [Option.bind_some, contextFile, if_neg target, read]
      rfl

end DiskCreation

/-- The script of the prolog has a command for each disk, for the kernel, the ramdisk and the
context and no other one, and these are for the files of the deployment file. -/
structure DiskCreation.Complete (r : DiskCreation) (files : ImageType → FileWorld)
    (calls : PrologCalls) (record : TransferRecord) (vm : TransferVm) (uid : Int)
    (ramdisk : Option TransferCommand) (number : Int) : Prop where
  noRamdisk : NoRamdisk (osValues (r.tmpl.get "OS")) → ramdisk = none
  numbered : r.KeepsContext vm.oid uid → r.tmpl.get "CONTEXT" ≠ [] →
    number = (r.tmpl.get "DISK").length
  script : (prologAction calls (some record) vm).map Prod.fst =
    (collect (r.diskTransfers calls record vm.oid uid)).map fun disks =>
      disks ++
        ((files .kernel).transfer calls record vm.oid (osValues (r.tmpl.get "OS"))).toList ++
        ramdisk.toList ++
        r.transfer record vm.oid (contextFiles (vm.attributes.context.getD [])) number
  refers : ∀ script vm', prologAction calls (some record) vm = .ok (script, vm') →
    ∀ hypervisor defaults, ∃ d, description hypervisor defaults record vm' = some d ∧
      r.Refers hypervisor calls record vm.oid uid
        ((files .kernel).transfer calls record vm.oid (osValues (r.tmpl.get "OS")))
        (r.transfer record vm.oid (contextFiles (vm.attributes.context.getD [])) number) d

/-- The script for a new VM has one command for each disk that is given an image or a size (a file
system also needs a format), for the kernel and for the context. There is none for a ramdisk that
nobody names. -/
theorem prologAction_of_created {r : DiskCreation} {files : ImageType → FileWorld}
    {attributes : VmDisks} {os : Option (List (String × String))}
    (created : r.vm vmId uid = some attributes)
    (parsed : parseOs files (r.tmpl.get "OS") = .ok os) (driver : calls.driver = true)
    (tmMad : record.tmMad ≠ "") (opens : calls.file = true) (opened : calls.contextFile = true) :
    ∃ ramdisk number, r.Complete files calls record ⟨vmId, attributes, os⟩ uid ramdisk number := by
  have kernel := @kernel_eq calls record files (r.tmpl.get "OS") ⟨vmId, attributes, os⟩ parsed
  have action : prologAction calls (some record) ⟨vmId, attributes, os⟩ =
      (collect (r.diskTransfers calls record vmId uid)).map fun disks =>
        (disks ++ (osCommands calls record ⟨vmId, attributes, os⟩).1.toList ++
            (osCommands calls record ⟨vmId, attributes, os⟩).2.toList ++
            r.transfer record vmId (contextFiles (attributes.context.getD []))
              (DiskCreation.contextNumber calls attributes),
          setOsPath "INITRD" (osCommands calls record ⟨vmId, attributes, os⟩).2
            (setOsPath "KERNEL" (osCommands calls record ⟨vmId, attributes, os⟩).1
              ⟨vmId, attributes, os⟩)) := by
    unfold prologAction
    simp only [driver, opens, tmMad, Bool.not_true, Bool.false_eq_true, or_self, if_false,
      DiskCreation.diskTransfers_eq created, DiskCreation.contextCommand_eq created opened]
    cases collect (r.diskTransfers calls record vmId uid) with
    | error e => rfl
    | ok disks => rfl
  refine ⟨(osCommands calls record ⟨vmId, attributes, os⟩).2,
    DiskCreation.contextNumber calls attributes, no_ramdisk parsed, fun keeps user => ?_, ?_, ?_⟩
  · cases has : attributes.context with
    | none =>
      have length := DiskCreation.length_context created
      rw [has] at length
      exact absurd (List.length_eq_zero_iff.mp length.symm) user
    | some context =>
      obtain ⟨text, number⟩ := DiskCreation.context_number created keeps has
      unfold DiskCreation.contextNumber
      rw [has, Option.getD_some, text, readInt_of_parseInt number, Option.getD_some]
  · rw [action, kernel]
    cases collect (r.diskTransfers calls record vmId uid) with
    | error e => rfl
    | ok disks => rfl
  · intro script vm done hypervisor defaults
    rw [action] at done
    cases commands : collect (r.diskTransfers calls record vmId uid) with
    | error e =>
      rw [commands] at done
      cases done
    | ok disks =>
      rw [commands] at done
      cases done
      rw [← kernel]
      refine DiskCreation.refers_of_vm created rfl rfl fun command is => ?_
      rw [osCommands_eq] at is
      cases os with
      | none => cases is
      | some os =>
        refine ⟨?_, rfl⟩
        unfold prologOsTransferCommands at is
        dsimp only at is
        split at is
        · cases is
        · split at is
          · cases is
          · cases is
            intro empty
            rw [String.append_eq_empty_iff, String.append_eq_empty_iff] at empty
            exact absurd empty.1.2 (by decide)

/-- An image that is not persistent. -/
def rootImage : PoolImage where
  image := ⟨.os, .ready, false, ∅, ∅, none, "/images/7", false, false⟩
  perms := { objType := .image, oid := 7, uid := 2, gid := 2, cid := -1, ownerU := true }
  dsId := 1
  target := ""

/-- Its pool. -/
def rootPool : ImageWorld where
  users _ := none
  images oid := if oid = 7 then some rootImage else none
  byName _ _ := none
  datastores _ := true
  acls := ⟨[], AclManager.wellFormed_nil⟩

/-- A request for a VM with the image, a swap disk, a kernel and a context. -/
def rootRequest : DiskCreation :=
  { DiskRuns.requestFor
      [.vector "DISK" [("IMAGE_ID", "7")], .vector "DISK" [("TYPE", "swap"), ("SIZE", "512")],
        .vector "OS" [("KERNEL_DS", "$FILE[IMAGE_ID=5]")], .vector "CONTEXT" [("FILES", "/init")]]
    with
    images _ :=
      { users := rootPool
        pool := rootPool
        details _ := ⟨"root", .file, []⟩
        datastore _ := some ⟨1, "default", "ssh", -1⟩
        defaultDevPrefix := "hd" } }

/-- A pool with a kernel in a file datastore. -/
def filesPool : ImageWorld where
  users _ := none
  images oid := if oid = 5 then some
      ⟨⟨.kernel, .ready, false, ∅, ∅, none, "/files/5", false, false⟩,
        { objType := .image, oid := 5, uid := 0, gid := 0 }, 2, ""⟩
    else none
  byName _ _ := none
  datastores _ := true
  acls := ⟨[], AclManager.wellFormed_nil⟩

/-- The kernel in a file datastore. -/
def kernelFile (_ : ImageType) : FileWorld where
  scope := ⟨oneadminId, oneadminId, filesPool, filesPool⟩
  image _ := some ⟨5, 2, .kernel, "/files/5"⟩
  datastore _ := some ⟨2, "files", "ssh", -1⟩

/-- The last record of the VM. -/
def frontRecord : TransferRecord := ⟨"host1", "/var/lib/one/0/3", "/vms/3/context.sh", "shared", "0"⟩

/-- All calls succeed. -/
def frontCalls : PrologCalls := ⟨"front", true, true, true, 0⟩

/-- What `insert` has set up of the request. -/
def rootVm : TransferVm where
  oid := 3
  attributes :=
    { context := some [("DISK_ID", "2"), ("FILES", "/init"), ("TARGET", "hdb")]
      disks :=
        [.vector "DISK" [("TARGET", "hda"), ("DISK_ID", "0"), ("TM_MAD", "ssh"),
            ("DATASTORE_ID", "1"), ("DATASTORE", "default"), ("TYPE", "FILE"), ("SAVE", "NO"),
            ("CLONE", "YES"), ("READONLY", "NO"), ("SOURCE", "/images/7"), ("IMAGE_ID", "7"),
            ("IMAGE", "root"), ("DEV_PREFIX", "hd")],
          .vector "DISK" [("TARGET", "hdc"), ("DISK_ID", "1"), ("DEV_PREFIX", "hd"),
            ("TYPE", "swap"), ("SIZE", "512")]] }
  os := some [("KERNEL_DS_TM", "ssh"), ("KERNEL_DS_DSID", "2"), ("KERNEL_DS_SOURCE", "/files/5"),
    ("KERNEL_DS_ID", "5"), ("KERNEL_DS", "$FILE[IMAGE_ID=5]")]

theorem prologAction_of_created_root : rootRequest.vm 3 0 = some rootVm.attributes ∧
    parseOs kernelFile (rootRequest.tmpl.get "OS") = .ok rootVm.os ∧
    (prologAction frontCalls (some frontRecord) rootVm).map Prod.fst =
      .ok [⟨.clone "front:/images/7", "ssh", "host1", "/var/lib/one/0/3/disk.0", 3, "1"⟩,
        ⟨.mkswap "512", "shared", "host1", "/var/lib/one/0/3/disk.1", 3, "0"⟩,
        ⟨.clone "front:/files/5", "ssh", "host1", "/var/lib/one/0/3/kernel", 3, "2"⟩,
        ⟨.context "/vms/3/context.sh" "/init", "shared", "host1", "/var/lib/one/0/3/disk.2", 3,
          "0"⟩] ∧
    ∃ ramdisk number,
      rootRequest.Complete kernelFile frontCalls frontRecord rootVm 0 ramdisk number := by
  have created : rootRequest.vm 3 0 = some rootVm.attributes := by decide +kernel
  have parsed : parseOs kernelFile (rootRequest.tmpl.get "OS") = .ok rootVm.os := by decide +kernel
  refine ⟨created, parsed, by decide +kernel, ?_⟩
  exact prologAction_of_created created parsed rfl (by decide) rfl rfl

/-- A file system with a size and no format. -/
def plainVm : TransferVm where
  oid := 3
  attributes :=
    { context := none
      disks := [.vector "DISK" [("TARGET", "hda"), ("DISK_ID", "0"), ("DEV_PREFIX", "hd"),
        ("TYPE", "fs"), ("SIZE", "512")]] }
  os := none

/-- A file system with a size has a path in the deployment file and no command. -/
theorem sized_disk_skipped :
    (DiskRuns.requestFor [.vector "DISK" [("TYPE", "fs"), ("SIZE", "512")]]).vm 3 0 =
        some plainVm.attributes ∧
      prologAction frontCalls (some frontRecord) plainVm = .ok ([], plainVm) ∧
      description .kvm (fun _ => "") frontRecord plainVm =
        some ⟨["/var/lib/one/0/3/disk.0"], none, none, none⟩ := by
  refine ⟨by decide +kernel, by decide +kernel, by decide +kernel⟩

end Ezilla
