import Ezilla.Lib.XmlWriter
import Ezilla.Template

/-!
# The deployment description for KVM

The driver writes an XML document for libvirt with the values of the template in it as they are.

* `LibVirtDriver.deploymentDescriptionKvm`: the text;
* `quotedValues`, `containedValues`: the values in it;
* `Encloses`: it is read with each value in the one place that it is meant for.
-/

namespace Ezilla

open Xml

/-- What the driver reads of a VM and of its last history record. -/
structure KvmVm where
  oid : Nat
  tmpl : Template
  remoteSystemDir : String
  vnmMad : String

/-- The defaults in the configuration of the driver, and how a stream prints the shares of a CPU,
which are a number in floating point. -/
structure LibVirtDriver where
  conf : Template
  shares : ℚ → String

/-- The errors of `deployment_description_kvm`. -/
inductive KvmError where
  /-- Could not open KVM deployment file. -/
  | file
  /-- No MEMORY defined and no default provided. -/
  | memory
  /-- No ARCH defined and no default provided. -/
  | arch
  /-- No BOOT device defined and no default provided. -/
  | boot
  /-- Wrong target value in DISK. -/
  | disk
  /-- the CONTEXT is no vector, and a null pointer is used -/
  | context
  deriving DecidableEq

/-! ## Lines of the document -/

namespace Kvm

def attributesOf (attributes : List (String × String)) : List (List Char × List Char) :=
  attributes.map fun a => (a.1.toList, a.2.toList)

def leaf (name : String) (attributes : List (String × String)) (value : String) : Written :=
  .leaf name.toList (attributesOf attributes) value.toList

def empty (name : String) (attributes : List (String × String)) : Written :=
  .empty name.toList (attributesOf attributes)

/-- An element on a line of its own. -/
def line (tabs : String) (w : Written) : List Written := [.space tabs.toList, w, .space ['\n']]

/-- An element with lines in it. -/
def block (tabs name : String) (attributes : List (String × String)) (lines : List Written) :
    List Written :=
  line tabs (.element name.toList (attributesOf attributes)
    (.space ['\n'] :: (lines ++ [.space tabs.toList])))

/-- An attribute that is there if it has a value. -/
def attributeIf (key value : String) : List (String × String) := if value ≠ "" then [(key, value)] else []

/-- A value, or the one to take where it is empty. -/
def orElse (value default : String) : String := if value ≠ "" then value else default

end Kvm

namespace LibVirtDriver

open Kvm

variable (driver : LibVirtDriver) (vm : KvmVm)

/-- `VirtualMachineManagerDriver::get_default(name, vname, value)`. -/
def getDefault (name vname : String) : String :=
  match driver.conf.get name with
  | [.vector _ values] => Attribute.vectorValue values vname
  | _ => ""

/-- The values of the first attribute of a name, if it is a vector. -/
def firstVector (name : String) : Option (List (String × String)) :=
  match vm.tmpl.get name with
  | .vector _ values :: _ => some values
  | _ => none

/-! ## The sections -/

/-- A value of the OS section, or its default. -/
def osValue (field : String) : String :=
  orElse (((firstVector vm "OS").map fun values => Attribute.vectorValue values field).getD "")
    (driver.getDefault "OS" field)

/-- The command line of the kernel. -/
def kernelCmd : String :=
  if driver.osValue vm "ROOT" ≠ "" then
    "root=/dev/" ++ driver.osValue vm "ROOT" ++ " " ++ driver.osValue vm "KERNEL_CMD"
  else driver.osValue vm "KERNEL_CMD"

def os : Except KvmError (List Written) :=
  let value := driver.osValue vm
  if value "ARCH" = "" then .error .arch
  else if value "BOOT" = "" then .error .boot
  else .ok (block "\t" "os" [] (
    line "\t\t" (leaf "type" [("arch", value "ARCH")] "hvm") ++
    (if value "KERNEL" ≠ "" then
      line "\t\t" (leaf "kernel" [] (value "KERNEL")) ++
      (if value "INITRD" ≠ "" then line "\t\t" (leaf "initrd" [] (value "INITRD")) else []) ++
      (if driver.kernelCmd vm ≠ "" then line "\t\t" (leaf "cmdline" [] (driver.kernelCmd vm)) else [])
    else if value "BOOTLOADER" ≠ "" then line "\t\t" (leaf "bootloader" [] (value "BOOTLOADER"))
    else []) ++
    line "\t\t" (empty "boot" [("dev", value "BOOT")])))

/-- The file of a disk on the host. -/
def diskFile (values : List (String × String)) : String :=
  vm.remoteSystemDir ++ "/disk." ++ toString ((Attribute.vectorInt values "DISK_ID").getD (-1))

def diskType (values : List (String × String)) : String :=
  (Attribute.vectorValue values "TYPE").toUpper

/-- The name of an image in Ceph. -/
def rbdName (values : List (String × String)) : String :=
  if Attribute.vectorValue values "CLONE" = "YES" then
    Attribute.vectorValue values "SOURCE" ++ "-" ++ toString vm.oid ++ "-" ++
      toString ((Attribute.vectorInt values "DISK_ID").getD (-1))
  else Attribute.vectorValue values "SOURCE"

/-- The type and the device of a disk, and the attributes of its source. -/
def diskSource (values : List (String × String)) : String × String × List (String × String) :=
  if diskType values = "BLOCK" then ("block", "disk", [("dev", diskFile vm values)])
  else if diskType values = "RBD" then
    ("network", "disk", [("protocol", "rbd"), ("name", rbdName vm values)])
  else if diskType values = "CDROM" then ("file", "cdrom", [("file", diskFile vm values)])
  else ("file", "disk", [("file", diskFile vm values)])

/-- The format of a disk. -/
def diskDriver (values : List (String × String)) : String :=
  if diskType values = "CDROM" then "raw"
  else orElse (Attribute.vectorValue values "DRIVER")
    (orElse (driver.getDefault "DISK" "DRIVER") "raw")

def diskCache (values : List (String × String)) : String :=
  orElse (Attribute.vectorValue values "CACHE") (orElse (driver.getDefault "DISK" "CACHE") "default")

def diskIo (values : List (String × String)) : String :=
  orElse (Attribute.vectorValue values "IO") (driver.getDefault "DISK" "IO")

def disk (values : List (String × String)) : Except KvmError (List Written) :=
  let target := Attribute.vectorValue values "TARGET"
  let source := diskSource vm values
  if target = "" then .error .disk
  else .ok (block "\t\t" "disk" [("type", source.1), ("device", source.2.1)] (
    line "\t\t\t" (empty "source" source.2.2) ++
    line "\t\t\t" (empty "target" [("dev", target)]) ++
    (if (Attribute.vectorValue values "READONLY").toUpper = "YES" then
      line "\t\t\t" (empty "readonly" []) else []) ++
    line "\t\t\t" (empty "driver" ([("name", "qemu"), ("type", driver.diskDriver values),
      ("cache", driver.diskCache values)] ++ attributeIf "io" (driver.diskIo values)))))

/-- The disks in their order; one without a target is an error. -/
def disks : List (List (String × String)) → Except KvmError (List Written)
  | [] => .ok []
  | values :: rest =>
    match driver.disk vm values with
    | .error e => .error e
    | .ok first => (disks rest).map (first ++ ·)

/-- The device of the CONTEXT, if there is one with a target. -/
def context : Except KvmError (List Written) :=
  match vm.tmpl.get "CONTEXT" with
  | [.single _ _] => .error .context
  | [.vector _ values] =>
    let target := Attribute.vectorValue values "TARGET"
    if target ≠ "" then
      .ok (block "\t\t" "disk" [("type", "file"), ("device", "cdrom")] (
        line "\t\t\t" (empty "source" [("file", diskFile vm values)]) ++
        line "\t\t\t" (empty "target" [("dev", target)]) ++
        line "\t\t\t" (empty "readonly" []) ++
        line "\t\t\t" (empty "driver" [("name", "qemu"), ("type", "raw")])))
    else .ok []
  | _ => .ok []

/-- An element with one attribute, if that has a value. -/
def lineIf (name key value : String) : List Written :=
  if value ≠ "" then line "\t\t\t" (empty name [(key, value)]) else []

def nicModel (values : List (String × String)) : String :=
  orElse (Attribute.vectorValue values "MODEL") (driver.getDefault "NIC" "MODEL")

def nicFilter (values : List (String × String)) : String :=
  orElse (Attribute.vectorValue values "FILTER") (driver.getDefault "NIC" "FILTER")

def nic (values : List (String × String)) : List Written :=
  let value := Attribute.vectorValue values
  block "\t\t" "interface" [("type", if value "BRIDGE" = "" then "ethernet" else "bridge")] (
    lineIf "source" "bridge" (value "BRIDGE") ++
    (if vm.vnmMad = "ovswitch" then
      line "\t\t\t" (empty "virtualport" [("type", "openvswitch")]) else []) ++
    lineIf "mac" "address" (value "MAC") ++
    lineIf "target" "dev" (value "TARGET") ++
    lineIf "script" "path" (value "SCRIPT") ++
    lineIf "model" "type" (driver.nicModel values) ++
    (if value "IP" ≠ "" ∧ driver.nicFilter values ≠ "" then
      block "\t\t\t" "filterref" [("filter", driver.nicFilter values)]
        (line "\t\t\t\t" (empty "parameter" [("name", "IP"), ("value", value "IP")]))
    else []))

def graphicsType (values : List (String × String)) : String :=
  (Attribute.vectorValue values "TYPE").toLower

/-- The graphics of a type that is known. -/
def graphics (values : List (String × String)) : List Written :=
  let value := Attribute.vectorValue values
  if graphicsType values = "vnc" ∨ graphicsType values = "spice" then
    line "\t\t" (empty "graphics" ([("type", graphicsType values)] ++
      attributeIf "listen" (value "LISTEN") ++ attributeIf "port" (value "PORT") ++
      attributeIf "passwd" (value "PASSWD") ++ attributeIf "keymap" (value "KEYMAP")))
  else []

def input (values : List (String × String)) : List Written :=
  let value := Attribute.vectorValue values
  if value "TYPE" ≠ "" then
    line "\t\t" (empty "input" ([("type", value "TYPE")] ++ attributeIf "bus" (value "BUS")))
  else []

def emulatorPath : String := orElse (driver.conf.getString "EMULATOR") "/usr/bin/kvm"

def devices : Except KvmError (List Written) :=
  match driver.disks vm (vm.tmpl.vectors "DISK") with
  | .error e => .error e
  | .ok disks =>
    (context vm).map fun context => block "\t" "devices" [] (
      line "\t\t" (leaf "emulator" [] driver.emulatorPath) ++ disks ++ context ++
      (vm.tmpl.vectors "NIC").flatMap (driver.nic vm) ++
      ((firstVector vm "GRAPHICS").map graphics).getD [] ++
      ((firstVector vm "INPUT").map input).getD [])

/-- A value of FEATURES that is YES, there or in the defaults. -/
def feature (field : String) : Bool :=
  (orElse (((firstVector vm "FEATURES").map fun values => Attribute.vectorValue values field).getD "")
    (driver.getDefault "FEATURES" field)).toUpper = "YES"

def features : List Written :=
  if driver.feature vm "ACPI" ∨ driver.feature vm "PAE" then
    block "\t" "features" [] (
      (if driver.feature vm "PAE" then line "\t\t" (empty "pae" []) else []) ++
      (if driver.feature vm "ACPI" then line "\t\t" (empty "acpi" []) else []))
  else []

def vcpu : String := orElse (vm.tmpl.getString "VCPU") (driver.conf.getString "VCPU")

/-- The lines before the OS section, with the memory in machine integers. -/
def resources (memory : Int) : List Written :=
  line "\t" (leaf "name" [] ("one-" ++ toString vm.oid)) ++
  (if driver.vcpu vm ≠ "" then line "\t" (leaf "vcpu" [] (driver.vcpu vm)) else []) ++
  ((vm.tmpl.getFloat "CPU").map fun cpu =>
    block "\t" "cputune" [] (line "\t\t" (leaf "shares" [] (driver.shares cpu)))).getD [] ++
  line "\t" (leaf "memory" [] (toString ((memory * 1024).bmod (2 ^ 32))))

/-- The lines of the document before RAW. -/
def description : Except KvmError (List Written) :=
  match vm.tmpl.getInt "MEMORY" with
  | none => .error .memory
  | some memory =>
    match driver.os vm with
    | .error e => .error e
    | .ok os => (driver.devices vm).map fun devices =>
      .space ['\n'] :: (driver.resources vm memory ++ os ++ devices ++ driver.features vm)

/-- The RAW sections for KVM, and the default. -/
def raw : String :=
  String.join (((vm.tmpl.vectors "RAW").filter fun values =>
      (Attribute.vectorValue values "TYPE").toUpper = "KVM").map fun values =>
    "\t" ++ Attribute.vectorValue values "DATA" ++ "\n") ++
  (if driver.conf.getString "RAW" ≠ "" then "\t" ++ driver.conf.getString "RAW" ++ "\n" else "")

/-- The attributes of the root element; the driver is one for the emulator `kvm`. -/
def domainAttributes : List (String × String) :=
  [("type", "kvm"), ("xmlns:qemu", "http://libvirt.org/schemas/domain/qemu/1.0")]

/-- The text behind RAW. -/
def domainEnd : List Char := endText "domain".toList ++ ['\n']

/-- `LibVirtDriver::deployment_description_kvm`: the text of the file. -/
def deploymentDescriptionKvm (opened : Bool) : Except KvmError (List Char) :=
  if !opened then .error .file
  else (driver.description vm).map fun lines =>
    '<' :: ("domain".toList ++ (attributesText (attributesOf domainAttributes) ++
      '>' :: (texts lines ++ ((driver.raw vm).toList ++ domainEnd))))

/-! ## The values in the document -/

/-- The values of a disk that stand between quotes. -/
def diskQuoted (values : List (String × String)) : List String :=
  [if diskType values = "RBD" then Attribute.vectorValue values "SOURCE" else vm.remoteSystemDir,
    Attribute.vectorValue values "TARGET", driver.diskDriver values, driver.diskCache values,
    driver.diskIo values]

def contextQuoted : List String :=
  match vm.tmpl.get "CONTEXT" with
  | [.vector _ values] =>
    let target := Attribute.vectorValue values "TARGET"
    if target ≠ "" then [vm.remoteSystemDir, target] else []
  | _ => []

def nicQuoted (values : List (String × String)) : List String :=
  let value := Attribute.vectorValue values
  [value "BRIDGE", value "MAC", value "TARGET", value "SCRIPT", driver.nicModel values] ++
    (if value "IP" ≠ "" ∧ driver.nicFilter values ≠ "" then
      [value "IP", driver.nicFilter values] else [])

def graphicsQuoted (values : List (String × String)) : List String :=
  let value := Attribute.vectorValue values
  if graphicsType values = "vnc" ∨ graphicsType values = "spice" then
    [value "LISTEN", value "PORT", value "PASSWD", value "KEYMAP"]
  else []

def inputQuoted (values : List (String × String)) : List String :=
  let value := Attribute.vectorValue values
  if value "TYPE" ≠ "" then [value "TYPE", value "BUS"] else []

/-- The values that stand between quotes in the document. -/
def quotedValues : List String :=
  [driver.osValue vm "ARCH", driver.osValue vm "BOOT"] ++
    (vm.tmpl.vectors "DISK").flatMap (driver.diskQuoted vm) ++ contextQuoted vm ++
    (vm.tmpl.vectors "NIC").flatMap driver.nicQuoted ++
    ((firstVector vm "GRAPHICS").map graphicsQuoted).getD [] ++
    ((firstVector vm "INPUT").map inputQuoted).getD []

/-- The values that stand in elements of the document. -/
def containedValues : List String :=
  [driver.vcpu vm, driver.emulatorPath] ++ ((vm.tmpl.getFloat "CPU").map driver.shares).toList ++
    if driver.osValue vm "KERNEL" ≠ "" then
      [driver.osValue vm "KERNEL", driver.osValue vm "INITRD", driver.kernelCmd vm]
    else [driver.osValue vm "BOOTLOADER"]

/-- The document that is meant: each value is where it belongs, and `others` is what RAW says. -/
def domain (lines : List Written) (others : List Info) : Info :=
  .element "domain".toList (attributesOf domainAttributes) (allInfos lines ++ others)

/-- The text that is written is a document in which each value is the content of the one element
or attribute that it is meant for. -/
def Encloses (others : List Info) : Prop :=
  ∃ lines text, driver.description vm = .ok lines ∧
    driver.deploymentDescriptionKvm vm true = .ok text ∧
    information text = some (domain lines others)

end LibVirtDriver

end Ezilla
