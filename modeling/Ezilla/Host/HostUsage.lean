import Ezilla.Lib.Transition
import Ezilla.Rm.ResizeFailure
import Mathlib.Algebra.BigOperators.Group.Finset.Basic

/-!
# The usage of a host and the VMs it holds

A host counts the capacity of the VMs in its collection: a VM is counted when it arrives,
with what `VirtualMachine::get_requirements` reads from its template, and taken off again
when it leaves. A resize in between changes the template and adds a difference that
`VirtualMachineResize::request_execute` computes on its own.

* `HostUsage.Accounted`: the usage of every host is the sum over its VMs;
* `HostUsage.Balanced`: what a request adds to the hosts is what the VM grows by;
* `HostUsage.step_accounted_iff`: a step keeps the first exactly under the second;
* `HostUsage.accounted_of_reachable`: runs of such steps.

The percent of a difference is not the difference of the percents, the template keeps only six
digits of the new CPU, and the sums may leave the range of an `int`.
-/

namespace Ezilla

open VirtualMachineResize Transition

/-! ## Requirements -/

/-- What `VirtualMachine::get_requirements` returns, without the disk, which is 0. -/
structure Requirements where
  cpu : Int32
  memory : Int32
  deriving DecidableEq

/-- `VirtualMachine::get_requirements`, for a template with CPU and MEMORY. -/
def VirtualMachineResize.Vm.getRequirements (vm : Vm) : Requirements where
  cpu := percent vm.ocpu
  memory := vm.memory * 1024

theorem VirtualMachineResize.Vm.getRequirements_congr {vm vm' : Vm} (cpu : vm.cpu = vm'.cpu)
    (memory : vm.memory = vm'.memory) : vm.getRequirements = vm'.getRequirements := by
  simp only [getRequirements, ocpu, cpu, memory]

namespace HostUsage

/-- The pools. An id that no VM has yet stands for a VM that no host holds. -/
structure State where
  hosts : Nat → Option Host
  vms : Nat → Vm
  users : VmQuotas
  groups : VmQuotas

/-- `HostPool::add_capacity` of what the VM requires. -/
def State.addCapacity (s : State) (hid id : Nat) : State :=
  let r := (s.vms id).getRequirements
  match s.hosts hid with
  | none => s
  | some host =>
    { s with hosts := Function.update s.hosts hid (some (host.addCapacity id r.cpu r.memory 0)) }

/-- `HostPool::del_capacity` of what the VM requires. -/
def State.delCapacity (s : State) (hid id : Nat) : State :=
  let r := (s.vms id).getRequirements
  match s.hosts hid with
  | none => s
  | some host =>
    { s with hosts := Function.update s.hosts hid (some (host.delCapacity id r.cpu r.memory 0)) }

/-- What a resize reads of the pools. -/
def State.world (s : State) (id : Nat) : World where
  users := s.users
  groups := s.groups
  hosts := s.hosts
  vm := s.vms id

/-- A resize request of one VM: who asks for it, what for, and the state in which the VM is
found at the second look. -/
structure ResizeRequest where
  id : Nat
  uid : Nat
  gid : Nat
  enforce : Bool
  tmpl : Template
  dquotas : Quota .vm
  again : Option VmState

namespace ResizeRequest

/-- The request is run on the pools. -/
def run (q : ResizeRequest) (s : State) : Except Failure Unit × World :=
  requestExecute (s.world q.id) q.uid q.gid q.enforce q.tmpl q.dquotas q.again

/-- The values asked for. -/
def size (q : ResizeRequest) (s : State) : Size := newSize (s.vms q.id) q.tmpl

/-- The difference in CPU. -/
def dcpu (q : ResizeRequest) (s : State) : ℚ := (s.vms q.id).dcpu (q.size s)

/-- The difference in MEMORY. -/
def dmemory (q : ResizeRequest) (s : State) : Int32 := (s.vms q.id).dmemory (q.size s)

/-- The VM with the values asked for. -/
def resized (q : ResizeRequest) (s : State) : Vm :=
  ((s.vms q.id).resize (q.size s)).getD (s.vms q.id)

/-- The capacity is enforced for everyone but oneadmin, who may choose. -/
def enforced (q : ResizeRequest) : Bool := if q.uid = 0 ∨ q.gid = 0 then q.enforce else true

end ResizeRequest

/-- `VirtualMachineResize::request_execute`. -/
def State.resize (s : State) (q : ResizeRequest) : State where
  hosts := (q.run s).2.hosts
  vms := Function.update s.vms q.id (q.run s).2.vm
  users := (q.run s).2.users
  groups := (q.run s).2.groups

/-- What happens to the pools. -/
inductive Label where
  /-- A life-cycle action adds a VM to a host. -/
  | add (hid id : Nat)
  /-- A life-cycle action releases a VM from a host. -/
  | release (hid id : Nat)
  /-- The life cycle moves a VM to another state, or to another history record. -/
  | move (id : Nat) (state : VmState) (hid : Option Nat)
  | resize (request : ResizeRequest)

/-- The pools after a label. -/
def next (s : State) : Label → State
  | .add hid id => s.addCapacity hid id
  | .release hid id => s.delCapacity hid id
  | .move id state hid => { s with vms := Function.update s.vms id { s.vms id with state, hid } }
  | .resize request => s.resize request

/-- The steps of a run. -/
def step (s : State) (l : Label) (s' : State) : Prop := s' = next s l

/-- No host holds a VM, and none has used anything. -/
def Init (s : State) : Prop :=
  ∀ hid, ∀ host ∈ s.hosts hid,
    host.vmCollection = ∅ ∧ host.share.cpuUsage = 0 ∧ host.share.memUsage = 0

/-- What some VMs require together. -/
def load (resource : Requirements → Int32) (vms : Nat → Vm) (ids : Finset Nat) : Int :=
  ∑ id ∈ ids, (resource (vms id).getRequirements).toInt

/-- The usage of a host is the sum over the VMs it holds. -/
structure AccountedHost (vms : Nat → Vm) (host : Host) : Prop where
  cpu : host.share.cpuUsage.toInt = load Requirements.cpu vms host.vmCollection
  memory : host.share.memUsage.toInt = load Requirements.memory vms host.vmCollection

/-- What some VMs require together has an `int`. -/
structure Fits (vms : Nat → Vm) (ids : Finset Nat) : Prop where
  cpu : InRange (load Requirements.cpu vms ids)
  memory : InRange (load Requirements.memory vms ids)

/-- The usage of every host is the sum over the VMs it holds. -/
def Accounted (s : State) : Prop := ∀ hid, ∀ host ∈ s.hosts hid, AccountedHost s.vms host

namespace ResizeRequest

/-- The request gets as far as the capacity of the host, and past it. -/
structure Charges (q : ResizeRequest) (s : State) : Prop where
  resizable : Resizable (s.vms q.id).state
  valid : checkResize (q.size s) = true
  user : s.users.Admits (s.vms q.id).uid (q.dmemory s) (q.dcpu s) q.dquotas
  group : s.groups.Admits (s.vms q.id).gid (q.dmemory s) (q.dcpu s) q.dquotas
  host : HostAdmits (s.world q.id) q.enforced (s.vms q.id).chargedHost (q.dmemory s) (q.dcpu s)

/-- The percent the VM requires more once the template has the new CPU. -/
def growth (q : ResizeRequest) (s : State) : Int32 :=
  (q.resized s).getRequirements.cpu - (s.vms q.id).getRequirements.cpu

/-- What a request that goes through adds to a host is what the VM grows by in it. -/
structure BalancedHost (q : ResizeRequest) (s : State) (hid : Nat) (host : Host) : Prop where
  fits : Fits (Function.update s.vms q.id (q.resized s)) host.vmCollection
  charged_held : (s.vms q.id).chargedHost = some hid → q.id ∈ host.vmCollection →
    percent (q.dcpu s) = q.growth s
  charged : (s.vms q.id).chargedHost = some hid → q.id ∉ host.vmCollection →
    percent (q.dcpu s) = 0 ∧ q.dmemory s * 1024 = 0
  held : (s.vms q.id).chargedHost ≠ some hid → q.id ∈ host.vmCollection →
    q.growth s = 0 ∧ q.dmemory s * 1024 = 0

/-- What a request adds to the hosts is what the VM grows by: if it charges a host and then
loses the VM, the charge has to be too small to be seen. -/
structure Balanced (q : ResizeRequest) (s : State) : Prop where
  found : q.Charges s → FoundResizable q.again →
    ∀ hid, ∀ host ∈ s.hosts hid, q.BalancedHost s hid host
  lost : q.Charges s → ¬ FoundResizable q.again → (s.vms q.id).chargedHost.isSome →
    HostUnseen (q.dmemory s) (q.dcpu s)

end ResizeRequest

/-- The guard of a run: its resizes are balanced, and what the VMs of a host require together
has an `int`. -/
def Balanced (s : State) : Label → Prop
  | .add hid id => ∀ host ∈ s.hosts hid, Fits s.vms (insert id host.vmCollection)
  | .release hid id => ∀ host ∈ s.hosts hid, Fits s.vms (host.vmCollection.erase id)
  | .move _ _ _ => True
  | .resize request => request.Balanced s

/-! ## Arrivals and departures -/

section Capacity

variable {vms : Nat → Vm} {host : Host} {id : Nat}

/-- The sum over the VMs of a host after one of them changed its requirements. -/
theorem load_update (resource : Requirements → Int32) (vm : Vm) (ids : Finset Nat) :
    load resource (Function.update vms id vm) ids = load resource vms ids +
      if id ∈ ids then (resource vm.getRequirements).toInt -
        (resource (vms id).getRequirements).toInt else 0 := by
  have others : ∀ ids' : Finset Nat, id ∉ ids' →
      load resource (Function.update vms id vm) ids' = load resource vms ids' := by
    intro ids' absent
    apply Finset.sum_congr rfl
    intro i mem
    rw [Function.update_of_ne (ne_of_mem_of_not_mem mem absent)]
  split
  · rename_i there
    have rest := others _ (Finset.notMem_erase id ids)
    rw [load, load] at rest ⊢
    rw [← Finset.add_sum_erase _ _ there, ← Finset.add_sum_erase ids _ there, rest,
      Function.update_self]
    omega
  · rename_i absent
    rw [others ids absent, Int.add_zero]

theorem load_insert (resource : Requirements → Int32) {ids : Finset Nat} (absent : id ∉ ids) :
    load resource vms (insert id ids) =
      load resource vms ids + (resource (vms id).getRequirements).toInt := by
  rw [load, load, Finset.sum_insert absent, Int.add_comm]

theorem load_erase (resource : Requirements → Int32) {ids : Finset Nat} (there : id ∈ ids) :
    load resource vms (ids.erase id) =
      load resource vms ids - (resource (vms id).getRequirements).toInt := by
  rw [load, load, ← Finset.add_sum_erase ids _ there, add_sub_cancel_left]

/-- What an accounted host holds fits. -/
theorem AccountedHost.fits (accounted : AccountedHost vms host) : Fits vms host.vmCollection :=
  ⟨accounted.cpu ▸ inRange_toInt _, accounted.memory ▸ inRange_toInt _⟩

theorem AccountedHost.addCapacity_iff (accounted : AccountedHost vms host) :
    AccountedHost vms (host.addCapacity id (vms id).getRequirements.cpu
      (vms id).getRequirements.memory 0) ↔ Fits vms (insert id host.vmCollection) := by
  unfold Host.addCapacity
  split
  · rename_i there
    rw [Finset.insert_eq_of_mem there]
    exact iff_of_true accounted accounted.fits
  · rename_i absent
    have exact {usage : Int32} {resource : Requirements → Int32}
        (before : usage.toInt = load resource vms host.vmCollection) :
        (usage + resource (vms id).getRequirements).toInt =
          load resource vms (insert id host.vmCollection) ↔
          InRange (load resource vms (insert id host.vmCollection)) := by
      rw [load_insert resource absent]
      exact ⟨fun sum => sum ▸ inRange_toInt _, fun range => toInt_add_of_inRange before rfl range⟩
    constructor
    · rintro ⟨cpu, memory⟩
      exact ⟨(exact accounted.cpu).mp cpu, (exact accounted.memory).mp memory⟩
    · rintro ⟨cpu, memory⟩
      exact ⟨(exact accounted.cpu).mpr cpu, (exact accounted.memory).mpr memory⟩

theorem AccountedHost.delCapacity_iff (accounted : AccountedHost vms host) :
    AccountedHost vms (host.delCapacity id (vms id).getRequirements.cpu
      (vms id).getRequirements.memory 0) ↔ Fits vms (host.vmCollection.erase id) := by
  unfold Host.delCapacity
  split
  · rename_i there
    have exact {usage : Int32} {resource : Requirements → Int32}
        (before : usage.toInt = load resource vms host.vmCollection) :
        (usage - resource (vms id).getRequirements).toInt =
          load resource vms (host.vmCollection.erase id) ↔
          InRange (load resource vms (host.vmCollection.erase id)) := by
      rw [load_erase resource there]
      exact ⟨fun sum => sum ▸ inRange_toInt _, fun range => toInt_sub_of_inRange before rfl range⟩
    constructor
    · rintro ⟨cpu, memory⟩
      exact ⟨(exact accounted.cpu).mp cpu, (exact accounted.memory).mp memory⟩
    · rintro ⟨cpu, memory⟩
      exact ⟨(exact accounted.cpu).mpr cpu, (exact accounted.memory).mpr memory⟩
  · rename_i absent
    rw [Finset.erase_eq_of_notMem absent]
    exact iff_of_true accounted accounted.fits

/-- A host is accounted for as before when the VMs require what they required. -/
theorem AccountedHost.congr {vms' : Nat → Vm}
    (same : ∀ i, (vms' i).getRequirements = (vms i).getRequirements)
    (accounted : AccountedHost vms host) : AccountedHost vms' host := by
  apply AccountedHost.mk
  · simp only [load, same]
    exact accounted.cpu
  · simp only [load, same]
    exact accounted.memory

/-- Replacing one host keeps all hosts accounted for exactly when the new one is. -/
theorem accounted_update_iff {hosts : Nat → Option Host} {hid : Nat} {host' : Host}
    (accounted : ∀ h, ∀ host ∈ hosts h, AccountedHost vms host) :
    (∀ h, ∀ host ∈ Function.update hosts hid (some host') h, AccountedHost vms host) ↔
      AccountedHost vms host' := by
  constructor
  · intro all
    exact all hid host' (by rw [Function.update_self]; rfl)
  · intro new h host mem
    by_cases same : h = hid
    · subst same
      rw [Function.update_self, Option.mem_some_iff] at mem
      exact mem ▸ new
    · rw [Function.update_of_ne same] at mem
      exact accounted h host mem

end Capacity

theorem accounted_init {s : State} (start : Init s) : Accounted s := by
  intro hid host mem
  obtain ⟨empty, cpu, memory⟩ := start hid host mem
  apply AccountedHost.mk
  · rw [empty, cpu]
    rfl
  · rw [empty, memory]
    rfl

theorem Accounted.addCapacity_iff {s : State} {hid id : Nat} (accounted : Accounted s) :
    Accounted (s.addCapacity hid id) ↔ Balanced s (.add hid id) := by
  unfold State.addCapacity Balanced
  cases found : s.hosts hid with
  | none =>
    refine iff_of_true accounted ?_
    intro host mem
    rw [found] at mem
    cases mem
  | some host =>
    refine (accounted_update_iff accounted).trans
      ((accounted hid host found).addCapacity_iff.trans ?_)
    simp only [found, Option.mem_def, Option.some.injEq, forall_eq']

theorem Accounted.delCapacity_iff {s : State} {hid id : Nat} (accounted : Accounted s) :
    Accounted (s.delCapacity hid id) ↔ Balanced s (.release hid id) := by
  unfold State.delCapacity Balanced
  cases found : s.hosts hid with
  | none =>
    refine iff_of_true accounted ?_
    intro host mem
    rw [found] at mem
    cases mem
  | some host =>
    refine (accounted_update_iff accounted).trans
      ((accounted hid host found).delCapacity_iff.trans ?_)
    simp only [found, Option.mem_def, Option.some.injEq, forall_eq']

theorem Accounted.move {s : State} {id : Nat} {state : VmState} {hid : Option Nat}
    (accounted : Accounted s) : Accounted (next s (.move id state hid)) := by
  intro h host mem
  apply (accounted h host mem).congr
  intro i
  by_cases same : i = id
  · subst same
    simp only [next, Function.update_self]
    rfl
  · simp only [next, Function.update_of_ne same]

/-! ## Resizes -/

section Charge

variable {w : World} {uid gid : Nat} {enforce : Bool} {size : Size} {dmemory : Int32} {dcpu : ℚ}
  {dquotas : Quota .vm} {again : Option VmState}

/-- A request that a quota or the host refuses changes no host and no VM. -/
theorem chargeAndResize_of_refused
    (refused : ¬ (w.users.Admits w.vm.uid dmemory dcpu dquotas ∧
      w.groups.Admits w.vm.gid dmemory dcpu dquotas ∧
      HostAdmits w enforce w.vm.chargedHost dmemory dcpu)) :
    ∃ err users groups,
      chargeAndResize w ⟨some uid, some gid⟩ enforce size dmemory dcpu dquotas again =
        (.error err, { w with users, groups }) := by
  by_cases user : w.users.Admits w.vm.uid dmemory dcpu dquotas
  · obtain ⟨users, runUser⟩ := VmQuotas.quotaUpdate_ok user
    by_cases group : w.groups.Admits w.vm.gid dmemory dcpu dquotas
    · obtain ⟨groups, runGroup⟩ := VmQuotas.quotaUpdate_ok group
      have full : ¬ HostAdmits { w with users, groups } enforce w.vm.chargedHost dmemory dcpu :=
        fun host => refused ⟨user, group, host⟩
      obtain ⟨err, runHost⟩ := updateHost_of_not_hostAdmits ⟨some uid, some gid⟩ full
      refine ⟨err, users.quotaRollback (some uid) dmemory dcpu,
        groups.quotaRollback (some gid) dmemory dcpu, ?_⟩
      simp only [chargeAndResize, runUser, runGroup, chargeHostAndResize, runHost]
      rfl
    · obtain ⟨err, groups, runGroup, -⟩ := VmQuotas.quotaUpdate_of_not_admits group
      refine ⟨.groupQuota w.vm.gid err, users.quotaRollback (some w.vm.uid) dmemory dcpu,
        groups, ?_⟩
      simp only [chargeAndResize, runUser, runGroup]
      rfl
  · obtain ⟨err, users, runUser, -⟩ := VmQuotas.quotaUpdate_of_not_admits user
    refine ⟨.userQuota w.vm.uid err, users, w.groups, ?_⟩
    simp only [chargeAndResize, runUser]

/-- A request that is admitted charges the host and goes on to the VM. -/
theorem chargeAndResize_of_admitted (user : w.users.Admits w.vm.uid dmemory dcpu dquotas)
    (group : w.groups.Admits w.vm.gid dmemory dcpu dquotas)
    (host : HostAdmits w enforce w.vm.chargedHost dmemory dcpu) :
    ∃ users groups,
      chargeAndResize w ⟨some uid, some gid⟩ enforce size dmemory dcpu dquotas again =
        resizeVm (chargedHosts { w with users, groups } w.vm.chargedHost dmemory dcpu)
          ⟨some uid, some gid⟩ w.vm.chargedHost size dmemory dcpu again := by
  obtain ⟨users, runUser⟩ := VmQuotas.quotaUpdate_ok user
  obtain ⟨groups, runGroup⟩ := VmQuotas.quotaUpdate_ok group
  have admitted : HostAdmits { w with users, groups } enforce w.vm.chargedHost dmemory dcpu := host
  have runHost := updateHost_of_hostAdmits ⟨some uid, some gid⟩ admitted
  refine ⟨users, groups, ?_⟩
  simp only [chargeAndResize, runUser, runGroup, chargeHostAndResize, runHost]

end Charge

section Resize

variable {q : ResizeRequest} {s : State}

/-- A request that is refused before it charges the host changes no host and no VM. -/
theorem run_of_not_charges (refused : ¬ q.Charges s) :
    ∃ err users groups, q.run s = (.error err, { s.world q.id with users, groups }) := by
  unfold ResizeRequest.run requestExecute
  by_cases resizable : Resizable (s.world q.id).vm.state
  · rw [if_neg (not_not.mpr resizable)]
    by_cases valid : checkResize (newSize (s.world q.id).vm q.tmpl) = true
    · simp only [valid, Bool.not_true, Bool.false_eq_true, if_false]
      apply chargeAndResize_of_refused
      rintro ⟨user, group, host⟩
      exact refused ⟨resizable, valid, user, group, host⟩
    · simp only [valid, Bool.not_false, if_true]
      exact ⟨_, s.users, s.groups, rfl⟩
  · rw [if_pos resizable]
    exact ⟨_, s.users, s.groups, rfl⟩

/-- A request that is not refused charges the host and goes on to the VM. -/
theorem run_of_charges (charges : q.Charges s) :
    ∃ users groups, q.run s =
      resizeVm (chargedHosts { s.world q.id with users, groups } (s.vms q.id).chargedHost
          (q.dmemory s) (q.dcpu s))
        ⟨some q.uid, some q.gid⟩ (s.vms q.id).chargedHost (q.size s) (q.dmemory s) (q.dcpu s)
        q.again := by
  have resizable : Resizable (s.world q.id).vm.state := charges.resizable
  have valid : checkResize (newSize (s.world q.id).vm q.tmpl) = true := charges.valid
  unfold ResizeRequest.run requestExecute
  rw [if_neg (not_not.mpr resizable)]
  simp only [valid, Bool.not_true, Bool.false_eq_true, if_false]
  exact chargeAndResize_of_admitted charges.user charges.group charges.host

/-- The hosts after the usage of one of them changed. -/
def charge (hosts : Nat → Option Host) (hid? : Option Nat) (cpu mem : Int32) (hid : Nat) :
    Option Host :=
  if hid? = some hid then (hosts hid).map fun host => host.updateCapacity cpu mem 0 else hosts hid

theorem hosts_updateHost {w : World} {hid : Nat} {cpu mem : Int32} :
    (w.updateHost hid cpu mem).hosts = charge w.hosts (some hid) cpu mem := by
  funext h
  unfold World.updateHost charge
  by_cases same : hid = h
  · subst same
    cases found : w.hosts hid with
    | none => simp only [found, if_true, Option.map_none]
    | some host => simp only [Function.update_self, if_true, Option.map_some]
  · rw [if_neg (fun eq => same (Option.some.inj eq))]
    cases found : w.hosts hid with
    | none => rfl
    | some host => exact Function.update_of_ne (Ne.symm same) _ _

theorem hosts_chargedHosts {w : World} {hid? : Option Nat} {dmemory : Int32} {dcpu : ℚ} :
    (chargedHosts w hid? dmemory dcpu).hosts =
      charge w.hosts hid? (percent dcpu) (dmemory * 1024) := by
  cases hid? with
  | none => rfl
  | some hid => exact hosts_updateHost

/-- Two changes of one host are one. -/
theorem charge_charge {hosts : Nat → Option Host} {hid? : Option Nat} {cpu mem cpu' mem' : Int32} :
    charge (charge hosts hid? cpu mem) hid? cpu' mem' =
      charge hosts hid? (cpu + cpu') (mem + mem') := by
  funext h
  unfold charge
  split
  · cases hosts h with
    | none => rfl
    | some host =>
      simp only [Option.map_some, Host.updateCapacity, HostShare.update_update]
      rfl
  · rfl

theorem hosts_undo {w : World} {att : RequestAttributes} {hid? : Option Nat} {dmemory : Int32}
    {dcpu : ℚ} :
    (w.undo att hid? dmemory dcpu).hosts = charge w.hosts hid? (toInt32 (-dcpu)) (-dmemory) := by
  unfold World.undo
  cases hid? with
  | none => rfl
  | some hid => exact hosts_updateHost

/-- After one VM and the usage of one host changed, the hosts are accounted for when each
host got what the VM requires more in it, and its VMs still fit. -/
theorem accounted_charge_iff {s' : State} {vm : Vm} {id : Nat} {hid? : Option Nat}
    {cpu mem : Int32} (accounted : Accounted s) (hosts : s'.hosts = charge s.hosts hid? cpu mem)
    (vms : s'.vms = Function.update s.vms id vm) :
    Accounted s' ↔ ∀ hid, ∀ host ∈ s.hosts hid, Fits s'.vms host.vmCollection ∧
      ((if hid? = some hid then cpu else 0) = if id ∈ host.vmCollection then
          vm.getRequirements.cpu - (s.vms id).getRequirements.cpu else 0) ∧
      ((if hid? = some hid then mem else 0) = if id ∈ host.vmCollection then
          vm.getRequirements.memory - (s.vms id).getRequirements.memory else 0) := by
  unfold Accounted
  rw [hosts, vms]
  apply forall_congr'
  intro hid
  unfold charge
  cases found : s.hosts hid with
  | none => simp
  | some host =>
    obtain ⟨oldCpu, oldMemory⟩ := accounted hid host found
    -- a counter is the new sum where that is in range and the difference was added
    have exact {usage d : Int32} {resource : Requirements → Int32}
        (before : usage.toInt = load resource s.vms host.vmCollection) :
        (usage + d).toInt = load resource (Function.update s.vms id vm) host.vmCollection ↔
          InRange (load resource (Function.update s.vms id vm) host.vmCollection) ∧
          d = if id ∈ host.vmCollection then
            resource vm.getRequirements - resource (s.vms id).getRequirements else 0 := by
      rw [toInt_add_eq_iff before, load_update, add_sub_cancel_left]
      split_ifs
      · rw [Int32.ofInt_sub, Int32.ofInt_toInt, Int32.ofInt_toInt]
      · rfl
    have one : ∀ host' : Host, host'.vmCollection = host.vmCollection →
        host'.share.cpuUsage = host.share.cpuUsage + (if hid? = some hid then cpu else 0) →
        host'.share.memUsage = host.share.memUsage + (if hid? = some hid then mem else 0) →
        (AccountedHost (Function.update s.vms id vm) host' ↔
          Fits (Function.update s.vms id vm) host.vmCollection ∧
          ((if hid? = some hid then cpu else 0) = if id ∈ host.vmCollection then
            vm.getRequirements.cpu - (s.vms id).getRequirements.cpu else 0) ∧
          ((if hid? = some hid then mem else 0) = if id ∈ host.vmCollection then
            vm.getRequirements.memory - (s.vms id).getRequirements.memory else 0)) := by
      intro host' ids hostCpu hostMemory
      constructor
      · rintro ⟨sumCpu, sumMemory⟩
        rw [ids, hostCpu, exact oldCpu] at sumCpu
        rw [ids, hostMemory, exact oldMemory] at sumMemory
        exact ⟨⟨sumCpu.1, sumMemory.1⟩, sumCpu.2, sumMemory.2⟩
      · rintro ⟨⟨rangeCpu, rangeMemory⟩, moreCpu, moreMemory⟩
        apply AccountedHost.mk
        · rw [ids, hostCpu, exact oldCpu]
          exact ⟨rangeCpu, moreCpu⟩
        · rw [ids, hostMemory, exact oldMemory]
          exact ⟨rangeMemory, moreMemory⟩
    simp only [Option.mem_def, Option.some.injEq, forall_eq']
    by_cases same : hid? = some hid
    · simp only [same, if_true, Option.map_some, Option.some.injEq, forall_eq'] at one ⊢
      exact one _ rfl rfl rfl
    · simp only [same, if_false, Option.some.injEq, forall_eq', Int32.add_zero] at one ⊢
      exact one _ rfl rfl rfl

/-- A value that is not asked for is the old one. -/
theorem memory_of_size_memory (zero : (q.size s).memory = 0) : (s.vms q.id).memory = 0 := by
  simp only [ResizeRequest.size, newSize] at zero
  split_ifs at zero with missing
  · exact zero
  · exact absurd zero missing

/-- What a request that goes through leaves in the hosts and in the VM. -/
theorem run_of_found (charges : q.Charges s) (found : FoundResizable q.again) :
    (q.run s).2.hosts = charge s.hosts (s.vms q.id).chargedHost (percent (q.dcpu s))
      (q.dmemory s * 1024) ∧
    ((q.run s).2.vm.cpu = (q.resized s).cpu ∧ (q.run s).2.vm.memory = (q.resized s).memory) ∧
    (q.resized s).getRequirements.memory =
      (s.vms q.id).getRequirements.memory + q.dmemory s * 1024 := by
  obtain ⟨state, again, resizable⟩ := found
  rw [Option.mem_def] at again
  obtain ⟨users, groups, run⟩ := run_of_charges charges
  obtain ⟨-, -, rest⟩ := chargedHosts_rest { s.world q.id with users, groups }
    (s.vms q.id).chargedHost (q.dmemory s) (q.dcpu s)
  have valid := charges.valid
  simp only [again, resizeVm, if_pos resizable, Vm.resize, valid, if_true, rest] at run
  rw [run]
  have resized : q.resized s = { s.vms q.id with
      cpu := if 0 < (q.size s).cpu then printed (q.size s).cpu else (s.vms q.id).cpu
      memory := if 0 < (q.size s).memory then (q.size s).memory else (s.vms q.id).memory
      vcpu := if 0 < (q.size s).vcpu then (q.size s).vcpu else (s.vms q.id).vcpu } := by
    rw [ResizeRequest.resized, Vm.resize, if_pos valid]
    rfl
  refine ⟨hosts_chargedHosts, ?_, ?_⟩
  · rw [resized]
    exact ⟨rfl, rfl⟩
  · have nonneg := valid
    simp only [checkResize, Bool.and_eq_true, decide_eq_true_eq] at nonneg
    have new : (if 0 < (q.size s).memory then (q.size s).memory else (s.vms q.id).memory) =
        (q.size s).memory := by
      split_ifs with positive
      · rfl
      · have zero : (q.size s).memory = 0 := Int32.le_antisymm (Int32.not_lt.mp positive) nonneg.1.2
        rw [zero, memory_of_size_memory zero]
    simp only [resized, Vm.getRequirements, new, ResizeRequest.dmemory, Vm.dmemory]
    grind

/-- What a request leaves that charges a host and then loses the VM. -/
theorem run_of_lost (charges : q.Charges s) (lost : ¬ FoundResizable q.again) :
    (q.run s).2.hosts = charge s.hosts (s.vms q.id).chargedHost
      (percent (q.dcpu s) + toInt32 (-q.dcpu s)) (q.dmemory s * 1024 + -q.dmemory s) ∧
    (q.run s).2.vm.cpu = (s.vms q.id).cpu ∧ (q.run s).2.vm.memory = (s.vms q.id).memory := by
  obtain ⟨users, groups, run⟩ := run_of_charges charges
  obtain ⟨-, -, rest⟩ := chargedHosts_rest { s.world q.id with users, groups }
    (s.vms q.id).chargedHost (q.dmemory s) (q.dcpu s)
  obtain ⟨err, vm, runVm, cpu, memory, -⟩ := resizeVm_of_not_foundResizable
    (chargedHosts { s.world q.id with users, groups } (s.vms q.id).chargedHost (q.dmemory s)
      (q.dcpu s)) ⟨some q.uid, some q.gid⟩ (s.vms q.id).chargedHost (q.size s) (q.dmemory s)
    (q.dcpu s) lost
  obtain ⟨-, -, kept⟩ := undo_rest { chargedHosts { s.world q.id with users, groups }
    (s.vms q.id).chargedHost (q.dmemory s) (q.dcpu s) with vm } ⟨some q.uid, some q.gid⟩
    (s.vms q.id).chargedHost (q.dmemory s) (q.dcpu s)
  rw [runVm] at run
  rw [rest] at cpu memory
  rw [run]
  refine ⟨?_, ?_⟩
  · rw [hosts_undo, hosts_chargedHosts, charge_charge]
    rfl
  · rw [kept]
    exact ⟨cpu, memory⟩

/-- What the VMs of a host require together depends on their requirements only. -/
theorem fits_congr {vms vms' : Nat → Vm} {ids : Finset Nat}
    (same : ∀ i, (vms i).getRequirements = (vms' i).getRequirements) :
    Fits vms ids ↔ Fits vms' ids := by
  have loads (resource : Requirements → Int32) :
      load resource vms ids = load resource vms' ids := by
    simp only [load, same]
  constructor
  · rintro ⟨cpu, memory⟩
    rw [loads] at cpu memory
    exact ⟨cpu, memory⟩
  · rintro ⟨cpu, memory⟩
    rw [← loads] at cpu memory
    exact ⟨cpu, memory⟩

/-- Two tables of VMs that differ in one VM only, with the same requirements. -/
theorem getRequirements_update {vms : Nat → Vm} {id : Nat} {vm vm' : Vm}
    (same : vm.getRequirements = vm'.getRequirements) (i : Nat) :
    (Function.update vms id vm i).getRequirements =
      (Function.update vms id vm' i).getRequirements := by
  by_cases here : i = id
  · subst here
    rw [Function.update_self, Function.update_self, same]
  · rw [Function.update_of_ne here, Function.update_of_ne here]

/-- A request that goes through keeps the hosts accounted for exactly when it is balanced in
every host. -/
theorem resize_accounted_iff_of_found (accounted : Accounted s) (charges : q.Charges s)
    (found : FoundResizable q.again) :
    Accounted (s.resize q) ↔ ∀ hid, ∀ host ∈ s.hosts hid, q.BalancedHost s hid host := by
  obtain ⟨hosts, size, memory⟩ := run_of_found charges found
  have same := Vm.getRequirements_congr size.1 size.2
  rw [@accounted_charge_iff s (s.resize q) (q.run s).2.vm q.id _ _ _ accounted hosts rfl, same,
    memory]
  have cancel (x y : Int32) : x + y - x = y := by grind
  apply forall_congr'
  intro hid
  apply forall₂_congr
  intro host _
  have fits : Fits (s.resize q).vms host.vmCollection ↔
      Fits (Function.update s.vms q.id (q.resized s)) host.vmCollection :=
    fits_congr (getRequirements_update same)
  rw [fits, cancel]
  constructor
  · rintro ⟨range, cpu, mem⟩
    refine ⟨range, fun charged held => ?_, fun charged absent => ?_, fun elsewhere held => ?_⟩
    · rwa [if_pos charged, if_pos held] at cpu
    · rw [if_pos charged, if_neg absent] at cpu mem
      exact ⟨cpu, mem⟩
    · rw [if_neg elsewhere, if_pos held] at cpu mem
      exact ⟨cpu.symm, mem.symm⟩
  · intro balanced
    refine ⟨balanced.fits, ?_⟩
    by_cases charged : (s.vms q.id).chargedHost = some hid
    · by_cases held : q.id ∈ host.vmCollection
      · simp only [charged, held, if_true, and_true]
        exact balanced.charged_held charged held
      · simp only [charged, held, if_true, if_false]
        exact balanced.charged charged held
    · by_cases held : q.id ∈ host.vmCollection
      · obtain ⟨cpu, mem⟩ := balanced.held charged held
        simp only [charged, held, if_true, if_false]
        exact ⟨cpu.symm, mem.symm⟩
      · simp only [charged, held, if_false, and_self]

/-- A request that charges a host and then loses the VM keeps the hosts accounted for exactly
when the charge cannot be seen. -/
theorem resize_accounted_iff_of_lost (accounted : Accounted s) (charges : q.Charges s)
    (lost : ¬ FoundResizable q.again) :
    Accounted (s.resize q) ↔
      ((s.vms q.id).chargedHost.isSome → HostUnseen (q.dmemory s) (q.dcpu s)) := by
  obtain ⟨hosts, size⟩ := run_of_lost charges lost
  have same := Vm.getRequirements_congr size.1 size.2
  rw [@accounted_charge_iff s (s.resize q) (q.run s).2.vm q.id _ _ _ accounted hosts rfl, same]
  simp only [Int32.sub_self, ite_self]
  constructor
  · intro unseen charged
    obtain ⟨hid, isHid⟩ := Option.isSome_iff_exists.mp charged
    obtain ⟨host, mem, -⟩ := charges.host hid isHid
    obtain ⟨-, cpu, memory⟩ := unseen hid host mem
    rw [if_pos isHid] at cpu memory
    exact hostUnseen_iff.mpr ⟨cpu, memory⟩
  · intro unseen hid host mem
    have kept (i : Nat) :
        ((s.resize q).vms i).getRequirements = (s.vms i).getRequirements := by
      refine (getRequirements_update same i).trans ?_
      rw [Function.update_eq_self]
    refine ⟨(fits_congr kept).mpr (accounted hid host mem).fits, ?_⟩
    by_cases charged : (s.vms q.id).chargedHost = some hid
    · rw [if_pos charged, if_pos charged]
      exact hostUnseen_iff.mp (unseen (by rw [charged]; rfl))
    · simp only [charged, if_false, and_self]

/-- A resize keeps the hosts accounted for exactly when it is balanced. -/
theorem resize_accounted_iff (accounted : Accounted s) :
    Accounted (s.resize q) ↔ q.Balanced s := by
  by_cases charges : q.Charges s
  · by_cases found : FoundResizable q.again
    · rw [resize_accounted_iff_of_found accounted charges found]
      exact ⟨fun all => ⟨fun _ _ => all, fun _ lost => absurd found lost⟩,
        fun balanced => balanced.found charges found⟩
    · rw [resize_accounted_iff_of_lost accounted charges found]
      exact ⟨fun unseen => ⟨fun _ again => absurd again found, fun _ _ => unseen⟩,
        fun balanced => balanced.lost charges found⟩
  · obtain ⟨err, users, groups, run⟩ := run_of_not_charges charges
    have balanced : q.Balanced s :=
      ⟨fun h => absurd h charges, fun h => absurd h charges⟩
    have hosts : (s.resize q).hosts = s.hosts := by
      rw [State.resize, run]
      rfl
    have vms : (s.resize q).vms = s.vms := by
      rw [State.resize, run]
      exact Function.update_eq_self q.id s.vms
    have same : Accounted (s.resize q) ↔ Accounted s := by
      rw [Accounted, Accounted, hosts, vms]
    exact iff_of_true (same.mpr accounted) balanced

end Resize

/-! ## Runs -/

/-- A step keeps the hosts accounted for exactly when it is balanced. -/
theorem step_accounted_iff {s s' : State} {l : Label} (accounted : Accounted s)
    (taken : step s l s') : Accounted s' ↔ Balanced s l := by
  rw [step] at taken
  subst taken
  cases l with
  | add hid id => exact Accounted.addCapacity_iff accounted
  | release hid id => exact Accounted.delCapacity_iff accounted
  | move id state hid => exact iff_of_true (Accounted.move accounted) trivial
  | resize q => exact resize_accounted_iff accounted

/-- In every run with balanced resizes the usage of a host is the sum over its VMs, and a
host without VMs uses nothing. -/
theorem accounted_of_reachable {s : State} (reached : Reachable Init (Guarded Balanced step) s) :
    Accounted s ∧ ∀ hid, ∀ host ∈ s.hosts hid, host.vmCollection = ∅ →
      host.share.cpuUsage = 0 ∧ host.share.memUsage = 0 := by
  have accounted : Accounted s := by
    apply reached.invariant @accounted_init
    intro s l s' accounted taken
    exact (step_accounted_iff accounted taken.2).mpr taken.1
  refine ⟨accounted, fun hid host mem empty => ?_⟩
  obtain ⟨cpu, memory⟩ := accounted hid host mem
  rw [empty] at cpu memory
  exact ⟨Int32.toInt_inj.mp cpu, Int32.toInt_inj.mp memory⟩

theorem init_single {host : Host} {s : State}
    (hosts : s.hosts = fun hid => if hid = 0 then some host else none)
    (empty : host.vmCollection = ∅) (cpu : host.share.cpuUsage = 0)
    (memory : host.share.memUsage = 0) : Init s := by
  intro hid found mem
  rw [hosts] at mem
  beta_reduce at mem
  split_ifs at mem
  · rw [← Option.mem_some_iff.mp mem]
    exact ⟨empty, cpu, memory⟩
  · cases mem

/-- A VM with CPU 0.555 is charged 55 percent; resized to 1.11 it is charged 55 more and then
requires 111. -/
theorem resize_loses_percent : ¬ ∀ s, Reachable Init step s → Accounted s := by
  let host : Host := ⟨⟨0, 0, 0, 0, 8388608, 800, 0⟩, ∅⟩
  let s₀ : State :=
    { hosts := fun hid => if hid = 0 then some host else none
      vms := fun _ => ⟨2, 1, .active, some 0, 555 / 1000, 512, 1⟩
      users := fun _ => none
      groups := fun _ => none }
  let request : ResizeRequest := ⟨7, 2, 1, true, [.single "CPU" "1.11"], ⟨∅, true⟩, some .poweroff⟩
  let s₁ := next s₀ (.add 0 7)
  let s₂ := next s₁ (.move 7 .poweroff (some 0))
  let s₃ := next s₂ (.resize request)
  intro always
  have start : Init s₀ := init_single rfl rfl rfl rfl
  have reached : Reachable Init step s₃ :=
    .step (.step (.step (.init start) (l := .add 0 7) rfl) (l := .move 7 .poweroff (some 0)) rfl)
      (l := .resize request) rfl
  have usage : (s₃.hosts 0).map (fun host => host.share.cpuUsage.toInt) = some 110 := by
    decide +kernel
  have sum : (s₃.hosts 0).map (fun host => load Requirements.cpu s₃.vms host.vmCollection) =
      some 111 := by
    decide +kernel
  cases found : s₃.hosts 0 with
  | none =>
    rw [found] at usage
    cases usage
  | some host =>
    have accounted := (always s₃ reached 0 host found).cpu
    rw [found, Option.map_some, Option.some.injEq] at usage sum
    rw [usage, sum] at accounted
    exact absurd accounted (by decide)

/-- A VM with one CPU that is resized to two and leaves: the host uses nothing again. -/
theorem accounted_of_reachable_two :
    let host : Host := ⟨⟨0, 0, 0, 0, 8388608, 800, 0⟩, ∅⟩
    let s₀ : State :=
      { hosts := fun hid => if hid = 0 then some host else none
        vms := fun _ => ⟨2, 1, .active, some 0, 1, 512, 1⟩
        users := fun _ => none
        groups := fun _ => none }
    let request : ResizeRequest := ⟨7, 2, 1, true, [.single "CPU" "2"], ⟨∅, true⟩, some .poweroff⟩
    let s₃ := next (next (next s₀ (.add 0 7)) (.move 7 .poweroff (some 0))) (.resize request)
    Accounted s₃ ∧ ∀ hid, ∀ host ∈ s₃.hosts hid, host.vmCollection = ∅ →
      host.share.cpuUsage = 0 ∧ host.share.memUsage = 0 := by
  intro host s₀ request s₃
  have start : Init s₀ := init_single rfl rfl rfl rfl
  apply accounted_of_reachable
  have added : Balanced s₀ (.add 0 7) := by
    intro found mem
    rw [← Option.mem_some_iff.mp mem]
    constructor <;> decide +kernel
  refine .step (l := .resize request) (.step (l := .move 7 .poweroff (some 0))
    (.step (l := .add 0 7) (.init start) ⟨added, rfl⟩) ⟨trivial, rfl⟩) ⟨?_, rfl⟩
  refine ⟨fun _ _ hid found mem => ?_, fun _ lost => absurd ⟨.poweroff, rfl, trivial⟩ lost⟩
  by_cases zero : hid = 0
  · subst zero
    rw [← Option.mem_some_iff.mp mem]
    have held : (7 : Nat) ∈ insert 7 host.vmCollection := by decide
    refine ⟨?_, fun _ _ => ?_, fun _ absent => absurd held absent, fun other => absurd rfl other⟩
    · constructor <;> decide +kernel
    · decide +kernel
  · have none : (next (next s₀ (.add 0 7)) (.move 7 .poweroff (some 0))).hosts hid = none := by
      exact (Function.update_of_ne zero _ _).trans (if_neg zero)
    rw [none] at mem
    cases mem

end HostUsage

end Ezilla
