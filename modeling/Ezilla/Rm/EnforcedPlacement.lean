import Ezilla.Host.HostUsage
import Ezilla.Lcm.LifeCycleManager

/-!
# Placements that enforce the capacity

A deployment or a migration with `enforce` asks the host whether it has room for the VM, and
much later a life-cycle action adds the VM to the host. In between the placement is only
promised: the host knows nothing of it, and the next request asks as if it were not there.

* `EnforcedPlacement.next`: the requests, the life-cycle actions and the monitoring;
* `EnforcedPlacement.Roomy`: a request that is let through leaves room for what is promised;
* `EnforcedPlacement.within_capacity_of_reached`: then no host is over-committed.
-/

namespace Ezilla

namespace LifeCycleManager

theorem addCapacity_notMem_cleanUpSwitch (vm : VirtualMachine) (lcmState : LcmState)
    (hid : Option Nat) : .addCapacity hid ∉ (cleanUpSwitch vm lcmState).2 := by
  cases lcmState <;> simp [cleanUpSwitch]

/-- Only the actions that place a VM add capacity, and they add it to the current host. -/
theorem of_addCapacity_mem {vm : VirtualMachine} {action : LcmAction} {hid : Option Nat}
    (mem : .addCapacity hid ∈ (handler action vm).effects) :
    hid = vm.hid ∧ (action = .deploy ∧ vm.state = .active ∨
      (action = .migrate ∨ action = .liveMigrate) ∧ vm.In .running) := by
  cases action with
  | deploy =>
    simp only [handler, deployAction] at mem
    split at mem
    · rename_i active
      split at mem <;> simp at mem <;> exact ⟨mem, .inl ⟨rfl, active⟩⟩
    · cases mem
  | migrate | liveMigrate =>
    simp only [handler, migrateAction, liveMigrateAction, moveRunning] at mem
    split at mem
    · rename_i running
      simp at mem
      exact ⟨mem, .inr ⟨by simp, running⟩⟩
    · cases mem
  | delete | clean =>
    simp only [handler, deleteAction, cleanAction, cleanUpVm] at mem
    repeat' split at mem
    all_goals simp [Outcome.wrongState, addCapacity_notMem_cleanUpSwitch] at mem
  | attachFailure | detachSuccess | attachNicFailure | detachNicSuccess =>
    simp only [handler, attachFailureAction, detachSuccessAction, attachNicFailureAction,
      detachNicSuccessAction] at mem
    split at mem <;> simp [Outcome.wrongState, giveBackDisk, giveBackNic] at mem
  | saveasHotSuccess | saveasHotFailure =>
    simp only [handler, saveasHotSuccessAction, saveasHotFailureAction, saveasHotEnd] at mem
    split at mem
    · cases mem
    · rw [Option.mem_toList, Option.map_eq_some_iff] at mem
      obtain ⟨imageId, -, other⟩ := mem
      cases other
  | saveSuccess | saveFailure | deploySuccess | deployFailure | shutdownSuccess
  | shutdownFailure | cancelSuccess | cancelFailure | monitorFailure | monitorSuspend
  | monitorDone | prologSuccess | prologFailure | epilogSuccess | epilogFailure | attachSuccess
  | detachFailure | attachNicSuccess | detachNicFailure | cleanupSuccess | cleanupFailure
  | snapshotCreateSuccess | snapshotCreateFailure | snapshotRevertSuccess
  | snapshotRevertFailure | snapshotDeleteSuccess | snapshotDeleteFailure | suspend | restore
  | stop | cancel | shutdown | undeploy | undeployHard | poweroff | poweroffHard | restart
  | finalize =>
    simp only [handler, saveSuccessAction, saveFailureAction, giveUpMigration, backToRunning,
      deploySuccessAction, deployFailureAction, failureAction, shutdownSuccessAction,
      startEpilog, startEpilogUndeploy, poweredOff, shutdownFailureAction, cancelSuccessAction,
      cancelFailureAction, monitorFailureAction, monitorSuspendAction, monitorDoneAction,
      prologSuccessAction, prologFailureAction, giveUpResume, epilogSuccessAction,
      epilogFailureAction, attachSuccessAction, detachFailureAction, attachNicSuccessAction,
      cleanupCallbackAction, snapshotCreateSuccess, snapshotCreateFailure,
      snapshotRevertSuccess, snapshotRevertFailure, snapshotDeleteSuccess,
      snapshotDeleteFailure, keepActiveSnapshot, dropActiveSnapshot, suspendAction,
      restoreAction, stopAction, cancelAction, shutdownAction, undeployAction, poweroffAction,
      leaveRunning, restartAction, if_true, Bool.false_eq_true, if_false] at mem
    repeat' split at mem
    all_goals simp [Outcome.wrongState] at mem

end LifeCycleManager

namespace EnforcedPlacement

open VirtualMachineResize HostUsage Transition

/-! ## The system -/

/-- What a host gives to its VMs. The disk a VM requires is always 0. -/
inductive Resource where
  | cpu
  | memory

namespace Resource

/-- What a VM requires in percent and in KB, also where this is not an `int`. -/
def required : Resource → Vm → Int
  | .cpu, vm => truncate (Binary32.nearest (vm.ocpu * 100))
  | .memory, vm => vm.memory.toInt * 1024

/-- What `get_requirements` returns of it. -/
def read : Resource → Requirements → Int32
  | .cpu => Requirements.cpu
  | .memory => Requirements.memory

/-- What the VMs of a host use. -/
def used (r : Resource) (share : HostShare) : Int :=
  match r with
  | .cpu => share.cpuUsage.toInt
  | .memory => share.memUsage.toInt

/-- What a host has. -/
def max (r : Resource) (share : HostShare) : Int :=
  match r with
  | .cpu => share.maxCpu.toInt
  | .memory => share.maxMem.toInt

end Resource

/-- A placement that has looked at the VM and not yet at the host. -/
structure Asked where
  hid : Nat
  id : Nat
  required : Requirements
  deriving DecidableEq

/-- The pools, the placements that are asked for, and those that the host had room for and that
were not charged to it yet, as pairs of a host and a VM. -/
structure State where
  pools : HostUsage.State
  asked : List Asked
  promised : List (Nat × Nat)

/-- What happens. -/
inductive Label where
  /-- A request with `enforce` looks at what the VM requires, and lets go of it. -/
  | ask (hid id : Nat)
  /-- `RequestManagerVirtualMachine::check_host`. -/
  | checkHost (asked : Asked)
  /-- A placement the host had room for is refused later. -/
  | giveUp (hid id : Nat)
  /-- A life-cycle action adds the VM to the host. -/
  | charge (hid id : Nat)
  /-- A life-cycle action releases the VM from the host. -/
  | release (hid id : Nat)
  /-- The life cycle moves the VM to another state, or to another history record. -/
  | move (id : Nat) (state : VmState) (hid : Option Nat)
  | resize (request : ResizeRequest)
  /-- The monitoring of a host reports what it has. -/
  | monitor (hid : Nat) (maxCpu maxMem maxDisk : Int32)

namespace State

variable (s : State)

/-- What `get_requirements` returns for the VM now. -/
def required (id : Nat) : Requirements := (s.pools.vms id).getRequirements

/-- What the VM requires now. -/
def needs (id : Nat) (r : Resource) : Int := r.required (s.pools.vms id)

/-- The host has room for what was asked. -/
def HasRoom (asked : Asked) : Prop :=
  ∃ host ∈ s.pools.hosts asked.hid,
    host.testCapacity asked.required.cpu asked.required.memory 0 = true

instance (asked : Asked) : Decidable (s.HasRoom asked) :=
  match found : s.pools.hosts asked.hid with
  | none => .isFalse (by rintro ⟨host, mem, -⟩; rw [found] at mem; cases mem)
  | some host =>
    decidable_of_iff (host.testCapacity asked.required.cpu asked.required.memory 0 = true)
      ⟨fun room => ⟨host, found, room⟩, by
        rintro ⟨host', mem, room⟩
        rw [found] at mem
        cases mem
        exact room⟩

/-- The new capacity of a host. -/
def monitor (hid : Nat) (maxCpu maxMem maxDisk : Int32) : State :=
  let monitored (host : Host) : Host :=
    { host with share := { host.share with maxCpu, maxMem, maxDisk } }
  { s with
    pools := { s.pools with
      hosts := Function.update s.pools.hosts hid ((s.pools.hosts hid).map monitored) } }

/-- What the promised placements will use of a host. -/
def promisedTo (r : Resource) (hid : Nat) : Int :=
  (s.promised.map fun p => if p.1 = hid then s.needs p.2 r else 0).sum

end State

/-- The state after a label. -/
def next (s : State) : Label → State
  | .ask hid id => { s with asked := s.asked ++ [⟨hid, id, s.required id⟩] }
  | .checkHost asked =>
    if asked ∈ s.asked then
      { s with
        asked := s.asked.erase asked
        promised := if s.HasRoom asked then s.promised ++ [(asked.hid, asked.id)] else s.promised }
    else s
  | .giveUp hid id => { s with promised := s.promised.erase (hid, id) }
  | .charge hid id =>
    { s with pools := s.pools.addCapacity hid id, promised := s.promised.erase (hid, id) }
  | .release hid id => { s with pools := s.pools.delCapacity hid id }
  | .move id state hid => { s with pools := HostUsage.next s.pools (.move id state hid) }
  | .resize request => { s with pools := s.pools.resize request }
  | .monitor hid maxCpu maxMem maxDisk => s.monitor hid maxCpu maxMem maxDisk

/-- All requests enforce the capacity, and the monitoring does not lower it. -/
def Enforced (s : State) : Label → Prop
  | .resize request => request.enforced = true
  | .monitor hid maxCpu maxMem _ => ∀ host ∈ s.pools.hosts hid,
      host.share.maxCpu ≤ maxCpu ∧ host.share.maxMem ≤ maxMem
  | _ => True

/-- The steps of a run. -/
def step (s : State) (l : Label) (s' : State) : Prop := Enforced s l ∧ s' = next s l

/-- No host holds a VM, none of the VMs requires less than nothing, and nothing is asked for. -/
structure Init (s : State) : Prop where
  unused : HostUsage.Init s.pools
  hosts : ∀ hid, ∀ host ∈ s.pools.hosts hid, 0 ≤ host.share.maxCpu ∧ 0 ≤ host.share.maxMem
  vms : ∀ id, 0 ≤ (s.pools.vms id).cpu ∧ 0 ≤ (s.pools.vms id).memory
  idle : s.asked = [] ∧ s.promised = []

/-- No host gives more than it has. -/
def WithinCapacity (s : State) : Prop :=
  ∀ hid, ∀ host ∈ s.pools.hosts hid,
    host.share.cpuUsage ≤ host.share.maxCpu ∧ host.share.memUsage ≤ host.share.maxMem

/-! ## Room for what is promised -/

/-- What a resize adds to a host that it charges, also where this is not an `int`. -/
def Resource.charged (r : Resource) (q : ResizeRequest) (s : HostUsage.State) : Int :=
  match r with
  | .cpu => truncate (Binary32.nearest (q.dcpu s * 100))
  | .memory => (q.dmemory s).toInt * 1024

/-- What a VM requires more after a resize. -/
def Resource.growth (r : Resource) (q : ResizeRequest) (s : HostUsage.State) : Int :=
  r.required (q.resized s) - r.required (s.vms q.id)

/-- The host has the capacity for what it uses, for what is promised, and for so much more. -/
def State.Fits (s : State) (hid : Nat) (more : Resource → Int) : Prop :=
  ∀ host ∈ s.pools.hosts hid, ∀ r : Resource,
    r.used host.share + s.promisedTo r hid + more r ≤ r.max host.share

/-- What a resize adds to the usage of a host, and to what is promised there if the VM is found
again. -/
def resized (q : ResizeRequest) (s : State) (hid : Nat) (found : Bool) (r : Resource) : Int :=
  (if (s.pools.vms q.id).chargedHost = some hid then r.charged q s.pools else 0) +
    if found then s.promised.count (hid, q.id) * r.growth q s.pools else 0

/-- The VM is found again in a state in which it can be resized. -/
def foundAgain (q : ResizeRequest) : Bool := q.again.any fun state => decide (Resizable state)

/-- A request that is let through leaves room for what is promised, what is charged was promised,
and no counter leaves the range of an `int`. -/
def Roomy (s : State) : Label → Prop
  | .checkHost asked => asked ∈ s.asked → s.HasRoom asked → s.Fits asked.hid (s.needs asked.id)
  | .charge hid id => ∀ host ∈ s.pools.hosts hid, id ∉ host.vmCollection →
      (∀ r, InRange (s.needs id r)) ∧ ((hid, id) ∉ s.promised → s.Fits hid (s.needs id))
  | .release hid id => ∀ host ∈ s.pools.hosts hid, id ∈ host.vmCollection →
      ∀ r, InRange (s.needs id r) ∧ -2 ^ 31 ≤ r.used host.share - s.needs id r
  | .resize request => request.Charges s.pools → ∀ hid,
      s.Fits hid (resized request s hid (foundAgain request)) ∧
      ((s.pools.vms request.id).chargedHost = some hid → ∀ host ∈ s.pools.hosts hid,
        ∀ r : Resource, InRange (r.charged request s.pools) ∧
          -2 ^ 31 ≤ r.used host.share + r.charged request s.pools)
  | _ => True

/-! ## Sums of promises -/

/-- What is promised on a host, when each VM requires so much. -/
def promisedSum (require : Nat → Int) (hid : Nat) (promised : List (Nat × Nat)) : Int :=
  (promised.map fun p => if p.1 = hid then require p.2 else 0).sum

section Sums

variable {require require' : Nat → Int} {hid id : Nat} {promised : List (Nat × Nat)}

theorem promisedSum_nonneg (nonneg : ∀ id, 0 ≤ require id) :
    0 ≤ promisedSum require hid promised := by
  induction promised with
  | nil => exact Int.le_refl 0
  | cons p promised ih =>
    simp only [promisedSum, List.map_cons, List.sum_cons] at ih ⊢
    have := nonneg p.2
    split <;> omega

theorem promisedSum_append : promisedSum require hid (promised ++ [(hid, id)]) =
    promisedSum require hid promised + require id := by
  simp only [promisedSum, List.map_append, List.sum_append, List.map_cons, List.map_nil,
    List.sum_cons, List.sum_nil, if_true, Int.add_zero]

theorem promisedSum_append_ne {hid' : Nat} (other : hid' ≠ hid) :
    promisedSum require hid (promised ++ [(hid', id)]) = promisedSum require hid promised := by
  simp only [promisedSum, List.map_append, List.sum_append, List.map_cons, List.map_nil,
    List.sum_cons, List.sum_nil, other, if_false, Int.add_zero]

/-- One promise less. -/
theorem promisedSum_erase {hid' : Nat} (there : (hid', id) ∈ promised) :
    promisedSum require hid (promised.erase (hid', id)) +
      (if hid' = hid then require id else 0) = promisedSum require hid promised := by
  induction promised with
  | nil => cases there
  | cons p promised ih =>
    by_cases first : p = (hid', id)
    · subst first
      rw [List.erase_cons_head]
      simp only [promisedSum, List.map_cons, List.sum_cons]
      omega
    · have later : (hid', id) ∈ promised := by
        rcases List.mem_cons.mp there with same | later
        · exact absurd same.symm first
        · exact later
      rw [List.erase_cons_tail (by simpa using first)]
      have rest := ih later
      simp only [promisedSum, List.map_cons, List.sum_cons] at rest ⊢
      omega

theorem promisedSum_erase_le {hid' : Nat} (nonneg : 0 ≤ require id) :
    promisedSum require hid (promised.erase (hid', id)) ≤ promisedSum require hid promised := by
  by_cases there : (hid', id) ∈ promised
  · have sum := @promisedSum_erase require hid id promised hid' there
    split at sum <;> omega
  · rw [List.erase_of_not_mem there]

theorem promisedSum_erase_ne {hid' : Nat} (other : hid' ≠ hid) :
    promisedSum require hid (promised.erase (hid', id)) = promisedSum require hid promised := by
  by_cases there : (hid', id) ∈ promised
  · have sum := @promisedSum_erase require hid id promised hid' there
    rw [if_neg other] at sum
    omega
  · rw [List.erase_of_not_mem there]

/-- One VM requires more than before. -/
theorem promisedSum_grow {growth : Int} (grown : require' id = require id + growth)
    (others : ∀ i, i ≠ id → require' i = require i) :
    promisedSum require' hid promised =
      promisedSum require hid promised + promised.count (hid, id) * growth := by
  induction promised with
  | nil => simp [promisedSum]
  | cons p promised ih =>
    simp only [promisedSum, List.map_cons, List.sum_cons] at ih ⊢
    rw [ih]
    rcases p with ⟨h, i⟩
    by_cases here : h = hid
    · subst here
      by_cases same : i = id
      · subst same
        rw [List.count_cons_self, grown, if_pos rfl, if_pos rfl]
        push_cast
        ring
      · rw [List.count_cons_of_ne (by simp [same]), others i same]
        ring
    · rw [List.count_cons_of_ne (by simp [here]), if_neg here, if_neg here]
      ring

end Sums

theorem State.promisedTo_eq (s : State) (r : Resource) (hid : Nat) :
    s.promisedTo r hid = promisedSum (s.needs · r) hid s.promised := rfl

/-! ## The hosts after a step -/

section Hosts

variable {pools : HostUsage.State} {hid id h : Nat}

theorem hosts_addCapacity : (pools.addCapacity hid id).hosts h =
    if h = hid then (pools.hosts hid).map fun host =>
      host.addCapacity id (pools.vms id).getRequirements.cpu (pools.vms id).getRequirements.memory 0
    else pools.hosts h := by
  unfold HostUsage.State.addCapacity
  split <;> rename_i found
  · split
    · rename_i same
      rw [same, found]
      rfl
    · rfl
  · rw [found]
    exact Function.update_apply _ _ _ _

theorem hosts_delCapacity : (pools.delCapacity hid id).hosts h =
    if h = hid then (pools.hosts hid).map fun host =>
      host.delCapacity id (pools.vms id).getRequirements.cpu (pools.vms id).getRequirements.memory 0
    else pools.hosts h := by
  unfold HostUsage.State.delCapacity
  split <;> rename_i found
  · split
    · rename_i same
      rw [same, found]
      rfl
    · rfl
  · rw [found]
    exact Function.update_apply _ _ _ _

theorem vms_addCapacity : (pools.addCapacity hid id).vms = pools.vms := by
  unfold HostUsage.State.addCapacity
  split <;> rfl

theorem vms_delCapacity : (pools.delCapacity hid id).vms = pools.vms := by
  unfold HostUsage.State.delCapacity
  split <;> rfl

variable {host : Host} {needed : Requirements} {n : Int} (r : Resource)

/-- What `get_requirements` returns is what the VM requires, if that is an `int`. -/
theorem State.toInt_read {s : State} (range : InRange (s.needs id r)) :
    (r.read (s.required id)).toInt = s.needs id r := by
  cases r with
  | cpu => exact toInt_toInt32 range
  | memory => exact toInt_mul_of_inRange rfl rfl range

theorem inRange_used : InRange (r.used host.share) := by
  cases r <;> exact inRange_toInt _

theorem inRange_max : InRange (r.max host.share) := by
  cases r <;> exact inRange_toInt _

theorem used_addCapacity (absent : id ∉ host.vmCollection) (read : (r.read needed).toInt = n)
    (sum : InRange (r.used host.share + n)) :
    r.used (host.addCapacity id needed.cpu needed.memory 0).share = r.used host.share + n := by
  rw [Host.addCapacity, if_neg absent]
  cases r <;> exact toInt_add_of_inRange rfl read sum

theorem used_delCapacity (there : id ∈ host.vmCollection) (read : (r.read needed).toInt = n)
    (difference : InRange (r.used host.share - n)) :
    r.used (host.delCapacity id needed.cpu needed.memory 0).share = r.used host.share - n := by
  rw [Host.delCapacity, if_pos there]
  cases r <;> exact toInt_sub_of_inRange rfl read difference

theorem used_updateCapacity (read : (r.read needed).toInt = n)
    (sum : InRange (r.used host.share + n)) :
    r.used (host.updateCapacity needed.cpu needed.memory 0).share = r.used host.share + n := by
  cases r <;> exact toInt_add_of_inRange rfl read sum

theorem max_addCapacity :
    r.max (host.addCapacity id needed.cpu needed.memory 0).share = r.max host.share := by
  unfold Host.addCapacity
  split
  · rfl
  · cases r <;> rfl

theorem max_delCapacity :
    r.max (host.delCapacity id needed.cpu needed.memory 0).share = r.max host.share := by
  unfold Host.delCapacity
  split
  · cases r <;> rfl
  · rfl

theorem max_updateCapacity :
    r.max (host.updateCapacity needed.cpu needed.memory 0).share = r.max host.share := by
  cases r <;> rfl

end Hosts

/-! ## The invariant -/

/-- Every host has the capacity for what it uses and for what is promised. -/
structure Inv (s : State) : Prop where
  nonneg : ∀ (id : Nat) (r : Resource), 0 ≤ s.needs id r
  fits : ∀ hid, ∀ host ∈ s.pools.hosts hid, ∀ r : Resource,
    r.used host.share + s.promisedTo r hid ≤ r.max host.share

section Steps

variable {s : State} {hid id : Nat}

/-- The hosts and what the VMs require are the same, and no more is promised. -/
theorem Inv.keep {s' : State} (inv : Inv s) (hosts : s'.pools.hosts = s.pools.hosts)
    (needs : ∀ i, s'.needs i = s.needs i)
    (promised : ∀ r hid, s'.promisedTo r hid ≤ s.promisedTo r hid) : Inv s' := by
  refine ⟨fun i r => ?_, fun h host mem r => ?_⟩
  · rw [needs]
    exact inv.nonneg i r
  · rw [hosts] at mem
    have before := inv.fits h host mem r
    have less := promised r h
    omega

theorem Inv.checkHost {asked : Asked} (inv : Inv s) (roomy : Roomy s (.checkHost asked)) :
    Inv (next s (.checkHost asked)) := by
  simp only [next]
  split
  · rename_i there
    by_cases room : s.HasRoom asked
    · rw [if_pos room]
      refine ⟨inv.nonneg, fun h host mem r => ?_⟩
      rw [State.promisedTo_eq]
      by_cases here : asked.hid = h
      · subst here
        have fits : r.used host.share + s.promisedTo r asked.hid + s.needs asked.id r ≤
            r.max host.share := roomy there room host mem r
        rw [State.promisedTo_eq] at fits
        rw [promisedSum_append]
        show r.used host.share + (promisedSum (s.needs · r) asked.hid s.promised +
          s.needs asked.id r) ≤ _
        omega
      · rw [promisedSum_append_ne here]
        exact inv.fits h host mem r
    · rw [if_neg room]
      exact inv.keep rfl (fun _ => rfl) fun _ _ => Int.le_refl _
  · exact inv

/-- A VM that is added to a host was promised to it, or there is room for it. -/
theorem Inv.charge_host {host : Host} (inv : Inv s) (roomy : Roomy s (.charge hid id))
    (found : host ∈ s.pools.hosts hid) (r : Resource) :
    r.used (host.addCapacity id (s.required id).cpu (s.required id).memory 0).share +
      promisedSum (s.needs · r) hid (s.promised.erase (hid, id)) ≤ r.max host.share := by
  have fits := inv.fits hid host found r
  have nonneg := inv.nonneg id r
  have low := (@inRange_used host r).1
  have high := (@inRange_max host r).2
  rw [State.promisedTo_eq] at fits
  by_cases held : id ∈ host.vmCollection
  · have less := @promisedSum_erase_le (s.needs · r) hid id s.promised hid nonneg
    rw [Host.addCapacity, if_pos held]
    omega
  · obtain ⟨range, room⟩ := roomy host found held
    have all := @promisedSum_nonneg (s.needs · r) hid (s.promised.erase (hid, id))
      fun i => inv.nonneg i r
    have total : r.used host.share + promisedSum (s.needs · r) hid (s.promised.erase (hid, id)) +
        s.needs id r ≤ r.max host.share := by
      by_cases there : (hid, id) ∈ s.promised
      · have erased := @promisedSum_erase (s.needs · r) hid id s.promised hid there
        rw [if_pos rfl] at erased
        omega
      · have more := room there host found r
        rw [State.promisedTo_eq] at more
        rwa [List.erase_of_not_mem there]
    rw [used_addCapacity r held (State.toInt_read r (range r)) ⟨by omega, by omega⟩]
    omega

theorem Inv.charge (inv : Inv s) (roomy : Roomy s (.charge hid id)) :
    Inv (next s (.charge hid id)) := by
  have needs (i : Nat) : (next s (.charge hid id)).needs i = s.needs i := by
    funext r
    simp only [State.needs, next, vms_addCapacity]
  refine ⟨fun i r => ?_, fun h host mem r => ?_⟩
  · rw [needs]
    exact inv.nonneg i r
  · have sum : (next s (.charge hid id)).promisedTo r h =
        promisedSum (s.needs · r) h (s.promised.erase (hid, id)) := by
      simp only [State.promisedTo_eq, needs]
      rfl
    rw [sum]
    simp only [next, hosts_addCapacity] at mem
    split at mem
    · rename_i same
      subst same
      rw [Option.mem_def, Option.map_eq_some_iff] at mem
      obtain ⟨before, found, rfl⟩ := mem
      have fits := inv.charge_host roomy found r
      rwa [← @max_addCapacity id before (s.required id)] at fits
    · rename_i other
      rw [promisedSum_erase_ne (Ne.symm other)]
      exact inv.fits h host mem r

theorem Inv.release (inv : Inv s) (roomy : Roomy s (.release hid id)) :
    Inv (next s (.release hid id)) := by
  have needs (i : Nat) : (next s (.release hid id)).needs i = s.needs i := by
    funext r
    simp only [State.needs, next, vms_delCapacity]
  refine ⟨fun i r => ?_, fun h host mem r => ?_⟩
  · rw [needs]
    exact inv.nonneg i r
  · have sum : (next s (.release hid id)).promisedTo r h = s.promisedTo r h := by
      simp only [State.promisedTo_eq, needs]
      rfl
    rw [sum]
    simp only [next, hosts_delCapacity] at mem
    split at mem
    · rename_i same
      subst same
      rw [Option.mem_def, Option.map_eq_some_iff] at mem
      obtain ⟨before, found, rfl⟩ := mem
      have fits := inv.fits h before found r
      have nonneg := inv.nonneg id r
      change r.used (before.delCapacity id (s.required id).cpu (s.required id).memory 0).share + _ ≤
        r.max (before.delCapacity id (s.required id).cpu (s.required id).memory 0).share
      rw [max_delCapacity]
      by_cases held : id ∈ before.vmCollection
      · obtain ⟨range, low⟩ := roomy before found held r
        have high := (@inRange_used before r).2
        rw [used_delCapacity r held (State.toInt_read r range) ⟨low, by omega⟩]
        omega
      · rwa [Host.delCapacity, if_neg held]
    · exact inv.fits h host mem r

theorem Inv.move {state : VmState} {hid? : Option Nat} (inv : Inv s) :
    Inv (next s (.move id state hid?)) := by
  have needs (i : Nat) : (next s (.move id state hid?)).needs i = s.needs i := by
    funext r
    simp only [State.needs, next, HostUsage.next]
    by_cases same : i = id
    · subst same
      rw [Function.update_self]
      cases r <;> rfl
    · rw [Function.update_of_ne same]
  refine inv.keep rfl needs fun r h => ?_
  simp only [State.promisedTo_eq, needs]
  exact Int.le_refl _

theorem Inv.monitor {maxCpu maxMem maxDisk : Int32} (inv : Inv s)
    (raised : Enforced s (.monitor hid maxCpu maxMem maxDisk)) :
    Inv (next s (.monitor hid maxCpu maxMem maxDisk)) := by
  refine ⟨inv.nonneg, fun h host mem r => ?_⟩
  change host ∈ Function.update s.pools.hosts hid _ h at mem
  by_cases same : h = hid
  · subst same
    rw [Function.update_self, Option.mem_def, Option.map_eq_some_iff] at mem
    obtain ⟨before, found, rfl⟩ := mem
    have fits := inv.fits h before found r
    obtain ⟨cpu, memory⟩ := raised before found
    cases r with
    | cpu => exact Int.le_trans fits (Int32.le_iff_toInt_le.mp cpu)
    | memory => exact Int.le_trans fits (Int32.le_iff_toInt_le.mp memory)
  · rw [Function.update_of_ne same] at mem
    exact inv.fits h host mem r

end Steps

/-! ## Resizes -/

theorem truncate_nonneg {x : ℚ} (nonneg : 0 ≤ x) : 0 ≤ truncate x := by
  rw [truncate_of_nonneg nonneg]
  exact Int.floor_nonneg.mpr nonneg

theorem printed_nonneg {x : ℚ} (nonneg : 0 ≤ x) : 0 ≤ printed x := by
  have unit : (0 : ℚ) ≤ 10 ^ (Int.log 10 |x| - (6 - 1)) := zpow_nonneg (by norm_num) _
  have round := roundHalfEven_nonneg (div_nonneg nonneg unit)
  exact mul_nonneg (by exact_mod_cast round) unit

/-- What is required of a positive CPU is no less than nothing. -/
theorem required_nonneg {vm : Vm} (cpu : 0 ≤ vm.cpu) (memory : 0 ≤ vm.memory) (r : Resource) :
    0 ≤ r.required vm := by
  cases r with
  | cpu =>
    refine truncate_nonneg (Binary32.nearest_nonneg (mul_nonneg ?_ (by norm_num)))
    exact Binary32.nearest_nonneg cpu
  | memory =>
    have nonneg := Int32.le_iff_toInt_le.mp memory
    rw [Int32.toInt_zero] at nonneg
    exact Int.mul_nonneg nonneg (by decide)

/-- What is given back of a charge is less than the charge, if there is one. -/
theorem truncate_undo (x : ℚ) :
    let charged := truncate (Binary32.nearest (x * 100))
    let undone := truncate (-x)
    charged = 0 ∧ undone = 0 ∨ undone ≤ 0 ∧ 0 < charged + undone ∨
      0 ≤ undone ∧ charged + undone < 0 := by
  have positive : ∀ y : ℚ, 0 ≤ y → 0 ≤ truncate y ∧
      (truncate y < truncate (Binary32.nearest (y * 100)) ∨
        truncate (Binary32.nearest (y * 100)) = 0 ∧ truncate y = 0) := by
    intro y nonneg
    obtain ⟨floor, less, apart⟩ := floor_le_floor_percent nonneg
    rw [truncate_of_nonneg nonneg,
      truncate_of_nonneg (Binary32.nearest_nonneg (by linarith : 0 ≤ y * 100))]
    omega
  intro charged undone
  rcases le_total 0 x with nonneg | nonpos
  · obtain ⟨floor, less⟩ := positive x nonneg
    have flipped : undone = -truncate x := truncate_neg x
    omega
  · obtain ⟨floor, less⟩ := positive (-x) (by linarith)
    rw [neg_mul, Binary32.nearest_neg, truncate_neg (Binary32.nearest _)] at less
    omega

section Resize

variable {s : State} {q : ResizeRequest}

theorem foundAgain_iff : foundAgain q = true ↔ FoundResizable q.again := by
  unfold foundAgain FoundResizable
  cases q.again with
  | none => simp
  | some state => simp

theorem required_congr {vm vm' : Vm} (cpu : vm.cpu = vm'.cpu) (memory : vm.memory = vm'.memory)
    (r : Resource) : r.required vm = r.required vm' := by
  cases r with
  | cpu => simp only [Resource.required, Vm.ocpu, cpu]
  | memory => simp only [Resource.required, memory]

/-- What the VM of a request that goes through requires, is no less than nothing. -/
theorem required_resized_nonneg (inv : Inv s) (charges : q.Charges s.pools) (r : Resource) :
    0 ≤ r.required (q.resized s.pools) := by
  have valid := charges.valid
  have before := inv.nonneg q.id r
  simp only [ResizeRequest.resized, Vm.resize, if_pos valid, Option.getD_some]
  simp only [checkResize, Bool.and_eq_true, decide_eq_true_eq] at valid
  obtain ⟨⟨cpu, memory⟩, -⟩ := valid
  cases r with
  | cpu =>
    by_cases written : 0 < (q.size s.pools).cpu
    · simp only [Resource.required, Vm.ocpu, if_pos written]
      refine truncate_nonneg (Binary32.nearest_nonneg (mul_nonneg ?_ (by norm_num)))
      exact Binary32.nearest_nonneg (printed_nonneg cpu)
    · simp only [Resource.required, Vm.ocpu, if_neg written]
      exact before
  | memory =>
    by_cases written : 0 < (q.size s.pools).memory
    · have nonneg := Int32.le_iff_toInt_le.mp memory
      rw [Int32.toInt_zero] at nonneg
      simp only [Resource.required, if_pos written]
      exact Int.mul_nonneg nonneg (by decide)
    · simp only [Resource.required, if_neg written]
      exact before

theorem vms_resize (i : Nat) : (next s (.resize q)).pools.vms i =
    if i = q.id then (q.run s.pools).2.vm else s.pools.vms i := by
  show Function.update s.pools.vms q.id (q.run s.pools).2.vm i = _
  exact Function.update_apply _ _ _ _

/-- What the host is charged with is what the resize adds, if that is an `int`. -/
theorem toInt_charged {r : Resource} (range : InRange (r.charged q s.pools)) :
    (r.read ⟨percent (q.dcpu s.pools), q.dmemory s.pools * 1024⟩).toInt =
      r.charged q s.pools := by
  cases r with
  | cpu => exact toInt_toInt32 range
  | memory => exact toInt_mul_of_inRange rfl rfl range

/-- A request that goes through. -/
theorem Inv.resize_found (inv : Inv s) (roomy : Roomy s (.resize q))
    (charges : q.Charges s.pools) (found : FoundResizable q.again) :
    Inv (next s (.resize q)) := by
  obtain ⟨hosts, ⟨cpu, memory⟩, -⟩ := run_of_found charges found
  have self (r : Resource) : (next s (.resize q)).needs q.id r = r.required (q.resized s.pools) := by
    rw [State.needs, vms_resize, if_pos rfl]
    exact required_congr cpu memory r
  have other (i : Nat) (ne : i ≠ q.id) : (next s (.resize q)).needs i = s.needs i := by
    funext r
    rw [State.needs, vms_resize, if_neg ne, State.needs]
  have nonneg (i : Nat) (r : Resource) : 0 ≤ (next s (.resize q)).needs i r := by
    by_cases same : i = q.id
    · rw [same, self]
      exact required_resized_nonneg inv charges r
    · rw [other i same]
      exact inv.nonneg i r
  refine ⟨nonneg, fun h host mem r => ?_⟩
  have promised := @promisedSum_nonneg ((next s (.resize q)).needs · r) h s.promised
    fun i => nonneg i r
  have sum : promisedSum ((next s (.resize q)).needs · r) h s.promised =
      s.promisedTo r h + s.promised.count (h, q.id) * r.growth q s.pools := by
    refine @promisedSum_grow (s.needs · r) _ h q.id s.promised _ ?_ ?_
    · rw [self, Resource.growth]
      show _ = r.required (s.pools.vms q.id) + _
      omega
    · intro i ne
      rw [other i ne]
  have again := foundAgain_iff.mpr found
  change host ∈ (q.run s.pools).2.hosts h at mem
  rw [hosts, HostUsage.charge] at mem
  show _ + promisedSum ((next s (.resize q)).needs · r) h s.promised ≤ _
  rw [sum] at promised ⊢
  obtain ⟨room, ints⟩ := roomy charges h
  split at mem
  · rename_i charged
    rw [Option.mem_def, Option.map_eq_some_iff] at mem
    obtain ⟨before, found, rfl⟩ := mem
    have fits := room before found r
    simp only [resized, charged, again, if_true] at fits
    obtain ⟨range, low⟩ := ints charged before found r
    have high := (@inRange_max before r).2
    have used := @used_updateCapacity before _ _ r (toInt_charged range) ⟨low, by omega⟩
    have max := @max_updateCapacity before ⟨percent (q.dcpu s.pools), q.dmemory s.pools * 1024⟩ r
    rw [used, max]
    omega
  · rename_i uncharged
    have fits := room host mem r
    simp only [resized, uncharged, again, if_true, if_false] at fits
    omega

/-- What is charged and given back changes the usage by something between the charge and
nothing. -/
theorem toInt_undone {r : Resource} (range : InRange (r.charged q s.pools)) :
    ∃ n : Int, (r.read ⟨percent (q.dcpu s.pools) + toInt32 (-q.dcpu s.pools),
        q.dmemory s.pools * 1024 + -q.dmemory s.pools⟩).toInt = n ∧
      (0 ≤ n ∧ n ≤ r.charged q s.pools ∨ r.charged q s.pools ≤ n ∧ n ≤ 0) := by
  cases r with
  | cpu =>
    have between := truncate_undo (q.dcpu s.pools)
    obtain ⟨low, high⟩ := range
    simp only [Resource.charged] at low high ⊢
    have undone := @toInt_toInt32 (-q.dcpu s.pools) ⟨by omega, by omega⟩
    exact ⟨_, toInt_add_of_inRange (toInt_toInt32 ⟨low, high⟩) undone ⟨by omega, by omega⟩,
      by omega⟩
  | memory =>
    have charged : (q.dmemory s.pools * 1024).toInt = (q.dmemory s.pools).toInt * 1024 :=
      toInt_mul_of_inRange rfl rfl range
    obtain ⟨low, high⟩ := range
    simp only [Resource.charged, Resource.read] at low high ⊢
    rw [← Int32.sub_eq_add_neg]
    exact ⟨_, toInt_sub_of_inRange charged rfl ⟨by omega, by omega⟩, by omega⟩

/-- A request that charges the host and then loses the VM. -/
theorem Inv.resize_lost (inv : Inv s) (roomy : Roomy s (.resize q))
    (charges : q.Charges s.pools) (lost : ¬ FoundResizable q.again) :
    Inv (next s (.resize q)) := by
  obtain ⟨hosts, cpu, memory⟩ := run_of_lost charges lost
  have needs (i : Nat) : (next s (.resize q)).needs i = s.needs i := by
    funext r
    rw [State.needs, vms_resize]
    split
    · rename_i same
      rw [same]
      exact required_congr cpu memory r
    · rfl
  have again : foundAgain q = false := Bool.eq_false_iff.mpr fun h => lost (foundAgain_iff.mp h)
  refine ⟨fun i r => ?_, fun h host mem r => ?_⟩
  · rw [needs]
    exact inv.nonneg i r
  · have sum : (next s (.resize q)).promisedTo r h = s.promisedTo r h := by
      simp only [State.promisedTo_eq, needs]
      rfl
    change host ∈ (q.run s.pools).2.hosts h at mem
    rw [hosts, HostUsage.charge] at mem
    rw [sum]
    split at mem
    · rename_i charged
      rw [Option.mem_def, Option.map_eq_some_iff] at mem
      obtain ⟨before, found, rfl⟩ := mem
      obtain ⟨room, ints⟩ := roomy charges h
      have more := room before found r
      have fits := inv.fits h before found r
      simp only [resized, charged, again, Bool.false_eq_true, if_true, if_false] at more
      obtain ⟨range, low⟩ := ints charged before found r
      obtain ⟨n, undone, between⟩ := toInt_undone range
      have high := (@inRange_max before r).2
      have promised := @promisedSum_nonneg (s.needs · r) h s.promised fun i => inv.nonneg i r
      obtain ⟨low', high'⟩ := @inRange_used before r
      rw [State.promisedTo_eq] at more fits ⊢
      have used := @used_updateCapacity before _ _ r undone ⟨by omega, by omega⟩
      have max := @max_updateCapacity before ⟨percent (q.dcpu s.pools) + toInt32 (-q.dcpu s.pools),
        q.dmemory s.pools * 1024 + -q.dmemory s.pools⟩ r
      rw [used, max]
      omega
    · exact inv.fits h host mem r

theorem Inv.resize (inv : Inv s) (roomy : Roomy s (.resize q)) : Inv (next s (.resize q)) := by
  by_cases charges : q.Charges s.pools
  · by_cases found : FoundResizable q.again
    · exact inv.resize_found roomy charges found
    · exact inv.resize_lost roomy charges found
  · obtain ⟨err, users, groups, run⟩ := run_of_not_charges charges
    have hosts : (next s (.resize q)).pools.hosts = s.pools.hosts := by
      simp only [next, HostUsage.State.resize, run]
      rfl
    have vms : (next s (.resize q)).pools.vms = s.pools.vms := by
      simp only [next, HostUsage.State.resize, run]
      exact Function.update_eq_self q.id s.pools.vms
    have needs (i : Nat) : (next s (.resize q)).needs i = s.needs i := by
      funext r
      rw [State.needs, vms, State.needs]
    refine inv.keep hosts needs fun r h => ?_
    simp only [State.promisedTo_eq, needs]
    exact Int.le_refl _

end Resize

/-! ## Runs -/

theorem Init.inv {s : State} (start : Init s) : Inv s := by
  refine ⟨fun id r => ?_, fun hid host mem r => ?_⟩
  · obtain ⟨cpu, memory⟩ := start.vms id
    exact required_nonneg cpu memory r
  · obtain ⟨-, cpu, memory⟩ := start.unused hid host mem
    obtain ⟨maxCpu, maxMem⟩ := start.hosts hid host mem
    rw [State.promisedTo_eq, start.idle.2]
    cases r with
    | cpu =>
      show host.share.cpuUsage.toInt + 0 ≤ _
      rw [cpu]
      exact Int32.le_iff_toInt_le.mp maxCpu
    | memory =>
      show host.share.memUsage.toInt + 0 ≤ _
      rw [memory]
      exact Int32.le_iff_toInt_le.mp maxMem

theorem Inv.next {s : State} {l : Label} (inv : Inv s) (roomy : Roomy s l)
    (enforced : Enforced s l) : Inv (next s l) := by
  cases l with
  | ask hid id => exact inv.keep rfl (fun _ => rfl) fun _ _ => Int.le_refl _
  | checkHost asked => exact inv.checkHost roomy
  | giveUp hid id =>
    refine inv.keep rfl (fun _ => rfl) fun r h => ?_
    exact @promisedSum_erase_le (s.needs · r) h id _ hid (inv.nonneg id r)
  | charge hid id => exact inv.charge roomy
  | release hid id => exact inv.release roomy
  | move id state hid => exact inv.move
  | resize q => exact inv.resize roomy
  | monitor hid maxCpu maxMem maxDisk => exact inv.monitor enforced

/-- In the runs in which what a host lets through leaves room for what is promised there, no
host gives more than it has. -/
theorem within_capacity_of_reached {s : State} (reached : Reachable Init (Guarded Roomy step) s) :
    WithinCapacity s := by
  have inv : Inv s := by
    apply reached.invariant fun s => Init.inv
    intro s l s' inv taken
    obtain ⟨roomy, enforced, eq⟩ := taken
    exact eq ▸ inv.next roomy enforced
  intro hid host mem
  have cpu := inv.fits hid host mem .cpu
  have memory := inv.fits hid host mem .memory
  have cpuNonneg := @promisedSum_nonneg (s.needs · .cpu) hid s.promised (inv.nonneg · .cpu)
  have memoryNonneg := @promisedSum_nonneg (s.needs · .memory) hid s.promised (inv.nonneg · .memory)
  rw [State.promisedTo_eq] at cpu memory
  simp only [Resource.used, Resource.max] at cpu memory
  rw [Int32.le_iff_toInt_le, Int32.le_iff_toInt_le]
  omega

/-- A host with 100 percent of CPU, and VMs that require all of it. -/
def single : State where
  pools :=
    { hosts := fun hid => if hid = 0 then
        some ⟨⟨0, 0, 0, 0, 8388608, 100, 0⟩, ∅⟩ else none
      vms := fun _ => ⟨2, 1, .pending, none, 1, 512, 1⟩
      users := fun _ => none
      groups := fun _ => none }
  asked := []
  promised := []

theorem single_init : Init single := by
  refine ⟨init_single rfl rfl rfl rfl, fun hid host mem => ?_, fun id => ?_, rfl, rfl⟩
  · simp only [single] at mem
    split_ifs at mem
    · cases mem
      decide
    · cases mem
  · refine ⟨?_, ?_⟩
    · show (0 : ℚ) ≤ 1
      norm_num
    · show (0 : Int32) ≤ 512
      decide

theorem within_capacity_of_reached_single :
    ∃ s, Reachable Init (Guarded Roomy step) s ∧
      (s.pools.hosts 0).map (fun host => host.share.cpuUsage) = some 100 ∧ WithinCapacity s := by
  have fits : (next single (.ask 0 1)).Fits 0 ((next single (.ask 0 1)).needs 1) := by
    intro host mem r
    cases mem
    cases r <;> decide +kernel
  have promised : (0, 1) ∈
      (next (next single (.ask 0 1)) (.checkHost ⟨0, 1, ⟨100, 524288⟩⟩)).promised := by
    decide +kernel
  have reached : Reachable Init (Guarded Roomy step)
      (next (next (next single (.ask 0 1)) (.checkHost ⟨0, 1, ⟨100, 524288⟩⟩)) (.charge 0 1)) := by
    refine .step (l := .charge 0 1) (.step (l := .checkHost ⟨0, 1, ⟨100, 524288⟩⟩)
      (.step (l := .ask 0 1) (.init single_init) ⟨trivial, trivial, rfl⟩) ⟨?_, trivial, rfl⟩)
      ⟨?_, trivial, rfl⟩
    · exact fun _ _ => fits
    · refine fun host mem held => ⟨fun r => ?_, fun absent => absurd promised absent⟩
      cases r <;> decide +kernel
  exact ⟨_, reached, by decide +kernel, within_capacity_of_reached reached⟩

/-- Two deployments find the host empty, and both are charged to it. -/
theorem both_promised_overcommit : ¬ ∀ s, Reachable Init step s → WithinCapacity s := by
  let s := [Label.ask 0 1, .ask 0 2, .checkHost ⟨0, 1, ⟨100, 524288⟩⟩,
    .checkHost ⟨0, 2, ⟨100, 524288⟩⟩, .charge 0 1, .charge 0 2].foldl next single
  intro always
  have reached : Reachable Init step s := by
    refine .step (l := .charge 0 2) (.step (l := .charge 0 1)
      (.step (l := .checkHost ⟨0, 2, ⟨100, 524288⟩⟩)
        (.step (l := .checkHost ⟨0, 1, ⟨100, 524288⟩⟩) (.step (l := .ask 0 2)
          (.step (l := .ask 0 1) (.init single_init) ⟨trivial, rfl⟩) ⟨trivial, rfl⟩)
          ⟨trivial, rfl⟩) ⟨trivial, rfl⟩) ⟨trivial, rfl⟩) ⟨trivial, rfl⟩
  have usage : (s.pools.hosts 0).map (fun host => (host.share.cpuUsage, host.share.maxCpu)) =
      some (200, 100) := by decide +kernel
  cases found : s.pools.hosts 0 with
  | none =>
    rw [found] at usage
    cases usage
  | some host =>
    have bound := (always s reached 0 host found).1
    rw [found, Option.map_some, Option.some.injEq, Prod.mk.injEq] at usage
    rw [usage.1, usage.2] at bound
    exact absurd bound (by decide)

end EnforcedPlacement

end Ezilla
