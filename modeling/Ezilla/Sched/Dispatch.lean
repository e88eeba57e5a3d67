import Mathlib.Data.List.Sort
import Mathlib.Data.Rat.Floor
import Mathlib.Algebra.Order.Ring.Rat

/-!
# The dispatch of pending VMs

At the end of a scheduling action every pending VM has the list of its matching hosts,
sorted by priority. `dispatch` goes through the VMs, picks for each the host of the highest
priority that has room for it and took fewer VMs than the limit, and asks the daemon to deploy
the VM there, or to migrate it.

* `Scheduler.dispatch`: the loop, with the calls that were made, the latest first;
* `Lawful`: what the calls of one scheduling action satisfy;
* `Scheduler.dispatch_lawful`: that they always do.
-/

namespace Ezilla

/-- What a host shares out. -/
inductive Resource where
  | cpu
  | mem
  | disk
  deriving DecidableEq

namespace Dispatch

/-- `HostXML`. -/
structure HostXml where
  usage : Resource → Int32
  max : Resource → Int32
  runningVms : Int32

namespace HostXml

/-- `HostXML::test_capacity`. -/
def testCapacity (host : HostXml) (needed : Resource → Int32) : Bool :=
  needed .cpu ≤ host.max .cpu - host.usage .cpu &&
    needed .mem ≤ host.max .mem - host.usage .mem &&
    needed .disk ≤ host.max .disk - host.usage .disk

/-- `HostXML::add_capacity`. -/
def addCapacity (host : HostXml) (needed : Resource → Int32) : HostXml :=
  { host with
    usage := fun r => host.usage r + needed r
    runningVms := host.runningVms + 1 }

end HostXml

/-- `VirtualMachineXML::Host`: a matching host of a VM. -/
structure Candidate (P : Type) where
  hid : Int32
  priority : P

/-- `VirtualMachineXML`, with its matching hosts. -/
structure VmXml (P : Type) where
  oid : Int32
  hid : Int32
  resched : Int32
  memory : Int32
  cpu : ℚ
  hosts : List (Candidate P)

/-- `std::sort` by priority: the order of equal ones is left open. -/
structure PrioritySort (P : Type) [LE P] where
  run : List (Candidate P) → List (Candidate P)
  perm : ∀ hosts, (run hosts).Perm hosts
  sorted : ∀ hosts, (run hosts).Pairwise fun a b => a.priority ≤ b.priority

namespace VmXml

variable {P : Type}

def isResched (vm : VmXml P) : Bool := vm.resched = 1

/-- `VirtualMachineXML::add_host`. -/
def addHost [Zero P] (vm : VmXml P) (hostId : Int32) : VmXml P :=
  if (vm.resched = 1 ∧ hostId ≠ vm.hid) ∨ vm.resched = 0 then
    { vm with hosts := vm.hosts ++ [⟨hostId, 0⟩] }
  else
    vm

/-- `VirtualMachineXML::set_priorities`. -/
def setPriorities [LE P] (vm : VmXml P) (sort : PrioritySort P) (total : List P) : VmXml P :=
  if vm.hosts.length ≠ total.length then
    vm
  else
    { vm with
      hosts := sort.run (vm.hosts.zipWith (fun host priority => ⟨host.hid, priority⟩) total) }

/-- `VirtualMachineXML::get_requirements`, with the product by 100 that is cut to an `int`. -/
def getRequirements (vm : VmXml P) (percent : ℚ → Int32) : Resource → Int32
  | .cpu => if vm.memory = 0 ∨ vm.cpu = 0 then 0 else percent vm.cpu
  | .mem => if vm.memory = 0 ∨ vm.cpu = 0 then 0 else vm.memory * 1024
  | .disk => 0

end VmXml

/-- A pending VM as it was read, with what `match` and `schedule` found for it. -/
structure PendingVm (P : Type) where
  vm : VmXml P
  matching : List Int32
  total : List P
  fresh : vm.hosts = []

/-- The VM with its sorted hosts. -/
def PendingVm.scheduled {P : Type} [LE P] [Zero P] (p : PendingVm P) (sort : PrioritySort P) :
    VmXml P :=
  (p.matching.foldl VmXml.addHost p.vm).setPriorities sort p.total

/-- The pool of pending VMs, in the order of their ids. -/
structure VmPool (P : Type) where
  vms : List (PendingVm P)
  ordered : vms.Pairwise fun p q => p.vm.oid < q.vm.oid

/-- A call of the daemon: the VM, the host, and the answer. -/
structure Call (P : Type) where
  vm : VmXml P
  hid : Int32
  success : Bool

/-- The configuration of the scheduler, and the answers of the daemon. -/
structure Scheduler (P : Type) [LE P] where
  dispatchLimit : UInt32
  hostDispatchLimit : UInt32
  percent : ℚ → Int32
  sort : PrioritySort P
  answer : Int32 → Int32 → Bool

/-- The variables of the loop. -/
structure Loop (P : Type) where
  hosts : Int32 → Option HostXml
  hostVms : Int32 → Int32
  dispatchedVms : UInt32
  calls : List (Call P)

/-- `get_host` on the host it takes: the VM is added to the host and counted. -/
def Loop.place {P : Type} (l : Loop P) (hid : Int32) (needed : Resource → Int32) : Loop P :=
  { l with
    hosts := fun hid' =>
      if hid' = hid then (l.hosts hid').map fun host => host.addCapacity needed else l.hosts hid'
    hostVms := fun hid' => if hid' = hid then l.hostVms hid' + 1 else l.hostVms hid' }

namespace Scheduler

variable {P : Type} [LE P] (s : Scheduler P)

/-- The test that `VirtualMachineXML::get_host` makes of a matching host. -/
def accepts (l : Loop P) (vm : VmXml P) (hid : Int32) : Bool :=
  match l.hosts hid with
  | none => false
  | some host =>
    host.testCapacity (vm.getRequirements s.percent) &&
      l.hostVms hid < s.hostDispatchLimit.toInt32

/-- `VirtualMachineXML::get_host`: the host, and the pools with the VM on it. -/
def getHost (l : Loop P) (vm : VmXml P) : Option (Int32 × Loop P) :=
  (vm.hosts.reverse.find? fun c => s.accepts l vm c.hid).map fun c =>
    (c.hid, l.place c.hid (vm.getRequirements s.percent))

/-- `VirtualMachinePoolXML::dispatch`, and the count of the new VMs that it succeeds for. -/
def send (l : Loop P) (vm : VmXml P) (hid : Int32) : Loop P :=
  let rc := s.answer vm.oid hid
  { l with
    dispatchedVms := if rc && !vm.isResched then l.dispatchedVms + 1 else l.dispatchedVms
    calls := ⟨vm, hid, rc⟩ :: l.calls }

/-- The body of the loop. -/
def dispatchVm (l : Loop P) (vm : VmXml P) : Loop P :=
  match s.getHost l vm with
  | none => l
  | some (hid, l) => s.send l vm hid

/-- The loop over the VMs. -/
def dispatchVms : Loop P → List (VmXml P) → Loop P
  | l, [] => l
  | l, vm :: vms =>
    if s.dispatchLimit ≤ 0 ∨ l.dispatchedVms < s.dispatchLimit then
      dispatchVms (s.dispatchVm l vm) vms
    else
      l

/-- `Scheduler::dispatch`: the calls that it makes, the latest first. -/
def dispatch [Zero P] (hosts : Int32 → Option HostXml) (pool : VmPool P) : List (Call P) :=
  (s.dispatchVms ⟨hosts, fun _ => 0, 0, []⟩ (pool.vms.map (·.scheduled s.sort))).calls

end Scheduler

/-! ## The laws of a scheduling action -/

section Laws

variable {P : Type}

/-- How many calls were made for a host. -/
def sentTo (calls : List (Call P)) (hid : Int32) : Nat :=
  calls.countP fun c => c.hid = hid

/-- What the VMs sent to a host require in total. -/
def load (percent : ℚ → Int32) (calls : List (Call P)) (hid : Int32) (r : Resource) : Int :=
  ((calls.filter fun c => c.hid = hid).map fun c => (c.vm.getRequirements percent r).toInt).sum

/-- A host as `dispatch` sees it after some calls. -/
def HostXml.after (host : HostXml) (percent : ℚ → Int32) (calls : List (Call P)) (hid : Int32) :
    HostXml :=
  { host with
    usage := fun r => .ofInt ((host.usage r).toInt + load percent calls hid r)
    runningVms := .ofInt (host.runningVms.toInt + sentTo calls hid) }

variable [LinearOrder P] [Zero P]

/-- What the calls of a scheduling action satisfy. -/
structure Lawful (s : Scheduler P) (hosts : Int32 → Option HostXml) (pool : VmPool P)
    (calls : List (Call P)) : Prop where
  /-- A host that was not over its capacity is not after the action. -/
  capacity : ∀ hid host, hosts hid = some host → ∀ r, host.usage r ≤ host.max r →
    (host.usage r).toInt + load s.percent calls hid r ≤ (host.max r).toInt
  hostLimit : ∀ hid, sentTo calls hid ≤ s.hostDispatchLimit.toNat
  /-- The limit on new VMs counts the ones that the daemon accepted. -/
  dispatchLimit : 0 < s.dispatchLimit →
    calls.countP (fun c => c.success && !c.vm.isResched) ≤ s.dispatchLimit.toNat
  once : (calls.map (·.vm.oid)).Nodup
  matching : ∀ c ∈ calls, ∃ p ∈ pool.vms, c.vm = p.scheduled s.sort ∧ c.hid ∈ p.matching ∧
    (p.vm.resched = 1 → c.hid ≠ p.vm.hid)
  /-- At each call the host was the one of the highest priority among the matching hosts that
  still had room for the VM and were below the limit. -/
  greedy : ∀ c before, (c :: before) <:+ calls → ∃ chosen ∈ c.vm.hosts, chosen.hid = c.hid ∧
    ∀ other ∈ c.vm.hosts, ∀ host, hosts other.hid = some host →
      (host.after s.percent before other.hid).testCapacity (c.vm.getRequirements s.percent) →
      sentTo before other.hid < s.hostDispatchLimit.toNat → other.priority ≤ chosen.priority

end Laws

/-! ## Arithmetic of capacities -/

theorem add_le_of_le_sub {used max needed : Int32} (within : used ≤ max) (nonneg : 0 ≤ needed)
    (room : needed ≤ max - used) : used.toInt + needed.toInt ≤ max.toInt := by
  rw [Int32.le_iff_toInt_le] at within nonneg room
  rw [Int32.toInt_sub, Int.bmod_def] at room
  rw [Int32.toInt_zero] at nonneg
  have low := used.le_toInt
  have high := max.toInt_lt
  have low' := max.le_toInt
  split at room <;> omega

theorem toInt_ofInt_add {used : Int32} {more bound : Int} (nonneg : 0 ≤ more)
    (within : used.toInt + more ≤ bound) (word : bound < 2 ^ 31) :
    (Int32.ofInt (used.toInt + more)).toInt = used.toInt + more := by
  have low := used.le_toInt
  exact Int32.toInt_ofInt_of_le (by omega) (by omega)

theorem toInt_add_one {n : Int32} {limit : Int32} (nonneg : 0 ≤ n.toInt)
    (below : n.toInt < limit.toInt) : (n + 1).toInt = n.toInt + 1 := by
  have word := limit.toInt_lt
  have one : (1 : Int32).toInt = 1 := rfl
  rw [Int32.toInt_add, one]
  exact Int.bmod_eq_of_le (by omega) (by omega)

theorem toNat_add_one {n limit : UInt32} (below : n < limit) : (n + 1).toNat = n.toNat + 1 := by
  have word := limit.toNat_lt
  have less := UInt32.lt_iff_toNat_lt.mp below
  have one : (1 : UInt32).toNat = 1 := rfl
  rw [UInt32.toNat_add, one]
  exact Nat.mod_eq_of_lt (by omega)

/-- A limit from 2 ^ 31 on is negative as an `int`, and nothing is below it. -/
theorem toInt_toInt32_of_pos {limit : UInt32} (positive : 0 < limit.toInt32.toInt) :
    limit.toInt32.toInt = limit.toNat := by
  have bits : limit.toInt32.toInt = (limit.toNat : Int).bmod (2 ^ 32) :=
    BitVec.toInt_eq_toNat_bmod limit.toBitVec
  have word : limit.toNat < 2 ^ 32 := limit.toBitVec.isLt
  rw [bits, Int.bmod_def] at positive ⊢
  split at positive <;> omega

/-! ## The calls for a host -/

section Calls

variable {P : Type} {calls : List (Call P)} {c : Call P} {hid : Int32} {percent : ℚ → Int32}

theorem sentTo_cons :
    sentTo (c :: calls) hid = if c.hid = hid then sentTo calls hid + 1 else sentTo calls hid := by
  unfold sentTo
  rw [List.countP_cons]
  by_cases same : c.hid = hid
  · simp [same]
  · simp [same]

theorem load_cons (r : Resource) :
    load percent (c :: calls) hid r =
      if c.hid = hid then (c.vm.getRequirements percent r).toInt + load percent calls hid r
      else load percent calls hid r := by
  unfold load
  by_cases same : c.hid = hid
  · simp [same]
  · simp [same]

theorem load_nonneg (r : Resource)
    (nonneg : ∀ c ∈ calls, ∀ r, 0 ≤ c.vm.getRequirements percent r) :
    0 ≤ load percent calls hid r := by
  induction calls with
  | nil => exact Int.le_refl 0
  | cons c calls ih =>
    have rest := ih fun c' member => nonneg c' (List.mem_cons_of_mem _ member)
    have here := Int32.le_iff_toInt_le.mp (nonneg c List.mem_cons_self r)
    rw [Int32.toInt_zero] at here
    rw [load_cons]
    split <;> omega

theorem after_nil {host : HostXml} : host.after percent ([] : List (Call P)) hid = host := by
  simp [HostXml.after, load, sentTo]

/-- A call to another host leaves a host as it was. -/
theorem after_cons_ne {host : HostXml} (other : c.hid ≠ hid) :
    host.after percent (c :: calls) hid = host.after percent calls hid := by
  simp only [HostXml.after, load_cons, sentTo_cons, if_neg other]

/-- The host of a call has the VM on it. -/
theorem after_cons_self {host : HostXml} (here : c.hid = hid) :
    host.after percent (c :: calls) hid =
      (host.after percent calls hid).addCapacity (c.vm.getRequirements percent) := by
  simp only [HostXml.after, HostXml.addCapacity, load_cons, sentTo_cons, if_pos here]
  congr 1
  · funext r
    rw [← Int32.ofInt_toInt (c.vm.getRequirements percent r), ← Int32.ofInt_add]
    congr 1
    rw [Int32.ofInt_toInt]
    omega
  · rw [Int.natCast_add, ← Int.add_assoc, Int32.ofInt_add]
    rfl

variable {l : Loop P} {needed : Resource → Int32} {hid' : Int32}

theorem place_hosts : (l.place hid needed).hosts hid' =
    if hid' = hid then (l.hosts hid').map fun host => host.addCapacity needed else l.hosts hid' :=
  rfl

theorem place_hostVms : (l.place hid needed).hostVms hid' =
    if hid' = hid then l.hostVms hid' + 1 else l.hostVms hid' := rfl

theorem place_calls : (l.place hid needed).calls = l.calls := rfl

end Calls

/-! ## The lists of matching hosts -/

section Scheduled

variable {P : Type} {vm : VmXml P}

/-- Matching hosts are added to the list, but for the one a VM is to leave. -/
theorem addHosts_eq [Zero P] (matching : List Int32) :
    matching.foldl VmXml.addHost vm =
      { vm with
        hosts := vm.hosts ++
          (matching.filter fun hid => (vm.resched = 1 ∧ hid ≠ vm.hid) ∨ vm.resched = 0).map
            fun hid => ⟨hid, 0⟩ } := by
  induction matching generalizing vm with
  | nil => simp
  | cons hid matching ih =>
    rw [List.foldl_cons, ih, VmXml.addHost]
    split
    · rename_i added
      rw [List.filter_cons_of_pos (by simpa using added)]
      simp
    · rename_i left
      rw [List.filter_cons_of_neg (by simpa using left)]

variable [LinearOrder P] {sort : PrioritySort P}

theorem setPriorities_sorted {total : List P}
    (equal : ∀ a ∈ vm.hosts, ∀ b ∈ vm.hosts, a.priority ≤ b.priority) :
    (vm.setPriorities sort total).hosts.Pairwise fun a b => a.priority ≤ b.priority := by
  unfold VmXml.setPriorities
  split
  · exact List.pairwise_of_forall_mem_list equal
  · exact sort.sorted _

theorem mem_setPriorities {total : List P} {c : Candidate P}
    (candidate : c ∈ (vm.setPriorities sort total).hosts) : c.hid ∈ vm.hosts.map (·.hid) := by
  unfold VmXml.setPriorities at candidate
  split at candidate
  · exact List.mem_map_of_mem candidate
  · obtain ⟨i, small, is⟩ := List.getElem_of_mem ((sort.perm _).mem_iff.mp candidate)
    rw [List.getElem_zipWith] at is
    have listed : i < vm.hosts.length := by
      rw [List.length_zipWith] at small
      exact (Nat.lt_min.mp small).1
    exact List.mem_map.mpr ⟨vm.hosts[i], List.getElem_mem listed, by rw [← is]⟩

variable [Zero P] {p : PendingVm P}

theorem scheduled_sorted :
    (p.scheduled sort).hosts.Pairwise fun a b => a.priority ≤ b.priority := by
  refine setPriorities_sorted fun a there b there' => ?_
  simp only [addHosts_eq, p.fresh, List.nil_append, List.mem_map] at there there'
  obtain ⟨_, -, rfl⟩ := there
  obtain ⟨_, -, rfl⟩ := there'
  exact le_refl _

/-- The candidates of a VM are matching hosts, other than the one it is to leave. -/
theorem mem_scheduled {c : Candidate P} (candidate : c ∈ (p.scheduled sort).hosts) :
    c.hid ∈ p.matching ∧ (p.vm.resched = 1 → c.hid ≠ p.vm.hid) := by
  have matched := mem_setPriorities candidate
  simp only [addHosts_eq, p.fresh, List.nil_append, List.map_map, List.mem_map,
    List.mem_filter, decide_eq_true_eq] at matched
  obtain ⟨hid, ⟨member, allowed⟩, same⟩ := matched
  obtain rfl : hid = c.hid := same
  refine ⟨member, fun moving => ?_⟩
  rcases allowed with ⟨-, other⟩ | staying
  · exact other
  · rw [moving] at staying
    exact absurd staying (by decide)

theorem scheduled_oid : (p.scheduled sort).oid = p.vm.oid := by
  unfold PendingVm.scheduled VmXml.setPriorities
  rw [addHosts_eq]
  split <;> rfl

end Scheduled

/-! ## The loop -/

section Loop

variable {P : Type} [LinearOrder P] {s : Scheduler P} {l : Loop P} {vm : VmXml P}

variable {hid : Int32}

theorem send_hosts : (s.send l vm hid).hosts = l.hosts := rfl

theorem send_hostVms : (s.send l vm hid).hostVms = l.hostVms := rfl

theorem send_calls : (s.send l vm hid).calls = ⟨vm, hid, s.answer vm.oid hid⟩ :: l.calls := rfl

/-- What one turn of the loop does: no host was accepted, or the VM is sent to an accepted
host, and those of a higher priority were not accepted. -/
theorem dispatchVm_cases (sorted : vm.hosts.Pairwise fun a b => a.priority ≤ b.priority) :
    s.dispatchVm l vm = l ∨
      ∃ chosen ∈ vm.hosts, s.accepts l vm chosen.hid = true ∧
        (∀ other ∈ vm.hosts, s.accepts l vm other.hid = true →
          other.priority ≤ chosen.priority) ∧
        s.dispatchVm l vm =
          s.send (l.place chosen.hid (vm.getRequirements s.percent)) vm chosen.hid := by
  unfold Scheduler.dispatchVm Scheduler.getHost
  cases found : vm.hosts.reverse.find? fun c => s.accepts l vm c.hid with
  | none => exact Or.inl rfl
  | some chosen =>
    obtain ⟨accepted, skipped, rest, split, refused⟩ := List.find?_eq_some_iff_append.mp found
    have order : (vm.hosts.reverse).Pairwise fun a b => b.priority ≤ a.priority :=
      List.pairwise_reverse.mpr sorted
    rw [split] at order
    refine Or.inr ⟨chosen, ?_, accepted, fun other member open_ => ?_, rfl⟩
    · exact List.mem_reverse.mp (List.mem_of_find?_eq_some found)
    · rw [← List.mem_reverse, split] at member
      rcases List.mem_append.mp member with before | after
      · have no := refused other before
        rw [open_] at no
        cases no
      · rcases List.mem_cons.mp after with rfl | later
        · exact le_refl _
        · exact List.rel_of_pairwise_cons (List.pairwise_append.mp order).2.1 later

/-- What the calls so far and the variables of the loop have in common. -/
structure Inv (s : Scheduler P) (hosts : Int32 → Option HostXml) (done : List (VmXml P))
    (l : Loop P) : Prop where
  charged : ∀ hid, l.hosts hid = (hosts hid).map fun host => host.after s.percent l.calls hid
  counts : ∀ hid, (l.hostVms hid).toInt = sentTo l.calls hid
  capacity : ∀ hid host, hosts hid = some host → ∀ r, host.usage r ≤ host.max r →
    (host.usage r).toInt + load s.percent l.calls hid r ≤ (host.max r).toInt
  hostLimit : ∀ hid, sentTo l.calls hid ≤ s.hostDispatchLimit.toNat
  dispatched : 0 < s.dispatchLimit →
    l.dispatchedVms.toNat = l.calls.countP (fun c => c.success && !c.vm.isResched) ∧
      l.dispatchedVms ≤ s.dispatchLimit
  sent : (l.calls.map (·.vm)).reverse.Sublist done
  greedy : ∀ c before, (c :: before) <:+ l.calls → ∃ chosen ∈ c.vm.hosts, chosen.hid = c.hid ∧
    ∀ other ∈ c.vm.hosts, ∀ host, hosts other.hid = some host →
      (host.after s.percent before other.hid).testCapacity (c.vm.getRequirements s.percent) →
      sentTo before other.hid < s.hostDispatchLimit.toNat → other.priority ≤ chosen.priority

variable {hosts : Int32 → Option HostXml} {done : List (VmXml P)}

theorem Inv.accepts_iff {hid : Int32} (inv : Inv s hosts done l) :
    s.accepts l vm hid = true ↔ ∃ host, hosts hid = some host ∧
      (host.after s.percent l.calls hid).testCapacity (vm.getRequirements s.percent) = true ∧
      (sentTo l.calls hid : Int) < s.hostDispatchLimit.toInt32.toInt := by
  unfold Scheduler.accepts
  rw [inv.charged]
  cases hosts hid with
  | none => simp
  | some host =>
    simp only [Option.map_some, Bool.and_eq_true, decide_eq_true_eq, Int32.lt_iff_toInt_lt,
      inv.counts]
    constructor
    · rintro ⟨room, below⟩
      exact ⟨host, rfl, room, below⟩
    · rintro ⟨host', same, room, below⟩
      cases same
      exact ⟨room, below⟩

theorem room_of_testCapacity {host : HostXml} {needed : Resource → Int32}
    (room : host.testCapacity needed = true) (r : Resource) :
    needed r ≤ host.max r - host.usage r := by
  simp only [HostXml.testCapacity, Bool.and_eq_true, decide_eq_true_eq] at room
  cases r with
  | cpu => exact room.1.1
  | mem => exact room.1.2
  | disk => exact room.2

/-- A VM that no host was accepted for is passed over. -/
theorem Inv.pass (inv : Inv s hosts done l) : Inv s hosts (done ++ [vm]) l :=
  { inv with sent := inv.sent.trans (List.sublist_append_left done [vm]) }

/-- A VM is sent to the accepted host of the highest priority. -/
theorem Inv.send {chosen : Candidate P} (inv : Inv s hosts done l)
    (nonneg : ∀ vm' ∈ done ++ [vm], ∀ r, 0 ≤ vm'.getRequirements s.percent r)
    (turn : s.dispatchLimit ≤ 0 ∨ l.dispatchedVms < s.dispatchLimit)
    (candidate : chosen ∈ vm.hosts) (accepted : s.accepts l vm chosen.hid = true)
    (best : ∀ other ∈ vm.hosts, s.accepts l vm other.hid = true →
      other.priority ≤ chosen.priority) :
    Inv s hosts (done ++ [vm])
      (s.send (l.place chosen.hid (vm.getRequirements s.percent)) vm chosen.hid) := by
  obtain ⟨host, there, room, below⟩ := inv.accepts_iff.mp accepted
  have limit := toInt_toInt32_of_pos (Int.lt_of_le_of_lt (Int.natCast_nonneg _) below)
  have loads (r : Resource) : 0 ≤ load s.percent l.calls chosen.hid r := by
    refine load_nonneg r fun c member r => nonneg c.vm (List.mem_append_left _ ?_) r
    exact inv.sent.subset (List.mem_reverse.mpr (List.mem_map_of_mem member))
  constructor
  case charged =>
    intro hid
    rw [send_hosts, place_hosts, inv.charged, send_calls, place_calls]
    split
    · rename_i here
      subst here
      rw [Option.map_map]
      congr 1
      funext host
      rw [Function.comp_apply, after_cons_self rfl]
    · rename_i other
      congr 1
      funext host
      rw [after_cons_ne fun same => other same.symm]
  case counts =>
    intro hid
    rw [send_hostVms, place_hostVms, send_calls, place_calls, sentTo_cons]
    by_cases here : hid = chosen.hid
    · subst here
      have count := inv.counts chosen.hid
      rw [if_pos rfl, if_pos rfl, toInt_add_one (count ▸ Int.natCast_nonneg _) (count ▸ below),
        count, Int.natCast_add]
      rfl
    · rw [if_neg here, if_neg fun same => here (Eq.symm same)]
      exact inv.counts hid
  case capacity =>
    intro hid host' is r within
    have before := inv.capacity hid host' is r within
    rw [send_calls, place_calls, load_cons]
    by_cases here : chosen.hid = hid
    · subst here
      cases there.symm.trans is
      rw [if_pos rfl]
      have used := toInt_ofInt_add (loads r) before (host.max r).toInt_lt
      have total := add_le_of_le_sub (Int32.le_iff_toInt_le.mpr (used.trans_le before))
        (nonneg vm (List.mem_append_right _ List.mem_cons_self) r)
        (room_of_testCapacity room r)
      rw [used] at total
      rw [Int.add_left_comm, Int.add_comm]
      exact total
    · rw [if_neg here]
      exact before
  case hostLimit =>
    intro hid
    rw [send_calls, place_calls, sentTo_cons]
    by_cases here : chosen.hid = hid
    · subst here
      rw [if_pos rfl]
      omega
    · rw [if_neg here]
      exact inv.hostLimit hid
  case dispatched =>
    intro positive
    obtain ⟨counted, within⟩ := inv.dispatched positive
    have more : l.dispatchedVms < s.dispatchLimit :=
      turn.resolve_left fun zero => absurd positive (UInt32.not_lt.mpr zero)
    simp only [Scheduler.send, Loop.place, List.countP_cons]
    split
    · rename_i new
      rw [UInt32.le_iff_toNat_le, toNat_add_one more]
      exact ⟨congrArg (· + 1) counted, UInt32.lt_iff_toNat_lt.mp more⟩
    · exact ⟨counted, within⟩
  case sent =>
    rw [send_calls, place_calls, List.map_cons, List.reverse_cons]
    exact inv.sent.append (List.Sublist.refl [vm])
  case greedy =>
    intro c before suffix
    rcases List.suffix_cons_iff.mp suffix with same | earlier
    · cases same
      refine ⟨chosen, candidate, rfl, fun other member host' is room' below' => ?_⟩
      refine best other member (inv.accepts_iff.mpr ⟨host', is, room', ?_⟩)
      rw [limit]
      exact Int.ofNat_lt.mpr below'
    · exact inv.greedy c before earlier

/-- One turn of the loop. -/
theorem Inv.dispatchVm (inv : Inv s hosts done l)
    (sorted : vm.hosts.Pairwise fun a b => a.priority ≤ b.priority)
    (nonneg : ∀ vm' ∈ done ++ [vm], ∀ r, 0 ≤ vm'.getRequirements s.percent r)
    (turn : s.dispatchLimit ≤ 0 ∨ l.dispatchedVms < s.dispatchLimit) :
    Inv s hosts (done ++ [vm]) (s.dispatchVm l vm) := by
  rcases dispatchVm_cases (s := s) (l := l) sorted with same | ⟨_, candidate, accepted, best, same⟩
  · rw [same]
    exact inv.pass
  · rw [same]
    exact inv.send nonneg turn candidate accepted best

/-- The whole loop. -/
theorem Inv.dispatchVms {vms : List (VmXml P)} (inv : Inv s hosts done l)
    (sorted : ∀ vm ∈ vms, vm.hosts.Pairwise fun a b => a.priority ≤ b.priority)
    (nonneg : ∀ vm ∈ done ++ vms, ∀ r, 0 ≤ vm.getRequirements s.percent r) :
    Inv s hosts (done ++ vms) (s.dispatchVms l vms) := by
  induction vms generalizing done l with
  | nil => rwa [List.append_nil]
  | cons vm vms ih =>
    rw [List.append_cons] at nonneg ⊢
    unfold Scheduler.dispatchVms
    split
    · rename_i turn
      exact ih (inv.dispatchVm (sorted vm List.mem_cons_self)
          (fun _ member => nonneg _ (List.mem_append_left vms member)) turn)
        (fun vm' member => sorted vm' (List.mem_cons_of_mem vm member)) nonneg
    · have all := List.sublist_append_left done ([vm] ++ vms)
      rw [← List.append_assoc] at all
      exact { inv with sent := inv.sent.trans all }

/-- Before the first VM no call was made. -/
theorem Inv.start : Inv s hosts [] ⟨hosts, fun _ => 0, 0, []⟩ where
  charged hid := by
    simp only [after_nil, Option.map_id']
  counts _ := rfl
  capacity _ host _ r within := by
    rw [load, List.filter_nil, List.map_nil, List.sum_nil, Int.add_zero]
    exact Int32.le_iff_toInt_le.mp within
  hostLimit _ := Nat.zero_le _
  dispatched _ := ⟨rfl, UInt32.zero_le⟩
  sent := List.Sublist.refl []
  greedy _ _ suffix := by cases List.suffix_nil.mp suffix

/-- In one scheduling action no host gets over its capacity or its limit, and every VM is sent
at most once, to a matching host of the highest priority among those that take it. -/
theorem Scheduler.dispatch_lawful [Zero P] (pool : VmPool P)
    (nonneg : ∀ p ∈ pool.vms, ∀ r, 0 ≤ (p.scheduled s.sort).getRequirements s.percent r) :
    Lawful s hosts pool (s.dispatch hosts pool) := by
  have start : Inv s hosts [] ⟨hosts, fun _ => 0, 0, []⟩ := Inv.start
  have inv : Inv s hosts (pool.vms.map (·.scheduled s.sort)) _ :=
    start.dispatchVms
      (by
        intro vm member
        obtain ⟨p, -, rfl⟩ := List.mem_map.mp member
        exact scheduled_sorted)
      (by
        intro vm member
        obtain ⟨p, listed, rfl⟩ := List.mem_map.mp member
        exact nonneg p listed)
  have sent : ∀ c ∈ s.dispatch hosts pool, ∃ p ∈ pool.vms, c.vm = p.scheduled s.sort := by
    intro c member
    have listed := inv.sent.subset (List.mem_reverse.mpr (List.mem_map_of_mem member))
    obtain ⟨p, there, same⟩ := List.mem_map.mp listed
    exact ⟨p, there, same.symm⟩
  refine ⟨inv.capacity, inv.hostLimit, fun positive => ?_, ?_, fun c member => ?_, inv.greedy⟩
  · obtain ⟨counted, within⟩ := inv.dispatched positive
    exact counted ▸ UInt32.le_iff_toNat_le.mp within
  · have ids : ((pool.vms.map (·.scheduled s.sort)).map (·.oid)).Nodup := by
      rw [List.map_map, List.nodup_iff_pairwise_ne, List.pairwise_map]
      refine pool.ordered.imp fun less same => ?_
      rw [Function.comp_apply, Function.comp_apply, scheduled_oid, scheduled_oid] at same
      rw [same] at less
      exact Int32.lt_irrefl less
    have once := (inv.sent.map VmXml.oid).nodup ids
    rw [List.map_reverse, List.nodup_reverse, List.map_map] at once
    exact once
  · obtain ⟨p, there, same⟩ := sent c member
    obtain ⟨before, after, split⟩ := List.append_of_mem member
    obtain ⟨chosen, candidate, is, -⟩ := inv.greedy c after ⟨before, split.symm⟩
    rw [same] at candidate
    exact ⟨p, there, same, is ▸ mem_scheduled candidate⟩

end Loop

/-! ## Two pending VMs -/

def sortByInsertion : PrioritySort Int where
  run hosts := hosts.insertionSort fun a b => a.priority ≤ b.priority
  perm hosts := List.perm_insertionSort _ hosts
  sorted hosts := by
    have : Std.Total fun a b : Candidate Int => a.priority ≤ b.priority :=
      ⟨fun a b => le_total a.priority b.priority⟩
    have : IsTrans (Candidate Int) fun a b => a.priority ≤ b.priority :=
      ⟨fun _ _ _ ab bc => le_trans ab bc⟩
    exact List.pairwise_insertionSort _ hosts

/-- One VM an action, and a daemon that refuses every call. -/
def oneVmAtATime : Scheduler Int where
  dispatchLimit := 1
  hostDispatchLimit := 5
  percent cpu := .ofInt (cpu * 100).floor
  sort := sortByInsertion
  answer _ _ := false

def newVm (oid : Int32) : PendingVm Int where
  vm := ⟨oid, -1, 0, 512, 1, []⟩
  matching := [3]
  total := [0]
  fresh := rfl

def twoVms : VmPool Int where
  vms := [newVm 1, newVm 2]
  ordered := by decide

def emptyHost : HostXml := ⟨fun _ => 0, fun _ => 2000000, 0⟩

theorem twoVms_nonneg (p : PendingVm Int) (member : p ∈ twoVms.vms) (r : Resource) :
    0 ≤ (p.scheduled oneVmAtATime.sort).getRequirements oneVmAtATime.percent r := by
  rcases List.mem_pair.mp member with rfl | rfl
  · cases r <;> decide +kernel
  · cases r <;> decide +kernel

theorem dispatch_lawful_two_vms :
    (∀ p ∈ twoVms.vms, ∀ r,
      0 ≤ (p.scheduled oneVmAtATime.sort).getRequirements oneVmAtATime.percent r) ∧
    Lawful oneVmAtATime (fun _ => some emptyHost) twoVms
      (oneVmAtATime.dispatch (fun _ => some emptyHost) twoVms) :=
  ⟨twoVms_nonneg, Scheduler.dispatch_lawful twoVms twoVms_nonneg⟩

/-- The limit on new VMs does not count the calls that fail. -/
theorem refused_calls_exceed_limit :
    ¬ ∀ (s : Scheduler Int) (hosts : Int32 → Option HostXml) (pool : VmPool Int),
        (∀ p ∈ pool.vms, ∀ r, 0 ≤ (p.scheduled s.sort).getRequirements s.percent r) →
        Lawful s hosts pool (s.dispatch hosts pool) ∧
          (0 < s.dispatchLimit →
            (s.dispatch hosts pool).countP (fun c => !c.vm.isResched) ≤
              s.dispatchLimit.toNat) := by
  intro always
  have few := (always oneVmAtATime (fun _ => some emptyHost) twoVms twoVms_nonneg).2 (by decide)
  exact absurd few (by decide +kernel)

end Dispatch

end Ezilla
