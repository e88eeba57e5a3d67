import Ezilla.Host.HostUsage
import Ezilla.Lib.FloatTruncation
import Ezilla.Sched.Dispatch

/-!
# The arithmetic of capacities

The requirements of a VM, the counters of a host and the test of its free capacity are computed in
32-bit integers, and the percent of CPU from a float. A template is accepted with any positive
MEMORY and CPU, so the products by 1024 and by 100 and the sums over the VMs of a host may leave
the range, and the percent may be one less than that of the CPU in the template.

* `Capacity`: what an accepted template asks for;
* `CapacityRuns.step`: VMs are added to a host, resized there and removed;
* `RequirementsExact`, `TestExact`: what the daemon and the scheduler are to compute;
* `requirements_exact_iff`: when the requirements are exact;
* `capacity_exact`: when they are, and that the tests are exact in every run that stays in range.
-/

namespace Ezilla

open VirtualMachineResize Transition

/-! ## Templates that are accepted -/

/-- A float that is printed keeps more than half of its value. -/
theorem half_lt_printed {f : ℚ} (positive : 0 < f) : f / 2 < printed f := by
  have unit : (0 : ℚ) < 10 ^ (Int.log 10 |f| - (6 - 1)) := zpow_pos (by decide) _
  have least := Int.zpow_log_le_self (b := 10) (by decide) (abs_pos.mpr positive.ne')
  have fine : (10 : ℚ) ^ (Int.log 10 |f| - (6 - 1)) ≤ f / 10 := by
    rw [Nat.cast_ofNat, abs_of_pos positive] at least
    rw [abs_of_pos positive, show Int.log 10 f - (6 - 1) = Int.log 10 f - 1 - 4 by ring,
      zpow_sub₀ (by decide), zpow_sub_one₀ (by decide)]
    have power : (0 : ℚ) < 10 ^ Int.log 10 f := zpow_pos (by decide) _
    norm_num
    linarith
  have close := (abs_le.mp (abs_roundHalfEven_sub_le
    (f / 10 ^ (Int.log 10 |f| - (6 - 1))))).1
  have scaled := mul_le_mul_of_nonneg_right close unit.le
  rw [sub_mul, div_mul_cancel₀ _ unit.ne'] at scaled
  unfold printed Binary32.significant
  linarith

/-- A positive float is read back as a positive one. -/
theorem nearest_printed_pos {c : ℚ} (positive : 0 < Binary32.nearest c) :
    0 < Binary32.nearest (printed (Binary32.nearest c)) := by
  have half := half_lt_printed positive
  refine lt_of_le_of_ne (Binary32.nearest_nonneg (by linarith)) ?_
  intro zero
  have small := Binary32.abs_le_of_nearest_eq_zero zero.symm
  -- no positive float is below the least one
  have least : (2 : ℚ) ^ (-149 : Int) ≤ Binary32.nearest c := by
    have pos := Binary32.ulp_pos c
    have whole : 0 < roundHalfEven (c / Binary32.ulp c) := by
      rw [Binary32.nearest] at positive
      exact_mod_cast (mul_pos_iff_of_pos_right pos).mp positive
    have spacing : (2 : ℚ) ^ (-149 : Int) ≤ Binary32.ulp c :=
      zpow_le_zpow_right₀ one_le_two (le_max_right _ _)
    have one : (1 : ℚ) ≤ roundHalfEven (c / Binary32.ulp c) := by exact_mod_cast whole
    exact spacing.trans (le_mul_of_one_le_left pos.le one)
  rw [abs_of_pos (by linarith)] at small
  have halves : (2 : ℚ) ^ (-149 : Int) = 2 * 2 ^ (-150 : Int) := by norm_num
  linarith

/-- The MEMORY and the CPU that a template asks for. The CPU is positive as a float. -/
structure Capacity where
  memory : Int32
  cpu : ℚ
  memory_pos : 0 < memory
  cpu_pos : 0 < Binary32.nearest cpu

/-- The CPU that is read from the template of the VM, where it was printed. -/
def Capacity.ocpu (vm : Capacity) : ℚ := Binary32.nearest (printed (Binary32.nearest vm.cpu))

/-- `VirtualMachine::insert` for MEMORY and CPU, which `get` may fail to read as numbers. -/
def insertCapacity (memory : Option Int32) (cpu : Option ℚ) : Except String Capacity :=
  match memory, cpu with
  | none, _ => .error "MEMORY attribute must be a positive integer value."
  | some memory, cpu =>
    if memory_pos : 0 < memory then
      match cpu with
      | none => .error "CPU attribute must be a positive float or integer value."
      | some cpu =>
        if cpu_pos : 0 < Binary32.nearest cpu then .ok ⟨memory, cpu, memory_pos, cpu_pos⟩
        else .error "CPU attribute must be a positive float or integer value."
    else .error "MEMORY attribute must be a positive integer value."

theorem insertCapacity_self (vm : Capacity) :
    insertCapacity (some vm.memory) (some vm.cpu) = .ok vm := by
  simp only [insertCapacity, vm.memory_pos, vm.cpu_pos, dif_pos]

/-! ## Requirements -/

namespace Capacity

/-- `VirtualMachine::get_requirements`, for a template with MEMORY and CPU. -/
def getRequirements (vm : Capacity) : Resource → Int32
  | .cpu => percent vm.ocpu
  | .mem => vm.memory * 1024
  | .disk => 0

/-- The requirements in percent and in KB, as integers. -/
def requirements (vm : Capacity) : Resource → Int
  | .cpu => ⌊vm.cpu * 100⌋
  | .mem => vm.memory.toInt * 1024
  | .disk => 0

/-- The memory is below 2 TB, the percent of CPU is an `int`, and the product by 100 lies where
its float has this percent. -/
structure Fits (vm : Capacity) : Prop where
  memory : vm.memory.toInt < 2 ^ 21
  cpu : ⌊vm.cpu * 100⌋ < 2 ^ 31
  percent : Binary32.Reads (vm.ocpu * 100) ⌊vm.cpu * 100⌋

end Capacity

/-- The daemon reads the requirements off as they are, and the scheduler reads the same. -/
structure RequirementsExact (vm : Capacity) : Prop where
  daemon : ∀ r, (vm.getRequirements r).toInt = vm.requirements r
  scheduler : ∀ {P : Type} (x : Dispatch.VmXml P), x.memory = vm.memory → x.cpu = vm.ocpu →
    ∀ r, (x.getRequirements percent r).toInt = vm.requirements r

/-! ## Hosts -/

namespace HostShare

/-- What the VMs of a host use of a resource. -/
def usage (share : HostShare) : Resource → Int32
  | .cpu => share.cpuUsage
  | .mem => share.memUsage
  | .disk => share.diskUsage

/-- What a host has of a resource. -/
def capacity (share : HostShare) : Resource → Int32
  | .cpu => share.maxCpu
  | .mem => share.maxMem
  | .disk => share.maxDisk

variable {share : HostShare} {needed : Resource → Int32} {r : Resource}

theorem usage_add : (share.add (needed .cpu) (needed .mem) (needed .disk)).usage r =
    share.usage r + needed r := by
  cases r <;> rfl

theorem usage_update : (share.update (needed .cpu) (needed .mem) (needed .disk)).usage r =
    share.usage r + needed r := by
  cases r <;> rfl

theorem usage_del : (share.del (needed .cpu) (needed .mem) (needed .disk)).usage r =
    share.usage r - needed r := by
  cases r <;> rfl

/-- The share as the scheduler reads it, where `reserve` takes the part of the hypervisor off the
memory. -/
def hostXml (share : HostShare) (reserve : Int32 → Int32) : Dispatch.HostXml where
  usage := share.usage
  max
    | .mem => reserve share.maxMem
    | r => share.capacity r
  runningVms := share.runningVms

end HostShare

namespace CapacityRuns

/-- A host: its share, and the VMs that it holds. -/
structure State where
  share : HostShare
  vms : List Capacity

/-- What happens to the host. A VM that is resized or removed stands between the others. -/
inductive Label where
  | add (vm : Capacity)
  | resize (before : List Capacity) (vm : Capacity) (after : List Capacity) (new : Capacity)
  | remove (before : List Capacity) (vm : Capacity) (after : List Capacity)

/-- The difference in CPU that a resize computes. -/
def dcpu (vm new : Capacity) : ℚ := Binary32.nearest (Binary32.nearest new.cpu - vm.ocpu)

/-- What `VirtualMachineResize::request_execute` adds to the host. -/
def growth (vm new : Capacity) : Resource → Int32
  | .cpu => percent (dcpu vm new)
  | .mem => (new.memory - vm.memory) * 1024
  | .disk => 0

/-- A host without VMs. -/
def Init (s : State) : Prop := s.vms = [] ∧ ∀ r, s.share.usage r = 0

def step (s : State) (l : Label) (s' : State) : Prop :=
  match l with
  | .add vm =>
    let needed := vm.getRequirements
    s' = ⟨s.share.add (needed .cpu) (needed .mem) (needed .disk), vm :: s.vms⟩
  | .resize before vm after new =>
    let needed := growth vm new
    s.vms = before ++ vm :: after ∧
      s' = ⟨s.share.update (needed .cpu) (needed .mem) (needed .disk), before ++ new :: after⟩
  | .remove before vm after =>
    let needed := vm.getRequirements
    s.vms = before ++ vm :: after ∧
      s' = ⟨s.share.del (needed .cpu) (needed .mem) (needed .disk), before ++ after⟩

/-- What the VMs require together. -/
def load (vms : List Capacity) (r : Resource) : Int :=
  (vms.map fun vm => vm.requirements r).sum

/-- The host has no less than the least `int` free, also without the part of the hypervisor. -/
def Room (reserve : Int32 → Int32) (s : State) : Prop :=
  ∀ r, -2 ^ 31 ≤ (s.share.capacity r).toInt - load s.vms r ∧
    -2 ^ 31 ≤ ((s.share.hostXml reserve).max r).toInt - load s.vms r

/-- The steps that stay in range, and where the difference in CPU is read as the difference of the
percents. -/
def Fits (s : State) : Label → Prop
  | .add vm => vm.Fits ∧ ∀ r, load (vm :: s.vms) r < 2 ^ 31
  | .resize before vm after new => new.Fits ∧
      Binary32.Reads (dcpu vm new * 100) (new.requirements .cpu - vm.requirements .cpu) ∧
      ∀ r, load (before ++ new :: after) r < 2 ^ 31
  | .remove _ _ _ => True

/-- The tests of the daemon and of the scheduler tell whether the free capacity covers what the VM
requires. -/
structure TestExact (reserve : Int32 → Int32) (s : State) (vm : Capacity) : Prop where
  daemon : s.share.test (vm.getRequirements .cpu) (vm.getRequirements .mem)
      (vm.getRequirements .disk) = true ↔
    ∀ r, load s.vms r + vm.requirements r ≤ (s.share.capacity r).toInt
  scheduler : ∀ {P : Type} (x : Dispatch.VmXml P), x.memory = vm.memory → x.cpu = vm.ocpu →
    ((s.share.hostXml reserve).testCapacity (x.getRequirements percent) = true ↔
      ∀ r, load s.vms r + vm.requirements r ≤ ((s.share.hostXml reserve).max r).toInt)

end CapacityRuns

/-! ## Exact requirements -/

/-- The percent is the integer that the product by 100 is read as, where that is an `int`. -/
theorem toInt_percent_eq_iff {f : ℚ} {n : Int} (inside : -2 ^ 31 < n) :
    (percent f).toInt = n ↔ n < 2 ^ 31 ∧ Binary32.Reads (f * 100) n := by
  rw [percent, toInt_toInt32_eq, ← Binary32.truncate_nearest_eq_iff]
  unfold InRange
  split_ifs <;> omega

section Requirements

variable {vm : Capacity}

/-- The scheduler computes what the daemon computes. -/
theorem getRequirements_scheduler {P : Type} {x : Dispatch.VmXml P}
    (memory : x.memory = vm.memory) (cpu : x.cpu = vm.ocpu) :
    x.getRequirements percent = vm.getRequirements := by
  have set : ¬ (x.memory = 0 ∨ x.cpu = 0) := by
    rw [memory, cpu]
    intro none
    rcases none with none | none
    · exact absurd (none ▸ vm.memory_pos) (by decide)
    · exact absurd none (nearest_printed_pos vm.cpu_pos).ne'
  funext r
  cases r with
  | cpu => exact (if_neg set).trans (by rw [cpu]; rfl)
  | mem => exact (if_neg set).trans (by rw [memory]; rfl)
  | disk => rfl

theorem Capacity.cpu_nonneg (vm : Capacity) : 0 ≤ vm.cpu := by
  by_contra negative
  exact absurd vm.cpu_pos (not_lt.mpr (Binary32.nearest_nonpos (not_le.mp negative).le))

theorem requirements_nonneg (vm : Capacity) (r : Resource) : 0 ≤ vm.requirements r := by
  cases r with
  | cpu => exact Int.floor_nonneg.mpr (mul_nonneg vm.cpu_nonneg (by decide))
  | mem =>
    have positive := Int32.lt_iff_toInt_lt.mp vm.memory_pos
    rw [Int32.toInt_zero] at positive
    exact Int.mul_nonneg positive.le (by decide)
  | disk => exact Int.le_refl 0

/-- The percent that the daemon computes. -/
theorem toInt_percent_ocpu_iff : (vm.getRequirements .cpu).toInt = vm.requirements .cpu ↔
    vm.requirements .cpu < 2 ^ 31 ∧ Binary32.Reads (vm.ocpu * 100) (vm.requirements .cpu) := by
  have nonneg := requirements_nonneg vm .cpu
  exact toInt_percent_eq_iff (by omega)

theorem inRange_requirements (fits : vm.Fits) (r : Resource) : InRange (vm.requirements r) := by
  have nonneg := requirements_nonneg vm r
  refine ⟨by omega, ?_⟩
  cases r with
  | cpu => exact fits.cpu
  | mem =>
    have below := fits.memory
    show vm.memory.toInt * 1024 < 2 ^ 31
    omega
  | disk =>
    show (0 : Int) < 2 ^ 31
    omega

theorem toInt_getRequirements (fits : vm.Fits) (r : Resource) :
    (vm.getRequirements r).toInt = vm.requirements r := by
  cases r with
  | cpu => exact toInt_percent_ocpu_iff.mpr ⟨fits.cpu, fits.percent⟩
  | mem => exact toInt_mul_of_inRange rfl rfl (inRange_requirements fits .mem)
  | disk => rfl

/-- The requirements are exact if they have an `int` and the float has the percent. -/
theorem requirements_exact_iff : RequirementsExact vm ↔ vm.Fits := by
  constructor
  · intro exact_
    obtain ⟨cpu, percent⟩ := toInt_percent_ocpu_iff.mp (exact_.daemon .cpu)
    refine ⟨?_, cpu, percent⟩
    have range : InRange (vm.requirements .mem) := exact_.daemon .mem ▸ inRange_toInt _
    have below : vm.memory.toInt * 1024 < 2 ^ 31 := range.2
    omega
  · intro fits
    refine ⟨toInt_getRequirements fits, fun x memory cpu r => ?_⟩
    rw [getRequirements_scheduler memory cpu]
    exact toInt_getRequirements fits r

/-- A CPU of 2.1 is charged as 209 percent. -/
example : (Capacity.getRequirements ⟨1024, 21 / 10, by decide, by decide +kernel⟩ .cpu).toInt =
    209 := by
  decide +kernel

end Requirements

/-! ## Exact tests -/

namespace CapacityRuns

variable {s s' : State} {l : Label} {vm : Capacity}
  {vms before after : List Capacity}

theorem load_cons (r : Resource) : load (vm :: vms) r = vm.requirements r + load vms r :=
  List.sum_cons

theorem load_nonneg (vms : List Capacity) (r : Resource) : 0 ≤ load vms r := by
  induction vms with
  | nil => exact Int.le_refl 0
  | cons vm vms ih =>
    have nonneg := requirements_nonneg vm r
    rw [load_cons]
    omega

theorem load_append (r : Resource) :
    load (before ++ after) r = load before r + load after r := by
  unfold load
  rw [List.map_append, List.sum_append]

/-- The counters of the host are the sums over its VMs, whose values stay in range. -/
structure Accounted (s : State) : Prop where
  fits : ∀ vm ∈ s.vms, vm.Fits
  usage : ∀ r, (s.share.usage r).toInt = load s.vms r

theorem Accounted.inRange (accounted : Accounted s) (r : Resource) :
    InRange (load s.vms r) := by
  rw [← accounted.usage r]
  exact inRange_toInt _

theorem inRange_load {r : Resource} (below : load vms r < 2 ^ 31) : InRange (load vms r) := by
  have nonneg := load_nonneg vms r
  exact ⟨by omega, below⟩

/-- What a resize adds is what the requirements grow by. -/
theorem toInt_growth {new : Capacity} (old_fits : vm.Fits) (fits : new.Fits)
    (percent : Binary32.Reads (dcpu vm new * 100)
      (new.requirements .cpu - vm.requirements .cpu)) (r : Resource) :
    (growth vm new r).toInt = new.requirements r - vm.requirements r := by
  have difference : ∀ r, -2 ^ 31 < new.requirements r - vm.requirements r ∧
      new.requirements r - vm.requirements r < 2 ^ 31 := by
    intro r
    have nonneg := requirements_nonneg new r
    have old_nonneg := requirements_nonneg vm r
    have above := (inRange_requirements fits r).2
    have old_above := (inRange_requirements old_fits r).2
    exact ⟨by omega, by omega⟩
  cases r with
  | cpu => exact (toInt_percent_eq_iff (difference .cpu).1).mpr ⟨(difference .cpu).2, percent⟩
  | mem =>
    have total : new.requirements .mem - vm.requirements .mem =
        (new.memory.toInt - vm.memory.toInt) * 1024 :=
      (Int.sub_mul _ _ _).symm
    obtain ⟨low, high⟩ := difference .mem
    rw [total] at low high ⊢
    exact toInt_mul_of_inRange (toInt_sub_of_inRange rfl rfl ⟨by omega, by omega⟩) rfl
      ⟨low.le, high⟩
  | disk => rfl

theorem accounted_init (start : Init s) : Accounted s := by
  obtain ⟨none, zero⟩ := start
  constructor
  · rw [none]
    exact fun vm member => absurd member List.not_mem_nil
  · intro r
    rw [none, zero r]
    rfl

/-- A step that stays in range keeps the counters. -/
theorem accounted_step (accounted : Accounted s) (fits : Fits s l) (taken : step s l s') :
    Accounted s' := by
  cases l with
  | add vm =>
    obtain ⟨vm_fits, below⟩ := fits
    obtain rfl : s' = _ := taken
    refine ⟨fun vm' member => ?_, fun r => ?_⟩
    · rcases List.mem_cons.mp member with rfl | member
      · exact vm_fits
      · exact accounted.fits vm' member
    · have range := inRange_load (below r)
      rw [load_cons, Int.add_comm] at range ⊢
      rw [HostShare.usage_add]
      exact toInt_add_of_inRange (accounted.usage r) (toInt_getRequirements vm_fits r) range
  | resize before vm after new =>
    obtain ⟨new_fits, percent, below⟩ := fits
    obtain ⟨found, rfl⟩ := taken
    have old_fits := accounted.fits
    rw [found] at old_fits
    refine ⟨fun vm' member => ?_, fun r => ?_⟩
    · rcases List.mem_append.mp member with member | member
      · exact old_fits vm' (List.mem_append_left _ member)
      · rcases List.mem_cons.mp member with rfl | member
        · exact new_fits
        · exact old_fits vm' (List.mem_append_right _ (List.mem_cons_of_mem _ member))
    · have grown : load (before ++ new :: after) r =
          load s.vms r + (new.requirements r - vm.requirements r) := by
        rw [found, load_append, load_append, load_cons, load_cons]
        omega
      have range := inRange_load (below r)
      rw [grown] at range ⊢
      have vm_fits := old_fits vm (List.mem_append_right _ List.mem_cons_self)
      rw [HostShare.usage_update]
      exact toInt_add_of_inRange (accounted.usage r) (toInt_growth vm_fits new_fits percent r)
        range
  | remove before vm after =>
    obtain ⟨found, rfl⟩ := taken
    have old_fits := accounted.fits
    rw [found] at old_fits
    have vm_fits := old_fits vm (List.mem_append_right _ List.mem_cons_self)
    refine ⟨fun vm' member => ?_, fun r => ?_⟩
    · rcases List.mem_append.mp member with member | member
      · exact old_fits vm' (List.mem_append_left _ member)
      · exact old_fits vm' (List.mem_append_right _ (List.mem_cons_of_mem _ member))
    · have less : load (before ++ after) r = load s.vms r - vm.requirements r := by
        rw [found, load_append, load_append, load_cons]
        omega
      have above := (accounted.inRange r).2
      have nonneg := requirements_nonneg vm r
      have range := @inRange_load (before ++ after) r (by omega)
      rw [less] at range ⊢
      rw [HostShare.usage_del]
      exact toInt_sub_of_inRange (accounted.usage r) (toInt_getRequirements vm_fits r) range

/-- A comparison with the free capacity is exact where that is an `int`. -/
theorem le_sub_iff {needed max usage : Int32} {n total : Int} (need : needed.toInt = n)
    (used : usage.toInt = total) (nonneg : 0 ≤ total) (room : -2 ^ 31 ≤ max.toInt - total) :
    needed ≤ max - usage ↔ total + n ≤ max.toInt := by
  have high := Int32.toInt_lt max
  have free : (max - usage).toInt = max.toInt - total :=
    toInt_sub_of_inRange rfl used ⟨room, by omega⟩
  rw [Int32.le_iff_toInt_le, need, free]
  omega

theorem forall_resource {p : Resource → Prop} : (∀ r, p r) ↔ (p .cpu ∧ p .mem) ∧ p .disk := by
  constructor
  · intro all
    exact ⟨⟨all .cpu, all .mem⟩, all .disk⟩
  · intro ⟨⟨cpu, mem⟩, disk⟩ r
    cases r with
    | cpu => exact cpu
    | mem => exact mem
    | disk => exact disk

theorem testExact (accounted : Accounted s) {reserve : Int32 → Int32} (room : Room reserve s)
    (fits : vm.Fits) : TestExact reserve s vm := by
  have compare := fun r max => @le_sub_iff _ max _ _ _ (toInt_getRequirements fits r)
    (accounted.usage r) (load_nonneg s.vms r)
  refine ⟨?_, fun x memory cpu => ?_⟩
  · unfold HostShare.test
    rw [Bool.and_eq_true, Bool.and_eq_true, decide_eq_true_iff, decide_eq_true_iff,
      decide_eq_true_iff, forall_resource]
    exact and_congr (and_congr (compare .cpu _ (room .cpu).1) (compare .mem _ (room .mem).1))
      (compare .disk _ (room .disk).1)
  · rw [getRequirements_scheduler memory cpu]
    have usage : (s.share.hostXml reserve).usage = s.share.usage := rfl
    unfold Dispatch.HostXml.testCapacity
    rw [Bool.and_eq_true, Bool.and_eq_true, decide_eq_true_iff, decide_eq_true_iff,
      decide_eq_true_iff, usage, compare .cpu _ (room .cpu).2, compare .mem _ (room .mem).2,
      compare .disk _ (room .disk).2, forall_resource]

/-- The requirements of an accepted template are exact if and only if they are in range and the
float has the percent. In every run that stays in range, and whose floats have the percents, the
tests of the daemon and of the scheduler are exact. -/
theorem capacity_exact (reserve : Int32 → Int32) :
    (∀ memory cpu vm, insertCapacity memory cpu = .ok vm → (RequirementsExact vm ↔ vm.Fits)) ∧
      ∀ s, Reachable Init (Guarded Fits step) s → Room reserve s →
        ∀ vm : Capacity, vm.Fits → TestExact reserve s vm := by
  refine ⟨fun memory cpu vm _ => requirements_exact_iff, fun s reached room vm fits => ?_⟩
  have accounted : Accounted s := by
    apply reached.invariant fun s start => accounted_init start
    intro s l s' accounted taken
    exact accounted_step accounted taken.1 taken.2
  exact testExact accounted room fits

/-- A host without memory has room for a VM of 2 TB. -/
theorem two_terabytes_fit : ∃ vm, insertCapacity (some 2097152) (some 1) = .ok vm ∧
    vm.requirements .mem = 2147483648 ∧ (vm.getRequirements .mem).toInt = -2147483648 ∧
    HostShare.test ⟨0, 0, 0, 0, 0, 100, 0⟩ (vm.getRequirements .cpu) (vm.getRequirements .mem)
      (vm.getRequirements .disk) = true := by
  let vm : Capacity := ⟨2097152, 1, by decide, by decide +kernel⟩
  refine ⟨vm, insertCapacity_self vm, ?_, ?_, ?_⟩
  all_goals decide +kernel

/-- Two VMs of one CPU and 1 GB on a host with room for one. -/
theorem capacity_exact_full :
    let vm : Capacity := ⟨1024, 1, by decide, by decide +kernel⟩
    let share : HostShare := ⟨0, 0, 0, 0, 1048576, 100, 0⟩
    let s : State := ⟨share.add (vm.getRequirements .cpu) (vm.getRequirements .mem) 0, [vm]⟩
    (RequirementsExact vm ↔ vm.Fits) ∧ TestExact id s vm := by
  intro vm share s
  have fits : vm.Fits := ⟨by decide, by decide +kernel, by decide +kernel⟩
  obtain ⟨required, tested⟩ := capacity_exact id
  refine ⟨required _ _ vm (insertCapacity_self vm), tested s ?_ ?_ vm fits⟩
  · have taken : step ⟨share, []⟩ (.add vm) s := rfl
    have start : Init ⟨share, []⟩ := by
      refine ⟨rfl, fun r => ?_⟩
      cases r <;> rfl
    have guarded : Fits ⟨share, []⟩ (.add vm) := by
      refine ⟨fits, fun r => ?_⟩
      cases r <;> decide +kernel
    exact .step (.init start) ⟨guarded, taken⟩
  · intro r
    cases r <;> decide +kernel

end CapacityRuns

end Ezilla
