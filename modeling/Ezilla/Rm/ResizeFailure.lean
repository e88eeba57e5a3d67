import Ezilla.Rm.VirtualMachineResize
import Ezilla.Um.QuotaTexts

/-!
# What a failed resize leaves behind

The charge of a resize and the `quota_rollback` that should undo it are compared on
the counters of the owner. The rollback works on the requester, and it subtracts a
whole VM, so it restores the owner's counters only where they do not move at all.

* `VmQuotas.sameUsed_rollback_iff`: charge and rollback of one pool;
* `percent_add_iff`: charge and rollback of the host's CPU;
* `requestExecute_failure_unchanged_iff`: the whole request.

The counters are texts with two decimals, so a small delta does not move them either.
-/

namespace Ezilla

/-! ## Charging a user or group -/

namespace VmQuotas

variable {pool : VmQuotas} {id id' : Nat} {dmemory : Int32} {dcpu : ℚ} {dquotas : Quota .vm}
  {m : Metric} {q : Quota .vm}

/-- The user or group is one that a request charges: not oneadmin, and in the pool. -/
def Charged (pool : VmQuotas) (id : Nat) : Prop := id ≠ 0 ∧ (pool id).isSome

/-- The increments fit in the limits of the user or group, if it is charged at all. -/
def Admits (pool : VmQuotas) (id : Nat) (dmemory : Int32) (dcpu : ℚ) (dquotas : Quota .vm) :
    Prop :=
  id ≠ 0 → ∀ q ∈ pool id, q.Fits dquotas (charge dmemory dcpu) "" .float

/-- The counters of a user or group do not change from one pool to the other. -/
def SameUsed (pool pool' : VmQuotas) (id : Nat) : Prop :=
  ∀ m ∈ QuotaKind.vm.metrics, pool'.used id m = pool.used id m

/-- The increments do not show in the counters. -/
def Unseen (q : Quota .vm) (dmemory : Int32) (dcpu : ℚ) : Prop :=
  ∀ m ∈ QuotaKind.vm.metrics, ∀ r ∈ charge dmemory dcpu m,
    QuotaArithmetic.float.add (q.used "" m) r = q.used "" m

/-- The counters come back when the increments and a VM are taken away from what the increments
have made of them. -/
def ComesBack (q : Quota .vm) (dmemory : Int32) (dcpu : ℚ) : Prop :=
  ∀ m ∈ QuotaKind.vm.metrics, ∀ r ∈ refund dmemory dcpu m,
    QuotaArithmetic.float.add (match charge dmemory dcpu m with
      | none => q.used "" m
      | some n => QuotaArithmetic.float.add (q.used "" m) n) (-r) = q.used "" m

theorem SameUsed.refl : SameUsed pool pool id := fun _ _ => rfl

theorem not_charged_iff : ¬ Charged pool id ↔ id = 0 ∨ pool id = none := by
  unfold Charged
  rw [not_and_or, not_not, Option.not_isSome_iff_eq_none]

theorem quotaUpdate_of_not_charged (free : ¬ Charged pool id) :
    pool.quotaUpdate id dmemory dcpu dquotas = (.ok (), pool) := by
  rcases not_charged_iff.mp free with zero | absent
  · rw [quotaUpdate, if_pos zero]
  · unfold quotaUpdate
    rw [absent]
    split_ifs <;> rfl

theorem quotaRollback_of_not_charged (free : ¬ Charged pool id) :
    pool.quotaRollback (some id) dmemory dcpu = pool := by
  rcases not_charged_iff.mp free with zero | absent
  · simp only [quotaRollback, if_pos zero]
  · simp only [quotaRollback, absent]
    split_ifs <;> rfl

/-- A refused charge changes no counter. -/
theorem quotaUpdate_of_not_admits (refused : ¬ pool.Admits id dmemory dcpu dquotas) :
    ∃ err pool', pool.quotaUpdate id dmemory dcpu dquotas = (.error err, pool') ∧
      pool.SameUsed pool' id := by
  unfold Admits at refused
  push Not at refused
  obtain ⟨nonzero, q, found, exceeds⟩ := refused
  rw [Option.mem_def] at found
  obtain ⟨err, run⟩ := Quota.checkQuota_of_not_fits exceeds
  refine ⟨err, Function.update pool id (some (if Quota.ValidId .vm "" then
    q.put "" (q.entry "") else q)), ?_, fun m _ => ?_⟩
  · simp only [quotaUpdate, if_neg nonzero, found, run]
  · simp only [used, Function.update_self, found, Quota.used]
    split_ifs
    · rw [Quota.entry_put_self]
    · rfl

/-- The quota of a charged user or group after an admitted charge. -/
def chargedQuota (q : Quota .vm) (dmemory : Int32) (dcpu : ℚ) : Quota .vm :=
  q.put "" ((q.entry "").addToQuota QuotaKind.vm.metrics (charge dmemory dcpu) .float)

theorem quotaUpdate_of_admits (nonzero : id ≠ 0) (found : pool id = some q)
    (admitted : pool.Admits id dmemory dcpu dquotas) :
    pool.quotaUpdate id dmemory dcpu dquotas =
      (.ok (), Function.update pool id (some (chargedQuota q dmemory dcpu))) := by
  have fits := admitted nonzero q found
  simp only [quotaUpdate, if_neg nonzero, found, Quota.checkQuota_of_fits fits, chargedQuota]

/-- An admitted charge always goes through. -/
theorem quotaUpdate_ok (admitted : pool.Admits id dmemory dcpu dquotas) :
    ∃ pool', pool.quotaUpdate id dmemory dcpu dquotas = (.ok (), pool') := by
  by_cases charged : Charged pool id
  · obtain ⟨q, found⟩ := Option.isSome_iff_exists.mp charged.2
    exact ⟨_, quotaUpdate_of_admits charged.1 found admitted⟩
  · exact ⟨pool, quotaUpdate_of_not_charged charged⟩

theorem used_chargedQuota (mem : m ∈ QuotaKind.vm.metrics) :
    (chargedQuota q dmemory dcpu).used "" m =
      match charge dmemory dcpu m with
      | none => q.used "" m
      | some n => QuotaArithmetic.float.add (q.used "" m) n := by
  rw [Quota.used, chargedQuota, Quota.entry_put, if_pos rfl, QuotaEntry.addToQuota]
  dsimp only
  rw [if_pos mem]
  rfl

/-- The counters after the charge were only restored if it does not show in them. -/
theorem chargedQuota_same_iff :
    (∀ m ∈ QuotaKind.vm.metrics, (chargedQuota q dmemory dcpu).used "" m = q.used "" m) ↔
      Unseen q dmemory dcpu := by
  refine forall₂_congr fun m mem => ?_
  rw [used_chargedQuota mem]
  cases charge dmemory dcpu m <;> simp

/-- What a rollback after the charge leaves in the counters. -/
theorem used_rollback (mem : m ∈ QuotaKind.vm.metrics) {r : ℚ}
    (asked : refund dmemory dcpu m = some r) :
    ((chargedQuota q dmemory dcpu).delQuota "" (refund dmemory dcpu) .float).used "" m =
      QuotaArithmetic.float.add ((chargedQuota q dmemory dcpu).used "" m) (-r) := by
  have found : (chargedQuota q dmemory dcpu).attributes.lookup (Quota.key .vm "") =
      some ((chargedQuota q dmemory dcpu).entry "") := by
    rw [chargedQuota, Quota.lookup_put, Quota.entry_put, if_pos rfl]
  exact Quota.used_delQuota_of_asked (Or.inl rfl) mem found asked

theorem rollback_same_iff :
    (∀ m ∈ QuotaKind.vm.metrics, ((chargedQuota q dmemory dcpu).delQuota ""
        (refund dmemory dcpu) .float).used "" m = q.used "" m) ↔ ComesBack q dmemory dcpu := by
  refine forall₂_congr fun m mem => ?_
  obtain ⟨r, asked⟩ : ∃ r, refund dmemory dcpu m = some r := by
    cases m <;> first | exact ⟨_, rfl⟩ | exact absurd mem (by decide)
  rw [used_rollback mem asked, used_chargedQuota mem, asked]
  simp

/-- A rollback leaves every other user or group alone. -/
theorem quotaRollback_apply_of_ne {requester : Nat} (other : requester ≠ id) :
    pool.quotaRollback (some requester) dmemory dcpu id = pool id := by
  simp only [quotaRollback]
  split_ifs
  · rfl
  · cases pool requester with
    | none => rfl
    | some q => exact Function.update_of_ne (Ne.symm other) _ _

theorem used_congr {pool' : VmQuotas} (same : pool' id = pool id) :
    pool.SameUsed pool' id :=
  fun m _ => by rw [used, used, same]

/-- The rollback of a pool restores the owner: it was not charged, or the requester is rolled
back and the charge does not show in the owner's counters, or the owner is and its counters come
back. -/
def RollbackClean (pool : VmQuotas) (owner requester : Nat) (dmemory : Int32) (dcpu : ℚ) : Prop :=
  owner ≠ 0 → ∀ q ∈ pool owner,
    if requester = owner then ComesBack q dmemory dcpu else Unseen q dmemory dcpu

/-- Charging one user or group and rolling back another, or the same, keeps the counters of the
first exactly when the rollback is clean. -/
theorem sameUsed_rollback_iff {pool' : VmQuotas} (requester : Nat)
    (admitted : pool.Admits id dmemory dcpu dquotas)
    (run : pool.quotaUpdate id dmemory dcpu dquotas = (.ok (), pool')) :
    pool.SameUsed (pool'.quotaRollback (some requester) dmemory dcpu) id ↔
      RollbackClean pool id requester dmemory dcpu := by
  by_cases charged : Charged pool id
  · obtain ⟨q, found⟩ := Option.isSome_iff_exists.mp charged.2
    rw [quotaUpdate_of_admits charged.1 found admitted] at run
    cases run
    have before : ∀ m, pool.used id m = q.used "" m := fun m => by rw [used, found]
    have clean : RollbackClean pool id requester dmemory dcpu ↔
        if requester = id then ComesBack q dmemory dcpu else Unseen q dmemory dcpu :=
      ⟨fun clean => clean charged.1 q found, fun back _ q' found' => by
        rw [Option.mem_def, found, Option.some.injEq] at found'
        exact found' ▸ back⟩
    rw [clean]
    by_cases same : requester = id
    · subst same
      rw [if_pos rfl, ← rollback_same_iff]
      refine forall₂_congr fun m _ => ?_
      simp only [quotaRollback, if_neg charged.1, Function.update_self, used, found]
    · rw [if_neg same, ← chargedQuota_same_iff]
      refine forall₂_congr fun m _ => ?_
      rw [before, used, quotaRollback_apply_of_ne same, Function.update_self]
  · rw [quotaUpdate_of_not_charged charged] at run
    cases run
    have clean : RollbackClean pool id requester dmemory dcpu := by
      intro nonzero q found
      refine absurd ⟨nonzero, ?_⟩ charged
      rw [Option.mem_def.mp found]
      rfl
    refine iff_of_true ?_ clean
    by_cases same : requester = id
    · subst same
      rw [quotaRollback_of_not_charged charged]
      exact SameUsed.refl
    · exact used_congr (quotaRollback_apply_of_ne same)

/-- A VM that is taken away shows in a count that a float can keep. -/
theorem not_comesBack_of_plain (here : QuotaArithmetic.Plain (q.used "" .vms))
    (less : QuotaArithmetic.Plain (q.used "" .vms - 1)) : ¬ ComesBack q dmemory dcpu := by
  intro back
  have vms := back .vms (by decide) 1 rfl
  have one : QuotaArithmetic.Plain (-1) := by decide +kernel
  rw [show charge dmemory dcpu .vms = none from rfl] at vms
  rw [sub_eq_add_neg] at less
  dsimp only at vms
  rw [QuotaArithmetic.float_add here one less] at vms
  linarith

end VmQuotas

namespace VirtualMachineResize

/-! ## Charging the host -/

/-- The percent of a number is no less than the number, and more from 1 percent on. -/
theorem floor_le_floor_percent {e : ℚ} (nonneg : 0 ≤ e) :
    0 ≤ ⌊e⌋ ∧ ⌊e⌋ ≤ ⌊Binary32.nearest (e * 100)⌋ ∧
      (1 ≤ ⌊Binary32.nearest (e * 100)⌋ → ⌊e⌋ < ⌊Binary32.nearest (e * 100)⌋) := by
  have floor := Int.floor_nonneg.mpr nonneg
  have product := Int.floor_nonneg.mpr (Binary32.nearest_nonneg (by linarith : 0 ≤ e * 100))
  by_cases one : 1 ≤ e
  · have less : (⌊e⌋ : ℚ) + 1 ≤ Binary32.nearest (e * 100) := by
      have close := Binary32.abs_nearest_sub_le_mul (x := e * 100)
        (by rw [abs_of_nonneg (by linarith)]; linarith)
      rw [abs_of_nonneg (a := e * 100) (by linarith)] at close
      have low := (abs_le.mp close).1
      have whole := Int.floor_le e
      linarith
    have above : ⌊e⌋ + 1 ≤ ⌊Binary32.nearest (e * 100)⌋ :=
      Int.le_floor.mpr (by exact_mod_cast less)
    omega
  · have zero : ⌊e⌋ = 0 := Int.floor_eq_zero_iff.mpr ⟨nonneg, not_le.mp one⟩
    omega

/-- What is charged in percent and given back in CPUs cancels only for changes below one percent,
and for those that have no integer. -/
theorem percent_add_iff (x : ℚ) : percent x + toInt32 (-x) = 0 ↔
    |Binary32.nearest (x * 100)| < 1 ∨ 2 ^ 31 ≤ |x| := by
  obtain ⟨floor, below, apart⟩ := floor_le_floor_percent (abs_nonneg x)
  have large : 2 ^ 31 ≤ |x| ↔ 2 ^ 31 ≤ ⌊|x|⌋ := by
    rw [Int.le_floor]
    norm_num
  have small : |Binary32.nearest (x * 100)| < 1 ↔ ⌊Binary32.nearest (|x| * 100)⌋ < 1 := by
    rw [Int.floor_lt, Int.cast_one]
    rcases le_total 0 x with nonneg | nonpos
    · rw [abs_of_nonneg nonneg, abs_of_nonneg (Binary32.nearest_nonneg (by linarith))]
    · rw [abs_of_nonpos nonpos, neg_mul, Binary32.nearest_neg,
        abs_of_nonpos (Binary32.nearest_nonpos (by linarith))]
  rw [large, small, ← Int32.toInt_inj, Int32.toInt_add, percent, toInt_toInt32_eq, toInt_toInt32_eq,
    truncate_neg]
  rcases le_total 0 x with nonneg | nonpos
  · have one : truncate (Binary32.nearest (x * 100)) = ⌊Binary32.nearest (|x| * 100)⌋ := by
      rw [abs_of_nonneg nonneg]
      exact truncate_of_nonneg (Binary32.nearest_nonneg (by linarith))
    have two : truncate x = ⌊|x|⌋ := by rw [abs_of_nonneg nonneg, truncate_of_nonneg nonneg]
    rw [one, two]
    simp [InRange, Int.bmod]
    split_ifs <;> omega
  · have one : truncate (Binary32.nearest (x * 100)) = -⌊Binary32.nearest (|x| * 100)⌋ := by
      rw [abs_of_nonpos nonpos, neg_mul, Binary32.nearest_neg,
        ← truncate_of_nonneg (x := -Binary32.nearest (x * 100)), truncate_neg, neg_neg]
      linarith [Binary32.nearest_nonpos (by linarith : x * 100 ≤ 0)]
    have two : truncate x = -⌊|x|⌋ := by
      rw [abs_of_nonpos nonpos, ← truncate_of_nonneg (by linarith : 0 ≤ -x), truncate_neg, neg_neg]
    rw [one, two]
    simp [InRange, Int.bmod]
    split_ifs <;> omega
/-- The owner's host, quotas and VM template are those of the world before. -/
structure World.Unchanged (w w' : World) : Prop where
  user : w.users.SameUsed w'.users w.vm.uid
  group : w.groups.SameUsed w'.groups w.vm.gid
  hosts : w'.hosts = w.hosts
  cpu : w'.vm.cpu = w.vm.cpu
  memory : w'.vm.memory = w.vm.memory
  vcpu : w'.vm.vcpu = w.vm.vcpu

/-- The host that has to be charged exists and has the capacity, where that is enforced. -/
def HostAdmits (w : World) (enforce : Bool) (hid? : Option Nat) (dmemory : Int32) (dcpu : ℚ) :
    Prop :=
  ∀ hid ∈ hid?, ∃ host ∈ w.hosts hid,
    enforce = true → host.testCapacity (percent dcpu) (dmemory * 1024) 0 = true

/-- What the host is charged with and given back comes to nothing: the CPU changes by less than a
percent, or by more than an integer can hold, and the memory not at all. -/
def HostUnseen (dmemory : Int32) (dcpu : ℚ) : Prop :=
  (|Binary32.nearest (dcpu * 100)| < 1 ∨ 2 ^ 31 ≤ |dcpu|) ∧ dmemory = 0

theorem hostUnseen_iff {dmemory : Int32} {dcpu : ℚ} : HostUnseen dmemory dcpu ↔
    percent dcpu + toInt32 (-dcpu) = 0 ∧ dmemory * 1024 + -dmemory = 0 := by
  refine and_congr (percent_add_iff dcpu).symm (mul_1024_eq_iff.symm.trans ?_)
  grind

/-- The VM is found again in a state it can be resized in. -/
def FoundResizable (again : Option VmState) : Prop := ∃ state ∈ again, Resizable state

section Host

variable {w : World} {att : RequestAttributes} {enforce : Bool} {hid hid' : Nat}
  {hid? : Option Nat} {dmemory : Int32} {dcpu : ℚ} {size : Size} {again : Option VmState}

/-- The hosts after a VM's host was charged. -/
def chargedHosts (w : World) (hid? : Option Nat) (dmemory : Int32) (dcpu : ℚ) : World :=
  match hid? with
  | none => w
  | some hid => w.updateHost hid (percent dcpu) (dmemory * 1024)

theorem updateHost_of_hostAdmits (att : RequestAttributes)
    (admitted : HostAdmits w enforce hid? dmemory dcpu) :
    updateHost w att enforce hid? dmemory dcpu =
      (.ok (), chargedHosts w hid? dmemory dcpu) := by
  cases hid? with
  | none => rfl
  | some hid =>
    obtain ⟨host, found, capacity⟩ := admitted hid rfl
    rw [Option.mem_def] at found
    have enough : (enforce && !host.testCapacity (percent dcpu) (dmemory * 1024) 0) =
        false := by
      cases enforce with
      | false => rfl
      | true => rw [capacity rfl]; rfl
    simp only [updateHost, found, enough, Bool.false_eq_true, if_false, chargedHosts]

theorem updateHost_of_not_hostAdmits (att : RequestAttributes)
    (refused : ¬ HostAdmits w enforce hid? dmemory dcpu) :
    ∃ err, updateHost w att enforce hid? dmemory dcpu =
      (.error err, w.quotaRollback att dmemory dcpu) := by
  unfold HostAdmits at refused
  push Not at refused
  obtain ⟨hid, isHid, refused⟩ := refused
  rw [Option.mem_def] at isHid
  subst isHid
  cases found : w.hosts hid with
  | none => exact ⟨.noHost hid, by simp only [updateHost, found]⟩
  | some host =>
    obtain ⟨enforced, full⟩ := refused host found
    refine ⟨.noCapacity hid, ?_⟩
    simp only [updateHost, found, enforced, eq_false_of_ne_true full, Bool.not_false,
      Bool.and_self, if_true]

theorem hosts_quotaRollback : (w.quotaRollback att dmemory dcpu).hosts = w.hosts := rfl

/-- A change of a host's capacity changes nothing else. -/
theorem updateHost_rest {cpu mem : Int32} :
    (w.updateHost hid cpu mem).users = w.users ∧ (w.updateHost hid cpu mem).groups = w.groups ∧
      (w.updateHost hid cpu mem).vm = w.vm := by
  unfold World.updateHost
  cases w.hosts hid <;> exact ⟨rfl, rfl, rfl⟩

theorem chargedHosts_rest (w : World) (hid? : Option Nat) (dmemory : Int32) (dcpu : ℚ) :
    (chargedHosts w hid? dmemory dcpu).users = w.users ∧
      (chargedHosts w hid? dmemory dcpu).groups = w.groups ∧
      (chargedHosts w hid? dmemory dcpu).vm = w.vm := by
  cases hid? with
  | none => exact ⟨rfl, rfl, rfl⟩
  | some hid => exact updateHost_rest

theorem undo_rest (w : World) (att : RequestAttributes) (hid? : Option Nat) (dmemory : Int32)
    (dcpu : ℚ) :
    (w.undo att hid? dmemory dcpu).users = w.users.quotaRollback att.uid dmemory dcpu ∧
      (w.undo att hid? dmemory dcpu).groups = w.groups.quotaRollback att.gid dmemory dcpu ∧
      (w.undo att hid? dmemory dcpu).vm = w.vm := by
  unfold World.undo
  cases hid? with
  | none => exact ⟨rfl, rfl, rfl⟩
  | some hid => exact updateHost_rest

/-- The host's share is restored exactly when the change is too small to be seen. -/
theorem hosts_undo_chargedHosts_iff (vm : Vm) (att : RequestAttributes)
    (admitted : HostAdmits w enforce hid? dmemory dcpu) :
    ({ chargedHosts w hid? dmemory dcpu with vm }.undo att hid? dmemory dcpu).hosts = w.hosts ↔
      (hid?.isSome → HostUnseen dmemory dcpu) := by
  cases hid? with
  | none => simp [chargedHosts, World.undo, hosts_quotaRollback]
  | some hid =>
    obtain ⟨host, found, -⟩ := admitted hid rfl
    rw [Option.mem_def] at found
    have hosts : ({ chargedHosts w (some hid) dmemory dcpu with vm }.undo att (some hid) dmemory
        dcpu).hosts = Function.update w.hosts hid (some
          ((host.updateCapacity (percent dcpu) (dmemory * 1024) 0).updateCapacity
            (toInt32 (-dcpu)) (-dmemory) 0)) := by
      simp only [chargedHosts, World.undo, World.updateHost, found, World.quotaRollback,
        Function.update_self, Function.update_idem]
    rw [hosts, hostUnseen_iff]
    constructor
    · intro same _
      have atHost := congrFun same hid
      rw [Function.update_self, found] at atHost
      have share := congrArg Host.share (Option.some.inj atHost)
      simp only [Host.updateCapacity, HostShare.update_update] at share
      obtain ⟨cpu, memory, -⟩ := (HostShare.update_eq_self_iff _ _ _ _).mp share
      exact ⟨cpu, memory⟩
    · intro unseen
      obtain ⟨cpu, memory⟩ := unseen rfl
      have share : (host.updateCapacity (percent dcpu) (dmemory * 1024) 0).updateCapacity
          (toInt32 (-dcpu)) (-dmemory) 0 = host := by
        simp only [Host.updateCapacity, HostShare.update_update]
        rw [(HostShare.update_eq_self_iff _ _ _ (0 + 0)).mpr ⟨cpu, memory, rfl⟩]
      rw [share, ← found, Function.update_eq_self]

/-- The VM is resized when it is found again in a state that allows it. -/
theorem resizeVm_of_foundResizable (valid : checkResize size = true)
    (found : FoundResizable again) :
    (resizeVm w att hid? size dmemory dcpu again).1 = .ok () := by
  obtain ⟨state, isState, resizable⟩ := found
  rw [Option.mem_def] at isState
  subst isState
  simp only [resizeVm, if_pos resizable, Vm.resize, valid, if_true]

/-- Otherwise the charges are given back and only the state of the VM is new. -/
theorem resizeVm_of_not_foundResizable (w : World) (att : RequestAttributes)
    (hid? : Option Nat) (size : Size) (dmemory : Int32) (dcpu : ℚ) (lost : ¬ FoundResizable again) :
    ∃ err vm, resizeVm w att hid? size dmemory dcpu again =
        (.error err, { w with vm }.undo att hid? dmemory dcpu) ∧
      vm.cpu = w.vm.cpu ∧ vm.memory = w.vm.memory ∧ vm.vcpu = w.vm.vcpu := by
  cases again with
  | none => exact ⟨.noVm, w.vm, rfl, rfl, rfl, rfl⟩
  | some state =>
    have notResizable : ¬ Resizable state := fun h => lost ⟨state, rfl, h⟩
    exact ⟨.wrongState, { w.vm with state }, by simp only [resizeVm, if_neg notResizable],
      rfl, rfl, rfl⟩

end Host

/-! ## The whole request -/

/-- When the charges of a failing resize leave everything as it was. A refusal by the
owner's user quota is always clean; a refusal by the group quota is clean only if the rollback
of the user is, and a later failure only if both rollbacks are and the host, when it was
charged, saw no change. -/
def ChargesAreClean (w : World) (uid gid : Nat) (enforce : Bool) (dmemory : Int32) (dcpu : ℚ)
    (dquotas : Quota .vm) (again : Option VmState) : Prop :=
  let hostAdmits := HostAdmits w enforce w.vm.chargedHost dmemory dcpu
  w.users.Admits w.vm.uid dmemory dcpu dquotas →
    (¬ w.groups.Admits w.vm.gid dmemory dcpu dquotas →
      w.users.RollbackClean w.vm.uid w.vm.uid dmemory dcpu) ∧
    (w.groups.Admits w.vm.gid dmemory dcpu dquotas → ¬ (hostAdmits ∧ FoundResizable again) →
      w.users.RollbackClean w.vm.uid uid dmemory dcpu ∧
      w.groups.RollbackClean w.vm.gid gid dmemory dcpu ∧
      (hostAdmits → w.vm.chargedHost.isSome → HostUnseen dmemory dcpu))

/-- When a failing resize leaves everything as it was: it is refused before anything is
charged, or its charges are clean. -/
def FailureIsClean (w : World) (uid gid : Nat) (enforceParam : Bool) (tmpl : Template)
    (dquotas : Quota .vm) (again : Option VmState) : Prop :=
  let size := newSize w.vm tmpl
  Resizable w.vm.state → checkResize size = true →
    ChargesAreClean w uid gid (if uid = 0 ∨ gid = 0 then enforceParam else true)
      (w.vm.dmemory size) (w.vm.dcpu size) dquotas again

section Request

variable {w : World} {uid gid : Nat} {enforce : Bool} {dmemory : Int32} {dcpu : ℚ} {size : Size}
  {again : Option VmState} {dquotas : Quota .vm}

theorem World.Unchanged.refl : w.Unchanged w :=
  ⟨VmQuotas.SameUsed.refl, VmQuotas.SameUsed.refl, rfl, rfl, rfl, rfl⟩

/-- A failure after both quotas were charged. -/
theorem chargeHostAndResize_failure_unchanged_iff (w : World) (uid gid : Nat) (enforce : Bool)
    (dmemory : Int32) (dcpu : ℚ) (again : Option VmState) (users groups : VmQuotas)
    (valid : checkResize size = true) :
    let w₁ : World := { w with users, groups }
    let run := chargeHostAndResize w₁ ⟨some uid, some gid⟩ enforce size dmemory dcpu again
    let hostAdmits := HostAdmits w enforce w.vm.chargedHost dmemory dcpu
    (run.1 ≠ .ok () → w.Unchanged run.2) ↔
      (¬ (hostAdmits ∧ FoundResizable again) →
        w.users.SameUsed (users.quotaRollback (some uid) dmemory dcpu) w.vm.uid ∧
        w.groups.SameUsed (groups.quotaRollback (some gid) dmemory dcpu) w.vm.gid ∧
        (hostAdmits → w.vm.chargedHost.isSome → HostUnseen dmemory dcpu)) := by
  intro w₁ run hostAdmits
  have sameHosts : HostAdmits w₁ enforce w.vm.chargedHost dmemory dcpu ↔ hostAdmits := Iff.rfl
  by_cases admitted : hostAdmits
  · have runHost := updateHost_of_hostAdmits ⟨some uid, some gid⟩ (sameHosts.mpr admitted)
    by_cases found : FoundResizable again
    · have success : run.1 = .ok () := by
        simp only [run, chargeHostAndResize, w₁, runHost]
        exact resizeVm_of_foundResizable valid found
      exact ⟨fun _ failed => absurd ⟨admitted, found⟩ failed, fun _ failed => absurd success failed⟩
    · obtain ⟨users₁, groups₁, vm₁⟩ := chargedHosts_rest w₁ w.vm.chargedHost
        dmemory dcpu
      obtain ⟨err, vm, runVm, cpu, memory, vcpu⟩ := resizeVm_of_not_foundResizable
        (chargedHosts w₁ w.vm.chargedHost dmemory dcpu) ⟨some uid, some gid⟩ w.vm.chargedHost
        size dmemory dcpu found
      have runs : run = (.error err, { chargedHosts w₁ w.vm.chargedHost dmemory dcpu with vm }.undo
          ⟨some uid, some gid⟩ w.vm.chargedHost dmemory dcpu) := by
        simp only [run, chargeHostAndResize, w₁, runHost, runVm]
      obtain ⟨users₂, groups₂, vm₂⟩ := undo_rest
        { chargedHosts w₁ w.vm.chargedHost dmemory dcpu with vm } ⟨some uid, some gid⟩
        w.vm.chargedHost dmemory dcpu
      have hosts := hosts_undo_chargedHosts_iff vm ⟨some uid, some gid⟩
        (sameHosts.mpr admitted)
      have failed : run.1 ≠ .ok () := by
        simp [runs]
      have lost : ¬ (hostAdmits ∧ FoundResizable again) := fun both => found both.2
      constructor
      · intro unchanged _
        have kept := unchanged failed
        rw [runs] at kept
        have user := kept.user
        have group := kept.group
        rw [users₂, users₁] at user
        rw [groups₂, groups₁] at group
        exact ⟨user, group, fun _ => hosts.mp kept.hosts⟩
      · intro clean _
        obtain ⟨user, group, small⟩ := clean lost
        rw [vm₁] at cpu memory vcpu
        rw [runs]
        refine ⟨?_, ?_, hosts.mpr (small admitted), ?_, ?_, ?_⟩
        · rwa [users₂, users₁]
        · rwa [groups₂, groups₁]
        · rw [vm₂, cpu]
        · rw [vm₂, memory]
        · rw [vm₂, vcpu]
  · obtain ⟨err, runHost⟩ := updateHost_of_not_hostAdmits ⟨some uid, some gid⟩
      (mt sameHosts.mp admitted)
    have runs : run = (.error err, w₁.quotaRollback ⟨some uid, some gid⟩ dmemory dcpu) := by
      simp only [run, chargeHostAndResize, w₁, runHost]
    have failed : run.1 ≠ .ok () := by
      simp [runs]
    constructor
    · intro unchanged _
      have kept := unchanged failed
      rw [runs] at kept
      exact ⟨kept.user, kept.group, fun h => absurd h admitted⟩
    · intro clean _
      obtain ⟨user, group, -⟩ := clean fun both => admitted both.1
      rw [runs]
      exact ⟨user, group, rfl, rfl, rfl, rfl⟩

theorem chargeAndResize_failure_unchanged_iff (valid : checkResize size = true) :
    ((chargeAndResize w ⟨some uid, some gid⟩ enforce size dmemory dcpu dquotas again).1 ≠
          .ok () →
        w.Unchanged
          (chargeAndResize w ⟨some uid, some gid⟩ enforce size dmemory dcpu dquotas again).2) ↔
      ChargesAreClean w uid gid enforce dmemory dcpu dquotas again := by
  unfold ChargesAreClean
  by_cases userAdmits : w.users.Admits w.vm.uid dmemory dcpu dquotas
  · obtain ⟨users, runUser⟩ := VmQuotas.quotaUpdate_ok userAdmits
    by_cases groupAdmits : w.groups.Admits w.vm.gid dmemory dcpu dquotas
    · obtain ⟨groups, runGroup⟩ := VmQuotas.quotaUpdate_ok groupAdmits
      have rest := chargeHostAndResize_failure_unchanged_iff w uid gid enforce
        dmemory dcpu again users groups valid
      simp only [VmQuotas.sameUsed_rollback_iff uid userAdmits runUser,
        VmQuotas.sameUsed_rollback_iff gid groupAdmits runGroup] at rest
      simp only [chargeAndResize, runUser, runGroup, userAdmits, groupAdmits, not_true_eq_false,
        false_implies, true_and, forall_const]
      exact rest
    · obtain ⟨err, groups, runGroup, sameGroup⟩ :=
        VmQuotas.quotaUpdate_of_not_admits groupAdmits
      have rollback := VmQuotas.sameUsed_rollback_iff w.vm.uid userAdmits runUser
      simp only [chargeAndResize, runUser, runGroup, userAdmits, groupAdmits, ne_eq, reduceCtorEq,
        not_false_eq_true, forall_const, false_implies, and_true, ← rollback]
      exact ⟨fun unchanged => unchanged.user,
        fun same => ⟨same, sameGroup, rfl, rfl, rfl, rfl⟩⟩
  · obtain ⟨err, users, run, same⟩ := VmQuotas.quotaUpdate_of_not_admits userAdmits
    simp only [chargeAndResize, run, userAdmits, false_implies, iff_true]
    exact fun _ => ⟨same, VmQuotas.SameUsed.refl, rfl, rfl, rfl, rfl⟩

end Request

/-- A resize that fails leaves the owner's quotas, the hosts and the VM's template as they
were exactly under `FailureIsClean`. -/
theorem requestExecute_failure_unchanged_iff (w : World) (uid gid : Nat) (enforceParam : Bool)
    (tmpl : Template) (dquotas : Quota .vm) (again : Option VmState) :
    ((requestExecute w uid gid enforceParam tmpl dquotas again).1 ≠ .ok () →
        w.Unchanged (requestExecute w uid gid enforceParam tmpl dquotas again).2) ↔
      FailureIsClean w uid gid enforceParam tmpl dquotas again := by
  unfold FailureIsClean requestExecute
  by_cases resizable : Resizable w.vm.state
  · by_cases valid : checkResize (newSize w.vm tmpl) = true
    · simp only [resizable, valid, not_true_eq_false, if_false, Bool.not_true, Bool.false_eq_true,
        forall_const]
      exact chargeAndResize_failure_unchanged_iff valid
    · simp only [resizable, valid, not_true_eq_false, if_false, Bool.not_false, if_true,
        forall_const]
      exact ⟨fun _ ok => Bool.noConfusion ok, fun _ _ => World.Unchanged.refl⟩
  · simp only [resizable, not_false_eq_true, if_true, false_implies, iff_true]
    exact fun _ => World.Unchanged.refl

/-- The owner asks for one more CPU and the host does not have it: the rollback takes the
CPU back and a VM off the owner's count. -/
theorem requestExecute_noCapacity_drops_vm :
    ¬ ∀ (w : World) (uid gid : Nat) (enforceParam : Bool) (tmpl : Template) (dquotas : Quota .vm)
        (again : Option VmState),
      (requestExecute w uid gid enforceParam tmpl dquotas again).1 ≠ .ok () →
        w.Unchanged (requestExecute w uid gid enforceParam tmpl dquotas again).2 := by
  let entry : QuotaEntry := ⟨fun _ => 0, fun m => if m = .memory then 512 else 1⟩
  let quota : Quota .vm := ⟨(∅ : AList fun _ => QuotaEntry).insert "" entry, false⟩
  let host : Host := ⟨⟨0, 524288, 100, 0, 524288, 100, 1⟩, {7}⟩
  let w : World :=
    { users := fun id => if id = 2 then some quota else none
      groups := fun _ => none
      hosts := fun id => if id = 0 then some host else none
      vm := ⟨2, 1, .poweroff, some 0, 1, 512, 1⟩ }
  let tmpl : Template := [.single "CPU" "2"]
  intro clean
  have failed : (requestExecute w 2 1 true tmpl ⟨∅, true⟩ (some .poweroff)).1 ≠ .ok () := by
    decide +kernel
  have same := (clean w 2 1 true tmpl ⟨∅, true⟩ (some .poweroff) failed).user .vms (by decide)
  have after : (requestExecute w 2 1 true tmpl ⟨∅, true⟩ (some .poweroff)).2.users.used 2 .vms =
      0 := by decide +kernel
  have before : w.users.used 2 .vms = 1 := by decide +kernel
  rw [after, before] at same
  exact zero_ne_one same

end VirtualMachineResize

end Ezilla
