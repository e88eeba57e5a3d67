import Ezilla.Tm.TransferManager

/-!
# The lock of a VM in every handler

`VirtualMachineDeploy::request_execute` and `VirtualMachineMigrate::request_execute` hand the VM
to the dispatch manager, which unlocks it, and unlock it again.

* `PlacementCalls`: what the calls of such a request answer;
* `PlacementCalls.Dispatched`: the requests that get as far as the dispatch manager;
* `VmHandler.balanced_iff`: exactly which handlers unlock the VM once, in which states.
-/

namespace Ezilla

open LockDiscipline DispatchManager

/-- What the calls of a request to place a VM answer. The VM is looked up for the authorization,
then for the checks, and again after they let go of it. -/
structure PlacementCalls where
  placement : Placement
  enforce : Bool
  /-- `get_host_information` of the new host -/
  hostInfo : Bool
  authVm? : Option VirtualMachine
  oneadmin : Bool
  authorized : Bool
  vm? : Option VirtualMachine
  /-- `check_host` -/
  hostFits : Bool
  /-- `get_host_information` of the current host, and both hosts use one system datastore -/
  currentHostInfo : Bool
  sameDatastore : Bool
  again? : Option VirtualMachine
  /-- `update_history` -/
  historyStored : Bool

namespace PlacementCalls

variable (calls : PlacementCalls)

/-- `vm_authorization`: whether the request goes on. -/
def authorization : Bool := calls.authVm?.isSome && (calls.oneadmin || calls.authorized)

def authorizationLocks : List Event :=
  withVm calls.authVm? fun _ => if calls.oneadmin then [.unlock] else [.use, .unlock]

/-- `DispatchManager::deploy`, `migrate` or `live_migrate`, with the VM locked. -/
def dispatchLocks (vm : VirtualMachine) : List Event :=
  match calls.placement.kind with
  | .deploy => deployLocks vm
  | .migrate | .liveMigrate => whenRunningLocks vm

/-- The end of both requests: the record is added and the VM is handed over. -/
def handOverLocks (vm : VirtualMachine) : List Event :=
  .use :: if !calls.historyStored then [.unlock]
    else .use :: (calls.dispatchLocks vm ++ [.unlock])

/-- `VirtualMachineDeploy::request_execute`. -/
def deployRequestLocks : List Event :=
  if !calls.hostInfo then [] else
  calls.authorizationLocks ++ if !calls.authorization then [] else
  withVm calls.vm? fun vm =>
    .use :: if !VirtualMachineDeploy.check vm then [.unlock]
      else if calls.enforce then
        .use :: .unlock :: if !calls.hostFits then []
          else withVm calls.again? calls.handOverLocks
      else calls.handOverLocks vm

/-- `VirtualMachineMigrate::request_execute`. -/
def migrateRequestLocks : List Event :=
  if !calls.hostInfo then [] else
  calls.authorizationLocks ++ if !calls.authorization then [] else
  withVm calls.vm? fun vm =>
    .use :: if !VirtualMachineMigrate.check vm calls.placement.hid then [.unlock]
      else (if calls.enforce then [.use, .unlock] else [.unlock]) ++
        if calls.enforce && !calls.hostFits then []
        else if !calls.currentHostInfo || !calls.sameDatastore then []
        else withVm calls.again? calls.handOverLocks

/-- The locks of a request to place a VM. -/
def locks : List Event :=
  match calls.placement.kind with
  | .deploy => calls.deployRequestLocks
  | .migrate | .liveMigrate => calls.migrateRequestLocks

/-- The VM that is handed over is found: a deployment that does not enforce the capacity keeps
the one it checked. -/
def Found : Prop :=
  match calls.placement.kind with
  | .deploy => calls.enforce = true → calls.hostFits = true ∧ calls.again?.isSome = true
  | .migrate | .liveMigrate =>
    (calls.enforce = true → calls.hostFits = true) ∧ calls.currentHostInfo = true ∧
      calls.sameDatastore = true ∧ calls.again?.isSome = true

/-- The request gets as far as the dispatch manager: it is authorized, the VM passes the check,
it is still there at the end, and its record is stored. -/
def Dispatched : Prop :=
  calls.hostInfo = true ∧ calls.authorization = true ∧
    (∃ vm, calls.vm? = some vm ∧ calls.placement.check vm = true) ∧ calls.Found ∧
    calls.historyStored = true

variable {calls} {vm : VirtualMachine}

theorem balanced_authorizationLocks : Balanced calls.authorizationLocks := by
  unfold authorizationLocks
  rw [balanced_withVm]
  intro _ _
  split <;> rfl

theorem releases_dispatchLocks : Releases (calls.dispatchLocks vm) := by
  unfold dispatchLocks
  split <;> exact releases_checked rfl

/-- The VM that the dispatch manager unlocked is unlocked again. -/
theorem releases_handOverLocks :
    Releases (calls.handOverLocks vm) ↔ calls.historyStored = false := by
  unfold handOverLocks
  rw [releases_use]
  cases calls.historyStored with
  | false => exact iff_of_true rfl rfl
  | true =>
    refine iff_of_false (fun released => ?_) (by decide)
    have twice : Releases (calls.dispatchLocks vm ++ [.unlock]) := released
    rw [releases_dispatchLocks.append_iff] at twice
    exact not_balanced_unlock twice

theorem balanced_withVm_handOver {vm? : Option VirtualMachine} :
    Balanced (withVm vm? calls.handOverLocks) ↔
      ¬ (vm?.isSome = true ∧ calls.historyStored = true) := by
  rw [balanced_withVm]
  cases vm? with
  | none => exact iff_of_true (fun _ no => by cases no) fun both => by cases both.1
  | some vm =>
    have one : (∀ vm', some vm = some vm' → Releases (calls.handOverLocks vm')) ↔
        Releases (calls.handOverLocks vm) :=
      ⟨fun all => all vm rfl, fun released _ same => by cases same; exact released⟩
    rw [one, releases_handOverLocks]
    simp

/-- The first part of both requests: nothing is left to do unless the request goes on. -/
theorem balanced_start {rest : List Event} :
    Balanced (if !calls.hostInfo then [] else
        calls.authorizationLocks ++ if !calls.authorization then [] else rest) ↔
      (calls.hostInfo = true → calls.authorization = true → Balanced rest) := by
  cases calls.hostInfo with
  | false => exact iff_of_true balanced_nil fun no => by cases no
  | true =>
    simp only [Bool.not_true, Bool.false_eq_true, if_false, true_imp_iff]
    rw [balanced_authorizationLocks.append_iff]
    cases calls.authorization with
    | false => exact iff_of_true balanced_nil fun no => by cases no
    | true => exact ⟨fun balanced _ => balanced, fun all => all rfl⟩

/-- What a deployment does with the VM it checked. -/
theorem releases_deploy (kind : calls.placement.kind = .deploy) :
    Releases (.use :: if !VirtualMachineDeploy.check vm then [.unlock]
      else if calls.enforce then
        .use :: .unlock :: if !calls.hostFits then []
          else withVm calls.again? calls.handOverLocks
      else calls.handOverLocks vm) ↔
      ¬ (calls.placement.check vm = true ∧ calls.Found ∧ calls.historyStored = true) := by
  have same : calls.placement.check vm = VirtualMachineDeploy.check vm := by
    unfold Placement.check
    rw [kind]
  have found : calls.Found ↔ (calls.enforce = true → calls.hostFits = true ∧
      calls.again?.isSome = true) := by
    unfold Found
    rw [kind]
  rw [releases_use, same, found]
  cases VirtualMachineDeploy.check vm with
  | false => exact iff_of_true rfl fun all => by cases all.1
  | true =>
    cases calls.enforce with
    | false =>
      have handed := @releases_handOverLocks calls vm
      simp only [Bool.not_true, Bool.false_eq_true, if_false, handed, false_imp_iff, true_and,
        Bool.not_eq_true]
    | true =>
      cases calls.hostFits with
      | false => exact iff_of_true rfl fun all => by cases (all.2.1 rfl).1
      | true =>
        have handed := @balanced_withVm_handOver calls calls.again?
        simp only [Bool.not_true, Bool.false_eq_true, if_false, if_true, releases_use,
          releases_unlock, handed, true_imp_iff, true_and]

/-- What a migration does with the VM it checked. -/
theorem releases_migrate
    (kind : calls.placement.kind = .migrate ∨ calls.placement.kind = .liveMigrate) :
    Releases (.use :: if !VirtualMachineMigrate.check vm calls.placement.hid then [.unlock]
      else (if calls.enforce then [.use, .unlock] else [.unlock]) ++
        if calls.enforce && !calls.hostFits then []
        else if !calls.currentHostInfo || !calls.sameDatastore then []
        else withVm calls.again? calls.handOverLocks) ↔
      ¬ (calls.placement.check vm = true ∧ calls.Found ∧ calls.historyStored = true) := by
  have same : calls.placement.check vm = VirtualMachineMigrate.check vm calls.placement.hid := by
    unfold Placement.check
    rcases kind with is | is <;> rw [is]
  have found : calls.Found ↔ (calls.enforce = true → calls.hostFits = true) ∧
      calls.currentHostInfo = true ∧ calls.sameDatastore = true ∧
      calls.again?.isSome = true := by
    unfold Found
    rcases kind with is | is <;> rw [is]
  have first : Releases (if calls.enforce then [Event.use, .unlock] else [.unlock]) := by
    split <;> rfl
  rw [releases_use, same, found]
  cases VirtualMachineMigrate.check vm calls.placement.hid with
  | false => exact iff_of_true rfl fun all => by cases all.1
  | true =>
    simp only [Bool.not_true, Bool.false_eq_true, if_false, true_and]
    rw [first.append_iff]
    have handed := @balanced_withVm_handOver calls calls.again?
    by_cases fits : calls.enforce = true → calls.hostFits = true
    · have goesOn : (calls.enforce && !calls.hostFits) = false := by
        cases enforce : calls.enforce with
        | false => rfl
        | true => rw [fits enforce]; rfl
      rw [goesOn]
      cases calls.currentHostInfo with
      | false => exact iff_of_true balanced_nil fun all => by cases all.1.2.1
      | true =>
        cases calls.sameDatastore with
        | false => exact iff_of_true balanced_nil fun all => by cases all.1.2.2.1
        | true =>
          simp only [Bool.not_true, Bool.or_self, Bool.false_eq_true, if_false, handed, true_and]
          rw [and_iff_right fits]
    · have stops : (calls.enforce && !calls.hostFits) = true := by
        obtain ⟨enforced, full⟩ := Classical.not_imp.mp fits
        rw [enforced, Bool.of_not_eq_true full]
        rfl
      rw [stops]
      exact iff_of_true balanced_nil fun all => fits all.1.1

/-- A request to place a VM unlocks it once where it does not get to the dispatch manager. -/
theorem balanced_locks_iff : Balanced calls.locks ↔ ¬ calls.Dispatched := by
  have checked : ∀ body : VirtualMachine → List Event,
      (∀ vm, Releases (body vm) ↔
        ¬ (calls.placement.check vm = true ∧ calls.Found ∧ calls.historyStored = true)) →
      ((calls.hostInfo = true → calls.authorization = true → Balanced (withVm calls.vm? body)) ↔
        ¬ calls.Dispatched) := fun body handed => by
    rw [balanced_withVm]
    simp only [handed]
    unfold Dispatched
    constructor
    · rintro all ⟨host, auth, ⟨vm, there, passes⟩, rest⟩
      exact all host auth vm there ⟨passes, rest⟩
    · rintro not host auth vm there ⟨passes, rest⟩
      exact not ⟨host, auth, ⟨vm, there, passes⟩, rest⟩
  unfold locks
  cases kind : calls.placement.kind with
  | deploy =>
    exact balanced_start.trans (checked _ fun vm => releases_deploy kind)
  | migrate => exact balanced_start.trans (checked _ fun vm => releases_migrate (.inl kind))
  | liveMigrate => exact balanced_start.trans (checked _ fun vm => releases_migrate (.inr kind))

end PlacementCalls

/-! ## All handlers -/

/-- A handler that works on a VM, with what its lookups find and what its calls answer. -/
inductive VmHandler where
  | request (request : VmRequest) (vm? : Option VirtualMachine)
  /-- a disk or a NIC is attached -/
  | attach (vm? : Option VirtualMachine) (setUp : Bool) (again? : Option VirtualMachine)
  | event (action : DmAction) (vm? : Option VirtualMachine)
  | transfer (action : TmAction) (calls : TransferCalls) (vm? : Option VirtualMachine)
  | transferAnswer (answer : TransferAnswer) (vm? : Option VirtualMachine)
  | place (calls : PlacementCalls)

namespace VmHandler

/-- What a handler does with the lock of the VM. -/
def locks : VmHandler → List Event
  | .request r vm? => r.locks vm?
  | .attach vm? setUp again? => attachLocks vm? setUp again?
  | .event action vm? => action.locks vm?
  | .transfer action calls vm? => action.locks calls vm?
  | .transferAnswer answer vm? => TransferManagerDriver.protocolLocks answer vm?
  | .place calls => calls.locks

/-- The cases in which the VM is unlocked once: a failure or a resubmission finds the VM in the
stage expected, a disk is copied of a VM that is there, and a placement does not get to the
dispatch manager. -/
def Proper : VmHandler → Prop
  | .event action vm? => ∀ vm, vm? = some vm → action.Expected vm
  | .transfer action _ vm? => action = .saveasHot → vm?.isSome = true
  | .place calls => ¬ calls.Dispatched
  | _ => True

/-- A handler unlocks the VM it got once, and uses it only before that, exactly in the proper
cases. -/
theorem balanced_iff (handler : VmHandler) : Balanced handler.locks ↔ handler.Proper := by
  cases handler with
  | request r vm? => exact iff_of_true (r.balanced_locks vm?) trivial
  | attach => exact iff_of_true balanced_attachLocks trivial
  | event => exact DmAction.balanced_locks_iff
  | transfer => exact TmAction.balanced_locks_iff
  | transferAnswer => exact iff_of_true TransferManagerDriver.balanced_protocolLocks trivial
  | place => exact PlacementCalls.balanced_locks_iff

/-- A pending VM that oneadmin deploys is unlocked twice. -/
theorem deploy_not_balanced :
    let vm : VirtualMachine :=
      { oid := 7, uid := 1, gid := 1, state := .pending, lcmState := .lcmInit }
    ¬ Balanced (locks (.place
      { placement := ⟨.deploy, 3⟩, enforce := false, hostInfo := true, authVm? := some vm
        oneadmin := true, authorized := true, vm? := some vm, hostFits := true
        currentHostInfo := true, sameDatastore := true, again? := some vm
        historyStored := true })) := by
  decide

end VmHandler

end Ezilla
