import Ezilla.Lcm.HistoryCalls
import Ezilla.Lcm.PlacementRuns

/-!
# What is not stored between two steps

Which parts of the history may differ between the memory and the database after a step,
depending on how much of a record is looked at.

* `Aspect`, `Aspect.unstored`: what is looked at, and what may then not be stored;
* `LifeCycleManager.unstored_handler`: the events of the life-cycle manager;
* `unstored_plain`: the steps that change no record.
-/

namespace Ezilla

open WriteBack (Dirty)

/-! ## Aspects of a record -/

/-- What of a record is looked at. -/
inductive Aspect where
  | whole
  | withoutAction
  | stay
  deriving DecidableEq, Repr

namespace Aspect

/-- A record, as far as it is looked at. -/
def view : Aspect → HistoryRecord → HistoryRecord
  | .whole, r => r
  | .withoutAction, r => { r with action := .none }
  | .stay, r => { seq := r.seq, hid := r.hid }

/-- The calls that change what is looked at. -/
def sees : Aspect → HistoryCall → Bool
  | .whole, _ => true
  | .withoutAction, .setAction _ | .withoutAction, .setPreviousAction _ => false
  | .withoutAction, _ => true
  | .stay, _ => false

/-- What may not be stored between two steps. The current record in the body of an active VM
may be an old one, and the action of the previous record is not stored while the VM moves. -/
def unstored (aspect : Aspect) (vm : VirtualMachine) : Dirty where
  head := aspect ≠ .stay ∧ vm.state = .active
  last := false
  previous := aspect = .whole ∧ vm.Moving
  older := false

@[simp] theorem previous_unstored (aspect : Aspect) (vm : VirtualMachine) :
    (aspect.unstored vm).previous = false ↔ (aspect = .whole → ¬ vm.Moving) :=
  decide_eq_false_iff_not.trans not_and

theorem sees_or_hidden (aspect : Aspect) (call : HistoryCall) :
    aspect.sees call = true ∨ call.op.Hidden aspect.view := by
  cases aspect with
  | whole => exact .inl rfl
  | withoutAction => cases call <;> first | exact .inl rfl | exact .inr fun _ => rfl
  | stay => cases call <;> first | exact .inr trivial | exact .inr fun _ => rfl

end Aspect

/-- A VM in a stage of its life cycle is active. -/
def VirtualMachine.Awake (vm : VirtualMachine) : Prop := vm.lcmState ≠ .lcmInit → vm.state = .active

/-- The events that come when they are expected: a deployment does not start over a migration,
and a VM that is cleaned up is in a stage that `clean_up_vm` knows. -/
def LcmAction.Expected (vm : VirtualMachine) : LcmAction → Prop
  | .deploy => ¬ vm.Moving
  | .delete | .clean => ¬ vm.In .shutdownUndeploy ∧ ¬ vm.In .lcmInit
  | _ => True

instance (vm : VirtualMachine) (action : LcmAction) : Decidable (action.Expected vm) := by
  unfold LcmAction.Expected
  split <;> infer_instance

namespace LifeCycleManager

variable (aspect : Aspect) (vm : VirtualMachine) (now : Nat)

/-- What is not stored after some calls. -/
def unstoredAfter (calls : List HistoryCall) : Dirty :=
  (aspect.unstored vm).run HistoryCall.op aspect.sees calls

/-- A record that follows a sleep is stored, and was added to records that were. -/
theorem unstored_wakeUp (vm' : VirtualMachine) (awake : aspect ≠ .stay → vm.Awake)
    (asleep : vm.state ≠ .active) (active : vm'.state = .active) :
    unstoredAfter aspect vm (wakeUpCalls now) ≤ aspect.unstored vm' := by
  rcases vm with ⟨oid, uid, gid, state, lcmState, resched, deployId, history, disks, nics, snapshots⟩
  rcases vm' with ⟨oid', uid', gid', state', lcmState', _, _, _, _, _, _⟩
  obtain rfl : state' = .active := active
  have init (looked : aspect ≠ .stay) : lcmState = .lcmInit :=
    Decidable.by_contra fun stage => asleep (awake looked stage)
  cases aspect with
  | stay => exact Dirty.le_of_leb rfl
  | whole =>
    obtain rfl := init Aspect.noConfusion
    exact ⟨fun h => Bool.noConfusion (show true = false from h), fun _ => rfl, fun _ => rfl,
      fun _ => rfl⟩
  | withoutAction =>
    obtain rfl := init Aspect.noConfusion
    exact ⟨fun h => Bool.noConfusion (show true = false from h), fun _ => rfl, fun _ => rfl,
      fun _ => rfl⟩

/-- An event stores what it changes, up to what may differ anyway. -/
theorem unstored_handler (action : LcmAction) (awake : aspect ≠ .stay → vm.Awake)
    (expected : aspect ≠ .stay → action.Expected vm) :
    unstoredAfter aspect vm (handlerCalls vm now action) ≤
      aspect.unstored (handler action vm).vm := by
  rcases vm with ⟨oid, uid, gid, state, lcmState, resched, deployId, history, disks, nics, snapshots⟩
  cases action with
  | saveasHotSuccess | saveasHotFailure =>
    simp only [handler, saveasHotSuccessAction, saveasHotFailureAction, saveasHotEnd]
    cases VirtualMachine.getSaveasDiskHot _ <;> cases lcmState <;> first
      | exact Dirty.le_refl _
      | (cases aspect <;> exact Dirty.le_of_leb rfl)
  | deploy =>
    simp only [handler, handlerCalls, deployAction, deployCalls]
    split
    · rename_i active
      obtain rfl : state = .active := active
      have still (looked : aspect ≠ .stay) : ¬ (_ : VirtualMachine).Moving := expected looked
      split <;> cases aspect <;> first
        | exact Dirty.le_of_leb rfl
        | exact ⟨fun h => Bool.noConfusion (show true = false from h), fun _ => rfl,
            fun _ => (Aspect.previous_unstored _ _).mpr fun _ => still Aspect.noConfusion,
            fun _ => rfl⟩
    · exact Dirty.le_refl _
  | suspend | stop | cancel | shutdown | undeploy | undeployHard | poweroff | poweroffHard =>
    simp only [handler, handlerCalls, suspendAction, stopAction, cancelAction, shutdownAction,
      undeployAction, poweroffAction, leaveRunning, leaveRunningCalls, Bool.false_eq_true,
      if_true, if_false]
    split
    · rename_i running
      obtain ⟨rfl, rfl⟩ := running
      cases aspect <;> exact Dirty.le_of_leb rfl
    · exact Dirty.le_refl _
  | migrate | liveMigrate =>
    simp only [handler, handlerCalls, migrateAction, liveMigrateAction, moveRunning,
      moveRunningCalls]
    split
    · rename_i running
      obtain ⟨rfl, rfl⟩ := running
      cases aspect <;> exact Dirty.le_of_leb rfl
    · exact Dirty.le_refl _
  | restore =>
    simp only [handler, handlerCalls, restoreAction, restoreCalls]
    split
    · rename_i asleep
      exact unstored_wakeUp aspect _ now _ awake (by rw [asleep]; exact VmState.noConfusion) rfl
    · exact Dirty.le_refl _
  | restart =>
    simp only [handler, handlerCalls, restartAction, restartCalls]
    split
    · rename_i active
      obtain rfl : state = .active := active
      cases lcmState <;> first
        | exact Dirty.le_refl _
        | (cases aspect <;> exact Dirty.le_of_leb rfl)
    · split
      · rename_i asleep
        exact unstored_wakeUp aspect _ now _ awake (by rw [asleep]; exact VmState.noConfusion) rfl
      · exact Dirty.le_refl _
  | delete =>
    simp only [handler, handlerCalls, deleteAction, deleteCalls]
    split
    · rename_i active
      obtain rfl : state = .active := active
      cases lcmState <;> cases aspect <;> first
        | exact Dirty.le_of_leb rfl
        | exact absurd ⟨rfl, rfl⟩ (expected Aspect.noConfusion).1
        | exact absurd ⟨rfl, rfl⟩ (expected Aspect.noConfusion).2
    · exact Dirty.le_refl _
  | clean =>
    simp only [handler, handlerCalls, cleanAction, cleanCalls]
    split
    · rename_i active
      obtain rfl : state = .active := active
      cases lcmState <;> cases aspect <;> first
        | exact Dirty.le_of_leb rfl
        | exact absurd ⟨rfl, rfl⟩ (expected Aspect.noConfusion).1
        | exact absurd ⟨rfl, rfl⟩ (expected Aspect.noConfusion).2
    · exact Dirty.le_refl _
  | _ =>
    -- the events of the drivers, by the stage the VM is found in
    cases lcmState <;> first
      | exact Dirty.le_refl _
      | (cases aspect <;> first
          | exact Dirty.le_of_leb rfl
          | (obtain rfl : state = .active := awake Aspect.noConfusion LcmState.noConfusion
             exact Dirty.le_of_leb rfl))

/-- An event leaves the VM active in its stage, or out of any. -/
theorem awake_handler {vm : VirtualMachine} (action : LcmAction) (awake : vm.Awake) :
    (handler action vm).vm.Awake := by
  rcases vm with ⟨oid, uid, gid, state, lcmState, resched, deployId, history, disks, nics, snapshots⟩
  cases action with
  | saveasHotSuccess | saveasHotFailure =>
    simp only [handler, saveasHotSuccessAction, saveasHotFailureAction, saveasHotEnd]
    cases VirtualMachine.getSaveasDiskHot _ <;> cases lcmState <;> first
      | exact awake
      | exact fun _ => awake LcmState.noConfusion
      | exact fun stage => absurd rfl stage
  | deploy =>
    simp only [handler, deployAction]
    split
    · rename_i active
      split <;> exact fun _ => active
    · exact awake
  | suspend | stop | cancel | shutdown | undeploy | undeployHard | poweroff | poweroffHard
  | migrate | liveMigrate =>
    simp only [handler, suspendAction, stopAction, cancelAction, shutdownAction, undeployAction,
      poweroffAction, leaveRunning, migrateAction, liveMigrateAction, moveRunning,
      Bool.false_eq_true, if_true, if_false]
    split
    · rename_i running
      exact fun _ => running.1
    · exact awake
  | restore =>
    simp only [handler, restoreAction]
    split
    · exact fun _ => rfl
    · exact awake
  | restart =>
    simp only [handler, restartAction]
    split
    · rename_i active
      cases lcmState <;> exact fun _ => active
    · split
      · exact fun _ => rfl
      · exact awake
  | delete =>
    simp only [handler, deleteAction]
    split
    · rename_i active
      cases lcmState <;> exact fun _ => active
    · exact awake
  | clean =>
    simp only [handler, cleanAction]
    split
    · rename_i active
      cases lcmState <;> exact fun _ => active
    · exact awake
  | _ =>
    cases lcmState <;> first
      | exact awake
      | exact fun _ => awake LcmState.noConfusion
      | exact fun stage => absurd rfl stage

end LifeCycleManager

/-! ## Plain steps -/

/-- A call that stores something and changes nothing. -/
def HistoryCall.Plain (call : HistoryCall) : Prop := call = .update ∨ call = .updateHistory

theorem plain_storeIf (p : Prop) [Decidable p] : ∀ call ∈ storeIf p, call.Plain := by
  intro call member
  unfold storeIf at member
  split at member
  · exact .inl (List.mem_singleton.mp member)
  · cases member

theorem mem_storeIf {p : Prop} [Decidable p] (holds : p) : .update ∈ storeIf p := by
  rw [storeIf, if_pos holds]
  exact List.mem_singleton_self _

/-- Storing makes nothing out of date. -/
theorem le_of_plain {aspect : Aspect} {calls : List HistoryCall}
    (plain : ∀ call ∈ calls, call.Plain) (d : Dirty) :
    d.run HistoryCall.op aspect.sees calls ≤ d ∧
      (.update ∈ calls → (d.run HistoryCall.op aspect.sees calls).head = false) := by
  induction calls generalizing d with
  | nil => exact ⟨Dirty.le_refl d, fun member => by cases member⟩
  | cons call calls ih =>
    have rest := ih (fun call' member => plain call' (List.mem_cons_of_mem _ member))
      (d.after (aspect.sees call) call.op)
    rcases plain call List.mem_cons_self with rfl | rfl
    · exact ⟨Dirty.le_trans rest.1 ⟨fun _ => rfl, id, id, id⟩, fun _ => rest.1.head rfl⟩
    · refine ⟨Dirty.le_trans rest.1 ⟨id, fun _ => rfl, id, id⟩, fun member => ?_⟩
      rcases List.mem_cons.mp member with same | later
      · cases same
      · exact rest.2 later

/-- A step that changes no record, and stores the VM when it changes its state. -/
theorem unstored_plain {aspect : Aspect} {vm vm' : VirtualMachine} {calls : List HistoryCall}
    (plain : ∀ call ∈ calls, call.Plain) (stored : vm'.state = vm.state ∨ .update ∈ calls)
    (moving : aspect ≠ .stay → vm.Moving → vm'.Moving) :
    LifeCycleManager.unstoredAfter aspect vm calls ≤ aspect.unstored vm' := by
  obtain ⟨le, update⟩ := @le_of_plain aspect calls plain (aspect.unstored vm)
  refine ⟨fun rests => ?_, fun _ => le.last rfl, fun still => le.previous ?_, fun _ => le.older rfl⟩
  · rcases stored with same | there
    · apply le.head
      simpa only [Aspect.unstored, same] using rests
    · exact update there
  · rw [Aspect.previous_unstored] at still ⊢
    exact fun whole moves => still whole (moving (by rw [whole]; exact Aspect.noConfusion) moves)

/-- Plain calls leave the history alone. -/
theorem historyAfter_plain {vm : VirtualMachine} {calls : List HistoryCall}
    (plain : ∀ call ∈ calls, call.Plain) :
    LifeCycleManager.historyAfter vm calls = vm.history := by
  unfold LifeCycleManager.historyAfter
  induction calls with
  | nil => rfl
  | cons call calls ih =>
    have rest := ih fun call' member => plain call' (List.mem_cons_of_mem _ member)
    rcases plain call List.mem_cons_self with rfl | rfl <;> exact rest

end Ezilla
