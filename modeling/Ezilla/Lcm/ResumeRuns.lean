import Mathlib.Tactic.Tauto
import Ezilla.Lcm.PlacementRuns

/-!
# Resuming a saved VM

A stopped or undeployed VM that is deployed again must be resumed from what was saved. The
life-cycle manager finds this out from the action of the previous history record, which the
stop or undeployment has closed.

* `SavedKind`, `rememberSaved`: the VM was saved and waits to be deployed again;
* `Unbroken`: no resume fails, and the VM is left alone while it waits;
* `ResumeInv`: what such steps keep, and `ResumeInv.resumed`: that a saved VM is then resumed.
-/

namespace Ezilla

/-- How a VM was saved. -/
inductive SavedKind where
  | stopped
  | undeployed
  deriving DecidableEq, Repr

namespace SavedKind

/-- The stages in which the VM is saved. -/
def stages : SavedKind → List LcmState
  | .stopped => [.saveStop, .epilogStop]
  | .undeployed => [.shutdownUndeploy, .epilogUndeploy]

/-- The stage in which the VM is resumed. -/
def resumeStage : SavedKind → LcmState
  | .stopped => .prologResume
  | .undeployed => .prologUndeploy

/-- The actions that save the VM. -/
def Closes (action : VMAction) : SavedKind → Prop
  | .stopped => action = .stop
  | .undeployed => action = .undeploy ∨ action = .undeployHard

end SavedKind

namespace VirtualMachine

variable (vm : VirtualMachine)

/-- The action of the current record. -/
def lastAction : Option VMAction := vm.history.head?.map History.action

/-- The VM can be deployed, or was dispatched and not taken up by the life-cycle manager. -/
def Waiting : Prop :=
  vm.state ∈ ([.stopped, .undeployed, .pending, .hold] : List VmState) ∨ vm.In .lcmInit

instance : Decidable vm.Waiting := inferInstanceAs (Decidable (_ ∨ _))

/-- The current record was closed by the action that saved the VM. -/
def ClosedBy (kind : SavedKind) : Prop := ∃ action, vm.lastAction = some action ∧ kind.Closes action

end VirtualMachine

/-- The VM was saved and waits to be deployed again. A VM that is deleted and created again is
not saved any more. -/
def rememberSaved (s : LifeState) (l : LifeLabel) (saved : Option SavedKind) :
    Option SavedKind :=
  if s.locked then saved
  else
    match l with
    | .dm =>
      if s.dmQueue.head? = some .stopSuccess ∧ (s.vm.In .epilogStop ∨ s.vm.In .prologResume) then
        some .stopped
      else if s.dmQueue.head? = some .undeploySuccess ∧
          (s.vm.In .epilogUndeploy ∨ s.vm.In .prologUndeploy) then
        some .undeployed
      else if (s.next l).vm.Waiting then saved
      else none
    | .request .resubmit =>
      if s.vm.state = .pending ∧ (s.next l).vm.Waiting then saved else none
    | _ => if (s.next l).vm.Waiting then saved else none

/-- The step does not take the VM back from a resume: before it boots, or when the boot
fails. -/
structure LifeState.ResumeGoesOn (s : LifeState) (l : LifeLabel) : Prop where
  stopped : l = .dm → s.dmQueue.head? = some .stopSuccess → ¬ s.vm.In .prologResume
  undeployed : l = .dm → s.dmQueue.head? = some .undeploySuccess → ¬ s.vm.In .prologUndeploy
  booted : l = .lcm → s.lcmQueue.head?.map LcmEvent.action = some .deployFailure →
    ¬ (s.vm.lcmState = .bootStopped ∨ s.vm.lcmState = .bootUndeploy)

instance (s : LifeState) (l : LifeLabel) : Decidable (s.ResumeGoesOn l) :=
  decidable_of_iff
    ((l = .dm → s.dmQueue.head? = some .stopSuccess → ¬ s.vm.In .prologResume) ∧
      (l = .dm → s.dmQueue.head? = some .undeploySuccess → ¬ s.vm.In .prologUndeploy) ∧
      (l = .lcm → s.lcmQueue.head?.map LcmEvent.action = some .deployFailure →
        ¬ (s.vm.lcmState = .bootStopped ∨ s.vm.lcmState = .bootUndeploy)))
    ⟨fun h => ⟨h.1, h.2.1, h.2.2⟩, fun h => ⟨h.stopped, h.undeployed, h.booted⟩⟩

/-- No resume fails, no placement is refused late, and no disk or NIC fails to be set up while
the VM waits to be deployed. -/
def Unbroken (s : LifeState × Option SavedKind) (l : LifeLabel) : Prop :=
  s.1.locked = false → s.1.ResumeGoesOn l ∧ s.1.InTime l ∧ (s.1.SetUpFails l → ¬ s.1.vm.Waiting)

instance (s : LifeState × Option SavedKind) (l : LifeLabel) : Decidable (Unbroken s l) := by
  unfold Unbroken
  infer_instance

/-! ## The life-cycle manager -/

/-- What an event of the life-cycle manager does to a VM that is being saved. -/
inductive SaveStep (action : LcmAction) (vm vm' : VirtualMachine) : Prop where
  | out (saving : ∀ kind : SavedKind, vm'.lcmState ∉ kind.stages)
      (state : vm'.state = vm.state ∨ vm'.state = .active ∨ vm'.state = .poweroff ∨
        vm'.state = .suspended)
  | keep (state : vm'.state = vm.state) (lcmState : vm'.lcmState = vm.lcmState)
      (last : vm'.lastAction = vm.lastAction)
  | close (kind : SavedKind) (running : vm.In .running) (state : vm'.state = .active)
      (stage : vm'.lcmState ∈ kind.stages) (closed : vm.history ≠ [] → vm'.ClosedBy kind)
  | go (kind : SavedKind) (before : vm.lcmState ∈ kind.stages) (stage : vm'.lcmState ∈ kind.stages)
      (state : vm'.state = vm.state) (last : vm'.lastAction = vm.lastAction)
  | fail (failure : action = .deployFailure)
      (before : vm.lcmState = .bootStopped ∨ vm.lcmState = .bootUndeploy)

namespace SaveStep

variable {action : LcmAction} {vm vm' : VirtualMachine}

theorem refl (action : LcmAction) (vm : VirtualMachine) : SaveStep action vm vm :=
  .keep rfl rfl rfl

/-- The VM enters a stage in which it is not saved. -/
theorem enter (l : LcmState) (stage : vm'.lcmState = l)
    (out : l ∉ SavedKind.stopped.stages ∧ l ∉ SavedKind.undeployed.stages)
    (state : vm'.state = vm.state ∨ vm'.state = .active ∨ vm'.state = .poweroff ∨
      vm'.state = .suspended := by exact .inl rfl) :
    SaveStep action vm vm' := by
  refine SaveStep.out (fun kind => ?_) state
  rw [stage]
  cases kind with
  | stopped => exact out.1
  | undeployed => exact out.2

end SaveStep

namespace VirtualMachine

variable (vm : VirtualMachine)

theorem lastAction_setLast {change : History → History} (same : ∀ h, (change h).action = h.action) :
    (vm.setLast change).lastAction = vm.lastAction := by
  unfold setLast lastAction
  cases vm.history with
  | nil => rfl
  | cons last rest => exact congrArg some (same last)

theorem lastAction_setReason (reason : EndReason) :
    (vm.setReason reason).lastAction = vm.lastAction :=
  vm.lastAction_setLast fun _ => rfl

theorem lastAction_setAction (action : VMAction) (placed : vm.history ≠ []) :
    (vm.setAction action).lastAction = some action := by
  unfold setAction setLast lastAction
  cases history : vm.history with
  | nil => exact absurd history placed
  | cons last rest => rfl

end VirtualMachine

namespace LifeCycleManager

open VirtualMachine (lastAction_setReason)

variable (vm : VirtualMachine) (action : LcmAction)

theorem saves_leaveRunning {lcmState : LcmState} (closed : VMAction) (command : VmmAction)
    (out : lcmState ∉ SavedKind.stopped.stages ∧ lcmState ∉ SavedKind.undeployed.stages) :
    SaveStep action vm (leaveRunning vm lcmState closed command).vm := by
  unfold leaveRunning
  split
  · exact .enter lcmState rfl out
  · exact .refl _ _

theorem saves_leaveRunning_close {lcmState : LcmState} (kind : SavedKind) (closed : VMAction)
    (command : VmmAction) (stage : lcmState ∈ kind.stages) (closes : kind.Closes closed) :
    SaveStep action vm (leaveRunning vm lcmState closed command).vm := by
  unfold leaveRunning
  split
  · rename_i running
    refine .close kind running running.1 stage fun placed => ⟨closed, ?_, closes⟩
    exact VirtualMachine.lastAction_setAction { vm with lcmState, resched := false } closed placed
  · exact .refl _ _

theorem state_cleanUpVm (dispose : Bool) : (cleanUpVm vm dispose).1.state = vm.state := by
  unfold cleanUpVm cleanUpSwitch
  cases vm.lcmState <;> rfl

theorem saves_cleanUpVm (dispose : Bool) :
    SaveStep action vm (cleanUpVm vm dispose).1 := by
  have stage := (stays_cleanUpVm vm dispose).2
  have state := state_cleanUpVm vm dispose
  cases dispose with
  | true => exact .enter .cleanupDelete stage (by decide) (.inl state)
  | false => exact .enter .cleanupResubmit stage (by decide) (.inl state)

theorem saves_startEpilogUndeploy (stage : vm.lcmState = .shutdownUndeploy) :
    SaveStep action vm (startEpilogUndeploy vm).vm := by
  refine .go .undeployed ?_
    (show LcmState.epilogUndeploy ∈ SavedKind.undeployed.stages by decide) rfl
    (lastAction_setReason _ _)
  rw [stage]
  decide

theorem saves_saveasHotEnd (done : Nat → Effect) :
    SaveStep action vm (saveasHotEnd vm done).vm := by
  obtain ⟨history, ⟨state, lcmState⟩ | ⟨state, lcmState⟩ | ⟨state, lcmState⟩⟩ :=
    saveasHotEnd_cases vm done
  · refine .keep state lcmState ?_
    rw [VirtualMachine.lastAction, VirtualMachine.lastAction, history]
  · exact .enter .running lcmState (by decide) (.inl state)
  · exact .enter .lcmInit lcmState (by decide) (.inr (.inr state))

/-- A VM is only saved by a stop or an undeployment, and its record is closed by it. -/
theorem saves_handler : SaveStep action vm (handler action vm).vm := by
  cases action with
  | saveSuccess =>
    simp only [handler, saveSuccessAction]
    split
    · exact .enter .prologMigrate rfl (by decide)
    · rename_i stage
      exact .enter .saveSuspend stage (by decide)
    · rename_i stage
      refine .go .stopped ?_ (show LcmState.epilogStop ∈ SavedKind.stopped.stages by decide) rfl
        (lastAction_setReason _ _)
      rw [stage]
      decide
    · exact .refl _ _
  | saveFailure =>
    simp only [handler, saveFailureAction]
    split <;> first | exact .refl _ _ | exact .enter .running rfl (by decide)
  | deploySuccess =>
    simp only [handler, deploySuccessAction]
    split <;> first | exact .refl _ _ | exact .enter .running rfl (by decide)
  | deployFailure =>
    simp only [handler, deployFailureAction]
    split
    · exact .enter .running rfl (by decide)
    · exact .enter .failure rfl (by decide)
    · exact .enter .unknown rfl (by decide)
    · exact .enter .lcmInit rfl (by decide) (.inr (.inr (.inl rfl)))
    · exact .enter .lcmInit rfl (by decide) (.inr (.inr (.inr rfl)))
    · rename_i stage
      exact .fail rfl (.inl stage)
    · rename_i stage
      exact .fail rfl (.inr stage)
    · exact .refl _ _
  | shutdownSuccess =>
    simp only [handler, shutdownSuccessAction]
    split
    · exact .enter .epilog rfl (by decide)
    · rename_i stage
      exact .enter .shutdownPoweroff stage (by decide)
    · rename_i stage
      exact saves_startEpilogUndeploy vm _ stage
    · exact .refl _ _
  | cancelSuccess =>
    simp only [handler, cancelSuccessAction]
    split
    · exact .enter .epilog rfl (by decide)
    · rename_i stage
      exact saves_startEpilogUndeploy vm _ stage
    · rename_i stage
      exact .enter .shutdownPoweroff stage (by decide)
    · exact .refl _ _
  | shutdownFailure | cancelFailure =>
    simp only [handler, shutdownFailureAction, cancelFailureAction]
    split <;> first | exact .refl _ _ | exact .enter .running rfl (by decide)
  | monitorFailure =>
    simp only [handler, monitorFailureAction]
    split <;> first | exact .refl _ _ | exact .enter .failure rfl (by decide)
  | monitorSuspend =>
    simp only [handler, monitorSuspendAction]
    split <;> first | exact .refl _ _ | exact .enter .saveSuspend rfl (by decide)
  | monitorDone =>
    simp only [handler, monitorDoneAction]
    split <;> first | exact .refl _ _ | exact .enter .unknown rfl (by decide)
  | prologSuccess =>
    simp only [handler, prologSuccessAction]
    split
    · exact .enter .boot rfl (by decide)
    · exact .enter .bootUndeploy rfl (by decide)
    · exact .enter .boot rfl (by decide)
    · exact .enter .bootStopped rfl (by decide)
    · exact .refl _ _
  | prologFailure =>
    simp only [handler, prologFailureAction]
    split
    · exact .enter .failure rfl (by decide)
    · exact .enter .failure rfl (by decide)
    · rename_i stage
      exact .enter .prologResume stage (by decide)
    · rename_i stage
      exact .enter .prologUndeploy stage (by decide)
    · exact .refl _ _
  | epilogSuccess =>
    simp only [handler, epilogSuccessAction]
    split <;> exact .refl _ _
  | epilogFailure =>
    simp only [handler, epilogFailureAction]
    split <;> first | exact .refl _ _ | exact .enter .failure rfl (by decide)
  | cleanupSuccess | cleanupFailure | detachNicFailure =>
    simp only [handler, cleanupCallbackAction]
    split <;> exact .refl _ _
  | attachSuccess | detachFailure =>
    simp only [handler, detachFailureAction, attachSuccessAction]
    split <;> first | exact .refl _ _ | exact .enter .running rfl (by decide)
  | attachFailure | detachSuccess =>
    simp only [handler, detachSuccessAction, attachFailureAction]
    split <;> first | exact .refl _ _ | exact .enter .running rfl (by decide)
  | attachNicSuccess =>
    simp only [handler, attachNicSuccessAction]
    split <;> first | exact .refl _ _ | exact .enter .running rfl (by decide)
  | attachNicFailure | detachNicSuccess =>
    simp only [handler, detachNicSuccessAction, attachNicFailureAction]
    split <;> first | exact .refl _ _ | exact .enter .running rfl (by decide)
  | snapshotCreateSuccess | snapshotRevertSuccess | snapshotRevertFailure
  | snapshotDeleteFailure =>
    simp only [handler, snapshotCreateSuccess, snapshotRevertSuccess, snapshotRevertFailure,
      snapshotDeleteFailure, keepActiveSnapshot]
    split <;> first | exact .refl _ _ | exact .enter .running rfl (by decide)
  | snapshotCreateFailure | snapshotDeleteSuccess =>
    simp only [handler, snapshotCreateFailure, snapshotDeleteSuccess, dropActiveSnapshot]
    split <;> first | exact .refl _ _ | exact .enter .running rfl (by decide)
  | saveasHotSuccess => exact saves_saveasHotEnd vm _ _
  | saveasHotFailure => exact saves_saveasHotEnd vm _ _
  | deploy =>
    simp only [handler, deployAction]
    split
    · split
      · exact .enter .prologResume rfl (by decide)
      · exact .enter .prologUndeploy rfl (by decide)
      · exact .enter .prologUndeploy rfl (by decide)
      · exact .enter .prolog rfl (by decide)
    · exact .refl _ _
  | suspend => exact saves_leaveRunning _ _ _ _ (by decide)
  | stop => exact saves_leaveRunning_close _ _ .stopped _ _ (by decide) rfl
  | cancel => exact saves_leaveRunning _ _ _ _ (by decide)
  | shutdown => exact saves_leaveRunning _ _ _ _ (by decide)
  | undeploy => exact saves_leaveRunning_close _ _ .undeployed _ _ (by decide) (.inl rfl)
  | undeployHard => exact saves_leaveRunning_close _ _ .undeployed _ _ (by decide) (.inr rfl)
  | poweroff => exact saves_leaveRunning _ _ _ _ (by decide)
  | poweroffHard => exact saves_leaveRunning _ _ _ _ (by decide)
  | migrate =>
    simp only [handler, migrateAction, moveRunning]
    split <;> first | exact .refl _ _ | exact .enter .saveMigrate rfl (by decide)
  | liveMigrate =>
    simp only [handler, liveMigrateAction, moveRunning]
    split <;> first | exact .refl _ _ | exact .enter .migrate rfl (by decide)
  | restore =>
    simp only [handler, restoreAction]
    split <;> first | exact .refl _ _ | exact .enter .bootSuspended rfl (by decide) (.inr (.inl rfl))
  | restart =>
    simp only [handler, restartAction]
    split
    · split <;> first | exact .refl _ _ | exact .enter .bootUnknown rfl (by decide)
    · split <;> first | exact .refl _ _ | exact .enter .bootPoweroff rfl (by decide) (.inr (.inl rfl))
  | delete =>
    simp only [handler, deleteAction]
    split
    · split <;> first
        | exact .enter .cleanupDelete rfl (by decide)
        | exact saves_cleanUpVm _ _ true
    · exact .refl _ _
  | clean =>
    simp only [handler, cleanAction]
    split
    · split <;> first
        | exact .refl _ _
        | exact .enter .cleanupResubmit rfl (by decide)
        | exact saves_cleanUpVm _ _ false
    · exact .refl _ _
  | finalize => exact .refl _ _

/-- A VM that waits is left alone, or is taken up. -/
theorem handler_waiting {vm : VirtualMachine} (action : LcmAction) (waiting : vm.Waiting)
    (init : vm.lcmState = .lcmInit) :
    ((handler action vm).vm.state = vm.state ∧ (handler action vm).vm.lcmState = .lcmInit ∧
        (handler action vm).vm.history = vm.history) ∨
      (handler action vm).vm.state = .active ∧ (handler action vm).vm.lcmState ≠ .lcmInit := by
  rcases vm with ⟨_, _, _, state, lcmState, _, _, history, disks, _, _⟩
  cases init
  have cases_state : state = .active ∨ state = .stopped ∨ state = .undeployed ∨
      state = .pending ∨ state = .hold := by
    rcases waiting with before | ⟨active, -⟩
    · simp only [List.mem_cons, List.not_mem_nil, or_false] at before
      exact .inr before
    · exact .inl active
  clear waiting
  cases action with
  | deploy =>
    rcases cases_state with rfl | rfl | rfl | rfl | rfl
    · refine .inr ?_
      simp only [handler, deployAction, if_true]
      split <;> exact ⟨rfl, LcmState.noConfusion⟩
    all_goals exact .inl ⟨rfl, rfl, rfl⟩
  | delete | clean =>
    rcases cases_state with rfl | rfl | rfl | rfl | rfl
    · exact .inr ⟨rfl, LcmState.noConfusion⟩
    all_goals exact .inl ⟨rfl, rfl, rfl⟩
  | saveasHotSuccess | saveasHotFailure =>
    simp only [handler, saveasHotSuccessAction, saveasHotFailureAction, saveasHotEnd,
      VirtualMachine.getSaveasDiskHot]
    cases disks.find? Disk.hotplugSaveAsActive <;> exact .inl ⟨rfl, rfl, rfl⟩
  | _ => rcases cases_state with rfl | rfl | rfl | rfl | rfl <;> exact .inl ⟨rfl, rfl, rfl⟩

end LifeCycleManager

/-! ## The invariant -/

/-- The record that tells the life-cycle manager how the VM was saved: the current one, and
after a deployment the one before it. -/
def VirtualMachine.SavedAs (vm : VirtualMachine) (kind : SavedKind) : Prop :=
  (vm.state ≠ .active → vm.ClosedBy kind) ∧
    (vm.state = .active → ∃ action, vm.previousAction = some action ∧ kind.Closes action)

/-- The record of a saved VM stays closed until the VM is resumed. -/
structure ResumeInv (vm : VirtualMachine) (saved : Option SavedKind) : Prop where
  waiting : vm.Waiting → vm.lcmState = .lcmInit
  saving : ∀ kind : SavedKind, vm.lcmState ∈ kind.stages → vm.state = .active ∧ vm.ClosedBy kind
  saved : ∀ kind, saved = some kind → vm.Waiting ∧ vm.SavedAs kind

section Invariant

variable {s : LifeState} {saved : Option SavedKind} {vm vm' : VirtualMachine} {l : LifeLabel}
  {kind : SavedKind}

theorem SavedKind.stages_ne {kind : SavedKind} {lcmState : LcmState}
    (saving : lcmState ∈ kind.stages) :
    lcmState = .saveStop ∨ lcmState = .epilogStop ∨ lcmState = .shutdownUndeploy ∨
      lcmState = .epilogUndeploy := by
  cases kind <;> simp only [stages, List.mem_cons, List.not_mem_nil, or_false] at saving
  · exact saving.elim .inl fun h => .inr (.inl h)
  · exact .inr (.inr saving)

/-- No stage saves the VM in both ways. -/
theorem SavedKind.closedBy_of_mem {kind' : SavedKind}
    (saving : vm.lcmState ∈ kind.stages) (saving' : vm.lcmState ∈ kind'.stages)
    (closed : vm.ClosedBy kind') : vm.ClosedBy kind := by
  have same : kind = kind' := by
    have stages := SavedKind.stages_ne saving
    revert saving saving'
    cases kind <;> cases kind' <;> rcases stages with h | h | h | h <;> rw [h] <;> decide
  exact same ▸ closed

/-- The actions of the records are all that is looked at. -/
theorem VirtualMachine.actions_congr
    (actions : vm'.history.map History.action = vm.history.map History.action) :
    vm'.lastAction = vm.lastAction ∧ vm'.previousAction = vm.previousAction := by
  constructor
  · rw [lastAction, lastAction, ← List.head?_map, ← List.head?_map, actions]
  · rw [previousAction, previousAction, ← List.head?_map, ← List.head?_map, List.map_tail,
      List.map_tail, actions]

theorem VirtualMachine.SavedAs.congr (as : vm.SavedAs kind)
    (actions : vm'.history.map History.action = vm.history.map History.action)
    (state : vm'.state = .active ↔ vm.state = .active) : vm'.SavedAs kind := by
  obtain ⟨last, previous⟩ := actions_congr actions
  unfold SavedAs ClosedBy at *
  rw [last, previous, ne_eq, state]
  exact as

theorem VirtualMachine.ClosedBy.congr (closed : vm.ClosedBy kind)
    (last : vm'.lastAction = vm.lastAction) : vm'.ClosedBy kind := by
  unfold ClosedBy
  rw [last]
  exact closed

/-- The states of the VM, the actions of its records and what is remembered are the same. -/
theorem ResumeInv.congr {saved' : Option SavedKind} (inv : ResumeInv vm saved)
    (state : vm'.state = vm.state) (lcmState : vm'.lcmState = vm.lcmState)
    (actions : vm'.history.map History.action = vm.history.map History.action)
    (keep : ∀ kind, saved' = some kind → saved = some kind) : ResumeInv vm' saved' := by
  have waits : vm'.Waiting ↔ vm.Waiting := by
    unfold VirtualMachine.Waiting VirtualMachine.In
    rw [state, lcmState]
  obtain ⟨last, -⟩ := VirtualMachine.actions_congr actions
  refine ⟨fun waiting => lcmState.trans (inv.waiting (waits.mp waiting)), ?_, ?_⟩
  · intro kind saving
    rw [lcmState] at saving
    obtain ⟨active, closed⟩ := inv.saving kind saving
    exact ⟨state.trans active, closed.congr last⟩
  · intro kind some_kind
    obtain ⟨waiting, as⟩ := inv.saved kind (keep kind some_kind)
    exact ⟨waits.mpr waiting, as.congr actions (by rw [state])⟩

/-- The VM and what is remembered of it are the same. -/
theorem ResumeInv.same {saved' : Option SavedKind} (inv : ResumeInv vm saved)
    (state : vm'.state = vm.state) (lcmState : vm'.lcmState = vm.lcmState)
    (history : vm'.history = vm.history) (keep : ∀ kind, saved' = some kind → saved = some kind) :
    ResumeInv vm' saved' :=
  inv.congr state lcmState (congrArg _ history) keep

/-- What a quiet step does to a VM that waits. -/
theorem Quiet.waiting (quiet : Quiet vm vm') (init : vm.Waiting → vm.lcmState = .lcmInit)
    (waiting : vm'.Waiting) :
    vm'.lcmState = .lcmInit ∧ (vm.Waiting → (vm'.state = .active ↔ vm.state = .active)) := by
  -- a VM that was not active has left no stage
  have notActive (state : vm'.state ≠ .active) :
      vm'.state ∈ ([.stopped, .undeployed, .pending, .hold] : List VmState) :=
    waiting.elim id fun running => absurd running.1 state
  cases quiet.1 with
  | stay state lcmState =>
    refine ⟨?_, fun _ => by rw [state]⟩
    rcases waiting with before | running
    · rw [state] at before
      exact lcmState.trans (init (.inl before))
    · exact running.2
  | wait before state lcmState =>
    have was : vm.Waiting := by
      refine .inl ?_
      simp only [List.mem_cons, List.not_mem_nil, or_false] at before ⊢
      tauto
    refine ⟨lcmState.elim (fun same => same.trans (init was)) id, fun _ => iff_of_false ?_ ?_⟩
    · rcases state with h | h <;> rw [h] <;> exact VmState.noConfusion
    · intro active
      simp [active] at before
  | done before state lcmState =>
    have mem := notActive (by rw [state]; exact VmState.noConfusion)
    simp [state] at mem
  | resubmit before state lcmState =>
    rcases waiting with mem | running
    · simp [state] at mem
    · cases lcmState.symm.trans running.2
  | hotplug running state lcmState =>
    rcases waiting with mem | initial
    · simp [state] at mem
    · simp [initial.2] at lcmState
  | copy before state =>
    rcases waiting with mem | initial
    · simp [state] at mem
    · rcases before with ⟨-, h⟩ | ⟨-, h⟩ <;> cases h.symm.trans initial.2
  | copied before state lcmState =>
    rcases waiting with mem | initial
    · rw [state] at mem
      cases before.symm.trans (init (.inl mem))
    · cases lcmState.symm.trans initial.2
  | copiedAsleep before lcmState =>
    rcases waiting with mem | initial
    · rcases before with ⟨-, h⟩ | ⟨-, h⟩ <;> simp [h] at mem
    · rcases before with ⟨-, h⟩ | ⟨-, h⟩ <;> cases h.symm.trans initial.1
  | found before state lcmState =>
    rcases waiting with mem | initial
    · rw [state] at mem
      cases before.symm.trans (init (.inl mem))
    · cases lcmState.symm.trans initial.2

/-- A quiet step starts no save. -/
theorem Quiet.saving (quiet : Quiet vm vm')
    (before : vm.lcmState ∈ kind.stages → vm.state = .active)
    (saving : vm'.lcmState ∈ kind.stages) :
    vm.lcmState ∈ kind.stages ∧ vm'.state = vm.state := by
  have stages := SavedKind.stages_ne saving
  cases quiet.1 with
  | stay state lcmState => exact ⟨lcmState ▸ saving, state⟩
  | wait from_state state lcmState =>
    rcases lcmState with same | init
    · rw [same] at saving
      simp [before saving] at from_state
    · simp [init] at stages
  | done _ _ lcmState => simp [lcmState] at stages
  | resubmit _ _ lcmState => simp [lcmState] at stages
  | hotplug _ _ lcmState =>
    simp only [List.mem_cons, List.not_mem_nil, or_false] at lcmState
    rcases lcmState with h | h | h | h <;> simp [h] at stages
  | copy from_state => rcases from_state with ⟨-, h⟩ | ⟨-, h⟩ <;> simp [h] at stages
  | copied _ _ lcmState => simp [lcmState] at stages
  | copiedAsleep _ lcmState => simp [lcmState] at stages
  | found _ _ lcmState => simp [lcmState] at stages

theorem rememberSaved_locked (locked : s.locked = true) : rememberSaved s l saved = saved :=
  if_pos locked

/-- Only the dispatch manager saves a VM. -/
theorem rememberSaved_some (unlocked : s.locked = false) (other : l ≠ .dm)
    (some_kind : rememberSaved s l saved = some kind) :
    saved = some kind ∧ (s.next l).vm.Waiting := by
  unfold rememberSaved at some_kind
  rw [unlocked, if_neg Bool.false_ne_true] at some_kind
  split at some_kind
  · exact absurd rfl other
  · split at some_kind
    · rename_i both
      exact ⟨some_kind, both.2⟩
    · cases some_kind
  · split at some_kind
    · rename_i waiting
      exact ⟨some_kind, waiting⟩
    · cases some_kind

/-- A quiet step. -/
theorem ResumeInv.quiet (inv : ResumeInv s.vm saved) (unlocked : s.locked = false)
    (quiet : l.isQuiet = true) : ResumeInv (s.next l).vm (rememberSaved s l saved) := by
  have shift := s.quiet_next quiet
  refine ⟨fun waiting => (shift.waiting inv.waiting waiting).1, ?_, ?_⟩
  · intro kind saving
    obtain ⟨was, state⟩ := shift.saving (fun stage => (inv.saving kind stage).1) saving
    obtain ⟨active, closed⟩ := inv.saving kind was
    refine ⟨state.trans active, closed.congr ?_⟩
    rw [VirtualMachine.lastAction, VirtualMachine.lastAction, shift.2]
  · intro kind some_kind
    have other : l ≠ .dm := by
      rintro rfl
      cases quiet
    obtain ⟨before, waiting⟩ := rememberSaved_some unlocked other some_kind
    obtain ⟨was, as⟩ := inv.saved kind before
    exact ⟨waiting, as.congr (congrArg _ shift.2) ((shift.waiting inv.waiting waiting).2 was)⟩

/-- An event of the life-cycle manager. -/
theorem ResumeInv.lcm (inv : ResumeInv s.vm saved) (placed : s.vm.history = [] → Unplaced s)
    (goesOn : s.ResumeGoesOn .lcm) : ResumeInv (s.next .lcm).vm (rememberSaved s .lcm saved) := by
  rcases s.lcm_next with ⟨event, rest, unlocked, queue, eq⟩ | ⟨idle, eq⟩
  · have vm_eq : (s.next .lcm).vm = (LifeCycleManager.handler event.action s.vm).vm := by
      rw [eq, LifeState.apply_vm]
    have step := LifeCycleManager.saves_handler s.vm event.action
    have left := @LifeCycleManager.handler_waiting s.vm event.action
    rw [← vm_eq] at step left
    -- a resume that fails is excluded
    have boots (failure : event.action = .deployFailure)
        (before : s.vm.lcmState = .bootStopped ∨ s.vm.lcmState = .bootUndeploy) : False := by
      refine goesOn.booted rfl ?_ before
      rw [queue, List.head?_cons, Option.map_some, failure]
    refine ⟨?_, ?_, ?_⟩
    · rintro (mem | running)
      · have was : s.vm.Waiting := by
          refine .inl ?_
          cases step with
          | out saving state =>
            rcases state with state | state | state | state
            · exact state ▸ mem
            all_goals simp [state] at mem
          | keep state => exact state ▸ mem
          | close kind running state => simp [state] at mem
          | go kind before stage state => exact state ▸ mem
          | fail failure before => exact (boots failure before).elim
        rcases left was (inv.waiting was) with ⟨-, init, -⟩ | ⟨active, -⟩
        · exact init
        · simp [active] at mem
      · exact running.2
    · intro kind saving
      cases step with
      | out still => exact absurd saving (still kind)
      | keep state lcmState last =>
        obtain ⟨active, closed⟩ := inv.saving kind (lcmState ▸ saving)
        exact ⟨state.trans active, closed.congr last⟩
      | close kind' running state stage closed =>
        have placed_once : s.vm.history ≠ [] := by
          intro blank
          cases (placed blank).lcmState.symm.trans running.2
        exact ⟨state, SavedKind.closedBy_of_mem saving stage (closed placed_once)⟩
      | go kind' before stage state last =>
        obtain ⟨active, closed⟩ := inv.saving kind' before
        exact ⟨state.trans active, SavedKind.closedBy_of_mem saving stage (closed.congr last)⟩
      | fail failure before => exact (boots failure before).elim
    · intro kind some_kind
      obtain ⟨before, waiting⟩ := rememberSaved_some unlocked LifeLabel.noConfusion some_kind
      obtain ⟨was, as⟩ := inv.saved kind before
      rcases left was (inv.waiting was) with ⟨state, -, history⟩ | ⟨active, entered⟩
      · exact ⟨waiting, as.congr (congrArg _ history) (by rw [state])⟩
      · rcases waiting with mem | running
        · simp [active] at mem
        · exact absurd running.2 entered
  · have keep (kind : SavedKind) (some_kind : rememberSaved s .lcm saved = some kind) :
        saved = some kind := by
      rcases Bool.eq_false_or_eq_true s.locked with locked | unlocked
      · exact (rememberSaved_locked locked).symm.trans some_kind
      · exact (rememberSaved_some unlocked LifeLabel.noConfusion some_kind).1
    rw [eq]
    exact inv.same rfl rfl rfl keep

/-- An event of the dispatch manager: the only way to be saved. -/
theorem ResumeInv.dm (inv : ResumeInv s.vm saved) (goesOn : s.ResumeGoesOn .dm) :
    ResumeInv (s.next .dm).vm (rememberSaved s .dm saved) := by
  rcases s.dm_next with ⟨action, rest, unlocked, queue, eq⟩ | ⟨idle, eq⟩
  · have head : s.dmQueue.head? = some action := by rw [queue, List.head?_cons]
    have vm_eq : (s.next .dm).vm = (DispatchManager.handler action s.vm).vm := by
      rw [eq, LifeState.apply_vm]
    have remembered : rememberSaved s .dm saved =
        if action = .stopSuccess ∧ (s.vm.In .epilogStop ∨ s.vm.In .prologResume) then
          some .stopped
        else if action = .undeploySuccess ∧
            (s.vm.In .epilogUndeploy ∨ s.vm.In .prologUndeploy) then some .undeployed
        else if (s.next .dm).vm.Waiting then saved
        else none := by
      simp only [rememberSaved, unlocked, Bool.false_eq_true, if_false, head, Option.some.injEq]
    rcases DispatchManager.handler_cases action s.vm with ⟨takes, after, -⟩ | ⟨dropped, after, -⟩
    · rw [← vm_eq] at after
      have init : (s.next .dm).vm.lcmState = .lcmInit := by rw [after]
      have state : (s.next .dm).vm.state = action.state := by rw [after]
      have last : (s.next .dm).vm.lastAction = s.vm.lastAction := by rw [after]; rfl
      have saved_as (kind : SavedKind) (waiting : (s.next .dm).vm.Waiting)
          (inactive : (s.next .dm).vm.state ≠ .active) (closed : s.vm.ClosedBy kind) :
          (s.next .dm).vm.Waiting ∧ (s.next .dm).vm.SavedAs kind :=
        ⟨waiting, fun _ => closed.congr last, fun active => absurd active inactive⟩
      refine ⟨fun _ => init, fun kind saving => ?_, fun kind some_kind => ?_⟩
      · rcases SavedKind.stages_ne saving with h | h | h | h <;> cases init.symm.trans h
      · rw [remembered] at some_kind
        split at some_kind
        · rename_i stopped
          obtain ⟨rfl, stage⟩ := stopped
          cases some_kind
          rcases stage with epilog | prolog
          · refine saved_as .stopped (.inl ?_) ?_ (inv.saving .stopped ?_).2
            · rw [state]; decide
            · rw [state]; decide
            · rw [epilog.2]; decide
          · exact absurd prolog (goesOn.stopped rfl head)
        · split at some_kind
          · rename_i undeployed
            obtain ⟨rfl, stage⟩ := undeployed
            cases some_kind
            rcases stage with epilog | prolog
            · refine saved_as .undeployed (.inl ?_) ?_ (inv.saving .undeployed ?_).2
              · rw [state]; decide
              · rw [state]; decide
              · rw [epilog.2]; decide
            · exact absurd prolog (goesOn.undeployed rfl head)
          · split at some_kind
            · obtain ⟨was, -⟩ := inv.saved kind some_kind
              exact absurd (inv.waiting was) (action.lcmState_of_takes takes)
            · cases some_kind
    · rw [← vm_eq] at after
      rw [after]
      refine inv.same rfl rfl rfl fun kind some_kind => ?_
      rw [remembered] at some_kind
      split at some_kind
      · rename_i stopped
        obtain ⟨rfl, stage⟩ := stopped
        exact absurd stage dropped
      · split at some_kind
        · rename_i undeployed
          obtain ⟨rfl, stage⟩ := undeployed
          exact absurd stage dropped
        · split at some_kind
          · exact some_kind
          · cases some_kind
  · rw [eq]
    refine inv.same rfl rfl rfl fun kind some_kind => ?_
    rcases idle with locked | empty
    · exact (rememberSaved_locked locked).symm.trans some_kind
    · rcases Bool.eq_false_or_eq_true s.locked with locked | unlocked
      · exact (rememberSaved_locked locked).symm.trans some_kind
      · simp only [rememberSaved, unlocked, Bool.false_eq_true, if_false, empty, List.head?_nil,
          reduceCtorEq, false_and] at some_kind
        split at some_kind
        · exact some_kind
        · cases some_kind

/-- The end of a set-up. -/
theorem ResumeInv.setUp (inv : ResumeInv s.vm saved) (unlocked : s.locked = false)
    (setUp : (∃ disk, l = .setUpDisk disk) ∨ ∃ nic, l = .setUpNic nic)
    (fails : s.SetUpFails l → ¬ s.vm.Waiting) :
    ResumeInv (s.next l).vm (rememberSaved s l saved) := by
  have other : l ≠ .dm := by rcases setUp with ⟨disk, rfl⟩ | ⟨nic, rfl⟩ <;> exact LifeLabel.noConfusion
  obtain ⟨history, state, same | ⟨running, failed⟩⟩ := s.setUp_next setUp
  · exact inv.same state same history fun kind some_kind =>
      (rememberSaved_some unlocked other some_kind).1
  · refine ⟨fun waiting => ?_, fun kind saving => ?_, fun kind some_kind => ?_⟩
    · rcases waiting with mem | initial
      · rw [state] at mem
        exact absurd (.inl mem) (fails failed)
      · exact initial.2
    · rcases SavedKind.stages_ne saving with h | h | h | h <;> cases running.symm.trans h
    · have before := (rememberSaved_some unlocked other some_kind).1
      exact absurd (inv.saved kind before).1 (fails failed)

/-- A placement that is taken. -/
theorem ResumeInv.place {placement : Placement} (inv : ResumeInv s.vm saved)
    (unlocked : s.locked = false) (other : l ≠ .dm) (takes : placement.Takes s.vm)
    (taken : (s.next l).vm = (placement.commit s.vm true).outcome.vm) :
    ResumeInv (s.next l).vm (rememberSaved s l saved) := by
  rw [Placement.commit_of_takes takes] at taken
  have state : (s.next l).vm.state = .active := by rw [taken]
  have lcmState : (s.next l).vm.lcmState = s.vm.lcmState := by rw [taken]; rfl
  have out : s.vm.lcmState = .lcmInit ∨ s.vm.lcmState = .running := by
    rcases placement with ⟨kind, hid⟩
    cases kind with
    | deploy => exact .inl (inv.waiting (.inl (by rcases takes with h | h <;> rw [h] <;> decide)))
    | migrate | liveMigrate => exact .inr takes.2
  refine ⟨fun waiting => ?_, fun kind saving => ?_, fun kind some_kind => ?_⟩
  · rcases waiting with mem | initial
    · simp [state] at mem
    · exact initial.2
  · rw [lcmState] at saving
    rcases SavedKind.stages_ne saving with h | h | h | h <;> rw [h] at out <;>
      rcases out with h | h <;> cases h
  · obtain ⟨before, waiting⟩ := rememberSaved_some unlocked other some_kind
    obtain ⟨was, closed, -⟩ := inv.saved kind before
    have inactive : s.vm.state ≠ .active := by
      intro active
      rcases placement with ⟨kind, hid⟩
      cases kind with
      | deploy => rcases takes with h | h <;> cases active.symm.trans h
      | migrate | liveMigrate => cases (inv.waiting was).symm.trans takes.2
    obtain ⟨action, last, closes⟩ := closed inactive
    refine ⟨waiting, fun inactive => absurd state inactive, fun _ => ⟨action, ?_, closes⟩⟩
    rw [taken]
    show (s.vm.addHistory placement.hid).previousAction = some action
    unfold VirtualMachine.lastAction at last
    unfold VirtualMachine.addHistory VirtualMachine.previousAction
    cases history : s.vm.history with
    | nil => rw [history] at last; cases last
    | cons record rest => rw [history] at last; exact last

theorem ResumeInv.next (inv : ResumeInv s.vm saved) (placed : s.vm.history = [] → Unplaced s)
    (unbroken : Unbroken (s, saved) l) : ResumeInv (s.next l).vm (rememberSaved s l saved) := by
  rcases Bool.eq_false_or_eq_true s.locked with locked | unlocked
  · have stuck : s.next l = s := if_pos locked
    rw [stuck, rememberSaved_locked locked]
    exact inv
  · obtain ⟨goesOn, inTime, setUp⟩ := unbroken unlocked
    have idle (other : l ≠ .dm) (eq : (s.next l).vm = s.vm) :
        ResumeInv (s.next l).vm (rememberSaved s l saved) := by
      rw [eq]
      exact inv.same rfl rfl rfl fun kind some_kind =>
        (rememberSaved_some unlocked other some_kind).1
    cases quiet : l.isQuiet with
    | true => exact inv.quiet unlocked quiet
    | false =>
      cases l with
      | lcm => exact inv.lcm placed goesOn
      | dm => exact inv.dm goesOn
      | setUpDisk disk => exact inv.setUp unlocked (.inl ⟨disk, rfl⟩) setUp
      | setUpNic nic => exact inv.setUp unlocked (.inr ⟨nic, rfl⟩) setUp
      | commit placement stored =>
        rcases s.commit_next placement stored with ⟨-, there, eq⟩ | ⟨-, eq⟩
        · obtain ⟨takes, rfl⟩ := inTime unlocked there
          exact inv.place unlocked LifeLabel.noConfusion takes (by rw [eq]; rfl)
        · exact idle LifeLabel.noConfusion (by rw [eq])
      | place placement enforce stored =>
        rcases s.place_next placement enforce stored with
          ⟨⟨-, takes, kind, now, checked⟩, eq⟩ | ⟨-, eq | eq⟩
        · obtain rfl : stored = true := inTime unlocked kind now checked
          exact inv.place unlocked LifeLabel.noConfusion takes (by rw [eq]; rfl)
        · exact idle LifeLabel.noConfusion (by rw [eq])
        · exact idle LifeLabel.noConfusion (by rw [eq])
      | request | giveUp | attach | attachNic | saveDisk | saveDiskImage | answer | unsent | poll
      | monitor | recover => cases quiet

end Invariant

/-! ## Resuming -/

theorem LifeState.Initial.resumeInv {s : LifeState} (initial : s.Initial) :
    ResumeInv s.vm none := by
  refine ⟨fun _ => initial.lcmState, fun kind saving => ?_, fun kind some_kind => ?_⟩
  · rcases SavedKind.stages_ne saving with h | h | h | h <;> cases initial.lcmState.symm.trans h
  · cases some_kind

/-- A saved VM is resumed when it is deployed again. -/
theorem ResumeInv.resumed {s : LifeState} {saved : Option SavedKind} (inv : ResumeInv s.vm saved)
    (unlocked : s.locked = false) {event : LcmEvent} {rest : List LcmEvent}
    (queue : s.lcmQueue = event :: rest) (deploy : event.action = .deploy)
    (active : s.vm.state = .active) {kind : SavedKind} (as : saved = some kind) :
    (s.next .lcm).vm.lcmState = kind.resumeStage := by
  obtain ⟨-, -, previous⟩ := inv.saved kind as
  obtain ⟨action, closed, closes⟩ := previous active
  rcases s.lcm_next with ⟨event', rest', -, queue', eq⟩ | ⟨locked | empty, -⟩
  · cases queue.symm.trans queue'
    rw [eq, LifeState.apply_vm, deploy]
    simp only [LifeCycleManager.handler, LifeCycleManager.deployAction, active, if_true, closed]
    cases kind with
    | stopped =>
      cases closes
      rfl
    | undeployed => rcases closes with rfl | rfl <;> rfl
  · cases unlocked.symm.trans locked
  · cases queue.symm.trans empty

end Ezilla
