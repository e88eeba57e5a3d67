import Ezilla.Lcm.ResumeRuns
import Ezilla.Lcm.StepOutcomes

/-!
# Deleted VMs

A VM that is deleted, or deleted and created again, waits in a clean-up stage until the
dispatch manager takes it to DONE or PENDING. The life-cycle manager picks the command that
removes its files from the stage it finds the VM in.

* `LifeState.Ending`: something is under way that takes the VM to a state, whatever is
  answered;
* `LifeState.Orderly`: the VM is found in a stage that is cleaned up, and the clean-up is not
  disturbed;
* `cleaned_up_of_reached`: in the runs of such steps every clean-up ends, and it leaves no files;
* `undeployment_stranded`: a VM that is being undeployed is not cleaned up.
-/

namespace Ezilla

/-- The stages of a clean-up. -/
def LcmState.isCleanUp : LcmState → Bool
  | .cleanupDelete | .cleanupResubmit => true
  | _ => false

namespace VirtualMachine

variable (vm : VirtualMachine)

/-- The VM is in a clean-up stage. -/
def CleaningUp : Prop := vm.lcmState.isCleanUp = true

instance : Decidable vm.CleaningUp := inferInstanceAs (Decidable (_ = _))

variable {vm} in
theorem cleaningUp_of {l : LcmState} (stage : vm.lcmState = l) (cleanUp : l.isCleanUp = true) :
    vm.CleaningUp := by
  rw [CleaningUp, stage, cleanUp]

variable {vm} in
theorem not_cleaningUp {l : LcmState} (stage : vm.lcmState = l) (out : l.isCleanUp = false) :
    ¬ vm.CleaningUp := by
  rw [CleaningUp, stage, out]
  exact Bool.false_ne_true

/-- The hosts with files of an active VM. A VM that was not taken up yet has none, and the
disks of one that is saved to be migrated are still where it was. -/
def fileHosts : List (Option Nat) :=
  match vm.lcmState with
  | .lcmInit | .cleanupDelete | .cleanupResubmit => []
  | .saveMigrate => [vm.previousHid]
  | .migrate | .prologMigrate => [vm.hid, vm.previousHid]
  | _ => [vm.hid]

end VirtualMachine

/-! ## What is under way -/

namespace Command

/-- The hosts a clean-up command removes the files of the VM from. The command for both hosts
cancels the VM on both of them, and removes the files of the current one. -/
def cleanedHosts (vm : VirtualMachine) : Command → List (Option Nat)
  | .vmm .cleanup | .vmm .cleanupBoth | .tm .epilogDelete => [vm.hid]
  | .vmm .cleanupPrevious | .tm .epilogDeletePrevious => [vm.previousHid]
  | .tm .epilogDeleteBoth => [vm.hid, vm.previousHid]
  | _ => []

/-- The commands of a clean-up. -/
def cleansUp : Command → Bool
  | .vmm .cleanup | .vmm .cleanupBoth | .vmm .cleanupPrevious | .tm .epilogDelete
  | .tm .epilogDeleteBoth => true
  | _ => false

end Command

/-- The events of their answers. -/
def LcmAction.answersCleanUp : LcmAction → Bool
  | .epilogSuccess | .epilogFailure | .cleanupSuccess | .cleanupFailure => true
  | _ => false

/-- An event of the dispatch manager that takes the VM to a state. -/
def DmAction.Ends (vm : VirtualMachine) (state : VmState) (action : DmAction) : Prop :=
  (DispatchManager.handler action vm).vm.state = state ∧
    (DispatchManager.handler action vm).unlocked = true

/-- An event that only asks the dispatch manager for that. -/
def LcmAction.Ends (vm : VirtualMachine) (state : VmState) (action : LcmAction) : Prop :=
  ∃ next : DmAction, LifeCycleManager.handler action vm = { vm, effects := [.dm next] } ∧
    next.Ends vm state

/-- A command whose answers all do, and its failure to be sent. -/
def Command.Ends (vm : VirtualMachine) (state : VmState) (command : Command) : Prop :=
  (∀ success info poll, ∃ action : LcmAction,
      command.answer vm success info poll = { vm, effects := [.lcm action] } ∧
        action.Ends vm state) ∧
    ∃ action, command.failure? = some action ∧ action.Ends vm state

namespace LifeState

variable (s : LifeState)

/-- Something is under way that takes the VM to a state. -/
inductive Ending (state : VmState) : Prop where
  | dm (action : DmAction) (queued : action ∈ s.dmQueue) (ends : action.Ends s.vm state)
  | lcm (event : LcmEvent) (queued : event ∈ s.lcmQueue) (ends : event.action.Ends s.vm state)
  | command (entry : Nat × Command) (sent : entry ∈ s.commands) (ends : entry.2.Ends s.vm state)

/-- The event of the life-cycle manager that is handled. -/
def lcmEvent? : LifeLabel → Option LcmAction
  | .lcm => s.lcmQueue.head?.map LcmEvent.action
  | _ => none

/-- The event of the dispatch manager that is handled. -/
def dmEvent? : LifeLabel → Option DmAction
  | .dm => s.dmQueue.head?
  | _ => none

/-- The VM is found in a stage that is cleaned up, and nothing disturbs a clean-up. -/
structure Orderly (l : LifeLabel) : Prop where
  found : s.lcmEvent? l = some .delete ∨ s.lcmEvent? l = some .clean →
    ¬ s.vm.In .shutdownUndeploy ∧ ¬ s.vm.In .migrate
  started : s.lcmEvent? l = some .clean → ¬ s.vm.In .lcmInit
  deployed : s.lcmEvent? l = some .deploy → ¬ s.vm.CleaningUp
  failed : s.dmEvent? l = some .failed → ¬ s.vm.CleaningUp
  resubmitted : s.dmEvent? l = some .resubmit → s.vm.lcmState ≠ .cleanupDelete
  setUp : s.SetUpFails l → ¬ s.vm.CleaningUp
  placed : s.vm.CleaningUp → s.InTime l

instance (l : LifeLabel) : Decidable (s.Orderly l) :=
  decidable_of_iff
    ((s.lcmEvent? l = some .delete ∨ s.lcmEvent? l = some .clean →
        ¬ s.vm.In .shutdownUndeploy ∧ ¬ s.vm.In .migrate) ∧
      (s.lcmEvent? l = some .clean → ¬ s.vm.In .lcmInit) ∧
      (s.lcmEvent? l = some .deploy → ¬ s.vm.CleaningUp) ∧
      (s.dmEvent? l = some .failed → ¬ s.vm.CleaningUp) ∧
      (s.dmEvent? l = some .resubmit → s.vm.lcmState ≠ .cleanupDelete) ∧
      (s.SetUpFails l → ¬ s.vm.CleaningUp) ∧ (s.vm.CleaningUp → s.InTime l))
    ⟨fun h => ⟨h.1, h.2.1, h.2.2.1, h.2.2.2.1, h.2.2.2.2.1, h.2.2.2.2.2.1, h.2.2.2.2.2.2⟩,
      fun h => ⟨h.found, h.started, h.deployed, h.failed, h.resubmitted, h.setUp, h.placed⟩⟩

/-- The states of the runs of orderly steps. -/
def ReachedOrderly : LifeState → Prop :=
  Transition.Reachable Initial
    (Transition.Guarded (fun s l => s.locked = false → s.Orderly l) fun s l s' => next s l = s')

end LifeState

/-- A step of a VM that is in a clean-up stage: it stays there with its hosts, or leaves for the
state it is cleaned up for. -/
inductive CleanUpStep (vm vm' : VirtualMachine) : Prop where
  | goOn (stage : vm'.In vm.lcmState ∨ vm'.In .cleanupDelete) (stays : vm'.stays = vm.stays)
  | deleted (before : vm.In .cleanupDelete) (state : vm'.state = .done)
  | recreated (before : vm.In .cleanupResubmit) (state : vm'.state = .pending)

/-! ## Endings -/

theorem DmAction.done_ends {vm : VirtualMachine} (cleaning : vm.In .cleanupDelete) :
    DmAction.done.Ends vm .done := by
  have takes : vm.state = .active ∧
      vm.lcmState ∈ ([.epilog, .cancel, .cleanupDelete] : List LcmState) :=
    ⟨cleaning.1, by rw [cleaning.2]; decide⟩
  have done : DispatchManager.handler .done vm = _ := if_pos takes
  rw [Ends, done]
  exact ⟨rfl, rfl⟩

theorem DmAction.resubmit_ends {vm : VirtualMachine} (cleaning : vm.lcmState = .cleanupResubmit) :
    DmAction.resubmit.Ends vm .pending := by
  have resubmitted : DispatchManager.handler .resubmit vm = _ := if_pos cleaning
  rw [Ends, resubmitted]
  exact ⟨rfl, rfl⟩

/-- The answer of a clean-up asks for the resubmission. -/
theorem LifeCycleManager.handler_answersCleanUp {action : LcmAction} {vm : VirtualMachine}
    (answers : action.answersCleanUp = true) (cleaning : vm.lcmState = .cleanupResubmit) :
    handler action vm = { vm, effects := [.dm .resubmit] } := by
  cases action with
  | epilogSuccess | epilogFailure | cleanupSuccess | cleanupFailure =>
    simp only [handler, epilogSuccessAction, epilogFailureAction, cleanupCallbackAction, cleaning]
  | _ => cases answers

namespace Command

variable {command : Command} {vm : VirtualMachine}

theorem answer_of_cleansUp (cleans : command.cleansUp = true)
    (cleaning : vm.lcmState = .cleanupResubmit) (success : Bool) (info : String)
    (poll : PollState) :
    ∃ action : LcmAction, command.answer vm success info poll = { vm, effects := [.lcm action] } ∧
      action.answersCleanUp = true := by
  cases command with
  | vmm action =>
    cases action with
    | cleanup | cleanupBoth | cleanupPrevious =>
      have taken : VirtualMachineManagerDriver.ignored vm = false := by
        simp [VirtualMachineManagerDriver.ignored, cleaning]
      simp only [answer, VmmAction.message?, VirtualMachineManagerDriver.protocol, taken,
        Bool.false_eq_true, if_false]
      exact ⟨_, rfl, by cases success <;> rfl⟩
    | _ => cases cleans
  | tm action =>
    cases action with
    | epilogDelete | epilogDeleteBoth =>
      simp only [answer, TmAction.isTransfer, if_true, TransferManagerDriver.protocol, cleaning]
      exact ⟨_, rfl, by cases success <;> rfl⟩
    | _ => cases cleans

theorem failure?_of_cleansUp (cleans : command.cleansUp = true) :
    ∃ action, command.failure? = some action ∧ action.answersCleanUp = true := by
  cases command with
  | vmm action => cases action <;> first | exact ⟨_, rfl, rfl⟩ | cases cleans
  | tm action => cases action <;> first | exact ⟨_, rfl, rfl⟩ | cases cleans

/-- Every answer of a clean-up command leads to the resubmission. -/
theorem ends_of_cleansUp (cleans : command.cleansUp = true)
    (cleaning : vm.lcmState = .cleanupResubmit) : command.Ends vm .pending := by
  have ends {action : LcmAction} (answers : action.answersCleanUp = true) :
      action.Ends vm .pending :=
    ⟨.resubmit, LifeCycleManager.handler_answersCleanUp answers cleaning,
      DmAction.resubmit_ends cleaning⟩
  refine ⟨fun success info poll => ?_, ?_⟩
  · obtain ⟨action, sent, answers⟩ := answer_of_cleansUp cleans cleaning success info poll
    exact ⟨action, sent, ends answers⟩
  · obtain ⟨action, failure, answers⟩ := failure?_of_cleansUp cleans
    exact ⟨action, failure, ends answers⟩

theorem cleanedHosts_congr {vm' : VirtualMachine} (stays : vm'.stays = vm.stays) :
    command.cleanedHosts vm' = command.cleanedHosts vm := by
  unfold cleanedHosts
  rw [VirtualMachine.hid_eq, VirtualMachine.hid_eq, VirtualMachine.previousHid_eq,
    VirtualMachine.previousHid_eq, stays]

end Command

/-! ## Outcomes aside from a clean-up -/

/-- The outcome starts no clean-up and leaves a VM in one alone. -/
structure Outcome.Aside (outcome : Outcome) (vm : VirtualMachine) : Prop where
  stage : outcome.vm.CleaningUp ∨ vm.CleaningUp → outcome.vm.lcmState = vm.lcmState
  state : vm.CleaningUp → outcome.vm.state = vm.state
  stays : vm.CleaningUp → outcome.vm.stays = vm.stays
  unlocked : vm.CleaningUp → outcome.unlocked = true

namespace Outcome.Aside

variable {vm : VirtualMachine} {outcome : Outcome}

/-- Nothing about the states changes. -/
theorem keep (lcmState : outcome.vm.lcmState = vm.lcmState) (state : outcome.vm.state = vm.state)
    (stays : outcome.vm.stays = vm.stays) (unlocked : outcome.unlocked = true) :
    outcome.Aside vm :=
  ⟨fun _ => lcmState, fun _ => state, fun _ => stays, fun _ => unlocked⟩

theorem wrongState (vm : VirtualMachine) : (Outcome.wrongState vm).Aside vm :=
  keep rfl rfl rfl rfl

/-- A VM that is in no clean-up stage goes to another stage that is none. -/
theorem away (before : ¬ vm.CleaningUp) (after : outcome.vm.lcmState.isCleanUp = false) :
    outcome.Aside vm := by
  refine ⟨?_, fun cleaning => absurd cleaning before, fun cleaning => absurd cleaning before,
    fun cleaning => absurd cleaning before⟩
  intro cleaning
  rcases cleaning with new | old
  · cases after.symm.trans new
  · exact absurd old before

/-- A VM that is in no clean-up stage stays in its stage. -/
theorem still (before : ¬ vm.CleaningUp) (same : outcome.vm.lcmState = vm.lcmState) :
    outcome.Aside vm :=
  away before (by rw [same]; exact Bool.eq_false_iff.mpr before)

/-- A quiet change, but for the resubmission of a failed VM. -/
theorem of_quiet (quiet : Quiet vm outcome.vm) (active : vm.CleaningUp → vm.state = .active)
    (failed : vm.state = .failed → outcome.vm.state ≠ .active)
    (unlocked : outcome.unlocked = true := by rfl) : outcome.Aside vm := by
  have stage {l : LcmState} (after : outcome.vm.lcmState = l) (out : l.isCleanUp = false) :
      outcome.vm.lcmState.isCleanUp = false := after.symm ▸ out
  have asleep (before : vm.state ≠ .active) : ¬ vm.CleaningUp :=
    fun cleaning => before (active cleaning)
  cases quiet.1 with
  | stay state lcmState => exact keep lcmState state quiet.stays unlocked
  | wait before state lcmState =>
    have cold : ¬ vm.CleaningUp := asleep fun running => by rw [running] at before; simp at before
    rcases lcmState with same | init
    · exact still cold same
    · exact away cold (stage init rfl)
  | done before state lcmState => exact away (asleep before) (stage lcmState rfl)
  | resubmit before state lcmState => exact absurd state (failed before)
  | hotplug running state lcmState =>
    refine away (VirtualMachine.not_cleaningUp running.2 rfl) ?_
    simp only [List.mem_cons, List.not_mem_nil, or_false] at lcmState
    rcases lcmState with h | h | h | h <;> exact stage h rfl
  | copy before state =>
    rcases before with ⟨before, after⟩ | ⟨before, after⟩ <;>
      exact away (asleep (by rw [before]; exact VmState.noConfusion)) (stage after rfl)
  | copied before state lcmState =>
    exact away (VirtualMachine.not_cleaningUp before rfl) (stage lcmState rfl)
  | copiedAsleep before lcmState =>
    rcases before with ⟨before, -⟩ | ⟨before, -⟩ <;>
      exact away (VirtualMachine.not_cleaningUp before rfl) (stage lcmState rfl)
  | found before state lcmState =>
    exact away (VirtualMachine.not_cleaningUp before rfl) (stage lcmState rfl)

end Outcome.Aside

namespace LifeCycleManager

open VirtualMachine (not_cleaningUp)

variable (vm : VirtualMachine)

/-- The stage of a VM that is running is left for one that is no clean-up. -/
theorem aside_leaveRunning {lcmState : LcmState} {action : VMAction} {command : VmmAction}
    (out : lcmState.isCleanUp = false) :
    (leaveRunning vm lcmState action command).Aside vm := by
  unfold leaveRunning
  split
  · rename_i running
    exact .away (not_cleaningUp running.2 rfl) out
  · exact .wrongState vm

theorem aside_moveRunning {lcmState : LcmState} {action : VMAction} {command : VmmAction}
    (out : lcmState.isCleanUp = false) :
    (moveRunning vm lcmState action command).Aside vm := by
  unfold moveRunning
  split
  · rename_i running
    exact .away (not_cleaningUp running.2 rfl) out
  · exact .wrongState vm

theorem aside_saveasHotEnd (done : Nat → Effect) : (saveasHotEnd vm done).Aside vm := by
  unfold saveasHotEnd VirtualMachine.leaveSaveas
  cases vm.getSaveasDiskHot <;>
    simp only [VirtualMachine.clearSaveasDisk] <;>
    cases stage : vm.lcmState with
    | hotplugSaveas | hotplugSaveasPoweroff | hotplugSaveasSuspended =>
      exact .away (not_cleaningUp stage rfl) rfl
    | _ => first | exact .keep stage.symm rfl rfl rfl | exact .keep rfl rfl rfl rfl

/-- Only a deletion, a re-creation and a deployment touch a clean-up. -/
theorem aside_handler {action : LcmAction} (active : vm.CleaningUp → vm.state = .active)
    (other : action ≠ .delete ∧ action ≠ .clean ∧ action ≠ .deploy) :
    (handler action vm).Aside vm := by
  cases action with
  | saveSuccess | saveFailure | shutdownSuccess | shutdownFailure | cancelSuccess | cancelFailure
  | deploySuccess | deployFailure | monitorFailure | monitorSuspend | monitorDone | prologSuccess
  | prologFailure | epilogSuccess | epilogFailure =>
    simp only [handler, saveSuccessAction, saveFailureAction, deploySuccessAction,
      deployFailureAction, shutdownSuccessAction, shutdownFailureAction, cancelSuccessAction,
      cancelFailureAction, monitorFailureAction, monitorSuspendAction, monitorDoneAction,
      prologSuccessAction, prologFailureAction, epilogSuccessAction, epilogFailureAction]
    split <;> first
      | exact .wrongState vm
      | exact .keep rfl rfl rfl rfl
      | exact .away (not_cleaningUp ‹_› rfl) rfl
      | exact .still (not_cleaningUp ‹_› rfl) rfl
  | cleanupSuccess | cleanupFailure | detachNicFailure =>
    simp only [handler, cleanupCallbackAction]
    split <;> exact .keep rfl rfl rfl rfl
  | attachSuccess | attachFailure | detachSuccess | detachFailure | attachNicSuccess
  | attachNicFailure | detachNicSuccess =>
    simp only [handler, attachSuccessAction, attachFailureAction, detachSuccessAction,
      detachFailureAction, attachNicSuccessAction, attachNicFailureAction, detachNicSuccessAction]
    split <;> first | exact .wrongState vm | exact .away (not_cleaningUp ‹_› rfl) rfl
  | snapshotCreateSuccess | snapshotCreateFailure | snapshotRevertSuccess | snapshotRevertFailure
  | snapshotDeleteSuccess | snapshotDeleteFailure =>
    simp only [handler, snapshotCreateSuccess, snapshotCreateFailure, snapshotRevertSuccess,
      snapshotRevertFailure, snapshotDeleteSuccess, snapshotDeleteFailure, keepActiveSnapshot,
      dropActiveSnapshot]
    split <;> first | exact .wrongState vm | exact .away (not_cleaningUp ‹_› rfl) rfl
  | saveasHotSuccess => exact aside_saveasHotEnd vm _
  | saveasHotFailure => exact aside_saveasHotEnd vm _
  | suspend | stop | cancel | shutdown | undeploy | undeployHard | poweroff | poweroffHard =>
    exact aside_leaveRunning vm rfl
  | migrate | liveMigrate => exact aside_moveRunning vm rfl
  | restore =>
    simp only [handler, restoreAction]
    split
    · rename_i suspended
      exact .away (fun cleaning => by cases suspended.symm.trans (active cleaning)) rfl
    · exact .wrongState vm
  | restart =>
    simp only [handler, restartAction]
    split
    · split <;> first
        | exact .wrongState vm
        | exact .keep rfl rfl rfl rfl
        | exact .away (not_cleaningUp ‹_› rfl) rfl
    · split
      · rename_i poweroff
        exact .away (fun cleaning => by cases poweroff.symm.trans (active cleaning)) rfl
      · exact .wrongState vm
  | delete => exact absurd rfl other.1
  | clean => exact absurd rfl other.2.1
  | deploy => exact absurd rfl other.2.2
  | finalize => exact .wrongState vm

end LifeCycleManager

/-! ## Other outcomes -/

/-- Only its resubmission makes a failed VM active. -/
theorem VmRequest.state_of_failed {vm : VirtualMachine} (failed : vm.state = .failed)
    {request : VmRequest} (other : request ≠ .resubmit) :
    (request.run vm).outcome.vm.state ≠ .active := by
  have idle (l : LcmState) : ¬ vm.In l := fun running => by cases failed.symm.trans running.1
  cases request with
  | resubmit => exact absurd rfl other
  | shutdown | stop | cancel | suspend | undeploy | poweroff =>
    simp [run, DispatchManager.shutdown, DispatchManager.stop, DispatchManager.cancel,
      DispatchManager.suspend, DispatchManager.undeploy, DispatchManager.poweroff,
      DispatchManager.whenRunning, idle, Reply.refuse, failed]
  | reboot | reset | resched =>
    simp [run, DispatchManager.reboot, DispatchManager.reset, DispatchManager.resched, idle,
      Reply.refuse, failed]
  | hold | release | resume | restart | finalize =>
    simp [run, DispatchManager.hold, DispatchManager.release, DispatchManager.resume,
      DispatchManager.restart, DispatchManager.finalize, DispatchManager.finalizeCleanup,
      Reply.refuse, Reply.accept, failed]
  | detach | detachNic | snapshotCreate | snapshotRevert | snapshotDelete =>
    simp [run, DispatchManager.detach, DispatchManager.detachNic, DispatchManager.snapshotCreate,
      DispatchManager.snapshotRevert, DispatchManager.snapshotDelete, DispatchManager.onElement,
      idle, Reply.refuse, failed]

/-- A request unlocks the VM. -/
theorem VmRequest.unlocks (request : VmRequest) (vm : VirtualMachine) :
    (request.run vm).outcome.unlocked = true := by
  have whenRunning (rc : Int) (action : LcmAction) :
      (DispatchManager.whenRunning vm rc action).outcome.unlocked = true := by
    unfold DispatchManager.whenRunning
    split <;> rfl
  have onElement (lcmState : LcmState) (marked : Option VirtualMachine) (action : VmmAction) :
      (DispatchManager.onElement vm lcmState marked action).outcome.unlocked = true := by
    unfold DispatchManager.onElement
    split
    · split <;> rfl
    · rfl
  cases request with
  | shutdown | stop | cancel | suspend | undeploy | poweroff => exact whenRunning _ _
  | reboot | reset | resched | hold | release | resume | finalize | resubmit =>
    simp only [run, DispatchManager.reboot, DispatchManager.reset, DispatchManager.resched,
      DispatchManager.hold, DispatchManager.release, DispatchManager.resume,
      DispatchManager.finalize, DispatchManager.resubmit]
    split <;> rfl
  | restart =>
    simp only [run, DispatchManager.restart]
    split
    · split <;> rfl
    · rfl
  | detach | detachNic | snapshotCreate | snapshotRevert | snapshotDelete => exact onElement _ _ _

theorem VirtualMachineManagerDriver.state_processPoll (vm : VirtualMachine) (state : PollState) :
    (processPoll vm state).vm.state = vm.state ∧ (processPoll vm state).unlocked = true := by
  cases state <;> simp only [processPoll, processPoll.monitored] <;>
    first | exact ⟨trivial, trivial⟩ | (split <;> exact ⟨rfl, rfl⟩)

theorem InformationManagerDriver.state_monitor (vm : VirtualMachine) (state : Option PollState) :
    (monitor vm state).vm.state = vm.state ∧ (monitor vm state).unlocked = true := by
  cases state with
  | none => exact ⟨rfl, rfl⟩
  | some state => exact VirtualMachineManagerDriver.state_processPoll vm state

/-- A message of a driver leaves the state of the VM alone, and unlocks it. -/
theorem VirtualMachineManagerDriver.state_protocol (vm : VirtualMachine) (message : VmmMessage)
    (success : Bool) (info : String) :
    (protocol vm message success info).vm.state = vm.state ∧
      (protocol vm message success info).unlocked = true := by
  unfold protocol
  split
  · exact ⟨rfl, rfl⟩
  · cases message with
    | poll state =>
      simp only
      split
      · exact state_processPoll vm state
      · exact ⟨rfl, rfl⟩
    | deploy | snapshotCreate => cases success <;> exact ⟨rfl, rfl⟩
    | _ => exact ⟨rfl, rfl⟩

theorem Command.state_answer (command : Command) (vm : VirtualMachine) (success : Bool)
    (info : String) (state : PollState) :
    (command.answer vm success info state).vm.state = vm.state ∧
      (command.answer vm success info state).unlocked = true := by
  cases command with
  | vmm action =>
    simp only [answer]
    cases action.message? state with
    | none => exact ⟨rfl, rfl⟩
    | some message => exact VirtualMachineManagerDriver.state_protocol _ _ _ _
  | tm action =>
    simp only [answer, TransferManagerDriver.protocol]
    split
    · split <;> exact ⟨rfl, rfl⟩
    · exact ⟨rfl, rfl⟩

theorem LifeCycleManager.state_recover (vm : VirtualMachine) (success : Bool) :
    (recover vm success).vm.state = vm.state ∧ (recover vm success).unlocked = true := by
  unfold recover
  split <;> first
    | exact ⟨rfl, rfl⟩
    | (split <;> first | exact ⟨rfl, rfl⟩ | (split <;> exact ⟨rfl, rfl⟩))

theorem LifeCycleManager.lcmState_recover {vm : VirtualMachine} (success : Bool)
    (known : vm.lcmState ≠ .unknown) : (recover vm success).vm.lcmState = vm.lcmState := by
  unfold recover
  split <;> first
    | rfl
    | (rename_i unknown; exact absurd unknown known)
    | (split <;> first | rfl | (split <;> rfl))

theorem state_clearSaveasState {vm : VirtualMachine} (diskId : Nat) (hot : Bool) :
    (vm.clearSaveasState diskId hot).state = vm.state ∨
      (vm.clearSaveasState diskId hot).state ≠ .active := by
  unfold VirtualMachine.clearSaveasState VirtualMachine.leaveSaveas
  split
  · exact .inl rfl
  · exact .inr VmState.noConfusion
  · exact .inr VmState.noConfusion
  · exact .inl rfl

theorem state_saveDiskImage {vm : VirtualMachine} (failed : vm.state = .failed) (diskId : Nat)
    (hot : Bool) (image : Option (Nat × String)) :
    (saveDiskImage vm diskId hot image).vm.state ≠ .active := by
  have cleared {vm' : VirtualMachine} (same : vm'.state = vm.state) :
      (vm'.clearSaveasState diskId hot).state ≠ .active := by
    rcases @state_clearSaveasState vm' diskId hot with state | state
    · rw [state, same, failed]
      exact VmState.noConfusion
    · exact state
  rcases image with - | ⟨imageId, source⟩
  · exact cleared rfl
  · simp only [saveDiskImage]
    cases saved : vm.saveDisk diskId hot imageId source with
    | none => simp [failed]
    | some vm' =>
      have same : vm'.state = vm.state := by
        unfold VirtualMachine.saveDisk at saved
        split at saved <;> cases saved <;> rfl
      simp only
      split
      · simp [same, failed]
      · exact cleared same

theorem unlocks_saveDiskImage (vm : VirtualMachine) (diskId : Nat) (hot : Bool)
    (image : Option (Nat × String)) : (saveDiskImage vm diskId hot image).unlocked = true := by
  unfold saveDiskImage
  split
  · rfl
  · split
    · rfl
    · split <;> rfl

theorem Placement.lcmState_commit (placement : Placement) (vm : VirtualMachine) (stored : Bool) :
    (placement.commit vm stored).outcome.vm.lcmState = vm.lcmState := by
  rcases placement.outcome_commit vm stored with ⟨-, -, eq⟩ | eq <;> rw [eq] <;> rfl

/-- No placement is taken during a clean-up. -/
theorem Placement.not_cleaningUp {placement : Placement} {vm : VirtualMachine}
    (active : vm.CleaningUp → vm.state = .active) (takes : placement.Takes vm) :
    ¬ vm.CleaningUp := by
  rcases placement with ⟨kind, hid⟩
  cases kind with
  | deploy =>
    intro cleaning
    rcases takes with state | state <;> cases state.symm.trans (active cleaning)
  | migrate | liveMigrate => exact VirtualMachine.not_cleaningUp takes.2 rfl

/-! ## Starts of a clean-up -/

/-- The outcome starts a clean-up, and sends a command for each host with files of the VM. -/
structure Outcome.StartsCleanUp (outcome : Outcome) (vm : VirtualMachine) : Prop where
  stage : outcome.vm.lcmState = .cleanupDelete ∧ .dm .done ∈ outcome.effects ∨
    outcome.vm.lcmState = .cleanupResubmit ∧
      ∃ command, outcome.effects.filterMap Effect.command? = [command] ∧ command.cleansUp = true
  state : outcome.vm.state = .active
  stays : outcome.vm.stays = vm.stays
  unlocked : outcome.unlocked = true
  files : vm.state = .active → ∀ hid ∈ vm.fileHosts,
    ∃ command, outcome.effects.filterMap Effect.command? = [command] ∧
      hid ∈ command.cleanedHosts vm

namespace LifeCycleManager

variable {vm : VirtualMachine}

/-- The command a clean-up sends, but in the stages it has no branch for. -/
theorem command_cleanUpVm (dispose : Bool) (idle : ¬ vm.CleaningUp)
    (found : vm.lcmState ≠ .lcmInit ∧ vm.lcmState ≠ .failure ∧ vm.lcmState ≠ .shutdownUndeploy ∧
      vm.lcmState ≠ .migrate) :
    ∃ command, (cleanUpVm vm dispose).2.filterMap Effect.command? = [command] ∧
      command.cleansUp = true ∧ ∀ hid ∈ vm.fileHosts, hid ∈ command.cleanedHosts vm := by
  obtain ⟨started, failed, undeployed, migrated⟩ := found
  unfold cleanUpVm cleanUpSwitch VirtualMachine.fileHosts
  cases stage : vm.lcmState with
  | lcmInit => exact absurd stage started
  | failure => exact absurd stage failed
  | shutdownUndeploy => exact absurd stage undeployed
  | migrate => exact absurd stage migrated
  | cleanupDelete | cleanupResubmit =>
    rw [VirtualMachine.CleaningUp, stage] at idle
    exact absurd rfl idle
  | hotplugSaveas | hotplugSaveasPoweroff | hotplugSaveasSuspended =>
    refine ⟨.vmm .cleanup, ?_, rfl, fun hid there => there⟩
    simp only
    cases (cancelSaveasDisk (cleanUpStart vm dispose).disks).1 <;> rfl
  | _ => exact ⟨_, rfl, rfl, fun hid there => there⟩

theorem starts_deleteAction (active : vm.state = .active) (idle : ¬ vm.CleaningUp)
    (found : vm.lcmState ≠ .shutdownUndeploy ∧ vm.lcmState ≠ .migrate) :
    (deleteAction vm).StartsCleanUp vm := by
  unfold deleteAction
  rw [if_pos active]
  split
  · exact absurd (VirtualMachine.cleaningUp_of ‹_› rfl) idle
  · exact absurd (VirtualMachine.cleaningUp_of ‹_› rfl) idle
  · rename_i failure
    refine ⟨.inl ⟨rfl, by simp⟩, active, rfl, rfl, fun _ hid there => ⟨_, rfl, ?_⟩⟩
    rw [VirtualMachine.fileHosts, failure] at there
    exact there
  · rename_i _ _ failed
    refine ⟨.inl ⟨(stays_cleanUpVm vm true).2, by simp⟩, (state_cleanUpVm vm true).trans active,
      (stays_cleanUpVm vm true).1, rfl, fun _ hid there => ?_⟩
    by_cases started : vm.lcmState = .lcmInit
    · rw [VirtualMachine.fileHosts, started] at there
      cases there
    · obtain ⟨command, sent, -, files⟩ :=
        command_cleanUpVm true idle ⟨started, failed, found⟩
      refine ⟨command, ?_, files hid there⟩
      rw [List.filterMap_append, sent]
      rfl

theorem starts_cleanAction (active : vm.state = .active) (idle : ¬ vm.CleaningUp)
    (found : vm.lcmState ≠ .shutdownUndeploy ∧ vm.lcmState ≠ .migrate)
    (started : vm.lcmState ≠ .lcmInit) : (cleanAction vm).StartsCleanUp vm := by
  unfold cleanAction
  rw [if_pos active]
  split
  · exact absurd (VirtualMachine.cleaningUp_of ‹_› rfl) idle
  · exact absurd (VirtualMachine.cleaningUp_of ‹_› rfl) idle
  · rename_i failure
    refine ⟨.inr ⟨rfl, _, rfl, rfl⟩, active, rfl, rfl, fun _ hid there => ⟨_, rfl, ?_⟩⟩
    rw [VirtualMachine.fileHosts, failure] at there
    exact there
  · rename_i _ _ failed
    obtain ⟨command, sent, cleans, files⟩ := command_cleanUpVm false idle ⟨started, failed, found⟩
    exact ⟨.inr ⟨(stays_cleanUpVm vm false).2, command, sent, cleans⟩,
      (state_cleanUpVm vm false).trans active, (stays_cleanUpVm vm false).1, rfl,
      fun _ hid there => ⟨command, sent, files hid there⟩⟩

end LifeCycleManager

/-- A failed VM that is resubmitted is cleaned up. -/
theorem DispatchManager.starts_resubmit {vm : VirtualMachine} (failed : vm.state = .failed) :
    (resubmit vm).outcome.StartsCleanUp vm := by
  unfold resubmit
  simp only [failed]
  refine ⟨.inr ⟨rfl, _, rfl, rfl⟩, rfl, rfl, rfl, fun active => ?_⟩
  cases failed.symm.trans active

/-! ## Changes -/

/-- What an outcome does about a clean-up. -/
inductive CleanUpChange (vm : VirtualMachine) (outcome : Outcome) : Prop where
  | aside (aside : outcome.Aside vm)
  | start (before : ¬ vm.CleaningUp) (starts : outcome.StartsCleanUp vm)
  | delete (before : vm.In .cleanupResubmit)
      (deleted : outcome = { vm := { vm with lcmState := .cleanupDelete }, effects := [.dm .done] })
  | done (before : vm.In .cleanupDelete) (state : outcome.vm.state = .done)
      (lcmState : outcome.vm.lcmState = .lcmInit)
  | resubmit (before : vm.In .cleanupResubmit) (state : outcome.vm.state = .pending)
      (lcmState : outcome.vm.lcmState = .lcmInit)

/-- The events of the life-cycle manager. -/
theorem LifeCycleManager.cleanUp_handler {vm : VirtualMachine} {action : LcmAction}
    (active : vm.CleaningUp → vm.state = .active)
    (found : action = .delete ∨ action = .clean → ¬ vm.In .shutdownUndeploy ∧ ¬ vm.In .migrate)
    (started : action = .clean → ¬ vm.In .lcmInit)
    (deployed : action = .deploy → ¬ vm.CleaningUp) : CleanUpChange vm (handler action vm) := by
  by_cases special : action ≠ .delete ∧ action ≠ .clean ∧ action ≠ .deploy
  · exact .aside (aside_handler vm active special)
  cases running : decide (vm.state = .active) with
  | false =>
    have asleep : ¬ vm.state = .active := of_decide_eq_false running
    have dropped : handler action vm = .wrongState vm := by
      cases action with
      | delete | clean | deploy => exact if_neg asleep
      | _ => simp at special
    rw [dropped]
    exact .aside (.wrongState vm)
  | true =>
    have awake : vm.state = .active := of_decide_eq_true running
    have stage (asked : action = .delete ∨ action = .clean) :
        vm.lcmState ≠ .shutdownUndeploy ∧ vm.lcmState ≠ .migrate :=
      ⟨fun h => (found asked).1 ⟨awake, h⟩, fun h => (found asked).2 ⟨awake, h⟩⟩
    cases action with
    | deploy =>
      refine .aside (.away (deployed rfl) ?_)
      simp only [handler, deployAction, awake, if_true]
      split <;> rfl
    | delete =>
      by_cases cleaning : vm.CleaningUp
      · cases l : vm.lcmState with
        | cleanupDelete =>
          have same : handler .delete vm =
              { vm := { vm with lcmState := .cleanupDelete }, effects := [.dm .done] } := by
            simp only [handler, deleteAction, awake, if_true, l]
          rw [same]
          exact .aside (.keep l.symm rfl rfl rfl)
        | cleanupResubmit =>
          refine .delete ⟨awake, l⟩ ?_
          simp only [handler, deleteAction, awake, if_true, l]
        | _ =>
          rw [VirtualMachine.CleaningUp, l] at cleaning
          cases cleaning
      · exact .start cleaning (starts_deleteAction awake cleaning (stage (.inl rfl)))
    | clean =>
      by_cases cleaning : vm.CleaningUp
      · refine .aside ?_
        simp only [handler, cleanAction, awake, if_true]
        cases l : vm.lcmState with
        | cleanupDelete | cleanupResubmit => exact .keep rfl rfl rfl rfl
        | _ =>
          rw [VirtualMachine.CleaningUp, l] at cleaning
          cases cleaning
      · exact .start cleaning (starts_cleanAction awake cleaning (stage (.inr rfl))
          fun init => started rfl ⟨awake, init⟩)
    | _ => simp at special

/-- The events of the dispatch manager. -/
theorem DispatchManager.cleanUp_handler {vm : VirtualMachine} {action : DmAction}
    (active : vm.CleaningUp → vm.state = .active)
    (failed : action = .failed → ¬ vm.CleaningUp)
    (resubmitted : action = .resubmit → vm.lcmState ≠ .cleanupDelete) :
    CleanUpChange vm (handler action vm) := by
  rcases handler_cases action vm with ⟨takes, left, -⟩ | ⟨dropped, same, -, unlocked⟩
  · by_cases cleaning : vm.CleaningUp
    · have awake := active cleaning
      have out {l : LcmState} (other : vm.In l) (none : l.isCleanUp = false) :
          CleanUpChange vm (handler action vm) :=
        absurd cleaning (VirtualMachine.not_cleaningUp other.2 none)
      cases action with
      | suspendSuccess => exact out takes rfl
      | stopSuccess | undeploySuccess => exact takes.elim (fun h => out h rfl) fun h => out h rfl
      | poweroffSuccess => exact out takes rfl
      | done =>
        rcases takes with epilog | cancel | delete
        · exact out epilog rfl
        · exact out cancel rfl
        · exact .done delete (by rw [left]; rfl) (by rw [left])
      | failed => exact absurd cleaning (failed rfl)
      | resubmit => exact .resubmit ⟨awake, takes⟩ (by rw [left]; rfl) (by rw [left])
      | finalize => exact takes.elim
    · exact .aside (.away cleaning (by rw [left]; rfl))
  · refine .aside ⟨fun _ => by rw [same], fun _ => by rw [same], fun _ => by rw [same],
      fun cleaning => ?_⟩
    rw [← Bool.not_eq_false, unlocked]
    intro locks
    rcases locks with rfl | rfl
    · exact failed rfl cleaning
    · cases l : vm.lcmState with
      | cleanupDelete => exact resubmitted rfl l
      | cleanupResubmit => exact dropped l
      | _ =>
        rw [VirtualMachine.CleaningUp, l] at cleaning
        cases cleaning

namespace LifeState

variable {s : LifeState} {l : LifeLabel} {outcome : Outcome} {serial : Option Nat}

/-- What an orderly step does about a clean-up. -/
theorem Source.cleanUp (source : s.Source l outcome serial)
    (active : s.vm.CleaningUp → s.vm.state = .active) (unlocked : s.locked = false)
    (orderly : s.Orderly l) : CleanUpChange s.vm outcome := by
  have failed {vm' : VirtualMachine} (same : vm'.state = s.vm.state) (failed : s.vm.state = .failed) :
      vm'.state ≠ .active := by
    rw [same, failed]
    exact VmState.noConfusion
  cases source with
  | idle => exact .aside (.keep rfl rfl rfl rfl)
  | request request =>
    by_cases resubmitted : s.vm.state = .failed ∧ request = .resubmit
    · obtain ⟨failed, rfl⟩ := resubmitted
      have asleep : ¬ s.vm.CleaningUp := fun cleaning => by
        cases failed.symm.trans (active cleaning)
      exact .start asleep (DispatchManager.starts_resubmit failed)
    · exact .aside (.of_quiet (request.quiet s.vm) active
        (fun failed => VmRequest.state_of_failed failed fun same => resubmitted ⟨failed, same⟩)
        (request.unlocks s.vm))
  | place placement enforce stored takes =>
    exact .aside (.still (Placement.not_cleaningUp active takes)
      (placement.lcmState_commit s.vm stored))
  | commit placement stored there =>
    by_cases cleaning : s.vm.CleaningUp
    · exact absurd cleaning (Placement.not_cleaningUp active
        (orderly.placed cleaning unlocked there).1)
    · exact .aside (.still cleaning (placement.lcmState_commit s.vm stored))
  | attach =>
    unfold DispatchManager.attach
    split
    · rename_i running
      exact .aside (.away (VirtualMachine.not_cleaningUp running.2 rfl) rfl)
    · exact .aside (.keep rfl rfl rfl rfl)
  | attachNic =>
    unfold DispatchManager.attachNic
    split
    · rename_i running
      exact .aside (.away (VirtualMachine.not_cleaningUp running.2 rfl) rfl)
    · exact .aside (.keep rfl rfl rfl rfl)
  | setUpDisk disk there =>
    cases disk with
    | none => exact .aside (.away (orderly.setUp (.inl ⟨rfl, there⟩)) rfl)
    | some disk => exact .aside (.keep rfl rfl rfl rfl)
  | setUpNic nic there =>
    cases nic with
    | none => exact .aside (.away (orderly.setUp (.inr ⟨rfl, there⟩)) rfl)
    | some nic => exact .aside (.keep rfl rfl rfl rfl)
  | saveDisk diskId hot vm marked =>
    refine .aside (.of_quiet (quiet_setSaveasState marked) active fun failed => ?_)
    unfold VirtualMachine.setSaveasState at marked
    simp only [failed] at marked
    cases marked
  | saveDiskImage diskId hot image =>
    exact .aside (.of_quiet (quiet_saveDiskImage _ _ _ _) active
      (fun failed => state_saveDiskImage failed diskId hot image)
      (unlocks_saveDiskImage _ _ _ _))
  | lcm event head =>
    have handled : s.lcmEvent? .lcm = some event.action := by
      rw [lcmEvent?, head]
      rfl
    exact LifeCycleManager.cleanUp_handler active
      (fun asked => orderly.found (by rw [handled]; exact asked.imp (congrArg some) (congrArg some)))
      (fun asked => orderly.started (by rw [handled, asked]))
      fun asked => orderly.deployed (by rw [handled, asked])
  | dm action head =>
    exact DispatchManager.cleanUp_handler active
      (fun asked => orderly.failed (by rw [dmEvent?, head, asked]))
      fun asked => orderly.resubmitted (by rw [dmEvent?, head, asked])
  | answer serial success info state command sent =>
    exact .aside (.of_quiet (command.quiet_answer _ _ _ _) active
      (failed (command.state_answer _ _ _ _).1) (command.state_answer _ _ _ _).2)
  | unsent serial command sent => exact .aside (.keep rfl rfl rfl rfl)
  | poll success state =>
    exact .aside (.of_quiet (VirtualMachineManagerDriver.quiet_protocol _ _ _ _) active
      (failed (VirtualMachineManagerDriver.state_protocol _ _ _ _).1)
      (VirtualMachineManagerDriver.state_protocol _ _ _ _).2)
  | monitor state =>
    exact .aside (.of_quiet (InformationManagerDriver.quiet_monitor _ _) active
      (failed (InformationManagerDriver.state_monitor _ _).1)
      (InformationManagerDriver.state_monitor _ _).2)
  | recover success =>
    exact .aside (.of_quiet (LifeCycleManager.quiet_recover _ _) active
      (failed (LifeCycleManager.state_recover _ _).1) (LifeCycleManager.state_recover _ _).2)

/-! ## The invariant -/

variable (s) in
/-- A resubmission is under way. -/
inductive Resubmits : Prop where
  | dm (queued : .resubmit ∈ s.dmQueue)
  | lcm (event : LcmEvent) (queued : event ∈ s.lcmQueue)
      (answers : event.action.answersCleanUp = true)
  | command (n : Nat) (command : Command) (sent : s.command? n = some command)
      (cleans : command.cleansUp = true)

variable (s) in
/-- A VM in a clean-up stage is active and not locked, and the end of the clean-up is under way. -/
structure CleanUpInv : Prop where
  numbered : s.Numbered
  active : s.vm.CleaningUp → s.vm.state = .active
  unlocked : s.vm.CleaningUp → s.locked = false
  delete : s.vm.lcmState = .cleanupDelete → .done ∈ s.dmQueue
  resubmit : s.vm.lcmState = .cleanupResubmit → s.Resubmits

/-- What an outcome adds is under way. -/
theorem dm_mem_apply (s : LifeState) {outcome : Outcome} (serial : Option Nat) {action : DmAction}
    (asked : .dm action ∈ outcome.effects) : action ∈ (s.apply outcome serial).dmQueue :=
  List.mem_append_right _ (List.mem_filterMap.mpr ⟨_, asked, rfl⟩)

theorem lcm_mem_apply (s : LifeState) {outcome : Outcome} (serial : Option Nat) {action : LcmAction}
    (asked : .lcm action ∈ outcome.effects) :
    ({ action, serial } : LcmEvent) ∈ (s.apply outcome serial).lcmQueue :=
  List.mem_append_right _ (List.mem_map.mpr ⟨action, List.mem_filterMap.mpr ⟨_, asked, rfl⟩, rfl⟩)

theorem dmQueue_take (other : l ≠ .dm) : (s.take l).dmQueue = s.dmQueue := by
  cases l with
  | dm => exact absurd rfl other
  | _ => rfl

/-- The resubmission is still under way after a step that does not take it from the queue of
the dispatch manager: when its command is answered or its event is handled, it is handed on. -/
theorem Resubmits.apply (resubmits : s.Resubmits) (cleaning : s.vm.lcmState = .cleanupResubmit)
    (source : s.Source l outcome serial)
    (kept : .resubmit ∈ s.dmQueue → .resubmit ∈ (s.take l).dmQueue) :
    ((s.take l).apply outcome serial).Resubmits := by
  cases resubmits with
  | dm queued => exact .dm (List.mem_append_left _ (kept queued))
  | lcm event queued answers =>
    cases source with
    | lcm first head =>
      cases queue : s.lcmQueue with
      | nil => rw [queue] at queued; cases queued
      | cons next rest =>
        rw [queue] at head queued
        cases head
        rcases List.mem_cons.mp queued with rfl | later
        · refine .dm (dm_mem_apply _ _ ?_)
          rw [LifeCycleManager.handler_answersCleanUp answers cleaning]
          exact List.mem_singleton.mpr rfl
        · refine .lcm event (List.mem_append_left _ ?_) answers
          rw [take, queue]
          exact later
    | idle l taken =>
      rw [taken]
      exact .lcm event (List.mem_append_left _ queued) answers
    | _ => exact .lcm event (List.mem_append_left _ queued) answers
  | command n command sent cleans =>
    cases source with
    | answer serial success info state command' sent' =>
      by_cases same : n = serial
      · subst same
        cases sent.symm.trans sent'
        obtain ⟨action, answered, answers⟩ :=
          Command.answer_of_cleansUp cleans cleaning success info state
        refine .lcm _ (@lcm_mem_apply _ _ _ action ?_) answers
        rw [answered]
        exact List.mem_singleton.mpr rfl
      · exact .command n command (command?_apply ((command?_forget same).trans sent) _ _) cleans
    | unsent serial command' sent' =>
      by_cases same : n = serial
      · subst same
        cases sent.symm.trans sent'
        obtain ⟨action, failure, answers⟩ := Command.failure?_of_cleansUp cleans
        refine .lcm _ (@lcm_mem_apply _ _ _ action ?_) answers
        rw [failure]
        exact List.mem_singleton.mpr rfl
      · exact .command n command (command?_apply ((command?_forget same).trans sent) _ _) cleans
    | idle l taken =>
      rw [taken]
      exact .command n command (command?_apply sent _ _) cleans
    | _ =>
      refine .command n command (command?_apply ?_ _ _) cleans
      exact sent

/-- A step aside from a clean-up. -/
theorem CleanUpInv.aside (inv : s.CleanUpInv) (source : s.Source l outcome serial)
    (aside : outcome.Aside s.vm)
    (done : s.vm.lcmState = .cleanupDelete → .done ∈ (s.take l).dmQueue)
    (kept : s.vm.lcmState = .cleanupResubmit → .resubmit ∈ s.dmQueue →
      .resubmit ∈ (s.take l).dmQueue) :
    ((s.take l).apply outcome serial).CleanUpInv := by
  have before (cleaning : outcome.vm.CleaningUp) : s.vm.CleaningUp := by
    rw [VirtualMachine.CleaningUp, aside.stage (.inl cleaning)] at cleaning
    exact cleaning
  have stage {lcmState : LcmState} (after : outcome.vm.lcmState = lcmState)
      (cleanUp : lcmState.isCleanUp = true) : s.vm.lcmState = lcmState :=
    (aside.stage (.inl (VirtualMachine.cleaningUp_of after cleanUp))).symm.trans after
  refine ⟨(inv.numbered.take l).apply _ _, fun cleaning => ?_, fun cleaning => ?_, fun delete => ?_,
    fun resubmit => ?_⟩
  · exact (aside.state (before cleaning)).trans (inv.active (before cleaning))
  · exact congrArg not (aside.unlocked (before cleaning))
  · exact List.mem_append_left _ (done (stage delete rfl))
  · have cleaning := stage resubmit rfl
    exact (inv.resubmit cleaning).apply cleaning source (kept cleaning)

/-- What an orderly step does to the invariant. -/
theorem CleanUpInv.apply (inv : s.CleanUpInv) (unlocked : s.locked = false) (orderly : s.Orderly l)
    (source : s.Source l outcome serial) : ((s.take l).apply outcome serial).CleanUpInv := by
  have numbered := (inv.numbered.take l).apply outcome serial
  have out (lcmState : outcome.vm.lcmState = .lcmInit) : ¬ outcome.vm.CleaningUp :=
    VirtualMachine.not_cleaningUp lcmState rfl
  -- the end of the clean-up that a dropped event is not
  have tail {action : DmAction} (queued : action ∈ s.dmQueue)
      (other : l = .dm → ∀ head, s.dmQueue.head? = some head →
        outcome = DispatchManager.handler head s.vm → head ≠ action) :
      action ∈ (s.take l).dmQueue := by
    by_cases dm : l = .dm
    · cases source with
      | dm head first =>
        have different := other rfl head first rfl
        cases queue : s.dmQueue with
        | nil => rw [queue] at queued; cases queued
        | cons next rest =>
          rw [queue] at first queued
          cases first
          rw [take, queue]
          exact (List.mem_cons.mp queued).resolve_left fun same => different same.symm
      | idle l taken => exact taken.symm ▸ queued
      | _ => cases dm
    · rw [dmQueue_take dm]
      exact queued
  cases source.cleanUp inv.active unlocked orderly with
  | aside aside =>
    refine inv.aside source aside (fun delete => ?_) fun resubmit queued => ?_
    · have cleaning : s.vm.In .cleanupDelete :=
        ⟨inv.active (VirtualMachine.cleaningUp_of delete rfl), delete⟩
      refine tail (inv.delete delete) fun _ head _ handled same => ?_
      have ends := (DmAction.done_ends cleaning).1
      have state := aside.state (VirtualMachine.cleaningUp_of delete rfl)
      rw [handled, same, ends, cleaning.1] at state
      cases state
    · have cleaning := VirtualMachine.cleaningUp_of resubmit rfl
      refine tail queued fun _ head _ handled same => ?_
      have ends := (DmAction.resubmit_ends resubmit).1
      have state := aside.state cleaning
      rw [handled, same, ends, inv.active cleaning] at state
      cases state
  | start before starts =>
    refine ⟨numbered, fun _ => starts.state, fun _ => congrArg not starts.unlocked,
      fun delete => ?_, fun resubmit => ?_⟩
    · rcases starts.stage with ⟨-, asked⟩ | ⟨other, -⟩
      · exact dm_mem_apply _ _ asked
      · cases other.symm.trans delete
    · rcases starts.stage with ⟨other, -⟩ | ⟨-, command, sent, cleans⟩
      · cases other.symm.trans resubmit
      · exact .command _ command (command?_apply_new (inv.numbered.take l) sent) cleans
  | delete before deleted =>
    subst deleted
    refine ⟨numbered, fun _ => before.1, fun _ => rfl, fun _ => ?_, fun resubmit => ?_⟩
    · exact dm_mem_apply _ _ (List.mem_singleton.mpr rfl)
    · cases resubmit
  | done before state lcmState | resubmit before state lcmState =>
    refine ⟨numbered, fun cleaning => absurd cleaning (out lcmState),
      fun cleaning => absurd cleaning (out lcmState), fun stage => ?_, fun stage => ?_⟩
    · cases lcmState.symm.trans stage
    · cases lcmState.symm.trans stage

theorem CleanUpInv.next (inv : s.CleanUpInv) (orderly : s.locked = false → s.Orderly l) :
    (s.next l).CleanUpInv := by
  rcases Bool.eq_false_or_eq_true s.locked with locked | unlocked
  · have stuck : s.next l = s := if_pos locked
    exact stuck.symm ▸ inv
  · obtain ⟨outcome, serial, source, eq⟩ := next_source unlocked l
    have after := inv.apply unlocked (orderly unlocked) source
    rw [← eq] at after
    exact ⟨after.numbered, after.active, after.unlocked, after.delete, fun resubmit => by
      cases after.resubmit resubmit with
      | dm queued => exact .dm queued
      | lcm event queued answers => exact .lcm event queued answers
      | command n command sent cleans => exact .command n command sent cleans⟩

/-- What the steps of a clean-up do, and its first step. -/
theorem CleanUpInv.step (inv : s.CleanUpInv) (unlocked : s.locked = false) (orderly : s.Orderly l) :
    (s.vm.CleaningUp → CleanUpStep s.vm (s.next l).vm) ∧
      (s.vm.state = .active → ¬ s.vm.CleaningUp → (s.next l).vm.CleaningUp →
        ∀ hid ∈ s.vm.fileHosts, ∃ command, (s.next l).command? s.nextSerial = some command ∧
          hid ∈ command.cleanedHosts (s.next l).vm) := by
  obtain ⟨outcome, serial, source, eq⟩ := next_source unlocked l
  have vm : (s.next l).vm = outcome.vm := congrArg LifeState.vm eq
  rw [vm]
  cases source.cleanUp inv.active unlocked orderly with
  | aside aside =>
    refine ⟨fun cleaning => .goOn (.inl ⟨?_, aside.stage (.inr cleaning)⟩) (aside.stays cleaning),
      fun _ idle cleaning => absurd ?_ idle⟩
    · exact (aside.state cleaning).trans (inv.active cleaning)
    · rw [VirtualMachine.CleaningUp, aside.stage (.inl cleaning)] at cleaning
      exact cleaning
  | start before starts =>
    refine ⟨fun cleaning => absurd cleaning before, fun active _ _ hid there => ?_⟩
    obtain ⟨command, sent, cleaned⟩ := starts.files active hid there
    refine ⟨command, ?_, (Command.cleanedHosts_congr starts.stays).symm ▸ cleaned⟩
    have number : (s.take l).nextSerial = s.nextSerial := nextSerial_take l
    have new := @command?_apply_new _ (inv.numbered.take l) outcome serial command sent
    rw [number, ← eq] at new
    exact new
  | delete before deleted =>
    subst deleted
    exact ⟨fun _ => .goOn (.inr ⟨before.1, rfl⟩) rfl, fun _ idle =>
      absurd (VirtualMachine.cleaningUp_of before.2 rfl) idle⟩
  | done before state lcmState =>
    exact ⟨fun _ => .deleted before state, fun _ idle =>
      absurd (VirtualMachine.cleaningUp_of before.2 rfl) idle⟩
  | resubmit before state lcmState =>
    exact ⟨fun _ => .recreated before state, fun _ idle =>
      absurd (VirtualMachine.cleaningUp_of before.2 rfl) idle⟩

/-! ## Runs -/

theorem ReachedOrderly.inv (reached : s.ReachedOrderly) : s.CleanUpInv := by
  apply Transition.Reachable.invariant _ _ reached
  · intro s initial
    obtain ⟨-, -, commands, -⟩ := initial.idle
    have idle : ¬ s.vm.CleaningUp := VirtualMachine.not_cleaningUp initial.lcmState rfl
    refine ⟨fun entry mem => ?_, fun cleaning => absurd cleaning idle,
      fun cleaning => absurd cleaning idle, fun delete => ?_, fun resubmit => ?_⟩
    · rw [commands] at mem
      cases mem
    · cases initial.lcmState.symm.trans delete
    · cases initial.lcmState.symm.trans resubmit
  · intro s l s' inv step
    obtain ⟨orderly, taken⟩ := step
    cases taken
    exact inv.next orderly

end LifeState

/-- In the runs of orderly steps a VM in a clean-up stage is not locked, and what takes it to
DONE or PENDING is under way. It keeps its hosts until then, and the step that put it there
sent a command for each host with files of it. -/
theorem cleaned_up_of_reached {s : LifeState} (reached : s.ReachedOrderly) :
    (s.vm.In .cleanupDelete → s.locked = false ∧ s.Ending .done) ∧
      (s.vm.In .cleanupResubmit → s.locked = false ∧ s.Ending .pending) ∧
      ∀ l, s.locked = false → s.Orderly l →
        (s.vm.CleaningUp → CleanUpStep s.vm (s.next l).vm) ∧
          (s.vm.state = .active → ¬ s.vm.CleaningUp → (s.next l).vm.CleaningUp →
            ∀ hid ∈ s.vm.fileHosts, ∃ command,
              (s.next l).command? s.nextSerial = some command ∧
                hid ∈ command.cleanedHosts (s.next l).vm) := by
  have inv := reached.inv
  refine ⟨fun delete => ?_, fun resubmit => ?_, fun l unlocked orderly =>
    inv.step unlocked orderly⟩
  · exact ⟨inv.unlocked (VirtualMachine.cleaningUp_of delete.2 rfl),
      .dm .done (inv.delete delete.2) (DmAction.done_ends delete)⟩
  · refine ⟨inv.unlocked (VirtualMachine.cleaningUp_of resubmit.2 rfl), ?_⟩
    cases inv.resubmit resubmit.2 with
    | dm queued => exact .dm .resubmit queued (DmAction.resubmit_ends resubmit.2)
    | lcm event queued answers =>
      exact .lcm event queued ⟨.resubmit,
        LifeCycleManager.handler_answersCleanUp answers resubmit.2,
        DmAction.resubmit_ends resubmit.2⟩
    | command n command sent cleans =>
      exact .command (n, command) (LifeState.mem_of_command? sent)
        (Command.ends_of_cleansUp cleans resubmit.2)

/-- A VM that runs and is to be undeployed. -/
def undeployment : List LifeLabel :=
  [.place { kind := .deploy, hid := 7 } false true, .lcm, .answer 0 true "" .unknown, .lcm,
    .answer 1 true "one-4" .unknown, .lcm, .request (.undeploy false)]

/-- The VM is deleted and created again before its undeployment is taken up. -/
theorem cleaned_up_of_reached_running :
    ∃ s : LifeState, s.ReachedOrderly ∧ s.vm.In .cleanupResubmit ∧ s.Ending .pending := by
  have reached : LifeState.ReachedOrderly
      ((undeployment.take 6 ++ [LifeLabel.request .resubmit, .lcm]).foldl LifeState.next newVm) :=
    Transition.Reachable.foldl _ (.init newVm_initial) (by decide +kernel)
  have cleaning : VirtualMachine.In
      ((undeployment.take 6 ++ [LifeLabel.request .resubmit, .lcm]).foldl LifeState.next newVm).vm
      .cleanupResubmit := by decide +kernel
  exact ⟨_, reached, cleaning, ((cleaned_up_of_reached reached).2.1 cleaning).2⟩

/-- The VM is deleted and created again while it is undeployed: no command is sent for its files
and, once the shutdown is answered, nothing is under way. -/
theorem undeployment_stranded :
    ∃ s : LifeState, LifeState.Reached s ∧ s.vm.In .cleanupResubmit ∧ s.vm.hid = some 7 ∧
      s.commands = [] ∧ ¬ s.Ending .pending := by
  have reached : LifeState.Reached
      ((undeployment ++ [LifeLabel.lcm, .request .resubmit, .lcm, .answer 2 true "" .unknown,
        .lcm]).foldl LifeState.next newVm) :=
    Transition.Reachable.run _ (.init newVm_initial)
  refine ⟨_, reached, by decide +kernel, by decide +kernel, by decide +kernel, ?_⟩
  have idle : ∀ s : LifeState, s.lcmQueue = [] → s.dmQueue = [] → s.commands = [] →
      ¬ s.Ending .pending := by
    intro s lcmQueue dmQueue commands ending
    cases ending with
    | dm action queued => rw [dmQueue] at queued; cases queued
    | lcm event queued => rw [lcmQueue] at queued; cases queued
    | command entry sent => rw [commands] at sent; cases sent
  exact idle _ (by decide +kernel) (by decide +kernel) (by decide +kernel)

end Ezilla
