import Ezilla.Lcm.PlacementRuns
import Ezilla.Lcm.StepOutcomes

/-!
# Late answers of the drivers

The result of a deployment, a save, a restore, a migration, a shutdown or a cancellation
reaches the life-cycle manager as an event that does not say which command it answers. The
manager takes it for the operation that the stage of the VM stands for.

* `rememberOperation`: the command of the operation the VM waits for;
* `result_of_superseded`: the result of any other command is dropped, unless the VM waits in a
  stage that takes it for a newer operation, or was found suspended by the monitoring;
* `late_failure_ends_redeployment`: that such a result is not dropped.
-/

namespace Ezilla

/-- The commands of the operations that take a VM to a host or away from it. -/
def Command.isOperation : Command → Bool
  | .vmm .deploy | .vmm .save | .vmm .restore | .vmm .migrate | .vmm .shutdown | .vmm .cancel
  | .vmm .cancelPrevious => true
  | _ => false

/-- The events of their results. -/
def LcmAction.isResult : LcmAction → Bool
  | .saveSuccess | .saveFailure | .deploySuccess | .deployFailure | .shutdownSuccess
  | .shutdownFailure | .cancelSuccess | .cancelFailure => true
  | _ => false

/-- The stages in which the life-cycle manager takes a result. -/
def LcmAction.takenIn : LcmAction → List LcmState
  | .saveSuccess | .saveFailure => [.saveMigrate, .saveSuspend, .saveStop]
  | .deploySuccess | .deployFailure =>
    [.migrate, .boot, .bootUnknown, .bootPoweroff, .bootSuspended, .bootStopped, .bootUndeploy]
  | .shutdownSuccess | .shutdownFailure => [.shutdown, .shutdownPoweroff, .shutdownUndeploy]
  | .cancelSuccess | .cancelFailure => [.cancel, .shutdownPoweroff, .shutdownUndeploy]
  | _ => []

/-- The VM waits for the result of an operation. -/
def LcmState.awaitsResult : LcmState → Bool
  | .saveMigrate | .saveSuspend | .saveStop | .migrate | .boot | .bootUnknown | .bootPoweroff
  | .bootSuspended | .bootStopped | .bootUndeploy | .shutdown | .shutdownPoweroff
  | .shutdownUndeploy | .cancel => true
  | _ => false

/-- The command of the operation the VM waits for: a new one, or the one before as long as the
VM stays where it is. -/
def rememberOperation (s : LifeState) (l : LifeLabel) (current : Option Nat) : Option Nat :=
  match (s.next l).commands.find? fun entry => s.nextSerial ≤ entry.1 && entry.2.isOperation with
  | some entry => some entry.1
  | none => if (s.next l).vm.lcmState = s.vm.lcmState then current else none

/-- The states of the runs from a new VM, with the command of the operation it waits for. -/
def ReachedWaiting : LifeState × Option Nat → Prop :=
  Transition.Reachable (fun s => s.1.Initial ∧ s.2 = none)
    (fun s l s' => Transition.withMemory LifeState.next rememberOperation s l = s')

/-! ## Results -/

theorem LcmAction.awaitsResult_of_takenIn {action : LcmAction} {lcmState : LcmState}
    (taken : lcmState ∈ action.takenIn) : lcmState.awaitsResult = true := by
  cases action with
  | saveSuccess | saveFailure | deploySuccess | deployFailure | shutdownSuccess | shutdownFailure
  | cancelSuccess | cancelFailure =>
    simp only [takenIn, List.mem_cons, List.not_mem_nil, or_false] at taken
    rcases taken with rfl | rfl | rfl | rfl | rfl | rfl | rfl <;> rfl
  | _ => cases taken

/-- A result that comes in another stage is dropped. -/
theorem LifeCycleManager.handler_dropped {action : LcmAction} {vm : VirtualMachine}
    (result : action.isResult = true) (other : vm.lcmState ∉ action.takenIn) :
    handler action vm = .wrongState vm := by
  have taken {lcmState : LcmState} (stage : vm.lcmState = lcmState)
      (mem : lcmState ∈ action.takenIn) {outcome : Outcome} : outcome = .wrongState vm :=
    absurd (stage ▸ mem) other
  cases action with
  | saveSuccess | saveFailure | deploySuccess | deployFailure | shutdownSuccess | shutdownFailure
  | cancelSuccess | cancelFailure =>
    simp only [handler, saveSuccessAction, saveFailureAction, deploySuccessAction,
      deployFailureAction, shutdownSuccessAction, shutdownFailureAction, cancelSuccessAction,
      cancelFailureAction]
    split <;> first | rfl | exact taken ‹_› (by decide)
  | _ => cases result

/-- An outcome sends a result. -/
def Outcome.sendsResult (outcome : Outcome) : Bool :=
  (outcome.effects.filterMap Effect.lcm?).any LcmAction.isResult

/-- An outcome starts an operation. -/
def Outcome.starts (outcome : Outcome) : Bool :=
  (outcome.effects.filterMap Effect.command?).any Command.isOperation

/-- A driver sends the result of an operation only for a command of one. -/
theorem Command.sendsResult_answer {command : Command} (other : command.isOperation = false)
    (vm : VirtualMachine) (success : Bool) (info : String) (state : PollState) :
    (command.answer vm success info state).sendsResult = false := by
  cases command with
  | vmm request =>
    cases request with
    | deploy | save | restore | migrate | shutdown | cancel | cancelPrevious => cases other
    | driverCancel => rfl
    | poll =>
      simp only [answer, VmmAction.message?, VirtualMachineManagerDriver.protocol,
        VirtualMachineManagerDriver.processPoll,
        VirtualMachineManagerDriver.processPoll.monitored]
      split
      · rfl
      · cases success with
        | false => rfl
        | true => cases state <;> simp only [if_true] <;> first | rfl | (split <;> rfl)
    | _ =>
      simp only [answer, VmmAction.message?, VirtualMachineManagerDriver.protocol]
      split
      · rfl
      · cases success <;> rfl
  | tm request =>
    simp only [answer]
    split
    · unfold TransferManagerDriver.protocol
      split <;> first | rfl | (cases success <;> rfl)
    · rfl

theorem Command.isResult_failure? {command : Command} (other : command.isOperation = false)
    {action : LcmAction} (failure : command.failure? = some action) : action.isResult = false := by
  cases command with
  | vmm request => cases request <;> cases failure <;> first | rfl | cases other
  | tm request => cases request <;> cases failure <;> rfl

/-! ## Operations -/

/-- What an outcome does about the operations of a VM: it starts one, or the VM does not come
to wait for one, but in the way of the monitoring. -/
inductive OperationStep (vm : VirtualMachine) (outcome : Outcome) : Prop where
  | start (command : Command)
      (commands : outcome.effects.filterMap Effect.command? = [command])
      (operation : command.isOperation = true)
  | other (starts : outcome.starts = false)
      (stage : outcome.vm.lcmState = vm.lcmState ∨ outcome.vm.lcmState.awaitsResult = false ∨
        outcome.vm.lcmState = .saveSuspend)

namespace OperationStep

variable {vm : VirtualMachine} {outcome : Outcome}

/-- The VM stays in its stage. -/
theorem stay (starts : outcome.starts = false) (stage : outcome.vm.lcmState = vm.lcmState) :
    OperationStep vm outcome := .other starts (.inl stage)

/-- The VM leaves for a stage in which it waits for no operation. -/
theorem leave (starts : outcome.starts = false)
    (stage : outcome.vm.lcmState.awaitsResult = false) : OperationStep vm outcome :=
  .other starts (.inr (.inl stage))

end OperationStep

namespace LifeCycleManager

variable (vm : VirtualMachine)

theorem operation_leaveRunning {lcmState : LcmState} {action : VMAction} {command : VmmAction}
    (operation : (Command.vmm command).isOperation = true)
    (answered : (Command.vmm command).isAnswered = true) :
    OperationStep vm (leaveRunning vm lcmState action command) := by
  unfold leaveRunning
  split
  · refine .start (.vmm command) ?_ operation
    simp only [List.filterMap_cons, Effect.command?, answered, if_true, List.filterMap_nil]
  · exact .stay rfl rfl

theorem operation_moveRunning {lcmState : LcmState} {action : VMAction} {command : VmmAction}
    (operation : (Command.vmm command).isOperation = true)
    (answered : (Command.vmm command).isAnswered = true) :
    OperationStep vm (moveRunning vm lcmState action command) := by
  unfold moveRunning
  split
  · refine .start (.vmm command) ?_ operation
    simp only [List.filterMap_cons, Effect.command?, answered, if_true, List.filterMap_nil]
  · exact .stay rfl rfl

theorem starts_cleanUpVm (dispose : Bool) (more : List Effect)
    (none : more.filterMap Effect.command? = []) :
    { vm := (cleanUpVm vm dispose).1, effects := (cleanUpVm vm dispose).2 ++ more :
      Outcome }.starts = false := by
  unfold Outcome.starts
  rw [List.filterMap_append, none, List.append_nil]
  unfold cleanUpVm cleanUpSwitch
  cases vm.lcmState with
  | hotplugSaveas | hotplugSaveasPoweroff | hotplugSaveasSuspended =>
    simp only
    cases (cancelSaveasDisk (cleanUpStart vm dispose).disks).1 <;> rfl
  | _ => rfl

theorem operation_cleanUpVm (dispose : Bool) (more : List Effect)
    (none : more.filterMap Effect.command? = []) :
    OperationStep vm
      { vm := (cleanUpVm vm dispose).1, effects := (cleanUpVm vm dispose).2 ++ more } := by
  refine .leave (starts_cleanUpVm vm dispose more none) ?_
  have stage := (stays_cleanUpVm vm dispose).2
  simp only
  rw [stage]
  cases dispose <;> rfl

theorem operation_saveasHotEnd {done : Nat → Effect}
    (none : ∀ imageId, (done imageId).command? = none) :
    OperationStep vm (saveasHotEnd vm done) := by
  have starts : (saveasHotEnd vm done).starts = false := by
    unfold saveasHotEnd Outcome.starts
    simp only
    split
    · rfl
    · cases vm.getSaveasDiskHot.bind Prod.snd with
      | none => rfl
      | some imageId => simp [none]
  obtain ⟨-, ⟨-, lcmState⟩ | ⟨-, lcmState⟩ | ⟨-, lcmState⟩⟩ := saveasHotEnd_cases vm done
  · exact .stay starts lcmState
  · exact .leave starts (by rw [lcmState]; rfl)
  · exact .leave starts (by rw [lcmState]; rfl)

theorem starts_giveBackDisk (disk : Option Disk) :
    { vm, effects := disk.toList.flatMap (giveBackDisk vm) : Outcome }.starts = false := by
  rcases disk with - | disk
  · rfl
  · rcases disk with ⟨_, imageId, _, _, _, _, _, _, _⟩
    cases imageId <;> rfl

theorem starts_giveBackNic (nic : Option Nic) :
    { vm, effects := nic.toList.flatMap (giveBackNic vm) : Outcome }.starts = false := by
  cases nic <;> rfl

/-- A handler that sends no command for an operation leaves the VM in a stage that waits for
none. -/
theorem operation_handler (action : LcmAction) : OperationStep vm (handler action vm) := by
  cases action with
  | saveSuccess | saveFailure | shutdownSuccess | shutdownFailure | cancelSuccess | cancelFailure
  | deploySuccess | deployFailure =>
    simp only [handler, saveSuccessAction, saveFailureAction, deploySuccessAction,
      deployFailureAction, shutdownSuccessAction, shutdownFailureAction, cancelSuccessAction,
      cancelFailureAction]
    split <;> first | exact .stay rfl rfl | exact .leave rfl rfl
  | monitorFailure | monitorDone =>
    simp only [handler, monitorFailureAction, monitorDoneAction]
    split <;> first | exact .stay rfl rfl | exact .leave rfl rfl
  | monitorSuspend =>
    simp only [handler, monitorSuspendAction]
    split <;> first | exact .stay rfl rfl | exact .other rfl (.inr (.inr rfl))
  | prologSuccess =>
    simp only [handler, prologSuccessAction]
    split <;> first | exact .start _ rfl rfl | exact .stay rfl rfl
  | prologFailure | epilogSuccess | epilogFailure =>
    simp only [handler, prologFailureAction, epilogSuccessAction, epilogFailureAction]
    split <;> first | exact .stay rfl rfl | exact .leave rfl rfl
  | cleanupSuccess | cleanupFailure | detachNicFailure =>
    simp only [handler, cleanupCallbackAction]
    split <;> exact .stay rfl rfl
  | attachSuccess | detachFailure | attachNicSuccess =>
    simp only [handler, detachFailureAction, attachSuccessAction, attachNicSuccessAction]
    split <;> first | exact .stay rfl rfl | exact .leave rfl rfl
  | attachFailure | detachSuccess =>
    simp only [handler, detachSuccessAction, attachFailureAction]
    split <;> first | exact .stay rfl rfl | exact .leave (starts_giveBackDisk vm _) rfl
  | attachNicFailure | detachNicSuccess =>
    simp only [handler, detachNicSuccessAction, attachNicFailureAction]
    split <;> first | exact .stay rfl rfl | exact .leave (starts_giveBackNic vm _) rfl
  | snapshotCreateSuccess | snapshotCreateFailure | snapshotRevertSuccess | snapshotRevertFailure
  | snapshotDeleteSuccess | snapshotDeleteFailure =>
    simp only [handler, snapshotCreateSuccess, snapshotCreateFailure, snapshotRevertSuccess,
      snapshotRevertFailure, snapshotDeleteSuccess, snapshotDeleteFailure, keepActiveSnapshot,
      dropActiveSnapshot]
    split <;> first | exact .stay rfl rfl | exact .leave rfl rfl
  | saveasHotSuccess => exact operation_saveasHotEnd vm fun _ => rfl
  | saveasHotFailure => exact operation_saveasHotEnd vm fun _ => rfl
  | deploy =>
    simp only [handler, deployAction]
    split
    · split <;> exact .leave rfl rfl
    · exact .stay rfl rfl
  | suspend | stop | cancel | shutdown | undeploy | undeployHard | poweroff | poweroffHard =>
    exact operation_leaveRunning vm rfl rfl
  | migrate | liveMigrate => exact operation_moveRunning vm rfl rfl
  | restore =>
    simp only [handler, restoreAction]
    split <;> first | exact .start _ rfl rfl | exact .stay rfl rfl
  | restart =>
    simp only [handler, restartAction]
    split
    · split <;> first | exact .start _ rfl rfl | exact .stay rfl rfl
    · split <;> first | exact .start _ rfl rfl | exact .stay rfl rfl
  | delete =>
    simp only [handler, deleteAction]
    split
    · split <;> first | exact .leave rfl rfl | exact operation_cleanUpVm vm true _ rfl
    · exact .stay rfl rfl
  | clean =>
    simp only [handler, cleanAction]
    split
    · split <;> first
        | exact .stay rfl rfl
        | exact .leave rfl rfl
        | exact List.append_nil (cleanUpVm vm false).2 ▸ operation_cleanUpVm vm false [] rfl
    · exact .stay rfl rfl
  | finalize => exact .stay rfl rfl

end LifeCycleManager

/-! ## Steps -/

theorem Shift.awaitsResult {vm vm' : VirtualMachine} (shift : Shift vm vm') :
    vm'.lcmState = vm.lcmState ∨ vm'.lcmState.awaitsResult = false := by
  cases shift with
  | stay state lcmState => exact .inl lcmState
  | wait before state lcmState => exact lcmState.imp id fun init => by rw [init]; rfl
  | done before state lcmState | resubmit before state lcmState
  | copied before state lcmState | copiedAsleep before lcmState | found before state lcmState =>
    exact .inr (by rw [lcmState]; rfl)
  | hotplug running state lcmState =>
    simp only [List.mem_cons, List.not_mem_nil, or_false] at lcmState
    rcases lcmState with h | h | h | h <;> exact .inr (by rw [h]; rfl)
  | copy before state => rcases before with ⟨-, h⟩ | ⟨-, h⟩ <;> exact .inr (by rw [h]; rfl)

/-- An outcome that shifts the VM and starts nothing. -/
theorem OperationStep.of_quiet {vm : VirtualMachine} {outcome : Outcome}
    (quiet : Quiet vm outcome.vm) (starts : outcome.starts = false) : OperationStep vm outcome :=
  .other starts (quiet.1.awaitsResult.imp id Or.inl)

/-- No request starts an operation by itself. -/
theorem VmRequest.starts_run (vm : VirtualMachine) (request : VmRequest) :
    (request.run vm).outcome.starts = false := by
  have whenRunning (rc : Int) (action : LcmAction) :
      (DispatchManager.whenRunning vm rc action).outcome.starts = false := by
    unfold DispatchManager.whenRunning
    split <;> rfl
  have onElement (lcmState : LcmState) (marked : Option VirtualMachine) {action : VmmAction}
      (other : (Command.vmm action).isOperation = false)
      (answered : (Command.vmm action).isAnswered = true) :
      (DispatchManager.onElement vm lcmState marked action).outcome.starts = false := by
    unfold DispatchManager.onElement
    split
    · cases marked with
      | none => rfl
      | some vm' =>
        simp only [Reply.accept, Outcome.starts, List.filterMap_cons, Effect.command?, answered,
          if_true, List.filterMap_nil, List.any_cons, other, List.any_nil, Bool.or_false]
    · rfl
  cases request with
  | shutdown | stop | cancel | suspend | undeploy | poweroff => exact whenRunning _ _
  | reboot | reset | resched | hold | release =>
    simp only [run, DispatchManager.reboot, DispatchManager.reset, DispatchManager.resched,
      DispatchManager.hold, DispatchManager.release]
    split <;> rfl
  | resume | finalize | resubmit =>
    simp only [run, DispatchManager.resume, DispatchManager.finalize, DispatchManager.resubmit]
    split <;> rfl
  | restart =>
    simp only [run, DispatchManager.restart]
    split
    · split <;> rfl
    · rfl
  | detach | detachNic | snapshotCreate | snapshotRevert | snapshotDelete =>
    exact onElement _ _ rfl rfl

theorem Placement.operation_commit (placement : Placement) (vm : VirtualMachine) (stored : Bool) :
    OperationStep vm (placement.commit vm stored).outcome := by
  rcases placement.outcome_commit vm stored with ⟨-, -, eq⟩ | eq <;> rw [eq] <;>
    exact .stay rfl rfl

theorem DispatchManager.starts_handler (action : DmAction) (vm : VirtualMachine) :
    (handler action vm).starts = false := by
  cases action <;>
    simp only [handler, suspendSuccessAction, stopSuccessAction, undeploySuccessAction,
      poweroffSuccessAction, leaveActive, doneAction, failedAction, resubmitAction] <;>
    first | rfl | (split <;> rfl)

theorem VirtualMachineManagerDriver.starts_processPoll (vm : VirtualMachine)
    (state : PollState) : (processPoll vm state).starts = false := by
  cases state <;> simp only [processPoll, processPoll.monitored] <;>
    first | rfl | (split <;> rfl)

theorem InformationManagerDriver.starts_monitor (vm : VirtualMachine) (state : Option PollState) :
    (monitor vm state).starts = false := by
  cases state with
  | none => rfl
  | some state => exact VirtualMachineManagerDriver.starts_processPoll vm state

theorem VirtualMachineManagerDriver.starts_protocol (vm : VirtualMachine) (message : VmmMessage)
    (success : Bool) (info : String) : (protocol vm message success info).starts = false := by
  unfold protocol
  split
  · rfl
  · cases message with
    | poll state =>
      simp only
      split
      · exact starts_processPoll vm state
      · rfl
    | _ => rfl

theorem Command.starts_answer (command : Command) (vm : VirtualMachine) (success : Bool)
    (info : String) (state : PollState) :
    (command.answer vm success info state).starts = false := by
  cases command with
  | vmm action =>
    simp only [answer]
    cases action.message? state with
    | none => rfl
    | some message => exact VirtualMachineManagerDriver.starts_protocol _ _ _ _
  | tm action =>
    simp only [answer, TransferManagerDriver.protocol]
    split
    · split <;> rfl
    · rfl

theorem LifeCycleManager.starts_recover (vm : VirtualMachine) (success : Bool) :
    (recover vm success).starts = false := by
  unfold recover
  split <;> first | rfl | (split <;> rfl)

theorem starts_saveDiskImage (vm : VirtualMachine) (diskId : Nat) (hot : Bool)
    (image : Option (Nat × String)) : (saveDiskImage vm diskId hot image).starts = false := by
  rcases image with - | ⟨imageId, source⟩
  · rfl
  · simp only [saveDiskImage]
    split
    · rfl
    · split <;> rfl

namespace LifeState

variable {s : LifeState} {l : LifeLabel} {outcome : Outcome} {serial : Option Nat}

/-- What every step does about the operations. -/
theorem Source.operation (source : s.Source l outcome serial) : OperationStep s.vm outcome := by
  cases source with
  | idle => exact .stay rfl rfl
  | request request => exact .of_quiet (request.quiet s.vm) (request.starts_run s.vm)
  | place placement _ stored | commit placement stored =>
    exact placement.operation_commit s.vm stored
  | attach =>
    unfold DispatchManager.attach
    split <;> first | exact .stay rfl rfl | exact .leave rfl rfl
  | attachNic =>
    unfold DispatchManager.attachNic
    split <;> first | exact .stay rfl rfl | exact .leave rfl rfl
  | setUpDisk disk => cases disk <;> first | exact .stay rfl rfl | exact .leave rfl rfl
  | setUpNic nic => cases nic <;> first | exact .stay rfl rfl | exact .leave rfl rfl
  | saveDisk diskId hot vm marked => exact .of_quiet (quiet_setSaveasState marked) rfl
  | saveDiskImage diskId hot image =>
    exact .of_quiet (quiet_saveDiskImage _ _ _ _) (starts_saveDiskImage _ _ _ _)
  | lcm event head => exact LifeCycleManager.operation_handler s.vm event.action
  | dm action head =>
    have starts := DispatchManager.starts_handler action s.vm
    rcases DispatchManager.handler_cases action s.vm with ⟨-, left, -⟩ | ⟨-, same, -⟩
    · exact .leave starts (by rw [left]; rfl)
    · exact .stay starts (by rw [same])
  | answer serial success info state command sent =>
    exact .of_quiet (command.quiet_answer _ _ _ _) (command.starts_answer _ _ _ _)
  | unsent serial command sent =>
    refine .stay ?_ rfl
    unfold Outcome.starts
    cases command.failure? <;> rfl
  | poll success state =>
    exact .of_quiet (VirtualMachineManagerDriver.quiet_protocol _ _ _ _)
      (VirtualMachineManagerDriver.starts_protocol _ _ _ _)
  | monitor state =>
    exact .of_quiet (InformationManagerDriver.quiet_monitor _ _)
      (InformationManagerDriver.starts_monitor _ _)
  | recover success =>
    exact .of_quiet (LifeCycleManager.quiet_recover _ _) (LifeCycleManager.starts_recover _ _)

/-- A result is sent for the command of an operation that was outstanding. -/
theorem Source.result (source : s.Source l outcome serial) {n : Nat} (some_serial : serial = some n)
    (result : outcome.sendsResult = true) :
    ∃ command, (n, command) ∈ s.commands ∧ command.isOperation = true := by
  cases source with
  | answer serial success info state command sent =>
    cases some_serial
    refine ⟨command, mem_of_command? sent, ?_⟩
    cases operation : command.isOperation with
    | true => rfl
    | false => rw [command.sendsResult_answer operation] at result; cases result
  | unsent serial command sent =>
    cases some_serial
    refine ⟨command, mem_of_command? sent, ?_⟩
    cases operation : command.isOperation with
    | true => rfl
    | false =>
      unfold Outcome.sendsResult at result
      cases failure : command.failure? with
      | none => rw [failure] at result; cases result
      | some action =>
        rw [failure] at result
        have other := Command.isResult_failure? operation failure
        simp [Effect.lcm?, other] at result
  | _ => cases some_serial

/-! ## The invariant -/

/-- The commands and the events know no number that is not used yet, and no operation is newer
than the one the VM waits for. -/
structure AnswerInv (s : LifeState) (current : Option Nat) : Prop where
  commands : s.Numbered
  newest : ∀ c, current = some c → ∀ entry ∈ s.commands, entry.2.isOperation = true → entry.1 ≤ c
  events : ∀ event ∈ s.lcmQueue, event.action.isResult = true → ∀ n, event.serial = some n →
    n < s.nextSerial ∧ ∀ c, current = some c → n ≤ c
  waits : s.vm.lcmState.awaitsResult = true → current ≠ none ∨ s.vm.lcmState = .saveSuspend

variable {current : Option Nat}

section Remember

variable {l : LifeLabel} (numbered : s.Numbered)
include numbered

/-- Nothing that was there before is a new operation. -/
theorem find?_old {entries : List (Nat × Command)} (before : entries ⊆ s.commands) :
    entries.find? (fun entry => s.nextSerial ≤ entry.1 && entry.2.isOperation) = none := by
  rw [List.find?_eq_none]
  intro entry mem new
  have old := numbered entry (before mem)
  simp only [Bool.and_eq_true, decide_eq_true_eq] at new
  omega

theorem remember_start {outcome : Outcome} {serial : Option Nat} {command : Command}
    (after : (s.next l).commands = ((s.take l).apply outcome serial).commands)
    (sent : outcome.effects.filterMap Effect.command? = [command])
    (operation : command.isOperation = true) :
    rememberOperation s l current = some s.nextSerial := by
  unfold rememberOperation
  rw [after]
  simp only [apply, sent, List.find?_append, find?_old numbered (commands_take l), nextSerial_take]
  simp [operation]

theorem remember_other {outcome : Outcome} {serial : Option Nat}
    (after : (s.next l).commands = ((s.take l).apply outcome serial).commands)
    (starts : outcome.starts = false) :
    rememberOperation s l current =
      if (s.next l).vm.lcmState = s.vm.lcmState then current else none := by
  have none_new : ((s.next l).commands.find? fun entry =>
      s.nextSerial ≤ entry.1 && entry.2.isOperation) = none := by
    rw [List.find?_eq_none]
    intro entry mem new
    simp only [Bool.and_eq_true, decide_eq_true_eq] at new
    rw [after] at mem
    rcases mem_commands_apply mem with before | ⟨-, sent⟩
    · have old := numbered entry (commands_take l before)
      omega
    · rw [Outcome.starts, List.any_eq_false] at starts
      exact starts _ sent new.2
  unfold rememberOperation
  rw [none_new]

end Remember

theorem AnswerInv.next (inv : AnswerInv s current) (l : LifeLabel) :
    AnswerInv (s.next l) (rememberOperation s l current) := by
  rcases Bool.eq_false_or_eq_true s.locked with locked | unlocked
  · have stuck : s.next l = s := if_pos locked
    have same : rememberOperation s l current = current := by
      unfold rememberOperation
      rw [stuck, find?_old inv.commands (List.Subset.refl _), if_pos rfl]
    rw [stuck, same]
    exact inv
  obtain ⟨outcome, serial, source, vm, commands, queue, number⟩ := next_cases unlocked l
  have grown : s.nextSerial ≤ (s.next l).nextSerial := by omega
  have fresh : (s.next l).Numbered := inv.commands.next l
  -- a result is about an operation that was there before the step
  have results : ∀ event ∈ (s.next l).lcmQueue, event.action.isResult = true → ∀ n,
      event.serial = some n → n < s.nextSerial ∧ ∀ c, current = some c → n ≤ c := by
    intro event mem result n some_n
    rw [queue] at mem
    rcases mem_lcmQueue_apply mem with before | ⟨of_command, sent⟩
    · exact inv.events event (lcmQueue_take l before) result n some_n
    · obtain ⟨command, there, operation⟩ := source.result (of_command.symm.trans some_n)
        (List.any_eq_true.mpr ⟨_, sent, result⟩)
      exact ⟨inv.commands _ there, fun c some_c => inv.newest c some_c _ there operation⟩
  rcases source.operation with ⟨command, sent, operation⟩ | ⟨starts, stage⟩
  · rw [remember_start inv.commands commands sent operation]
    refine ⟨fresh, fun c some_c entry mem _ => ?_, fun event mem result n some_n => ?_,
      fun _ => .inl (Option.some_ne_none _)⟩
    · cases some_c
      have below := fresh entry mem
      rw [number, sent, List.length_singleton] at below
      omega
    · have old := (results event mem result n some_n).1
      refine ⟨Nat.lt_of_lt_of_le old grown, fun c some_c => ?_⟩
      cases some_c
      exact Nat.le_of_lt old
  · rw [remember_other inv.commands commands starts]
    have kept {c : Nat} (some_c : (if (s.next l).vm.lcmState = s.vm.lcmState then current
        else none) = some c) : current = some c := by
      split at some_c
      · exact some_c
      · cases some_c
    refine ⟨fresh, fun c some_c entry mem operation => ?_, fun event mem result n some_n => ?_,
      fun waits => ?_⟩
    · rw [commands] at mem
      rcases mem_commands_apply mem with before | ⟨-, new⟩
      · exact inv.newest c (kept some_c) entry (commands_take l before) operation
      · rw [Outcome.starts, List.any_eq_false] at starts
        exact absurd operation (starts _ new)
    · have old := results event mem result n some_n
      exact ⟨Nat.lt_of_lt_of_le old.1 grown, fun c some_c => old.2 c (kept some_c)⟩
    · rw [vm] at waits ⊢
      rcases stage with same | quiet | suspended
      · rw [if_pos same, same]
        exact inv.waits (same ▸ waits)
      · cases waits.symm.trans quiet
      · exact .inr suspended

end LifeState

/-! ## Runs -/

theorem ReachedWaiting.inv {s : LifeState × Option Nat} (reached : ReachedWaiting s) :
    s.1.AnswerInv s.2 := by
  apply Transition.Reachable.invariant _ _ reached
  · intro s start
    obtain ⟨initial, empty⟩ := start
    rcases s with ⟨s, current⟩
    cases empty
    obtain ⟨queue, -, commands, -⟩ := initial.idle
    refine ⟨fun entry mem => ?_, fun c some_c => ?_, fun event mem => ?_, fun waits => ?_⟩
    · rw [commands] at mem
      cases mem
    · cases some_c
    · rw [queue] at mem
      cases mem
    · rw [initial.lcmState] at waits
      cases waits
  · intro s l s' inv taken
    cases taken
    exact inv.next l

/-- The outcome leaves the state of the VM, its history and the capacity of the hosts alone. -/
structure Outcome.Unmoved (outcome : Outcome) (vm : VirtualMachine) : Prop where
  state : outcome.vm.state = vm.state
  lcmState : outcome.vm.lcmState = vm.lcmState
  history : outcome.vm.history = vm.history
  capacity : ∀ hid, .addCapacity hid ∉ outcome.effects ∧ .delCapacity hid ∉ outcome.effects

/-- The message of a driver only sends an event. -/
theorem Command.unmoved_answer {command : Command} (operation : command.isOperation = true)
    (vm : VirtualMachine) (success : Bool) (info : String) (state : PollState) :
    (command.answer vm success info state).Unmoved vm := by
  have sends (name : String) (onSuccess onFailure : LcmAction) :
      (VirtualMachineManagerDriver.answer { vm with deployId := name } success onSuccess
        onFailure).Unmoved vm :=
    ⟨rfl, rfl, rfl, fun hid => by simp [VirtualMachineManagerDriver.answer]⟩
  cases command with
  | tm action => cases operation
  | vmm action =>
    cases action with
    | deploy | save | restore | migrate | shutdown | cancel | cancelPrevious =>
      simp only [answer, VmmAction.message?, VirtualMachineManagerDriver.protocol]
      split
      · exact ⟨rfl, rfl, rfl, fun hid => by simp⟩
      · cases success <;> exact sends _ _ _
    | _ => cases operation

/-- The result of a command that the VM does not wait for is dropped, unless the VM is in a
stage that takes it: for a newer operation, or because the monitoring found it suspended. -/
theorem result_of_superseded {s : LifeState × Option Nat} (reached : ReachedWaiting s) {n : Nat}
    (superseded : s.2 ≠ some n) :
    (∀ command success info state, s.1.command? n = some command → command.isOperation = true →
      (command.answer s.1.vm success info state).Unmoved s.1.vm) ∧
    ∀ event ∈ s.1.lcmQueue, event.action.isResult = true → event.serial = some n →
      (LifeCycleManager.handler event.action s.1.vm).Unmoved s.1.vm ∨
        s.1.vm.lcmState ∈ event.action.takenIn ∧
          ((∃ c, s.2 = some c ∧ n < c) ∨ s.2 = none ∧ s.1.vm.lcmState = .saveSuspend) := by
  refine ⟨fun command success info state _ operation =>
    command.unmoved_answer operation s.1.vm success info state, fun event queued result some_n => ?_⟩
  by_cases taken : s.1.vm.lcmState ∈ event.action.takenIn
  · refine .inr ⟨taken, ?_⟩
    cases current : s.2 with
    | none =>
      refine .inr ⟨rfl, ?_⟩
      exact (reached.inv.waits (LcmAction.awaitsResult_of_takenIn taken)).resolve_left
        fun some_current => some_current current
    | some c =>
      have bounded := (reached.inv.events event queued result n some_n).2 c current
      have other : n ≠ c := by
        rintro rfl
        exact superseded current
      exact .inl ⟨c, rfl, by omega⟩
  · left
    rw [LifeCycleManager.handler_dropped result taken]
    exact ⟨rfl, rfl, rfl, fun hid => ⟨List.not_mem_nil, List.not_mem_nil⟩⟩

/-- A VM that is deleted and created again while it boots. -/
def recreation : List LifeLabel :=
  [.place { kind := .deploy, hid := 7 } false true, .lcm, .answer 0 true "" .unknown, .lcm,
    .request .resubmit, .lcm]

/-- The failure of the first boot is dropped while the VM is cleaned up. -/
theorem result_of_superseded_dropped :
    ∃ s, ReachedWaiting s ∧ s.1.lcmQueue = [{ action := .deployFailure, serial := some 1 }] ∧
      (LifeCycleManager.handler .deployFailure s.1.vm).Unmoved s.1.vm := by
  have reached : ReachedWaiting
      ((recreation ++ [LifeLabel.answer 1 false "" .unknown]).foldl
        (Transition.withMemory LifeState.next rememberOperation) (newVm, none)) :=
    Transition.Reachable.run _ (.init ⟨newVm_initial, rfl⟩)
  refine ⟨_, reached, by decide +kernel, ?_⟩
  have dropped := (@result_of_superseded _ reached 1 (by decide +kernel)).2
    { action := .deployFailure, serial := some 1 } (by decide +kernel) rfl rfl
  exact dropped.resolve_right fun taken => absurd taken.1 (by decide +kernel)

/-- The failure of the first boot comes when the VM boots on another host, and ends that boot. -/
theorem late_failure_ends_redeployment :
    ∃ s, ReachedWaiting s ∧ s.2 = some 4 ∧
      s.1.lcmQueue = [{ action := .deployFailure, serial := some 1 }] ∧
      s.1.vm.In .boot ∧ s.1.vm.hid = some 8 ∧ (s.1.next .lcm).vm.lcmState = .failure ∧
      (s.1.next .lcm).vm.history.map History.reason = [.error, .user] ∧
      .delCapacity (some 8) ∈ (LifeCycleManager.handler .deployFailure s.1.vm).effects := by
  have reached : ReachedWaiting
      ((recreation ++
        [LifeLabel.answer 2 true "" .unknown, .lcm, .dm,
          .place { kind := .deploy, hid := 8 } false true, .lcm, .answer 3 true "" .unknown, .lcm,
          .answer 1 false "" .unknown]).foldl
        (Transition.withMemory LifeState.next rememberOperation) (newVm, none)) :=
    Transition.Reachable.run _ (.init ⟨newVm_initial, rfl⟩)
  exact ⟨_, reached, by decide +kernel⟩

end Ezilla
