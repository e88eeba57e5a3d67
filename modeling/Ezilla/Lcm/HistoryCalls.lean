import Ezilla.Lcm.LifeCycleSteps
import Ezilla.Vm.HistoryStore

/-!
# What the handlers do to the history

The calls of each handler that have to do with the history, in their order. Most handlers of
the life-cycle manager store the VM before they set the times and the reason of its current
record, and store the record after it.

* `LifeCycleManager.handlerCalls`: the calls of the handler of an event;
* `LifeCycleManager.historyAfter_handlerCalls`: together they do to the history what the
  handler does;
* `LifeState.calls`: the calls of any step of a run.
-/

namespace Ezilla

namespace LifeCycleManager

variable (vm : VirtualMachine) (now : Nat)

/-! ## Actions -/

/-- `deploy_action`. -/
def deployCalls : List HistoryCall :=
  if vm.state = .active then
    [.update, .setTime .stime now, .setTime .prologStime now, .updateHistory]
  else []

/-- `suspend_action`, `stop_action`, `shutdown_action`, `undeploy_action`, `poweroff_action` and
`cancel_action`. -/
def leaveRunningCalls (action : VMAction) : List HistoryCall :=
  if vm.In .running then [.update, .setAction action, .updateHistory] else []

/-- `migrate_action` and `live_migrate_action`: the action is the one of the previous record,
and the record that is stored is the current one. -/
def moveRunningCalls (action : VMAction) : List HistoryCall :=
  if vm.In .running then
    [.update, .setTime .stime now, .setPreviousAction action, .updateHistory]
  else []

/-- A record that follows a sleep on the same host. -/
def wakeUpCalls : List HistoryCall :=
  [.cpHistory, .update, .setTime .stime now, .setTime .runningStime now, .updateHistory]

/-- `restore_action`. -/
def restoreCalls : List HistoryCall :=
  if vm.state = .suspended then wakeUpCalls now else []

/-- `restart_action`. -/
def restartCalls : List HistoryCall :=
  if vm.state = .active then
    match vm.lcmState with
    | .unknown => [.update]
    | _ => []
  else if vm.state = .poweroff then wakeUpCalls now
  else []

/-- The previous record is closed, and stored. -/
def closePrevious : List HistoryCall :=
  [.setPreviousTime .etime now, .setPreviousTime .runningEtime now, .setPreviousReason .user,
    .updatePreviousHistory]

/-- The switch of `clean_up_vm`. -/
def cleanUpSwitchCalls (lcmState : LcmState) : List HistoryCall :=
  match lcmState with
  | .prolog | .prologResume | .prologUndeploy | .prologMigrate =>
    [.setTime .prologEtime now, .updateHistory]
  | .boot | .bootUnknown | .bootPoweroff | .bootSuspended | .bootStopped | .bootUndeploy
  | .running | .unknown | .shutdown | .shutdownPoweroff | .cancel | .hotplugSnapshot
  | .hotplug | .hotplugNic | .hotplugSaveas | .hotplugSaveasPoweroff | .hotplugSaveasSuspended
  | .saveStop | .saveSuspend =>
    [.setTime .runningEtime now, .updateHistory]
  | .migrate | .saveMigrate =>
    [.setTime .runningEtime now, .updateHistory] ++ closePrevious now
  | .epilogStop | .epilogUndeploy | .epilog => [.setTime .epilogEtime now, .updateHistory]
  -- the record stays as it was stored before
  | .lcmInit | .cleanupResubmit | .cleanupDelete | .failure | .shutdownUndeploy => []

/-- `clean_up_vm`. -/
def cleanUpCalls (dispose : Bool) : List HistoryCall :=
  [.setAction (if dispose then .delete else .deleteRecreate), .update, .setTime .etime now,
    .setReason .user] ++ cleanUpSwitchCalls now vm.lcmState

/-- `delete_action`. -/
def deleteCalls : List HistoryCall :=
  if vm.state = .active then
    match vm.lcmState with
    | .cleanupResubmit | .cleanupDelete | .failure => [.update]
    | _ => cleanUpCalls vm now true
  else []

/-- `clean_action`. -/
def cleanCalls : List HistoryCall :=
  if vm.state = .active then
    match vm.lcmState with
    | .cleanupDelete | .cleanupResubmit => []
    | .failure => [.update]
    | _ => cleanUpCalls vm now false
  else []

/-! ## Driver events -/

/-- `failure_action`. -/
def failureCalls : List HistoryCall :=
  [.update, .setTime .etime now, .setReason .error, .updateHistory]

/-- The epilog starts. -/
def startEpilogCalls (reason : EndReason) : List HistoryCall :=
  [.update, .setTime .epilogStime now, .setTime .runningEtime now, .setReason reason,
    .updateHistory]

/-- The VM was saved, or powered off. -/
def asleepCalls (reason : EndReason) : List HistoryCall :=
  [.update, .setTime .runningEtime now, .setTime .etime now, .setReason reason, .updateHistory]

/-- A migration is given up. -/
def giveUpMigrationCalls : List HistoryCall :=
  [.setTime .etime now, .setReason .error, .updateHistory] ++ closePrevious now ++
    [.cpPreviousHistory, .update, .setTime .stime now, .setTime .runningStime now, .updateHistory]

/-- A command was refused and the VM still runs. -/
def backToRunningCalls : List HistoryCall := [.update, .setAction .none, .updateHistory]

/-- `save_success_action`. -/
def saveSuccessCalls : List HistoryCall :=
  match vm.lcmState with
  | .saveMigrate =>
    .update :: closePrevious now ++ [.setTime .prologStime now, .updateHistory]
  | .saveSuspend => asleepCalls now .user
  | .saveStop => startEpilogCalls now .user
  | _ => []

/-- `save_failure_action`. -/
def saveFailureCalls : List HistoryCall :=
  match vm.lcmState with
  | .saveMigrate => giveUpMigrationCalls now
  | .saveSuspend | .saveStop => backToRunningCalls
  | _ => []

/-- `deploy_success_action`. -/
def deploySuccessCalls : List HistoryCall :=
  match vm.lcmState with
  | .migrate =>
    [.setTime .runningStime now, .updateHistory] ++ closePrevious now ++ [.update]
  | .boot | .bootPoweroff | .bootUnknown | .bootSuspended | .bootStopped | .bootUndeploy =>
    [.update]
  | _ => []

/-- `deploy_failure_action`. -/
def deployFailureCalls : List HistoryCall :=
  match vm.lcmState with
  | .migrate => .update :: giveUpMigrationCalls now
  | .boot => .setTime .runningEtime now :: failureCalls now
  | .bootUnknown | .bootPoweroff | .bootSuspended => [.update]
  | .bootStopped | .bootUndeploy => startEpilogCalls now .error
  | _ => []

/-- `shutdown_success_action`. -/
def shutdownSuccessCalls : List HistoryCall :=
  match vm.lcmState with
  | .shutdown | .shutdownUndeploy => startEpilogCalls now .user
  | .shutdownPoweroff => asleepCalls now .user
  | _ => []

/-- `shutdown_failure_action`. -/
def shutdownFailureCalls : List HistoryCall :=
  match vm.lcmState with
  | .shutdown | .shutdownPoweroff | .shutdownUndeploy => backToRunningCalls
  | _ => []

/-- `cancel_success_action`. -/
def cancelSuccessCalls : List HistoryCall :=
  match vm.lcmState with
  | .cancel =>
    [.update, .setReason .user, .setTime .epilogStime now, .setTime .runningEtime now,
      .updateHistory]
  | .shutdownUndeploy => startEpilogCalls now .user
  | .shutdownPoweroff => asleepCalls now .user
  | _ => []

/-- `cancel_failure_action`. -/
def cancelFailureCalls : List HistoryCall :=
  match vm.lcmState with
  | .cancel | .shutdownUndeploy | .shutdownPoweroff => backToRunningCalls
  | _ => []

/-- `prolog_success_action`. -/
def prologSuccessCalls : List HistoryCall :=
  match vm.lcmState with
  | .prolog | .prologUndeploy | .prologMigrate | .prologResume =>
    [.update, .setTime .prologEtime now, .setTime .runningStime now, .updateHistory]
  | _ => []

/-- `prolog_failure_action`. -/
def prologFailureCalls : List HistoryCall :=
  match vm.lcmState with
  | .prolog | .prologMigrate | .prologResume | .prologUndeploy =>
    .setTime .prologEtime now :: failureCalls now
  | _ => []

/-- `epilog_success_action`. -/
def epilogSuccessCalls : List HistoryCall :=
  match vm.lcmState with
  | .epilogStop | .epilogUndeploy | .epilog =>
    [.setTime .epilogEtime now, .setTime .etime now, .updateHistory]
  | _ => []

/-- `epilog_failure_action`. -/
def epilogFailureCalls : List HistoryCall :=
  match vm.lcmState with
  | .epilogStop | .epilogUndeploy | .epilog => .setTime .epilogEtime now :: failureCalls now
  | _ => []

/-- `monitor_failure_action`. -/
def monitorFailureCalls : List HistoryCall :=
  match vm.lcmState with
  | .running | .unknown => .setTime .runningEtime now :: failureCalls now
  | _ => []

/-- `monitor_suspend_action`. -/
def monitorSuspendCalls : List HistoryCall :=
  match vm.lcmState with
  | .running | .unknown => asleepCalls now .error
  | _ => []

/-- The handlers that only store the VM, where they find it in the stage they expect. -/
def storeIn (lcmState : LcmState) : List HistoryCall :=
  if vm.lcmState = lcmState then [.update] else []

/-- `saveas_hot_success_action` and `saveas_hot_failure_action`. -/
def saveasHotCalls : List HistoryCall :=
  match vm.lcmState with
  | .hotplugSaveas | .hotplugSaveasPoweroff | .hotplugSaveasSuspended => [.update]
  | _ => []

/-- The calls of the handler of an event. -/
def handlerCalls : LcmAction → List HistoryCall
  | .saveSuccess => saveSuccessCalls vm now
  | .saveFailure => saveFailureCalls vm now
  | .deploySuccess => deploySuccessCalls vm now
  | .deployFailure => deployFailureCalls vm now
  | .shutdownSuccess => shutdownSuccessCalls vm now
  | .shutdownFailure => shutdownFailureCalls vm
  | .cancelSuccess => cancelSuccessCalls vm now
  | .cancelFailure => cancelFailureCalls vm
  | .monitorFailure => monitorFailureCalls vm now
  | .monitorSuspend => monitorSuspendCalls vm now
  | .monitorDone => storeIn vm .running
  | .prologSuccess => prologSuccessCalls vm now
  | .prologFailure => prologFailureCalls vm now
  | .epilogSuccess => epilogSuccessCalls vm now
  | .epilogFailure => epilogFailureCalls vm now
  | .attachSuccess | .attachFailure | .detachSuccess | .detachFailure => storeIn vm .hotplug
  | .attachNicSuccess | .attachNicFailure | .detachNicSuccess => storeIn vm .hotplugNic
  | .snapshotCreateSuccess | .snapshotCreateFailure | .snapshotRevertSuccess
  | .snapshotRevertFailure | .snapshotDeleteSuccess | .snapshotDeleteFailure =>
    storeIn vm .hotplugSnapshot
  | .saveasHotSuccess | .saveasHotFailure => saveasHotCalls vm
  | .deploy => deployCalls vm now
  | .suspend => leaveRunningCalls vm .suspend
  | .restore => restoreCalls vm now
  | .stop => leaveRunningCalls vm .stop
  | .cancel => leaveRunningCalls vm .shutdownHard
  | .migrate => moveRunningCalls vm now .migrate
  | .liveMigrate => moveRunningCalls vm now .liveMigrate
  | .shutdown => leaveRunningCalls vm .shutdown
  | .undeploy => leaveRunningCalls vm .undeploy
  | .undeployHard => leaveRunningCalls vm .undeployHard
  | .restart => restartCalls vm now
  | .delete => deleteCalls vm now
  | .clean => cleanCalls vm now
  | .poweroff => leaveRunningCalls vm .poweroff
  | .poweroffHard => leaveRunningCalls vm .poweroffHard
  | .detachNicFailure | .cleanupSuccess | .cleanupFailure | .finalize => []

/-! ## The calls and the handlers -/

section Agree

/-- The history that some calls leave. -/
def historyAfter (calls : List HistoryCall) : List History :=
  (calls.foldl HistoryCall.onVm vm).history

theorem historyAfter_cleanUpCalls (dispose : Bool) :
    historyAfter vm (cleanUpCalls vm now dispose) = (cleanUpVm vm dispose).1.history := by
  unfold cleanUpCalls cleanUpVm
  cases vm.lcmState <;> rfl

/-- The calls of a handler do to the history what the handler does. -/
theorem historyAfter_handlerCalls (action : LcmAction) :
    historyAfter vm (handlerCalls vm now action) = (handler action vm).vm.history := by
  cases action with
  | saveSuccess =>
    simp only [handler, handlerCalls, saveSuccessAction, saveSuccessCalls]
    cases vm.lcmState <;> rfl
  | saveFailure =>
    simp only [handler, handlerCalls, saveFailureAction, saveFailureCalls]
    cases vm.lcmState <;> rfl
  | deploySuccess =>
    simp only [handler, handlerCalls, deploySuccessAction, deploySuccessCalls]
    cases vm.lcmState <;> rfl
  | deployFailure =>
    simp only [handler, handlerCalls, deployFailureAction, deployFailureCalls]
    cases vm.lcmState <;> rfl
  | shutdownSuccess =>
    simp only [handler, handlerCalls, shutdownSuccessAction, shutdownSuccessCalls]
    cases vm.lcmState <;> rfl
  | shutdownFailure =>
    simp only [handler, handlerCalls, shutdownFailureAction, shutdownFailureCalls]
    cases vm.lcmState <;> rfl
  | cancelSuccess =>
    simp only [handler, handlerCalls, cancelSuccessAction, cancelSuccessCalls]
    cases vm.lcmState <;> rfl
  | cancelFailure =>
    simp only [handler, handlerCalls, cancelFailureAction, cancelFailureCalls]
    cases vm.lcmState <;> rfl
  | monitorFailure =>
    simp only [handler, handlerCalls, monitorFailureAction, monitorFailureCalls]
    cases vm.lcmState <;> rfl
  | monitorSuspend =>
    simp only [handler, handlerCalls, monitorSuspendAction, monitorSuspendCalls]
    cases vm.lcmState <;> rfl
  | monitorDone =>
    simp only [handler, handlerCalls, monitorDoneAction, storeIn]
    cases vm.lcmState <;> rfl
  | prologSuccess =>
    simp only [handler, handlerCalls, prologSuccessAction, prologSuccessCalls]
    cases vm.lcmState <;> rfl
  | prologFailure =>
    simp only [handler, handlerCalls, prologFailureAction, prologFailureCalls]
    cases vm.lcmState <;> rfl
  | epilogSuccess =>
    simp only [handler, handlerCalls, epilogSuccessAction, epilogSuccessCalls]
    cases vm.lcmState <;> rfl
  | epilogFailure =>
    simp only [handler, handlerCalls, epilogFailureAction, epilogFailureCalls]
    cases vm.lcmState <;> rfl
  | attachSuccess | attachFailure | detachSuccess | detachFailure | attachNicSuccess
  | attachNicFailure | detachNicSuccess | snapshotCreateSuccess | snapshotCreateFailure
  | snapshotRevertSuccess | snapshotRevertFailure | snapshotDeleteSuccess
  | snapshotDeleteFailure =>
    simp only [handler, handlerCalls, attachSuccessAction, attachFailureAction,
      detachSuccessAction, detachFailureAction, attachNicSuccessAction, attachNicFailureAction,
      detachNicSuccessAction, snapshotCreateSuccess, snapshotCreateFailure,
      snapshotRevertSuccess, snapshotRevertFailure, snapshotDeleteSuccess,
      snapshotDeleteFailure, keepActiveSnapshot, dropActiveSnapshot, storeIn]
    cases vm.lcmState <;> rfl
  | saveasHotSuccess | saveasHotFailure =>
    refine Eq.trans ?_ (saveasHotEnd_cases vm _).1.symm
    simp only [handlerCalls, saveasHotCalls]
    cases vm.lcmState <;> rfl
  | deploy =>
    simp only [handler, handlerCalls, deployAction, deployCalls]
    split
    · split <;> rfl
    · rfl
  | suspend | stop | cancel | shutdown | undeploy | undeployHard | poweroff | poweroffHard =>
    simp only [handler, handlerCalls, suspendAction, stopAction, cancelAction, shutdownAction,
      undeployAction, poweroffAction, leaveRunning, leaveRunningCalls, Bool.false_eq_true,
      if_true, if_false]
    split <;> rfl
  | migrate | liveMigrate =>
    simp only [handler, handlerCalls, migrateAction, liveMigrateAction, moveRunning,
      moveRunningCalls]
    split <;> rfl
  | restore =>
    simp only [handler, handlerCalls, restoreAction, restoreCalls]
    split <;> rfl
  | restart =>
    simp only [handler, handlerCalls, restartAction, restartCalls]
    split
    · cases vm.lcmState <;> rfl
    · split <;> rfl
  | delete =>
    simp only [handler, handlerCalls, deleteAction, deleteCalls]
    have cleaned := historyAfter_cleanUpCalls vm now true
    split
    · cases vm.lcmState <;> first | rfl | exact cleaned
    · rfl
  | clean =>
    simp only [handler, handlerCalls, cleanAction, cleanCalls]
    have cleaned := historyAfter_cleanUpCalls vm now false
    split
    · cases vm.lcmState <;> first | rfl | exact cleaned
    · rfl
  | detachNicFailure | cleanupSuccess | cleanupFailure =>
    simp only [handler, handlerCalls, cleanupCallbackAction]
    cases vm.lcmState <;> rfl
  | finalize => rfl

end Agree

end LifeCycleManager

/-! ## The other steps -/

/-- The VM is stored, where the handler goes on. -/
def storeIf (p : Prop) [Decidable p] : List HistoryCall := if p then [.update] else []

/-- The calls of a request that is done at once. -/
def VmRequest.calls (vm : VirtualMachine) : VmRequest → List HistoryCall
  | .shutdown | .undeploy _ | .poweroff _ | .stop | .cancel | .suspend | .restart => []
  | .reboot | .reset | .resched _ => storeIf (vm.In .running)
  | .hold => storeIf (vm.state = .pending)
  | .release => storeIf (vm.state = .hold)
  | .resume => storeIf (vm.state = .stopped ∨ vm.state = .undeployed)
  | .finalize => storeIf (vm.state ≠ .active ∧ vm.state ≠ .done)
  | .resubmit =>
    storeIf (vm.state = .failed ∨ vm.state = .hold ∨ vm.state = .stopped ∨ vm.state = .undeployed)
  | .detach diskId => storeIf (vm.In .running ∧ (vm.setAttachDisk diskId).isSome)
  | .detachNic nicId => storeIf (vm.In .running ∧ (vm.setAttachNic nicId).isSome)
  | .snapshotCreate _ => storeIf (vm.In .running)
  | .snapshotRevert snapId | .snapshotDelete snapId =>
    storeIf (vm.In .running ∧ (vm.setActiveSnapshot snapId).isSome)

/-- `RequestManagerVirtualMachine::add_history`, and the dispatch of the placement. -/
def Placement.calls (placement : Placement) (vm : VirtualMachine) (stored : Bool) :
    List HistoryCall :=
  if stored then
    [.addHistory placement.hid, .updateHistory, .update] ++
      storeIf (placement.kind = .deploy ∧ (vm.state = .pending ∨ vm.state = .hold))
  -- the statement of `update_history` has failed
  else [.addHistory placement.hid]

/-- `VirtualMachineManagerDriver::process_poll`. -/
def PollState.calls (vm : VirtualMachine) : PollState → List HistoryCall
  | .error => [.update]
  | .active => [.update, .updateHistory] ++ storeIf (vm.lcmState = .unknown)
  | _ => [.update, .updateHistory]

/-- `VirtualMachineManagerDriver::protocol`: a failure is noted in the template of the VM. -/
def VmmMessage.calls (vm : VirtualMachine) (message : VmmMessage) (success : Bool) :
    List HistoryCall :=
  if VirtualMachineManagerDriver.ignored vm then []
  else
    match message with
    | .poll state => if success then state.calls vm else []
    | .deploy | .snapshotCreate => [.update]
    | _ => if success then [] else [.update]

/-- `TransferManagerDriver::protocol`: a failure is noted where the driver gives a reason. -/
def transferCalls (vm : VirtualMachine) (success : Bool) (info : String) : List HistoryCall :=
  match vm.lcmState with
  | .failure | .lcmInit => []
  | _ => storeIf (success = false ∧ info ≠ "" ∧ info.front ≠ '-')

/-- The calls of the answer of a driver. -/
def Command.calls (command : Command) (vm : VirtualMachine) (success : Bool) (info : String)
    (state : PollState) : List HistoryCall :=
  match command with
  | .vmm action =>
    match action.message? state with
    | none => []
    | some message => message.calls vm success
  | .tm action => if action.isTransfer then transferCalls vm success info else []

/-- The calls at the end of a request to copy a disk. -/
def saveDiskImageCalls (vm : VirtualMachine) (diskId : Nat) (hot : Bool) :
    Option (Nat × String) → List HistoryCall
  | none => [.update]
  | some (imageId, source) => storeIf (vm.saveDisk diskId hot imageId source).isSome

/-- The calls of the dispatch manager. -/
def DmAction.calls (vm : VirtualMachine) : DmAction → List HistoryCall
  | .suspendSuccess => storeIf (vm.In .saveSuspend)
  | .stopSuccess => storeIf (vm.In .epilogStop ∨ vm.In .prologResume)
  | .undeploySuccess => storeIf (vm.In .epilogUndeploy ∨ vm.In .prologUndeploy)
  | .poweroffSuccess => storeIf (vm.In .shutdownPoweroff)
  | .done => storeIf (vm.In .epilog ∨ vm.In .cancel ∨ vm.In .cleanupDelete)
  | .failed => storeIf (vm.lcmState = .failure)
  | .resubmit => storeIf (vm.lcmState = .cleanupResubmit)
  | .finalize => []

/-- The calls of a step on a VM that is not locked. -/
def LifeState.calls (s : LifeState) (now : Nat) : LifeLabel → List HistoryCall
  | .request request => request.calls s.vm
  | .place placement enforce stored =>
    if placement.check s.vm ∧ placement.kind = .deploy ∧ enforce = false then
      placement.calls s.vm stored
    else []
  | .commit placement stored =>
    if .place placement ∈ s.pending then placement.calls s.vm stored else []
  | .giveUp _ | .unsent _ => []
  | .attach | .attachNic => storeIf (s.vm.In .running)
  | .setUpDisk _ => storeIf (.setUpDisk ∈ s.pending)
  | .setUpNic _ => storeIf (.setUpNic ∈ s.pending)
  | .saveDisk diskId hot => storeIf (s.vm.setSaveasState diskId hot).isSome
  | .saveDiskImage diskId hot image =>
    if .saveDisk diskId hot ∈ s.pending then saveDiskImageCalls s.vm diskId hot image else []
  | .lcm =>
    match s.lcmQueue with
    | [] => []
    | event :: _ => LifeCycleManager.handlerCalls s.vm now event.action
  | .dm =>
    match s.dmQueue with
    | [] => []
    | action :: _ => action.calls s.vm
  | .answer serial success info state =>
    match s.command? serial with
    | none => []
    | some command => command.calls s.vm success info state
  | .poll success state => (VmmMessage.poll state).calls s.vm success
  | .monitor none => []
  | .monitor (some state) => state.calls s.vm
  | .recover _ => storeIf (s.vm.state = .active ∧ s.vm.lcmState = .unknown)

end Ezilla
