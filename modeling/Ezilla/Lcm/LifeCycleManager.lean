import Ezilla.Lcm.LifeCycleActions
import Ezilla.Lcm.LifeCycleStates

/-!
# The life-cycle manager

`LifeCycleManager::trigger` turns an action into a text for the action queue, and
`LifeCycleManager::do_action` compares that text with the ones it knows, in the thread of the
manager.

* `LifeCycleManager.handler`: the handler each action gets;
* `LifeCycleManager.doAction_trigger`: that it does get it, through the text.

One case of `trigger` has no `break`: a NIC that could not be detached is reported as a
clean-up that went well.
-/

namespace Ezilla

namespace LifeCycleManager

/-- `LifeCycleManager::trigger`: the text of an action. -/
def trigger : LcmAction → String
  | .saveSuccess => "SAVE_SUCCESS"
  | .saveFailure => "SAVE_FAILURE"
  | .deploySuccess => "DEPLOY_SUCCESS"
  | .deployFailure => "DEPLOY_FAILURE"
  | .shutdownSuccess => "SHUTDOWN_SUCCESS"
  | .shutdownFailure => "SHUTDOWN_FAILURE"
  | .cancelSuccess => "CANCEL_SUCCESS"
  | .cancelFailure => "CANCEL_FAILURE"
  | .monitorFailure => "MONITOR_FAILURE"
  | .monitorSuspend => "MONITOR_SUSPEND"
  | .monitorDone => "MONITOR_DONE"
  | .prologSuccess => "PROLOG_SUCCESS"
  | .prologFailure => "PROLOG_FAILURE"
  | .epilogSuccess => "EPILOG_SUCCESS"
  | .epilogFailure => "EPILOG_FAILURE"
  | .attachSuccess => "ATTACH_SUCCESS"
  | .attachFailure => "ATTACH_FAILURE"
  | .detachSuccess => "DETACH_SUCCESS"
  | .detachFailure => "DETACH_FAILURE"
  | .saveasHotSuccess => "SAVEAS_HOT_SUCCESS"
  | .saveasHotFailure => "SAVEAS_HOT_FAILURE"
  | .attachNicSuccess => "ATTACH_NIC_SUCCESS"
  | .attachNicFailure => "ATTACH_NIC_FAILURE"
  | .detachNicSuccess => "DETACH_NIC_SUCCESS"
  -- the text is set to DETACH_NIC_FAILURE and, without a break, set again by the next case
  | .detachNicFailure => "CLEANUP_SUCCESS"
  | .cleanupSuccess => "CLEANUP_SUCCESS"
  | .cleanupFailure => "CLEANUP_FAILURE"
  | .snapshotCreateSuccess => "SNAPSHOT_CREATE_SUCCESS"
  | .snapshotCreateFailure => "SNAPSHOT_CREATE_FAILURE"
  | .snapshotRevertSuccess => "SNAPSHOT_REVERT_SUCCESS"
  | .snapshotRevertFailure => "SNAPSHOT_REVERT_FAILURE"
  | .snapshotDeleteSuccess => "SNAPSHOT_DELETE_SUCCESS"
  | .snapshotDeleteFailure => "SNAPSHOT_DELETE_FAILURE"
  | .deploy => "DEPLOY"
  | .suspend => "SUSPEND"
  | .restore => "RESTORE"
  | .stop => "STOP"
  | .cancel => "CANCEL"
  | .migrate => "MIGRATE"
  | .liveMigrate => "LIVE_MIGRATE"
  | .shutdown => "SHUTDOWN"
  | .undeploy => "UNDEPLOY"
  | .undeployHard => "UNDEPLOY_HARD"
  | .restart => "RESTART"
  | .delete => "DELETE"
  | .clean => "CLEAN"
  | .finalize => "FINALIZE"
  | .poweroff => "POWEROFF"
  | .poweroffHard => "POWEROFF_HARD"

/-- `LifeCycleManager::do_action`. -/
def doAction (action : String) (vm : VirtualMachine) : Outcome :=
  match action with
  | "SAVE_SUCCESS" => saveSuccessAction vm
  | "SAVE_FAILURE" => saveFailureAction vm
  | "DEPLOY_SUCCESS" => deploySuccessAction vm
  | "DEPLOY_FAILURE" => deployFailureAction vm
  | "SHUTDOWN_SUCCESS" => shutdownSuccessAction vm
  | "SHUTDOWN_FAILURE" => shutdownFailureAction vm
  | "CANCEL_SUCCESS" => cancelSuccessAction vm
  | "CANCEL_FAILURE" => cancelFailureAction vm
  | "MONITOR_FAILURE" => monitorFailureAction vm
  | "MONITOR_SUSPEND" => monitorSuspendAction vm
  | "MONITOR_DONE" => monitorDoneAction vm
  | "PROLOG_SUCCESS" => prologSuccessAction vm
  | "PROLOG_FAILURE" => prologFailureAction vm
  | "EPILOG_SUCCESS" => epilogSuccessAction vm
  | "EPILOG_FAILURE" => epilogFailureAction vm
  | "ATTACH_SUCCESS" => attachSuccessAction vm
  | "ATTACH_FAILURE" => attachFailureAction vm
  | "DETACH_SUCCESS" => detachSuccessAction vm
  | "DETACH_FAILURE" => detachFailureAction vm
  | "SAVEAS_HOT_SUCCESS" => saveasHotSuccessAction vm
  | "SAVEAS_HOT_FAILURE" => saveasHotFailureAction vm
  | "ATTACH_NIC_SUCCESS" => attachNicSuccessAction vm
  | "ATTACH_NIC_FAILURE" => attachNicFailureAction vm
  | "DETACH_NIC_SUCCESS" => detachNicSuccessAction vm
  | "DETACH_NIC_FAILURE" => detachNicFailureAction vm
  | "CLEANUP_SUCCESS" => cleanupCallbackAction vm
  | "CLEANUP_FAILURE" => cleanupCallbackAction vm
  | "SNAPSHOT_CREATE_SUCCESS" => snapshotCreateSuccess vm
  | "SNAPSHOT_CREATE_FAILURE" => snapshotCreateFailure vm
  | "SNAPSHOT_REVERT_SUCCESS" => snapshotRevertSuccess vm
  | "SNAPSHOT_REVERT_FAILURE" => snapshotRevertFailure vm
  | "SNAPSHOT_DELETE_SUCCESS" => snapshotDeleteSuccess vm
  | "SNAPSHOT_DELETE_FAILURE" => snapshotDeleteFailure vm
  | "DEPLOY" => deployAction vm
  | "SUSPEND" => suspendAction vm
  | "RESTORE" => restoreAction vm
  | "STOP" => stopAction vm
  | "CANCEL" => cancelAction vm
  | "MIGRATE" => migrateAction vm
  | "LIVE_MIGRATE" => liveMigrateAction vm
  | "SHUTDOWN" => shutdownAction vm
  | "UNDEPLOY" => undeployAction vm false
  | "UNDEPLOY_HARD" => undeployAction vm true
  | "RESTART" => restartAction vm
  | "DELETE" => deleteAction vm
  | "CLEAN" => cleanAction vm
  | "POWEROFF" => poweroffAction vm false
  | "POWEROFF_HARD" => poweroffAction vm true
  -- FINALIZE and texts that are not known are only logged
  | _ => .wrongState vm

/-- The handler an action gets. -/
def handler : LcmAction → VirtualMachine → Outcome
  | .saveSuccess => saveSuccessAction
  | .saveFailure => saveFailureAction
  | .deploySuccess => deploySuccessAction
  | .deployFailure => deployFailureAction
  | .shutdownSuccess => shutdownSuccessAction
  | .shutdownFailure => shutdownFailureAction
  | .cancelSuccess => cancelSuccessAction
  | .cancelFailure => cancelFailureAction
  | .monitorFailure => monitorFailureAction
  | .monitorSuspend => monitorSuspendAction
  | .monitorDone => monitorDoneAction
  | .prologSuccess => prologSuccessAction
  | .prologFailure => prologFailureAction
  | .epilogSuccess => epilogSuccessAction
  | .epilogFailure => epilogFailureAction
  | .attachSuccess => attachSuccessAction
  | .attachFailure => attachFailureAction
  | .detachSuccess => detachSuccessAction
  | .detachFailure => detachFailureAction
  | .saveasHotSuccess => saveasHotSuccessAction
  | .saveasHotFailure => saveasHotFailureAction
  | .attachNicSuccess => attachNicSuccessAction
  | .attachNicFailure => attachNicFailureAction
  | .detachNicSuccess => detachNicSuccessAction
  | .detachNicFailure | .cleanupSuccess | .cleanupFailure => cleanupCallbackAction
  | .snapshotCreateSuccess => snapshotCreateSuccess
  | .snapshotCreateFailure => snapshotCreateFailure
  | .snapshotRevertSuccess => snapshotRevertSuccess
  | .snapshotRevertFailure => snapshotRevertFailure
  | .snapshotDeleteSuccess => snapshotDeleteSuccess
  | .snapshotDeleteFailure => snapshotDeleteFailure
  | .deploy => deployAction
  | .suspend => suspendAction
  | .restore => restoreAction
  | .stop => stopAction
  | .cancel => cancelAction
  | .migrate => migrateAction
  | .liveMigrate => liveMigrateAction
  | .shutdown => shutdownAction
  | .undeploy => fun vm => undeployAction vm false
  | .undeployHard => fun vm => undeployAction vm true
  | .restart => restartAction
  | .delete => deleteAction
  | .clean => cleanAction
  | .finalize => Outcome.wrongState
  | .poweroff => fun vm => poweroffAction vm false
  | .poweroffHard => fun vm => poweroffAction vm true

/-- Every action reaches its handler, but for the NIC that could not be detached. -/
theorem doAction_trigger (action : LcmAction) (vm : VirtualMachine) :
    doAction (trigger action) vm = handler action vm := by
  cases action <;> rfl

end LifeCycleManager

end Ezilla
