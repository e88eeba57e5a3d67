import Ezilla.Dm.DispatchManagerLocks

/-!
# Locks in the transfer manager

What the handlers of the transfer manager do with the lock of the VM. Each looks the VM up,
writes a script for the driver and unlocks the VM; an error is logged, and the VM is unlocked as
well. `saveas_hot_action` also logs when it did not get a VM.

* `TransferCalls`: what the calls of a handler answer;
* `TmAction.locks`: the handlers;
* `TransferManagerDriver.protocolLocks`: the answers of the driver.

The scripts themselves are left out.
-/

namespace Ezilla

open LockDiscipline

/-- What the calls inside a handler answer. -/
structure TransferCalls where
  /-- `get` finds the driver -/
  driver : Bool
  /-- the last record has a TM_MAD and a DS_ID -/
  tmMad : Bool
  dsId : Bool
  /-- the record before has them -/
  previousTmMad : Bool
  previousDsId : Bool
  /-- the script can be opened -/
  file : Bool
  /-- for each disk, whether its command can be written -/
  commands : List Bool
  /-- `generate_context` does not fail -/
  context : Bool
  /-- the disk that is saved has a TM_MAD and a DATASTORE_ID, and a SOURCE -/
  diskDs : Bool
  saveSource : Bool
  deriving DecidableEq, Repr

namespace TransferManager

variable (calls : TransferCalls) (vm : VirtualMachine)

/-- `error_common`: the error is logged. -/
def errorCommon : List Event := [.use, .unlock]

/-- The loop of `prolog_action` on the disks; a disk without its attributes ends it. -/
def transferCommands : List Bool → List Event → List Event
  | [], rest => rest
  | written :: commands, rest =>
    .use :: if written then transferCommands commands rest else errorCommon

/-- `TransferManager::prolog_action`. -/
def prologLocks : List Event :=
  .use :: if vm.history = [] then errorCommon
    else .use :: if !(calls.driver && calls.tmMad) then errorCommon
    else .use :: if !calls.file then errorCommon
    else .use :: transferCommands calls.commands
      (.use :: if !calls.context then errorCommon else [.use, .unlock])

/-- The handlers that move the files of the VM: `hasRecords` is the history they need. -/
def moveLocks (hasRecords : Bool) : List Event :=
  .use :: if !hasRecords then errorCommon
    else .use :: if !(calls.driver && calls.tmMad && calls.dsId) then errorCommon
    else .use :: if !calls.file then errorCommon
    else .use :: ((calls.commands.map fun _ => Event.use) ++ [.use, .unlock])

/-- `TransferManager::prolog_migr_action`. -/
def prologMigrLocks : List Event := moveLocks calls (vm.history.length ≥ 2)

/-- `TransferManager::prolog_resume_action`. -/
def prologResumeLocks : List Event := moveLocks calls (vm.history ≠ [])

/-- `TransferManager::epilog_action`. -/
def epilogLocks : List Event := moveLocks calls (vm.history ≠ [])

/-- `TransferManager::epilog_stop_action`. -/
def epilogStopLocks : List Event := moveLocks calls (vm.history ≠ [])

/-- `TransferManager::epilog_delete_commands`: whether the commands were written. `ready` is
whether the record they are for is there with its TM_MAD and DS_ID. -/
def epilogDeleteCommands (ready : Bool) : Bool × List Event :=
  if !ready then (false, [.use, .use])
  else (true, .use :: (calls.commands.map fun _ => Event.use) ++ [.use])

/-- The last record of the VM, on the host or on the front-end. -/
def currentReady : Bool := vm.history ≠ [] && calls.tmMad && calls.dsId

/-- The record before. -/
def previousReady : Bool := vm.history.length ≥ 2 && calls.previousTmMad && calls.previousDsId

/-- The handlers that delete the files of the VM; the last of the commands decides. -/
def deleteLocks (commands : Bool × List Event) : List Event :=
  if !calls.driver then errorCommon
  else .use :: if !calls.file then errorCommon
  else commands.2 ++ if !commands.1 then errorCommon else [.unlock]

/-- `TransferManager::epilog_delete_action`, also for the files on the front-end. -/
def epilogDeleteLocks : List Event :=
  deleteLocks calls (epilogDeleteCommands calls (currentReady calls vm))

/-- `TransferManager::epilog_delete_previous_action`. -/
def epilogDeletePreviousLocks : List Event :=
  deleteLocks calls (epilogDeleteCommands calls (previousReady calls vm))

/-- `TransferManager::epilog_delete_both_action`; what the first commands return is lost. -/
def epilogDeleteBothLocks : List Event :=
  let current := epilogDeleteCommands calls (currentReady calls vm)
  let previous := epilogDeleteCommands calls (previousReady calls vm)
  deleteLocks calls (previous.1, current.2 ++ previous.2)

/-- `TransferManager::driver_cancel_action`: the driver is looked for before the VM. -/
def driverCancelLocks (vm? : Option VirtualMachine) : List Event :=
  if !calls.driver then [] else withVm vm? fun _ => [.unlock]

/-- `TransferManager::saveas_hot_action`. -/
def saveasHotLocks : Option VirtualMachine → List Event
  -- the error is logged with the VM that was not found, and `error_common` unlocks it
  | none => .get false :: .use :: errorCommon
  | some vm =>
    .get true :: .use :: if vm.history = [] then .use :: errorCommon
      else .use :: if vm.getSaveasDiskHot = none then .use :: errorCommon
      else if !calls.driver then errorCommon
      else .use :: if !calls.diskDs then .use :: errorCommon
      else if !calls.saveSource then .use :: errorCommon
      else .use :: if !calls.file then errorCommon
      else [.use, .unlock]

end TransferManager

open TransferManager

/-- What a handler of the transfer manager does with the lock. -/
def TmAction.locks (calls : TransferCalls) (vm? : Option VirtualMachine) : TmAction → List Event
  | .prolog => withVm vm? (prologLocks calls)
  | .prologMigr => withVm vm? (prologMigrLocks calls)
  | .prologResume => withVm vm? (prologResumeLocks calls)
  | .epilog => withVm vm? (epilogLocks calls)
  | .epilogStop => withVm vm? (epilogStopLocks calls)
  | .epilogDelete | .epilogDeleteStop => withVm vm? (epilogDeleteLocks calls)
  | .epilogDeletePrevious => withVm vm? (epilogDeletePreviousLocks calls)
  | .epilogDeleteBoth => withVm vm? (epilogDeleteBothLocks calls)
  | .checkpoint => []
  | .driverCancel => driverCancelLocks calls vm?
  | .saveasHot => saveasHotLocks calls vm?

/-- What an answer of the transfer driver is about. -/
inductive TransferAnswer where
  | transfer (success : Bool)
  | log
  | other
  deriving DecidableEq, Repr

/-- `TransferManagerDriver::protocol`, of an answer that can be read. -/
def TransferManagerDriver.protocolLocks (answer : TransferAnswer) (vm? : Option VirtualMachine) :
    List Event :=
  withVm vm? fun vm =>
    .use :: if vm.lcmState = .failure ∨ vm.lcmState = .lcmInit then [.use, .unlock]
      else match answer with
        | .transfer success =>
          let known := vm.lcmState ∈ ([.prolog, .prologMigrate, .prologResume, .prologUndeploy,
            .epilog, .epilogStop, .epilogUndeploy, .cleanupResubmit, .hotplugSaveas,
            .hotplugSaveasPoweroff, .hotplugSaveasSuspended] : List LcmState)
          -- a failure is logged, and written to the template
          (if success then [] else [.use]) ++ .use :: if known then [.unlock] else [.use, .unlock]
        | .log => [.use, .unlock]
        | .other => [.unlock]

namespace TransferManager

variable {calls : TransferCalls} {vm : VirtualMachine} {vm? : Option VirtualMachine}

theorem releases_errorCommon : Releases errorCommon := rfl

theorem releases_transferCommands {commands : List Bool} {rest : List Event}
    (released : Releases rest) : Releases (transferCommands commands rest) := by
  induction commands with
  | nil => exact released
  | cons written commands ih =>
    unfold transferCommands
    rw [releases_use]
    split
    · exact ih
    · exact releases_errorCommon

theorem releases_prologLocks : Releases (prologLocks calls vm) := by
  unfold prologLocks
  rw [releases_use]
  split
  · exact releases_errorCommon
  rw [releases_use]
  split
  · exact releases_errorCommon
  rw [releases_use]
  split
  · exact releases_errorCommon
  rw [releases_use]
  apply releases_transferCommands
  rw [releases_use]
  split <;> rfl

theorem releases_moveLocks {hasRecords : Bool} : Releases (moveLocks calls hasRecords) := by
  unfold moveLocks
  rw [releases_use]
  split
  · exact releases_errorCommon
  rw [releases_use]
  split
  · exact releases_errorCommon
  rw [releases_use]
  split
  · exact releases_errorCommon
  rw [releases_use, releases_uses]
  rfl

/-- The commands only use the VM. -/
theorem releases_epilogDeleteCommands {ready : Bool} {rest : List Event}
    (released : Releases rest) :
    Releases ((epilogDeleteCommands calls ready).2 ++ rest) := by
  unfold epilogDeleteCommands
  split
  · exact released
  · rw [List.append_assoc, List.cons_append, releases_use, releases_uses]
    exact released

theorem releases_deleteLocks {commands : Bool × List Event}
    (uses : ∀ rest, Releases rest → Releases (commands.2 ++ rest)) :
    Releases (deleteLocks calls commands) := by
  unfold deleteLocks
  split
  · exact releases_errorCommon
  rw [releases_use]
  split
  · exact releases_errorCommon
  apply uses
  split <;> rfl

theorem releases_epilogDeleteBothLocks : Releases (epilogDeleteBothLocks calls vm) := by
  apply releases_deleteLocks
  intro rest released
  rw [List.append_assoc]
  exact releases_epilogDeleteCommands (releases_epilogDeleteCommands released)

theorem balanced_driverCancelLocks : Balanced (driverCancelLocks calls vm?) := by
  unfold driverCancelLocks
  split
  · exact balanced_nil
  · rw [balanced_withVm]
    exact fun _ _ => rfl

/-- `saveas_hot_action` needs the VM. -/
theorem balanced_saveasHotLocks_iff : Balanced (saveasHotLocks calls vm?) ↔ vm?.isSome = true := by
  cases vm? with
  | none => exact iff_of_false (fun run => by cases run) (by decide)
  | some vm =>
    refine iff_of_true ?_ rfl
    unfold saveasHotLocks
    rw [balanced_get_found, releases_use]
    split
    · rfl
    rw [releases_use]
    split
    · rfl
    split
    · rfl
    rw [releases_use]
    split
    · rfl
    split
    · rfl
    rw [releases_use]
    split <;> rfl

end TransferManager

/-- Every handler unlocks the VM once, but `saveas_hot_action` when there is none. -/
theorem TmAction.balanced_locks_iff {calls : TransferCalls} {vm? : Option VirtualMachine}
    {action : TmAction} :
    Balanced (action.locks calls vm?) ↔ (action = .saveasHot → vm?.isSome = true) := by
  cases action with
  | saveasHot => exact balanced_saveasHotLocks_iff.trans ⟨fun found _ => found, fun h => h rfl⟩
  | prolog =>
    exact iff_of_true (balanced_withVm.mpr fun _ _ => releases_prologLocks) fun no => by cases no
  | prologMigr | prologResume | epilog | epilogStop =>
    exact iff_of_true (balanced_withVm.mpr fun _ _ => releases_moveLocks) fun no => by cases no
  | epilogDelete | epilogDeleteStop | epilogDeletePrevious =>
    exact iff_of_true (balanced_withVm.mpr fun _ _ => releases_deleteLocks fun _ =>
      releases_epilogDeleteCommands) fun no => by cases no
  | epilogDeleteBoth =>
    exact iff_of_true (balanced_withVm.mpr fun _ _ => releases_epilogDeleteBothLocks)
      fun no => by cases no
  | checkpoint => exact iff_of_true balanced_nil fun no => by cases no
  | driverCancel => exact iff_of_true balanced_driverCancelLocks fun no => by cases no

theorem TransferManagerDriver.balanced_protocolLocks {answer : TransferAnswer}
    {vm? : Option VirtualMachine} :
    Balanced (TransferManagerDriver.protocolLocks answer vm?) := by
  unfold TransferManagerDriver.protocolLocks
  rw [balanced_withVm]
  intro vm _
  rw [releases_use]
  split
  · rfl
  · cases answer with
    | transfer success =>
      have answered : ∀ (known : Prop) [Decidable known],
          Releases (.use :: if known then [.unlock] else [.use, .unlock]) := by
        intro known _
        rw [releases_use]
        split <;> rfl
      cases success with
      | true => exact answered _
      | false => exact releases_use.mpr (answered _)
    | log => rfl
    | other => rfl

end Ezilla
