import Ezilla.Lcm.CleanUpRuns
import Ezilla.Lcm.HistoryAspects

/-!
# Runs with a database

The runs of the life cycle of one VM, with its history in memory and in the database. Between
two steps any other handler may store the VM.

* `StoredLife`, `StoredLife.next`: the system, in which the VM can also be read back and the
  daemon started again, and `StoredLife.Reached`: its states while the database stores the
  records;
* `numbers_of_reached`: the numbers of the records, in any run;
* `select_stay_of_reached`: reading the VM back loses no record that was stored;
* `rows_of_reachedInTurn`, `select_of_resting`: in the runs whose steps come in turn the table
  is exact, and reading back a VM that is not active gives the records as they are.
-/

namespace Ezilla

open WriteBack (Dirty Sound Clean)

/-- The steps that change no record. -/
def LifeLabel.isPlain : LifeLabel → Bool
  | .lcm | .place _ _ _ | .commit _ _ => false
  | _ => true

/-- A placement that was checked is committed. -/
def LifeLabel.isCommit : LifeLabel → Bool
  | .commit _ _ => true
  | _ => false

/-- The database stores the record of a placement. -/
def LifeLabel.isStored : LifeLabel → Bool
  | .place _ _ stored | .commit _ stored => stored
  | _ => true

/-! ## What plain steps do -/

theorem VmRequest.plain_calls (vm : VirtualMachine) (request : VmRequest) :
    ∀ call ∈ request.calls vm, call.Plain := by
  cases request <;> first
    | exact plain_storeIf _
    | exact fun _ member => absurd member List.not_mem_nil

theorem PollState.plain_calls (vm : VirtualMachine) (state : PollState) :
    ∀ call ∈ state.calls vm, call.Plain := by
  intro call member
  have two (there : call ∈ [HistoryCall.update, .updateHistory]) : call.Plain := by
    simpa [HistoryCall.Plain] using there
  cases state with
  | active =>
    rcases List.mem_append.mp member with first | last
    · exact two first
    · exact plain_storeIf _ call last
  | error => exact .inl (List.mem_singleton.mp member)
  | paused | failed | notFound | unknown => exact two member

theorem VmmMessage.plain_calls (vm : VirtualMachine) (message : VmmMessage) (success : Bool) :
    ∀ call ∈ message.calls vm success, call.Plain := by
  intro call member
  have one (there : call ∈ [HistoryCall.update]) : call.Plain := .inl (List.mem_singleton.mp there)
  unfold VmmMessage.calls at member
  split at member
  · cases member
  · split at member
    · split at member
      · exact PollState.plain_calls vm _ call member
      · cases member
    · exact one member
    · exact one member
    · split at member
      · cases member
      · exact one member

theorem Command.plain_calls (command : Command) (vm : VirtualMachine) (success : Bool)
    (info : String) (state : PollState) :
    ∀ call ∈ command.calls vm success info state, call.Plain := by
  intro call member
  unfold Command.calls at member
  split at member
  · split at member
    · cases member
    · exact VmmMessage.plain_calls vm _ success call member
  · split at member
    · unfold transferCalls at member
      split at member
      · cases member
      · cases member
      · exact plain_storeIf _ call member
    · cases member

namespace LifeState

variable (s : LifeState) (now : Nat)

theorem plain_calls {l : LifeLabel} (plain : l.isPlain = true) :
    ∀ call ∈ s.calls now l, call.Plain := by
  intro call member
  cases l with
  | lcm | place | commit => cases plain
  | request request => exact request.plain_calls s.vm call member
  | giveUp | unsent => cases member
  | attach | attachNic | setUpDisk | setUpNic | saveDisk | recover =>
    exact plain_storeIf _ call member
  | saveDiskImage diskId hot image =>
    simp only [calls] at member
    split at member
    · cases image with
      | none => exact .inl (List.mem_singleton.mp member)
      | some image => exact plain_storeIf _ call member
    · cases member
  | dm =>
    simp only [calls] at member
    split at member
    · cases member
    · rename_i action _ _
      cases action <;> first
        | exact plain_storeIf _ call member
        | cases member
  | answer serial success info state =>
    simp only [calls] at member
    split at member
    · cases member
    · exact Command.plain_calls _ s.vm success info state call member
  | poll success state => exact VmmMessage.plain_calls s.vm (.poll state) success call member
  | monitor state =>
    cases state with
    | none => cases member
    | some state => exact state.plain_calls s.vm call member

end LifeState

/-! ## The states of a VM -/

/-- The VM is in the state and in the stage it was in. -/
def VirtualMachine.SameStage (vm vm' : VirtualMachine) : Prop :=
  vm'.state = vm.state ∧ vm'.lcmState = vm.lcmState

theorem VirtualMachine.SameStage.refl (vm : VirtualMachine) : vm.SameStage vm := ⟨rfl, rfl⟩

/-- A request that changes the state or the stage of the VM stores it. -/
theorem VmRequest.stored (vm : VirtualMachine) (request : VmRequest) :
    vm.SameStage (request.run vm).outcome.vm ∨ .update ∈ request.calls vm := by
  have onElement (lcmState : LcmState) (marked : Option VirtualMachine) (action : VmmAction) :
      vm.SameStage (DispatchManager.onElement vm lcmState marked action).outcome.vm ∨
        vm.In .running ∧ marked.isSome := by
    unfold DispatchManager.onElement
    split
    · rename_i running
      cases marked with
      | none => exact .inl ⟨rfl, rfl⟩
      | some vm' => exact .inr ⟨running, rfl⟩
    · exact .inl ⟨rfl, rfl⟩
  cases request with
  | shutdown | undeploy | poweroff | stop | cancel | suspend =>
    refine .inl ?_
    simp only [run, DispatchManager.shutdown, DispatchManager.undeploy, DispatchManager.poweroff,
      DispatchManager.stop, DispatchManager.cancel, DispatchManager.suspend,
      DispatchManager.whenRunning]
    split <;> exact ⟨rfl, rfl⟩
  | reboot | reset | resched =>
    refine .inl ?_
    simp only [run, DispatchManager.reboot, DispatchManager.reset, DispatchManager.resched]
    split <;> exact ⟨rfl, rfl⟩
  | hold =>
    simp only [run, DispatchManager.hold]
    split
    · rename_i pending
      exact .inr (mem_storeIf pending)
    · exact .inl ⟨rfl, rfl⟩
  | release =>
    simp only [run, DispatchManager.release]
    split
    · rename_i held
      exact .inr (mem_storeIf held)
    · exact .inl ⟨rfl, rfl⟩
  | resume =>
    simp only [run, DispatchManager.resume]
    split
    · rename_i stopped
      exact .inr (mem_storeIf (.inl stopped))
    · rename_i undeployed
      exact .inr (mem_storeIf (.inr undeployed))
    all_goals exact .inl ⟨rfl, rfl⟩
  | restart =>
    refine .inl ?_
    simp only [run, DispatchManager.restart]
    split
    · split <;> exact ⟨rfl, rfl⟩
    · exact ⟨rfl, rfl⟩
  | finalize =>
    simp only [run, DispatchManager.finalize]
    split
    case h_9 => exact .inl ⟨rfl, rfl⟩
    case h_10 => exact .inl ⟨rfl, rfl⟩
    all_goals
      rename_i state
      exact .inr (mem_storeIf (by rw [state]; exact ⟨VmState.noConfusion, VmState.noConfusion⟩))
  | resubmit =>
    simp only [run, DispatchManager.resubmit]
    split
    case h_6 failed => exact .inr (mem_storeIf (.inl failed))
    case h_7 held => exact .inr (mem_storeIf (.inr (.inl held)))
    case h_8 stopped => exact .inr (mem_storeIf (.inr (.inr (.inl stopped))))
    case h_9 undeployed => exact .inr (mem_storeIf (.inr (.inr (.inr undeployed))))
    all_goals exact .inl ⟨rfl, rfl⟩
  | detach | detachNic | snapshotRevert | snapshotDelete =>
    exact (onElement _ _ _).imp_right mem_storeIf
  | snapshotCreate => exact (onElement _ _ _).imp_right fun marked => mem_storeIf marked.1

/-- So does a message of a driver. -/
theorem VmmMessage.stored (vm : VirtualMachine) (message : VmmMessage) (success : Bool)
    (info : String) :
    vm.SameStage (VirtualMachineManagerDriver.protocol vm message success info).vm ∨
      .update ∈ message.calls vm success := by
  unfold VirtualMachineManagerDriver.protocol VmmMessage.calls
  split
  · exact .inl ⟨rfl, rfl⟩
  · cases message with
    | poll state =>
      cases success with
      | false => exact .inl ⟨rfl, rfl⟩
      | true =>
        refine .inr ?_
        cases state <;> exact List.mem_cons_self
    | deploy | snapshotCreate => exact .inr (List.mem_singleton_self _)
    | _ => exact .inl ⟨rfl, rfl⟩

theorem Command.stored (command : Command) (vm : VirtualMachine) (success : Bool) (info : String)
    (state : PollState) :
    vm.SameStage (command.answer vm success info state).vm ∨
      .update ∈ command.calls vm success info state := by
  cases command with
  | vmm action =>
    simp only [answer, calls]
    cases action.message? state with
    | none => exact .inl ⟨rfl, rfl⟩
    | some message => exact message.stored vm success info
  | tm action =>
    refine .inl ?_
    simp only [answer, TransferManagerDriver.protocol]
    split
    · split <;> exact ⟨rfl, rfl⟩
    · exact ⟨rfl, rfl⟩

namespace LifeState

variable (s : LifeState) (now : Nat)

theorem stored_leave {reply : Reply} (request : PendingRequest)
    (stored : s.vm.SameStage reply.outcome.vm ∨ s.vm.In .running) :
    s.vm.SameStage (s.leave reply request).vm ∨ s.vm.In .running := by
  unfold leave
  split
  · exact stored
  · exact .inl ⟨rfl, rfl⟩

/-- A plain step that changes the state or the stage of the VM stores it. -/
theorem stored_plain {l : LifeLabel} (unlocked : s.locked = false) (plain : l.isPlain = true) :
    s.vm.SameStage (s.next l).vm ∨ .update ∈ s.calls now l := by
  have unfolded : s.next l = s.nextUnlocked l := if_neg (by rw [unlocked]; exact Bool.false_ne_true)
  cases l with
  | lcm | place | commit => cases plain
  | request request =>
    rw [unfolded]
    exact request.stored s.vm
  | giveUp placement =>
    refine .inl ?_
    rw [unfolded]
    simp only [nextUnlocked, comeBack]
    split <;> exact ⟨rfl, rfl⟩
  | attach =>
    rw [unfolded]
    refine (s.stored_leave _ ?_).imp_right mem_storeIf
    unfold DispatchManager.attach
    split
    · rename_i running
      exact .inr running
    · exact .inl ⟨rfl, rfl⟩
  | attachNic =>
    rw [unfolded]
    refine (s.stored_leave _ ?_).imp_right mem_storeIf
    unfold DispatchManager.attachNic
    split
    · rename_i running
      exact .inr running
    · exact .inl ⟨rfl, rfl⟩
  | setUpDisk disk =>
    by_cases there : PendingRequest.setUpDisk ∈ s.pending
    · exact .inr (mem_storeIf there)
    · refine .inl ?_
      rw [unfolded, nextUnlocked, comeBack, if_neg there]
      exact ⟨rfl, rfl⟩
  | setUpNic nic =>
    by_cases there : PendingRequest.setUpNic ∈ s.pending
    · exact .inr (mem_storeIf there)
    · refine .inl ?_
      rw [unfolded, nextUnlocked, comeBack, if_neg there]
      exact ⟨rfl, rfl⟩
  | saveDisk diskId hot =>
    cases marked : s.vm.setSaveasState diskId hot with
    | none =>
      refine .inl ?_
      rw [unfolded]
      simp only [nextUnlocked, marked]
      exact ⟨rfl, rfl⟩
    | some vm => exact .inr (mem_storeIf (by rw [marked]; rfl))
  | saveDiskImage diskId hot image =>
    rw [unfolded]
    simp only [nextUnlocked, comeBack, calls]
    split
    · cases image with
      | none => exact .inr (List.mem_singleton_self _)
      | some image =>
        cases saved : s.vm.saveDisk diskId hot image.1 image.2 with
        | none =>
          refine .inl ?_
          simp only [apply_vm, Ezilla.saveDiskImage, saved]
          exact ⟨rfl, rfl⟩
        | some vm => exact .inr (mem_storeIf (by rw [saved]; rfl))
    · exact .inl ⟨rfl, rfl⟩
  | dm =>
    rcases s.dm_next with ⟨action, rest, -, queue, eq⟩ | ⟨-, eq⟩
    · rcases DispatchManager.handler_cases action s.vm with ⟨takes, -⟩ | ⟨-, same, -⟩
      · refine .inr ?_
        simp only [calls, queue]
        cases action <;> first
          | exact mem_storeIf takes
          | exact takes.elim
      · refine .inl ?_
        rw [eq, apply_vm, same]
        exact ⟨rfl, rfl⟩
    · rw [eq]
      exact .inl ⟨rfl, rfl⟩
  | answer serial success info state =>
    rw [unfolded]
    cases sent : s.command? serial with
    | none =>
      simp only [nextUnlocked, sent]
      exact .inl ⟨rfl, rfl⟩
    | some command =>
      simp only [nextUnlocked, calls, sent]
      exact command.stored s.vm success info state
  | unsent serial =>
    refine .inl ?_
    rw [unfolded]
    simp only [nextUnlocked]
    split <;> exact ⟨rfl, rfl⟩
  | poll success state =>
    rw [unfolded]
    exact VmmMessage.stored s.vm (.poll state) success ""
  | monitor state =>
    rw [unfolded]
    cases state with
    | none => exact .inl ⟨rfl, rfl⟩
    | some state =>
      refine .inr ?_
      cases state <;> exact List.mem_cons_self
  | recover success =>
    rw [unfolded]
    simp only [nextUnlocked]
    split
    · rename_i active
      by_cases unknown : s.vm.lcmState = .unknown
      · exact .inr (mem_storeIf ⟨active, unknown⟩)
      · exact .inl ⟨(LifeCycleManager.state_recover _ _).1,
          LifeCycleManager.lcmState_recover success unknown⟩
    · exact .inl ⟨rfl, rfl⟩

end LifeState

namespace LifeCycleManager

/-- An event that changes the state or the stage of the VM stores it. -/
theorem stored_handler (vm : VirtualMachine) (now : Nat) (action : LcmAction) :
    vm.SameStage (handler action vm).vm ∨ .update ∈ handlerCalls vm now action := by
  rcases vm with ⟨oid, uid, gid, state, lcmState, resched, deployId, history, disks, nics, snapshots⟩
  have here (calls : List HistoryCall) (there : calls.contains .update = true) :
      HistoryCall.update ∈ calls := List.contains_iff_mem.mp there
  cases action with
  | saveasHotSuccess | saveasHotFailure =>
    simp only [handler, handlerCalls, saveasHotSuccessAction, saveasHotFailureAction,
      saveasHotEnd]
    cases VirtualMachine.getSaveasDiskHot _ <;> cases lcmState <;> first
      | exact .inl ⟨rfl, rfl⟩
      | exact .inr (here _ rfl)
  | deploy =>
    simp only [handler, handlerCalls, deployAction, deployCalls]
    split
    · exact .inr (here _ rfl)
    · exact .inl ⟨rfl, rfl⟩
  | suspend | stop | cancel | shutdown | undeploy | undeployHard | poweroff | poweroffHard =>
    simp only [handler, handlerCalls, suspendAction, stopAction, cancelAction, shutdownAction,
      undeployAction, poweroffAction, leaveRunning, leaveRunningCalls, Bool.false_eq_true,
      if_true, if_false]
    split
    · exact .inr (here _ rfl)
    · exact .inl ⟨rfl, rfl⟩
  | migrate | liveMigrate =>
    simp only [handler, handlerCalls, migrateAction, liveMigrateAction, moveRunning,
      moveRunningCalls]
    split
    · exact .inr (here _ rfl)
    · exact .inl ⟨rfl, rfl⟩
  | restore =>
    simp only [handler, handlerCalls, restoreAction, restoreCalls]
    split
    · exact .inr (here _ rfl)
    · exact .inl ⟨rfl, rfl⟩
  | restart =>
    simp only [handler, handlerCalls, restartAction, restartCalls]
    split
    · cases lcmState <;> first
        | exact .inl ⟨rfl, rfl⟩
        | exact .inr (here _ rfl)
    · split
      · exact .inr (here _ rfl)
      · exact .inl ⟨rfl, rfl⟩
  | delete =>
    simp only [handler, handlerCalls, deleteAction, deleteCalls]
    split
    · cases lcmState <;> exact .inr (here _ rfl)
    · exact .inl ⟨rfl, rfl⟩
  | clean =>
    simp only [handler, handlerCalls, cleanAction, cleanCalls]
    split
    · cases lcmState <;> first
        | exact .inl ⟨rfl, rfl⟩
        | exact .inr (here _ rfl)
    · exact .inl ⟨rfl, rfl⟩
  | _ =>
    cases lcmState <;> first
      | exact .inl ⟨rfl, rfl⟩
      | exact .inr (here _ rfl)

end LifeCycleManager

/-! ## Stages -/

/-- A step of neither manager leaves a VM active in its stage, or out of any. -/
theorem Shift.awake {vm vm' : VirtualMachine} (shift : Shift vm vm') (awake : vm.Awake) :
    vm'.Awake := by
  cases shift with
  | stay state lcmState =>
    intro stage
    rw [lcmState] at stage
    exact state.trans (awake stage)
  | wait before state lcmState =>
    intro stage
    have same := lcmState.resolve_right stage
    have active := awake (same ▸ stage)
    simp [active] at before
  | done before state lcmState => exact fun stage => absurd lcmState stage
  | resubmit before state lcmState => exact fun _ => state
  | hotplug running state lcmState => exact fun _ => state
  | copy before state => exact fun _ => state
  | copied before state lcmState =>
    exact fun _ => state.trans (awake (by rw [before]; exact LcmState.noConfusion))
  | copiedAsleep before lcmState => exact fun stage => absurd lcmState stage
  | found before state lcmState =>
    exact fun _ => state.trans (awake (by rw [before]; exact LcmState.noConfusion))

/-- A step of neither manager does not end a migration. -/
theorem Shift.moving {vm vm' : VirtualMachine} (shift : Shift vm vm') (awake : vm.Awake)
    (moving : vm.Moving) : vm'.Moving := by
  have active : vm.state = .active := awake (by
      rcases moving with h | h <;> rw [h] <;> exact LcmState.noConfusion)
  cases shift with
  | stay state lcmState =>
    rw [VirtualMachine.Moving, lcmState]
    exact moving
  | wait before => simp [active] at before
  | done before => exact absurd active before
  | resubmit before => cases active.symm.trans before
  | hotplug running => rcases moving with h | h <;> cases h.symm.trans running.2
  | copy before => rcases before with ⟨h, -⟩ | ⟨h, -⟩ <;> cases active.symm.trans h
  | copied before => rcases moving with h | h <;> cases h.symm.trans before
  | copiedAsleep before =>
    rcases before with ⟨before, -⟩ | ⟨before, -⟩ <;> rcases moving with h | h <;>
      cases h.symm.trans before
  | found before => rcases moving with h | h <;> cases h.symm.trans before

/-- A step that does not come over another operation: a disk or NIC that could not be set up
finds the VM waiting for it, no placement is committed during a migration or refused by the
database, and the events come when they are expected. -/
structure LifeState.InTurn (s : LifeState) (l : LifeLabel) : Prop where
  stored : l.isStored = true
  setUp : s.SetUpFails l → s.vm.In .hotplug ∨ s.vm.In .hotplugNic
  commit : l.isCommit = true → ¬ s.vm.Moving
  event : l = .lcm → ∀ event ∈ s.lcmQueue.head?, event.action.Expected s.vm

instance (s : LifeState) (l : LifeLabel) : Decidable (s.InTurn l) :=
  decidable_of_iff
    (l.isStored = true ∧ (s.SetUpFails l → s.vm.In .hotplug ∨ s.vm.In .hotplugNic) ∧
      (l.isCommit = true → ¬ s.vm.Moving) ∧
      (l = .lcm → ∀ event ∈ s.lcmQueue.head?, event.action.Expected s.vm))
    ⟨fun h => ⟨h.1, h.2.1, h.2.2.1, h.2.2.2⟩,
      fun h => ⟨h.stored, h.setUp, h.commit, h.event⟩⟩

namespace LifeState

variable (s : LifeState) (now : Nat)

/-- The dispatch manager takes a VM out of its stage, or leaves it. -/
theorem dm_vm : (s.next .dm).vm = s.vm ∨
    ∃ action : DmAction, action.Takes s.vm ∧
      (s.next .dm).vm = { s.vm with state := action.state, lcmState := .lcmInit } := by
  rcases s.dm_next with ⟨action, rest, -, -, eq⟩ | ⟨-, eq⟩
  · rcases DispatchManager.handler_cases action s.vm with ⟨takes, after, -⟩ | ⟨-, same, -⟩
    · exact .inr ⟨action, takes, by rw [eq, apply_vm, after]⟩
    · exact .inl (by rw [eq, apply_vm, same])
  · exact .inl (by rw [eq])

/-- A plain step changes no record. -/
theorem history_plain {l : LifeLabel} (plain : l.isPlain = true) :
    (s.next l).vm.history = s.vm.history := by
  cases quiet : l.isQuiet with
  | true => exact (s.quiet_next quiet).2
  | false =>
    cases l with
    | setUpDisk disk => exact (s.setUp_next (.inl ⟨disk, rfl⟩)).1
    | setUpNic nic => exact (s.setUp_next (.inr ⟨nic, rfl⟩)).1
    | dm =>
      rcases s.dm_vm with same | ⟨action, -, after⟩
      · rw [same]
      · rw [after]
    | lcm | place | commit => cases plain
    | _ => cases quiet

/-- The end of a set-up leaves the VM active in its stage, and does not end a migration. -/
theorem awake_setUp {l : LifeLabel}
    (setUp : (∃ disk, l = .setUpDisk disk) ∨ ∃ nic, l = .setUpNic nic) (orderly : s.InTurn l)
    (awake : s.vm.Awake) :
    (s.next l).vm.Awake ∧ (s.vm.Moving → (s.next l).vm.Moving) := by
  obtain ⟨-, state, same | ⟨running, fails⟩⟩ := s.setUp_next setUp
  · constructor
    · rw [VirtualMachine.Awake, state, same]
      exact awake
    · intro moving
      rw [VirtualMachine.Moving, same]
      exact moving
  · have waits := orderly.setUp fails
    constructor
    · intro _
      rw [state]
      exact waits.elim And.left And.left
    · intro moving
      rcases waits with ⟨-, stage⟩ | ⟨-, stage⟩ <;> rcases moving with h | h <;>
        cases h.symm.trans stage

theorem awake_plain {l : LifeLabel} (plain : l.isPlain = true) (orderly : s.InTurn l)
    (awake : s.vm.Awake) :
    (s.next l).vm.Awake ∧ (s.vm.Moving → (s.next l).vm.Moving) := by
  cases quiet : l.isQuiet with
  | true =>
    have shift := (s.quiet_next quiet).1
    exact ⟨shift.awake awake, shift.moving awake⟩
  | false =>
    cases l with
    | setUpDisk disk => exact s.awake_setUp (.inl ⟨disk, rfl⟩) orderly awake
    | setUpNic nic => exact s.awake_setUp (.inr ⟨nic, rfl⟩) orderly awake
    | dm =>
      rcases s.dm_vm with same | ⟨action, takes, after⟩
      · rw [same]
        exact ⟨awake, id⟩
      · rw [after]
        refine ⟨fun stage => absurd rfl stage, fun moving => ?_⟩
        cases action <;> rcases moving with h | h <;>
          simp [DmAction.Takes, VirtualMachine.In, h] at takes
    | lcm | place | commit => cases plain
    | _ => cases quiet

end LifeState

/-! ## Placements -/

namespace Placement

variable (placement : Placement) (vm : VirtualMachine)

theorem historyAfter_calls (stored : Bool) :
    LifeCycleManager.historyAfter vm (placement.calls vm stored) =
      (placement.commit vm stored).outcome.vm.history := by
  rw [history_commit, calls, storeIf]
  split
  · split <;> rfl
  · rfl

theorem awake_commit (stored : Bool) (awake : vm.Awake) :
    (placement.commit vm stored).outcome.vm.Awake := by
  rcases placement.outcome_commit vm stored with ⟨-, -, eq⟩ | eq <;> rw [eq]
  · exact fun _ => rfl
  · exact awake

/-- A placement that changes the state of the VM stores it. -/
theorem stored_commit (stored : Bool) :
    vm.SameStage (placement.commit vm stored).outcome.vm ∨
      .update ∈ placement.calls vm stored := by
  rcases placement.outcome_commit vm stored with ⟨rfl, -, -⟩ | eq
  · exact .inr (List.mem_append_left _
      (List.mem_cons_of_mem _ (List.mem_cons_of_mem _ (List.mem_singleton_self _))))
  · exact .inl (by rw [eq]; exact ⟨rfl, rfl⟩)

/-- The record of a placement is stored, and was added to records that were. -/
theorem unstored_calls (aspect : Aspect) (vm' : VirtualMachine)
    (still : aspect ≠ .stay → ¬ vm.Moving) :
    LifeCycleManager.unstoredAfter aspect vm (placement.calls vm true) ≤ aspect.unstored vm' := by
  have stored : (aspect.unstored vm).previous = false :=
    (Aspect.previous_unstored aspect vm).mpr fun whole =>
      still (by rw [whole]; exact Aspect.noConfusion)
  rw [calls, if_pos rfl, storeIf]
  split <;> exact ⟨fun _ => rfl, fun _ => rfl, fun _ => rfl, fun _ => by
    rw [LifeCycleManager.unstoredAfter]
    exact Bool.or_eq_false_iff.mpr ⟨stored, rfl⟩⟩

end Placement

/-! ## Steps and their calls -/

/-- How a step of a VM that is not locked goes about the records. -/
inductive LifeState.RecordStep (s : LifeState) (now : Nat) (l : LifeLabel) : Prop where
  | plain (plain : l.isPlain = true)
  | event (event : LcmEvent) (lcm : l = .lcm) (head : event ∈ s.lcmQueue.head?)
      (calls : s.calls now l = LifeCycleManager.handlerCalls s.vm now event.action)
      (vm : (s.next l).vm = (LifeCycleManager.handler event.action s.vm).vm)
  | placed (placement : Placement) (calls : s.calls now l = placement.calls s.vm l.isStored)
      (vm : (s.next l).vm = (placement.commit s.vm l.isStored).outcome.vm)
      (late : l.isCommit = true ∨ s.vm.state ≠ .active)
  | idle (calls : s.calls now l = []) (vm : (s.next l).vm = s.vm)

namespace LifeState

variable {s : LifeState} {l : LifeLabel}

theorem recordStep (now : Nat) (l : LifeLabel) (unlocked : s.locked = false) :
    s.RecordStep now l := by
  cases plain : l.isPlain with
  | true => exact .plain plain
  | false =>
    cases l with
    | lcm =>
      rcases s.lcm_next with ⟨event, rest, -, queue, eq⟩ | ⟨locked | empty, eq⟩
      · refine .event event rfl ?_ ?_ (by rw [eq, apply_vm])
        · rw [queue]
          rfl
        · simp only [calls, queue]
      · cases unlocked.symm.trans locked
      · exact .idle (by simp only [calls, empty]) (by rw [eq])
    | place placement enforce stored =>
      rcases s.place_next placement enforce stored with
        ⟨⟨-, takes, kind, atOnce, checked⟩, eq⟩ | ⟨later, eq⟩
      · refine .placed placement (if_pos ⟨checked, kind, atOnce⟩) (by rw [eq, apply_vm]; rfl)
          (.inr fun active => ?_)
        simp [Placement.Takes, kind, active] at takes
      · refine .idle (if_neg fun now => later ⟨unlocked, now.2.1, now.2.2, now.1⟩) ?_
        rcases eq with eq | eq <;> rw [eq]
    | commit placement stored =>
      rcases s.commit_next placement stored with ⟨-, there, eq⟩ | ⟨locked | missing, eq⟩
      · exact .placed placement (if_pos there) (by rw [eq]; rfl) (.inl rfl)
      · cases unlocked.symm.trans locked
      · exact .idle (if_neg missing) (by rw [eq])
    | _ => cases plain

/-- What a step does to the VM is what its calls do to the records. -/
theorem historyAfter_calls (now : Nat) (l : LifeLabel) (unlocked : s.locked = false) :
    LifeCycleManager.historyAfter s.vm (s.calls now l) = (s.next l).vm.history := by
  cases recordStep now l unlocked with
  | plain plain =>
    exact (historyAfter_plain (s.plain_calls now plain)).trans (s.history_plain plain).symm
  | event event lcm head calls vm =>
    rw [calls, vm]
    exact LifeCycleManager.historyAfter_handlerCalls _ _ _
  | placed placement calls vm =>
    rw [calls, vm]
    exact placement.historyAfter_calls _ _
  | idle calls vm =>
    rw [calls, vm]
    rfl

/-- A step that changes the state or the stage of the VM stores it. -/
theorem stored_next (now : Nat) (l : LifeLabel) (unlocked : s.locked = false) :
    s.vm.SameStage (s.next l).vm ∨ .update ∈ s.calls now l := by
  cases recordStep now l unlocked with
  | plain plain => exact s.stored_plain now unlocked plain
  | event event lcm head calls vm =>
    rw [calls, vm]
    exact LifeCycleManager.stored_handler _ _ _
  | placed placement calls vm =>
    rw [calls, vm]
    exact placement.stored_commit _ _
  | idle calls vm =>
    rw [vm]
    exact .inl ⟨rfl, rfl⟩

/-- A step stores what it changes, up to what may differ. -/
theorem unstored_next {aspect : Aspect} (now : Nat) (l : LifeLabel) (unlocked : s.locked = false)
    (stored : l.isStored = true) (awake : aspect ≠ .stay → s.vm.Awake)
    (orderly : aspect ≠ .stay → s.InTurn l) :
    LifeCycleManager.unstoredAfter aspect s.vm (s.calls now l) ≤
        aspect.unstored (s.next l).vm ∧
      (aspect ≠ .stay → (s.next l).vm.Awake) := by
  cases recordStep now l unlocked with
  | plain plain =>
    refine ⟨unstored_plain (s.plain_calls now plain)
      ((s.stored_plain now unlocked plain).imp_left And.left) fun looked => ?_, fun looked => ?_⟩
    · exact (s.awake_plain plain (orderly looked) (awake looked)).2
    · exact (s.awake_plain plain (orderly looked) (awake looked)).1
  | event event lcm head calls vm =>
    rw [calls, vm]
    exact ⟨LifeCycleManager.unstored_handler aspect _ now _ awake fun looked =>
        (orderly looked).event lcm event head,
      fun looked => LifeCycleManager.awake_handler _ (awake looked)⟩
  | placed placement calls vm late =>
    rw [calls, vm, stored]
    refine ⟨placement.unstored_calls _ aspect _ fun looked moving => ?_,
      fun looked => placement.awake_commit _ _ (awake looked)⟩
    rcases late with commit | inactive
    · exact (orderly looked).commit commit moving
    · apply inactive
      apply awake looked
      rcases moving with h | h <;> rw [h] <;> exact LcmState.noConfusion
  | idle calls vm =>
    rw [calls, vm]
    exact ⟨Dirty.le_refl _, awake⟩

end LifeState

/-! ## The system -/

/-- A VM with what is under way for it, and with its history in memory and in the database;
`body` is the VM as it was stored last. -/
structure StoredLife where
  life : LifeState
  body : VirtualMachine
  store : HistoryStore := {}

/-- What can happen next. -/
inductive StoredLabel where
  /-- A step of the life cycle at some time. -/
  | life (l : LifeLabel) (now : Nat)
  /-- Another handler stores the VM. -/
  | update
  /-- The VM leaves the cache of the pool, and is read back when it is asked for again. -/
  | readBack
  /-- The daemon is started again. -/
  | restart
  deriving DecidableEq, Repr

/-- The database stores the record of a placement. -/
def StoredLabel.isStored : StoredLabel → Bool
  | .life l _ => l.isStored
  | _ => true

namespace StoredLife

/-- The calls of a step; nobody gets at a VM that is locked for good. -/
def calls (s : StoredLife) : StoredLabel → List HistoryCall
  | .life l now => if s.life.locked then [] else s.life.calls now l
  | .update => if s.life.locked then [] else [.update]
  | .readBack | .restart => []

/-- `VirtualMachine::select`, for a VM with these events under way. Nobody gets at a VM that
cannot be read. -/
def select (s : StoredLife) (life : LifeState) : StoredLife :=
  match s.store.select with
  | none => { s with life := { life with locked := true } }
  | some records =>
    { s with
      life := { life with vm := { s.body with history := records.map HistoryRecord.toHistory } }
      store := { s.store with records } }

/-- What is left of the life of a VM when the daemon ends. -/
def ended (life : LifeState) : LifeState :=
  { life with lcmQueue := [], dmQueue := [], commands := [], pending := [], locked := false }

/-- One step. -/
def next (s : StoredLife) (l : StoredLabel) : StoredLife :=
  match l with
  | .life l' _ =>
    { life := s.life.next l'
      body := if .update ∈ s.calls l then (s.life.next l').vm else s.body
      store := s.store.calls (s.calls l) }
  | .update =>
    { life := s.life
      body := if s.life.locked then s.body else s.life.vm
      store := s.store.calls (s.calls l) }
  | .readBack => if s.life.locked then s else s.select s.life
  | .restart => s.select (ended s.life)

/-- A new VM is stored, and has no record. -/
def Initial (s : StoredLife) : Prop := s.life.Initial ∧ s.body = s.life.vm ∧ s.store = {}

/-- The states of the runs from a new VM in which the database stores the records. -/
def Reached (s : StoredLife) : Prop :=
  Transition.Reachable Initial
    (Transition.Guarded (fun _ l => l.isStored = true) fun s l s' => next s l = s') s

/-- The steps that do not come over another operation; the VM is not read back while it is
active. -/
def InTurn (s : StoredLife) : StoredLabel → Prop
  | .life l _ => s.life.locked = false → s.life.InTurn l
  | .update => True
  | .readBack | .restart => s.life.vm.state ≠ .active

instance (s : StoredLife) (l : StoredLabel) : Decidable (s.InTurn l) := by
  unfold InTurn
  split <;> infer_instance

/-- The states of the runs of such steps. -/
def ReachedInTurn (s : StoredLife) : Prop :=
  Transition.Reachable Initial (Transition.Guarded InTurn fun s l s' => next s l = s') s

/-- The records in memory are those of the life cycle, numbered in order, and the VM is stored
in the stage it is in. -/
structure Agrees (s : StoredLife) : Prop where
  history : s.store.history = s.life.vm.history
  numbered : WriteBack.Numbered HistoryRecord.number s.store.records
  body : s.life.vm.SameStage s.body

/-- What runs keep, as far as an aspect of the records goes: the records are stored up to what
may differ. -/
structure Kept (aspect : Aspect) (s : StoredLife) : Prop extends Agrees s where
  sound : Sound HistoryRecord.number aspect.view (aspect.unstored s.life.vm) s.store
  awake : aspect ≠ .stay → s.life.vm.Awake

variable {s : StoredLife} {aspect : Aspect}

theorem Initial.kept (initial : s.Initial) : s.Kept aspect := by
  obtain ⟨start, body, empty⟩ := initial
  rcases s with ⟨life, body', store⟩
  obtain rfl : body' = life.vm := body
  cases empty
  refine ⟨⟨start.history.symm, trivial, rfl, rfl⟩, ⟨fun _ => rfl, fun _ r get => ?_,
    fun _ r get => ?_, fun _ i _ r get => ?_⟩, fun _ stage => absurd start.lcmState stage⟩
  · cases get
  · cases get
  · cases get

theorem calls_life (l : LifeLabel) (now : Nat) (unlocked : s.life.locked = false) :
    s.calls (.life l now) = s.life.calls now l := by
  rw [calls, unlocked]
  exact if_neg Bool.false_ne_true

theorem plain_update : ∀ call ∈ s.calls .update, call.Plain := by
  intro call member
  simp only [calls] at member
  split at member
  · cases member
  · exact .inl (List.mem_singleton.mp member)

/-- Nothing happens to a VM that is locked for good. -/
theorem next_life_of_locked (l : LifeLabel) (now : Nat) (locked : s.life.locked = true) :
    s.next (.life l now) = s := by
  have none : s.calls (.life l now) = [] := if_pos locked
  have same : s.life.next l = s.life := if_pos locked
  rw [next, none, same]
  rfl

theorem sameStage_select (same : s.life.vm.SameStage s.body) {life : LifeState}
    (vm : life.vm = s.life.vm) : (s.select life).life.vm.SameStage (s.select life).body := by
  rw [← vm] at same
  unfold select
  split
  · exact same
  · exact ⟨rfl, rfl⟩

/-- The VM is stored in the stage it is in. -/
theorem sameStage_next (same : s.life.vm.SameStage s.body) (l : StoredLabel) :
    (s.next l).life.vm.SameStage (s.next l).body := by
  cases l with
  | life l now =>
    cases locked : s.life.locked with
    | true =>
      rw [next_life_of_locked l now locked]
      exact same
    | false =>
      have made := s.calls_life l now locked
      simp only [StoredLife.next, made]
      split
      · exact .refl _
      · rename_i unstored
        obtain ⟨state, lcmState⟩ := (LifeState.stored_next now l locked).resolve_right unstored
        exact ⟨same.1.trans state.symm, same.2.trans lcmState.symm⟩
  | update =>
    simp only [StoredLife.next]
    split
    · exact same
    · exact .refl _
  | readBack =>
    simp only [next]
    split
    · exact same
    · exact sameStage_select same rfl
  | restart => exact sameStage_select same rfl

/-- A step of the life cycle, or another handler, keeps the records in step. -/
theorem Agrees.next (agrees : s.Agrees) (l : StoredLabel) (handler : l ≠ .readBack ∧ l ≠ .restart) :
    (s.next l).Agrees := by
  have history := HistoryStore.history_calls agrees.history (s.calls l)
  have numbered : WriteBack.Numbered HistoryRecord.number (s.store.calls (s.calls l)).records :=
    agrees.numbered.runs (s.calls l) HistoryCall.keeps_op
  cases l with
  | life l now =>
    cases locked : s.life.locked with
    | true =>
      rw [next_life_of_locked l now locked]
      exact agrees
    | false =>
      have made := s.calls_life l now locked
      refine ⟨?_, numbered, sameStage_next agrees.body _⟩
      rw [made] at history
      simp only [StoredLife.next, made]
      exact history.trans (LifeState.historyAfter_calls now l locked)
  | update =>
    exact ⟨history.trans (historyAfter_plain plain_update), numbered, sameStage_next agrees.body _⟩
  | readBack => exact absurd rfl handler.1
  | restart => exact absurd rfl handler.2

/-- It also keeps them stored: any step whose record is stored as far as numbers and hosts go,
one in turn for all of a record. -/
theorem Kept.next (kept : s.Kept aspect) (l : StoredLabel)
    (handler : l ≠ .readBack ∧ l ≠ .restart) (stored : l.isStored = true)
    (orderly : aspect ≠ .stay → s.InTurn l) : (s.next l).Kept aspect := by
  have sound := kept.sound.run kept.numbered (s.calls l) HistoryCall.keeps_op
    aspect.sees_or_hidden
  have agrees := kept.toAgrees.next l handler
  cases l with
  | life l now =>
    cases locked : s.life.locked with
    | true =>
      rw [next_life_of_locked l now locked]
      exact kept
    | false =>
      have made := s.calls_life l now locked
      obtain ⟨le, awake⟩ := LifeState.unstored_next now l locked stored kept.awake
        fun looked => orderly looked locked
      rw [made] at sound
      refine ⟨agrees, ?_, awake⟩
      simp only [StoredLife.next, made]
      exact sound.mono le
  | update =>
    exact ⟨agrees, sound.mono (unstored_plain plain_update (.inl rfl) fun _ => id), kept.awake⟩
  | readBack => exact absurd rfl handler.1
  | restart => exact absurd rfl handler.2

/-! ## Reading back -/

/-- In every state kept so far a VM that is read back has the records it had, by number and
host. -/
theorem Kept.select_stay (kept : s.Kept .stay) :
    ∃ records, s.store.select = some records ∧
      records.map HistoryRecord.stay = s.life.vm.history.map History.stay ∧
      WriteBack.Numbered HistoryRecord.number records ∧
      Sound HistoryRecord.number Aspect.stay.view ⟨false, false, false, false⟩
        { s.store with records } := by
  have determines (r r' : HistoryRecord) (same : Aspect.stay.view r = Aspect.stay.view r') :
      r.number = r'.number := by
    have seq : (Aspect.stay.view r).seq = (Aspect.stay.view r').seq := by rw [same]
    exact seq
  have read := WriteBack.Store.reload_view (d := ⟨false, false, false, false⟩) kept.numbered
    kept.sound determines
  obtain ⟨records, there, same⟩ := Option.map_eq_some_iff.mp read
  obtain ⟨numbered, sound⟩ := Sound.reload kept.numbered kept.sound determines there
  refine ⟨records, there, ?_, numbered, sound⟩
  have stays := congrArg (List.map HistoryRecord.stay) same
  rw [List.map_map, List.map_map] at stays
  rw [← kept.history, HistoryStore.history, List.map_map]
  exact stays

/-- In turn, a VM that is not active is read back with the records it has. -/
theorem Kept.select_whole (kept : s.Kept .whole) (rests : s.life.vm.state ≠ .active) :
    s.store.select = some s.store.records := by
  have still : ¬ s.life.vm.Moving := by
    intro moving
    apply rests
    apply kept.awake Aspect.noConfusion
    rcases moving with h | h <;> rw [h] <;> exact LcmState.noConfusion
  have stored : Aspect.whole.unstored s.life.vm = ⟨false, false, false, false⟩ := by
    simp only [Aspect.unstored, rests, still, and_false, decide_false]
  have sound := kept.sound
  rw [stored] at sound
  have read := WriteBack.Store.reload_view (d := ⟨false, false, false, false⟩) kept.numbered sound
    fun r r' same => congrArg HistoryRecord.number same
  have whole : List.map Aspect.whole.view = id := List.map_id_fun
  rw [whole, Option.map_id] at read
  exact read

/-- Reading the VM back keeps the numbers and hosts of its records. -/
theorem Kept.select (kept : s.Kept .stay) (life : LifeState) : (s.select life).Kept .stay := by
  obtain ⟨records, there, -, numbered, sound⟩ := kept.select_stay
  simp only [StoredLife.select, there]
  exact ⟨⟨rfl, numbered, .refl _⟩, sound, fun looked => absurd rfl looked⟩

/-- In turn, reading back a VM that is not active changes nothing of it. -/
theorem Kept.select_eq_of_resting (kept : s.Kept aspect) (whole : s.Kept .whole)
    (rests : s.life.vm.state ≠ .active) (life : LifeState) : (s.select life).Kept aspect := by
  simp only [StoredLife.select, whole.select_whole rests]
  refine ⟨⟨rfl, kept.numbered, .refl _⟩, ?_, fun looked stage => ?_⟩
  · have same : aspect.unstored
        { s.body with history := s.store.records.map HistoryRecord.toHistory } =
          aspect.unstored s.life.vm := by
      rcases s with ⟨⟨vm, _, _, _, _, _, _⟩, body, store⟩
      rcases vm with ⟨_, _, _, state, lcmState, _, _, _, _, _, _⟩
      rcases body with ⟨_, _, _, state', lcmState', _, _, _, _, _, _⟩
      obtain ⟨rfl, rfl⟩ : state' = state ∧ lcmState' = lcmState := kept.body
      rfl
    rw [same]
    exact kept.sound
  · exact kept.body.1.trans (kept.awake looked (kept.body.2 ▸ stage))

theorem Reached.kept (reached : s.Reached) : s.Kept .stay := by
  apply Transition.Reachable.invariant _ _ reached
  · exact fun _ initial => initial.kept
  · intro s l s' kept step
    obtain ⟨stored, taken⟩ := step
    rw [← taken]
    cases l with
    | readBack =>
      simp only [StoredLife.next]
      split
      · exact kept
      · exact kept.select _
    | restart => exact kept.select _
    | life | update =>
      exact kept.next _ ⟨StoredLabel.noConfusion, StoredLabel.noConfusion⟩ stored
        fun looked => absurd rfl looked

theorem ReachedInTurn.keptBoth (reached : s.ReachedInTurn) :
    s.Kept .whole ∧ s.Kept .withoutAction := by
  apply Transition.Reachable.invariant _ _ reached
  · exact fun _ initial => ⟨initial.kept, initial.kept⟩
  · intro s l s' kept step
    obtain ⟨orderly, taken⟩ := step
    obtain ⟨whole, without⟩ := kept
    rw [← taken]
    cases l with
    | readBack =>
      simp only [StoredLife.next]
      split
      · exact ⟨whole, without⟩
      · exact ⟨whole.select_eq_of_resting whole orderly _, without.select_eq_of_resting whole orderly _⟩
    | restart =>
      exact ⟨whole.select_eq_of_resting whole orderly _, without.select_eq_of_resting whole orderly _⟩
    | update =>
      exact ⟨whole.next _ ⟨StoredLabel.noConfusion, StoredLabel.noConfusion⟩ rfl fun _ => orderly,
        without.next _ ⟨StoredLabel.noConfusion, StoredLabel.noConfusion⟩ rfl fun _ => orderly⟩
    | life l now =>
      cases locked : s.life.locked with
      | true =>
        rw [next_life_of_locked l now locked]
        exact ⟨whole, without⟩
      | false =>
        have stored : (StoredLabel.life l now).isStored = true := (orderly locked).stored
        exact ⟨whole.next _ ⟨StoredLabel.noConfusion, StoredLabel.noConfusion⟩ stored
            fun _ => orderly,
          without.next _ ⟨StoredLabel.noConfusion, StoredLabel.noConfusion⟩ stored
            fun _ => orderly⟩

/-! ## The numbers -/

theorem history_of_numbered {records : List HistoryRecord}
    (numbered : WriteBack.Numbered HistoryRecord.number records) :
    (records.map HistoryRecord.toHistory).map History.seq =
      (List.range records.length).reverse := by
  induction records with
  | nil => rfl
  | cons r rest ih =>
    have first : r.seq = rest.length := numbered.1
    rw [List.map_cons, List.map_cons, ih numbered.2, List.length_cons, List.range_succ,
      List.reverse_append, first]
    rfl

end StoredLife

/-- The records of a run of the life cycle, stored or not. -/
theorem LifeState.Reached.agrees {s : LifeState} (reached : s.Reached) :
    ∃ stored : StoredLife, stored.life = s ∧ stored.Agrees := by
  induction reached with
  | @init s start =>
    have initial : StoredLife.Initial { life := s, body := s.vm } := ⟨start, rfl, rfl⟩
    exact ⟨_, rfl, (@StoredLife.Initial.kept _ Aspect.stay initial).toAgrees⟩
  | @step s s' l _ taken ih =>
    obtain ⟨stored, rfl, agrees⟩ := ih
    exact ⟨stored.next (.life l 0), taken,
      agrees.next _ ⟨StoredLabel.noConfusion, StoredLabel.noConfusion⟩⟩

/-- In every run the numbers of the records go from 0 to the number of the current one. -/
theorem numbers_of_reached {s : LifeState} (reached : s.Reached) :
    s.vm.history.map History.seq = (List.range s.vm.history.length).reverse := by
  obtain ⟨stored, rfl, agrees⟩ := reached.agrees
  have history : stored.store.records.map HistoryRecord.toHistory = stored.life.vm.history :=
    agrees.history
  have length : stored.store.records.length = stored.life.vm.history.length := by
    rw [← history, List.length_map]
  rw [← length, ← history]
  exact StoredLife.history_of_numbered agrees.numbered

/-- A VM that is deployed, migrated, and then stopped. -/
def migration : List LifeLabel :=
  [.place { kind := .deploy, hid := 7 } false true, .lcm, .answer 0 true "" .unknown, .lcm,
    .answer 1 true "one-4" .unknown, .lcm,
    .place { kind := .liveMigrate, hid := 8 } false true,
    .commit { kind := .liveMigrate, hid := 8 } true, .lcm, .answer 2 true "" .unknown, .lcm,
    .request .stop, .lcm, .answer 3 true "" .unknown, .lcm, .answer 4 true "" .unknown, .lcm, .dm]

theorem numbers_of_reached_migrated :
    ∃ s : LifeState, s.Reached ∧ s.vm.history.map History.hid = [8, 7] ∧
      s.vm.history.map History.seq = [1, 0] := by
  have reached : LifeState.Reached (migration.foldl LifeState.next newVm) :=
    Transition.Reachable.run _ (.init newVm_initial)
  have two : (migration.foldl LifeState.next newVm).vm.history.length = 2 := by decide +kernel
  have numbers := numbers_of_reached reached
  rw [two] at numbers
  exact ⟨_, reached, by decide +kernel, numbers⟩

namespace StoredLife

variable {s : StoredLife}

/-- A new VM in the database. -/
def newVm : StoredLife := { life := Ezilla.newVm, body := Ezilla.newVm.vm }

theorem newVm_initial : newVm.Initial := ⟨Ezilla.newVm_initial, rfl, rfl⟩

/-- The labels of a run with the times at which its steps are taken. -/
def timed (labels : List LifeLabel) : List StoredLabel :=
  labels.zipIdx.map fun step => .life step.1 step.2

/-- In every run in which the records are stored a VM that is read back, at any time, has the
records it had, by number and host: also the current and the previous one are those that were. -/
theorem select_stay_of_reached (reached : s.Reached) :
    ∃ records, s.store.select = some records ∧
      records.map HistoryRecord.stay = s.life.vm.history.map History.stay := by
  obtain ⟨records, there, stays, -, -⟩ := reached.kept.select_stay
  exact ⟨records, there, stays⟩

/-- It is read back while it migrates, after the daemon was started again. -/
theorem select_stay_of_reached_moving :
    ∃ s : StoredLife, s.Reached ∧ s.life.vm.In .migrate ∧ s.life.commands = [] ∧
      ∃ records, s.store.select = some records ∧
        records.map HistoryRecord.stay = s.life.vm.history.map History.stay := by
  have reached : Reached ((timed (migration.take 10) ++ [StoredLabel.restart]).foldl next newVm) :=
    Transition.Reachable.foldl _ (.init newVm_initial) (by decide +kernel)
  exact ⟨_, reached, by decide +kernel, by decide +kernel, select_stay_of_reached reached⟩

/-- In the runs whose steps come in turn the table has a row for every record. It agrees with
the record but for the action, and also with that, unless the record is the one a VM that moves
has left. -/
theorem rows_of_reachedInTurn (reached : s.ReachedInTurn) (i : Nat) (r : HistoryRecord)
    (there : s.store.records[i]? = some r) :
    ∃ row, s.store.rows r.seq = some row ∧ { row with action := r.action } = r ∧
      ((i = 1 → ¬ s.life.vm.Moving) → row = r) := by
  obtain ⟨whole, kept⟩ := reached.keptBoth
  have known : Clean HistoryRecord.number Aspect.withoutAction.view s.store i := by
    match i with
    | 0 => exact kept.sound.last rfl
    | 1 => exact kept.sound.previous ((Aspect.previous_unstored _ _).mpr fun whole =>
        Aspect.noConfusion whole)
    | i + 2 => exact kept.sound.older rfl (i + 2) (Nat.le_add_left 2 i)
  obtain ⟨row, stored, same⟩ := Option.map_eq_some_iff.mp (known r there)
  refine ⟨row, stored, congrArg (fun x : HistoryRecord => { x with action := r.action }) same,
    fun still => ?_⟩
  have clean : Clean HistoryRecord.number Aspect.whole.view s.store i := by
    match i, still with
    | 0, _ => exact whole.sound.last rfl
    | 1, still => exact whole.sound.previous ((Aspect.previous_unstored _ _).mpr fun _ => still rfl)
    | i + 2, _ => exact whole.sound.older rfl (i + 2) (Nat.le_add_left 2 i)
  obtain ⟨row', stored', rfl⟩ := Option.map_eq_some_iff.mp (clean r there)
  cases stored.symm.trans stored'
  rfl

theorem rows_of_reachedInTurn_stopped :
    ∃ s : StoredLife, s.ReachedInTurn ∧ s.life.vm.state = .stopped ∧
      ∃ row, s.store.rows 0 = some row ∧ row.hid = 7 ∧ row.action = .liveMigrate := by
  have reached : ReachedInTurn ((timed migration).foldl next newVm) :=
    Transition.Reachable.foldl _ (.init newVm_initial) (by decide +kernel)
  have still : ¬ ((timed migration).foldl next newVm).life.vm.Moving := by decide +kernel
  have there : ((timed migration).foldl next newVm).store.records[1]?.map
      (fun r => (r.seq, r.hid, r.action)) = some (0, 7, .liveMigrate) := by decide +kernel
  obtain ⟨r, get, same⟩ := Option.map_eq_some_iff.mp there
  obtain ⟨seq, hid, action⟩ : r.seq = 0 ∧ r.hid = 7 ∧ r.action = .liveMigrate := by
    simpa only [Prod.mk.injEq] using same
  obtain ⟨row, stored, -, whole⟩ := rows_of_reachedInTurn reached 1 r get
  rw [seq] at stored
  refine ⟨_, reached, by decide +kernel, row, stored, ?_, ?_⟩
  · rw [whole fun _ => still, hid]
  · rw [whole fun _ => still, action]

/-- In the runs whose steps come in turn a VM that is not active is read back with the records
it had. -/
theorem select_of_resting (reached : s.ReachedInTurn) (rests : s.life.vm.state ≠ .active) :
    s.store.select = some s.store.records :=
  reached.keptBoth.1.select_whole rests

/-- It was stopped, the daemon was started again, and the VM is to be resumed. -/
theorem select_of_resting_stopped :
    ∃ s : StoredLife, s.ReachedInTurn ∧ s.life.vm.state = .pending ∧
      s.store.records.length = 2 ∧ s.store.select = some s.store.records := by
  have reached : ReachedInTurn
      ((timed migration ++ [StoredLabel.restart, .life (.request .resume) 20]).foldl next newVm) :=
    Transition.Reachable.foldl _ (.init newVm_initial) (by decide +kernel)
  exact ⟨_, reached, by decide +kernel, by decide +kernel,
    select_of_resting reached (by decide +kernel)⟩

end StoredLife

end Ezilla
