import Ezilla.Lcm.LifeCycleRuns

/-!
# What a step does

The steps of a run by what they do to the states and the history of the VM. Only the
life-cycle manager and the placements touch the history.

* `Shift`, `LifeState.next_shift`: all steps but those of the two managers, the placements and
  the end of a set-up;
* `DispatchManager.handler_cases`: the steps of the dispatch manager.
-/

namespace Ezilla

/-- The changes of state and stage of the steps that belong to neither manager. -/
inductive Shift (vm vm' : VirtualMachine) : Prop where
  | stay (state : vm'.state = vm.state) (lcmState : vm'.lcmState = vm.lcmState)
  /-- A VM that waits to be placed, or has been saved. -/
  | wait (before : vm.state ∈ ([.pending, .hold, .stopped, .undeployed] : List VmState))
      (state : vm'.state = .pending ∨ vm'.state = .hold)
      (lcmState : vm'.lcmState = vm.lcmState ∨ vm'.lcmState = .lcmInit)
  | done (before : vm.state ≠ .active) (state : vm'.state = .done)
      (lcmState : vm'.lcmState = .lcmInit)
  | resubmit (before : vm.state = .failed) (state : vm'.state = .active)
      (lcmState : vm'.lcmState = .cleanupResubmit)
  | hotplug (running : vm.In .running) (state : vm'.state = .active)
      (lcmState : vm'.lcmState ∈
        ([.hotplug, .hotplugNic, .hotplugSnapshot, .hotplugSaveas] : List LcmState))
  | copy (before : vm.state = .poweroff ∧ vm'.lcmState = .hotplugSaveasPoweroff ∨
        vm.state = .suspended ∧ vm'.lcmState = .hotplugSaveasSuspended)
      (state : vm'.state = .active)
  | copied (before : vm.lcmState = .hotplugSaveas) (state : vm'.state = vm.state)
      (lcmState : vm'.lcmState = .running)
  | copiedAsleep (before : vm.lcmState = .hotplugSaveasPoweroff ∧ vm'.state = .poweroff ∨
        vm.lcmState = .hotplugSaveasSuspended ∧ vm'.state = .suspended)
      (lcmState : vm'.lcmState = .lcmInit)
  | found (before : vm.lcmState = .unknown) (state : vm'.state = vm.state)
      (lcmState : vm'.lcmState = .running)

/-- A shift that leaves the history alone. -/
def Quiet (vm vm' : VirtualMachine) : Prop := Shift vm vm' ∧ vm'.history = vm.history

theorem Quiet.refl (vm : VirtualMachine) : Quiet vm vm := ⟨.stay rfl rfl, rfl⟩

/-! ## Requests -/

section Marks

variable {vm vm' : VirtualMachine} {id : Nat}

theorem same_of_setAttachDisk (marked : vm.setAttachDisk id = some vm') :
    vm'.state = vm.state ∧ vm'.history = vm.history := by
  unfold VirtualMachine.setAttachDisk at marked
  split at marked <;> cases marked
  exact ⟨rfl, rfl⟩

theorem same_of_setAttachNic (marked : vm.setAttachNic id = some vm') :
    vm'.state = vm.state ∧ vm'.history = vm.history := by
  unfold VirtualMachine.setAttachNic at marked
  split at marked <;> cases marked
  exact ⟨rfl, rfl⟩

theorem same_of_setActiveSnapshot (marked : vm.setActiveSnapshot id = some vm') :
    vm'.state = vm.state ∧ vm'.history = vm.history := by
  unfold VirtualMachine.setActiveSnapshot at marked
  split at marked <;> cases marked
  exact ⟨rfl, rfl⟩

end Marks

namespace DispatchManager

variable {vm : VirtualMachine}

theorem quiet_whenRunning (rc : Int) (action : LcmAction) :
    Quiet vm (whenRunning vm rc action).outcome.vm := by
  unfold whenRunning
  split <;> exact .refl vm

theorem quiet_enter {vm' : VirtualMachine} {lcmState : LcmState} (running : vm.In .running)
    (stage : lcmState ∈ ([.hotplug, .hotplugNic, .hotplugSnapshot, .hotplugSaveas] : List LcmState))
    (state : vm'.state = vm.state) (history : vm'.history = vm.history) :
    Quiet vm (enter vm' lcmState) :=
  ⟨.hotplug running (state.trans running.1) stage, history⟩

theorem quiet_onElement {lcmState : LcmState} {marked : Option VirtualMachine}
    (action : VmmAction)
    (stage : lcmState ∈ ([.hotplug, .hotplugNic, .hotplugSnapshot, .hotplugSaveas] : List LcmState))
    (same : ∀ vm', marked = some vm' → vm'.state = vm.state ∧ vm'.history = vm.history) :
    Quiet vm (onElement vm lcmState marked action).outcome.vm := by
  unfold onElement
  split
  · rename_i running
    cases marked with
    | none => exact .refl vm
    | some vm' => exact quiet_enter running stage (same vm' rfl).1 (same vm' rfl).2
  · exact .refl vm

end DispatchManager

theorem VmRequest.quiet (vm : VirtualMachine) (request : VmRequest) :
    Quiet vm (request.run vm).outcome.vm := by
  cases request with
  | shutdown | stop | cancel | suspend | undeploy | poweroff =>
    exact DispatchManager.quiet_whenRunning _ _
  | reboot | reset | resched =>
    simp only [run, DispatchManager.reboot, DispatchManager.reset, DispatchManager.resched]
    split
    · exact ⟨.stay rfl rfl, rfl⟩
    · exact .refl vm
  | hold =>
    simp only [run, DispatchManager.hold]
    split
    · rename_i pending
      exact ⟨.wait (by simp [pending]) (.inr rfl) (.inl rfl), rfl⟩
    · exact .refl vm
  | release =>
    simp only [run, DispatchManager.release]
    split
    · rename_i hold
      exact ⟨.wait (by simp [hold]) (.inl rfl) (.inl rfl), rfl⟩
    · exact .refl vm
  | resume =>
    simp only [run, DispatchManager.resume]
    split
    · rename_i stopped
      exact ⟨.wait (by simp [stopped]) (.inl rfl) (.inl rfl), rfl⟩
    · rename_i undeployed
      exact ⟨.wait (by simp [undeployed]) (.inl rfl) (.inl rfl), rfl⟩
    · exact .refl vm
    · exact .refl vm
    · exact .refl vm
  | restart =>
    simp only [run, DispatchManager.restart]
    split
    · split <;> exact .refl vm
    · exact .refl vm
  | finalize =>
    simp only [run, DispatchManager.finalize]
    split <;> rename_i state <;>
      first
        | exact .refl vm
        | exact ⟨.done (by rw [state]; exact VmState.noConfusion) rfl rfl, rfl⟩
  | resubmit =>
    simp only [run, DispatchManager.resubmit]
    split <;> rename_i state <;>
      first
        | exact .refl vm
        | exact ⟨.resubmit state rfl rfl, rfl⟩
        | exact ⟨.wait (by simp [state]) (.inl rfl) (.inr rfl), rfl⟩
  | detach =>
    exact DispatchManager.quiet_onElement _ (by simp) fun _ => same_of_setAttachDisk
  | detachNic =>
    exact DispatchManager.quiet_onElement _ (by simp) fun _ => same_of_setAttachNic
  | snapshotCreate name =>
    apply DispatchManager.quiet_onElement _ (by simp)
    intro vm' marked
    cases marked
    exact ⟨rfl, rfl⟩
  | snapshotRevert | snapshotDelete =>
    exact DispatchManager.quiet_onElement _ (by simp) fun _ => same_of_setActiveSnapshot

/-! ## Answers -/

theorem VirtualMachineManagerDriver.quiet_processPoll (vm : VirtualMachine) (state : PollState) :
    Quiet vm (processPoll vm state).vm := by
  cases state with
  | active =>
    simp only [processPoll]
    split
    · rename_i unknown
      exact ⟨.found unknown rfl rfl, rfl⟩
    · exact .refl vm
  | paused | failed | notFound =>
    simp only [processPoll, processPoll.monitored]
    split <;> exact .refl vm
  | unknown | error => exact .refl vm

theorem InformationManagerDriver.quiet_monitor (vm : VirtualMachine) (state : Option PollState) :
    Quiet vm (monitor vm state).vm := by
  cases state with
  | none => exact .refl vm
  | some state => exact VirtualMachineManagerDriver.quiet_processPoll vm state

theorem VirtualMachineManagerDriver.quiet_protocol (vm : VirtualMachine) (message : VmmMessage)
    (success : Bool) (info : String) : Quiet vm (protocol vm message success info).vm := by
  unfold protocol
  split
  · exact .refl vm
  · cases message with
    | poll state =>
      simp only
      split
      · exact quiet_processPoll vm state
      · exact .refl vm
    | deploy | snapshotCreate =>
      simp only [answer]
      split <;> exact ⟨.stay rfl rfl, rfl⟩
    | reboot | reset => exact .refl vm
    | shutdown | cancel | save | restore | migrate | attachDisk | detachDisk | attachNic
    | detachNic | snapshotRevert | snapshotDelete | cleanup => exact .refl vm

theorem TransferManagerDriver.quiet_protocol (vm : VirtualMachine) (success : Bool) :
    Quiet vm (protocol vm success).vm := by
  unfold protocol
  split <;> exact .refl vm

theorem Command.quiet_answer (command : Command) (vm : VirtualMachine) (success : Bool)
    (info : String) (state : PollState) : Quiet vm (command.answer vm success info state).vm := by
  unfold answer
  cases command with
  | vmm action =>
    simp only
    split
    · exact .refl vm
    · exact VirtualMachineManagerDriver.quiet_protocol _ _ _ _
  | tm action =>
    simp only
    split
    · exact TransferManagerDriver.quiet_protocol _ _
    · exact .refl vm

theorem LifeCycleManager.quiet_recover (vm : VirtualMachine) (success : Bool) :
    Quiet vm (recover vm success).vm := by
  unfold recover
  split <;>
    first
      | exact .refl vm
      | exact ⟨.found ‹_› rfl rfl, rfl⟩
      | (split
         · split <;> exact ⟨.stay rfl rfl, rfl⟩
         · exact .refl vm)

/-! ## Copies of disks -/

theorem quiet_setSaveasState {vm vm' : VirtualMachine} {diskId : Nat} {hot : Bool}
    (marked : vm.setSaveasState diskId hot = some vm') : Quiet vm vm' := by
  unfold VirtualMachine.setSaveasState at marked
  simp only at marked
  split at marked <;> cases marked
  · rename_i active running
    exact ⟨.hotplug ⟨active, running⟩ active (by simp), rfl⟩
  · rename_i poweroff
    exact ⟨.copy (.inl ⟨poweroff, rfl⟩) rfl, rfl⟩
  · rename_i suspended
    exact ⟨.copy (.inr ⟨suspended, rfl⟩) rfl, rfl⟩

theorem quiet_leaveSaveas {vm vm' vm'' : VirtualMachine} (state : vm'.state = vm.state)
    (lcmState : vm'.lcmState = vm.lcmState) (history : vm'.history = vm.history)
    (left : vm'.leaveSaveas = some vm'') : Quiet vm vm'' := by
  unfold VirtualMachine.leaveSaveas at left
  split at left <;> cases left <;> rename_i stage <;> rw [lcmState] at stage
  · exact ⟨.copied stage state rfl, history⟩
  · exact ⟨.copiedAsleep (.inl ⟨stage, rfl⟩) rfl, history⟩
  · exact ⟨.copiedAsleep (.inr ⟨stage, rfl⟩) rfl, history⟩

theorem quiet_clearSaveasState {vm vm' : VirtualMachine} {diskId : Nat} {hot : Bool}
    (state : vm'.state = vm.state) (lcmState : vm'.lcmState = vm.lcmState)
    (history : vm'.history = vm.history) : Quiet vm (vm'.clearSaveasState diskId hot) := by
  unfold VirtualMachine.clearSaveasState
  cases left : (vm'.clearSaveasDisk diskId hot).leaveSaveas with
  | none => exact ⟨.stay state lcmState, history⟩
  | some vm'' =>
    exact @quiet_leaveSaveas vm (vm'.clearSaveasDisk diskId hot) vm'' state lcmState history left

theorem quiet_saveDiskImage (vm : VirtualMachine) (diskId : Nat) (hot : Bool)
    (image : Option (Nat × String)) : Quiet vm (saveDiskImage vm diskId hot image).vm := by
  rcases image with - | ⟨imageId, source⟩
  · exact quiet_clearSaveasState rfl rfl rfl
  · simp only [saveDiskImage]
    cases saved : vm.saveDisk diskId hot imageId source with
    | none => exact .refl vm
    | some vm' =>
      have same : vm'.state = vm.state ∧ vm'.lcmState = vm.lcmState ∧
          vm'.history = vm.history := by
        unfold VirtualMachine.saveDisk at saved
        split at saved <;> cases saved <;> exact ⟨rfl, rfl, rfl⟩
      simp only
      split
      · exact ⟨.stay same.1 same.2.1, same.2.2⟩
      · exact quiet_clearSaveasState same.1 same.2.1 same.2.2

/-- The end of a copy leaves the VM where it is, or takes it out of the stage of the copy. -/
theorem LifeCycleManager.saveasHotEnd_cases (vm : VirtualMachine) (done : Nat → Effect) :
    (saveasHotEnd vm done).vm.history = vm.history ∧
      ((saveasHotEnd vm done).vm.state = vm.state ∧
          (saveasHotEnd vm done).vm.lcmState = vm.lcmState ∨
        (saveasHotEnd vm done).vm.state = vm.state ∧
          (saveasHotEnd vm done).vm.lcmState = .running ∨
        ((saveasHotEnd vm done).vm.state = .poweroff ∨
            (saveasHotEnd vm done).vm.state = .suspended) ∧
          (saveasHotEnd vm done).vm.lcmState = .lcmInit) := by
  unfold saveasHotEnd VirtualMachine.leaveSaveas
  cases vm.getSaveasDiskHot <;>
    simp only [VirtualMachine.clearSaveasDisk] <;>
    cases stage : vm.lcmState with
    | hotplugSaveas => exact ⟨rfl, .inr (.inl ⟨rfl, rfl⟩)⟩
    | hotplugSaveasPoweroff => exact ⟨rfl, .inr (.inr ⟨.inl rfl, rfl⟩)⟩
    | hotplugSaveasSuspended => exact ⟨rfl, .inr (.inr ⟨.inr rfl, rfl⟩)⟩
    | _ => first | exact ⟨rfl, .inl ⟨rfl, stage⟩⟩ | exact ⟨rfl, .inl ⟨rfl, rfl⟩⟩

/-! ## Events of the dispatch manager -/

/-- The state an event of the dispatch manager leads to. -/
def DmAction.state : DmAction → VmState
  | .suspendSuccess => .suspended
  | .stopSuccess => .stopped
  | .undeploySuccess => .undeployed
  | .poweroffSuccess => .poweroff
  | .done | .finalize => .done
  | .failed => .failed
  | .resubmit => .pending

/-- When the dispatch manager takes an event. -/
def DmAction.Takes (vm : VirtualMachine) : DmAction → Prop
  | .suspendSuccess => vm.In .saveSuspend
  | .stopSuccess => vm.In .epilogStop ∨ vm.In .prologResume
  | .undeploySuccess => vm.In .epilogUndeploy ∨ vm.In .prologUndeploy
  | .poweroffSuccess => vm.In .shutdownPoweroff
  | .done => vm.In .epilog ∨ vm.In .cancel ∨ vm.In .cleanupDelete
  | .failed => vm.lcmState = .failure
  | .resubmit => vm.lcmState = .cleanupResubmit
  | .finalize => False

/-- The events that take a VM out of some stages. -/
theorem DispatchManager.handler_cases_of_leaves {action : DmAction} {vm : VirtualMachine}
    {stages : List LcmState} (kept : ¬ (action = .failed ∨ action = .resubmit))
    (takes : action.Takes vm ↔ vm.state = .active ∧ vm.lcmState ∈ stages)
    (is : handler action vm = leaveActive vm stages action.state) :
    action.Takes vm ∧
        (handler action vm).vm = { vm with state := action.state, lcmState := .lcmInit } ∧
        (handler action vm).unlocked = true ∨
      ¬ action.Takes vm ∧ (handler action vm).vm = vm ∧
        (handler action vm).effects = [] ∧
        ((handler action vm).unlocked = false ↔ action = .failed ∨ action = .resubmit) := by
  rw [takes]
  by_cases h : vm.state = .active ∧ vm.lcmState ∈ stages
  · have left : handler action vm = { vm := { vm with state := action.state, lcmState := .lcmInit } } :=
      is.trans (if_pos h)
    rw [left]
    exact .inl ⟨h, rfl, rfl⟩
  · have stays : handler action vm = { vm } := is.trans (if_neg h)
    rw [stays]
    refine .inr ⟨h, rfl, rfl, fun locked => ?_, fun either => absurd either kept⟩
    cases locked

/-- An event of the dispatch manager takes the VM out of the life cycle, or is dropped. -/
theorem DispatchManager.handler_cases (action : DmAction) (vm : VirtualMachine) :
    action.Takes vm ∧
        (handler action vm).vm = { vm with state := action.state, lcmState := .lcmInit } ∧
        (handler action vm).unlocked = true ∨
      ¬ action.Takes vm ∧ (handler action vm).vm = vm ∧
        (handler action vm).effects = [] ∧
        ((handler action vm).unlocked = false ↔ action = .failed ∨ action = .resubmit) := by
  cases action with
  | suspendSuccess =>
    refine handler_cases_of_leaves (by simp) ?_ rfl
    simp [DmAction.Takes, VirtualMachine.In]
  | stopSuccess =>
    refine handler_cases_of_leaves (by simp) ?_ rfl
    simp [DmAction.Takes, VirtualMachine.In, and_or_left]
  | undeploySuccess =>
    refine handler_cases_of_leaves (by simp) ?_ rfl
    simp [DmAction.Takes, VirtualMachine.In, and_or_left]
  | poweroffSuccess =>
    refine handler_cases_of_leaves (by simp) ?_ rfl
    simp [DmAction.Takes, VirtualMachine.In]
  | done =>
    have takes : DmAction.done.Takes vm ↔ vm.state = .active ∧
        vm.lcmState ∈ ([.epilog, .cancel, .cleanupDelete] : List LcmState) := by
      simp [DmAction.Takes, VirtualMachine.In, and_or_left]
    rw [takes]
    by_cases h : vm.state = .active ∧
        vm.lcmState ∈ ([.epilog, .cancel, .cleanupDelete] : List LcmState)
    · have left : handler .done vm = _ := if_pos h
      rw [left]
      exact .inl ⟨h, rfl, rfl⟩
    · have stays : handler .done vm = _ := if_neg h
      rw [stays]
      refine .inr ⟨h, rfl, rfl, ?_⟩
      simp [Outcome.wrongState]
  | failed =>
    by_cases h : vm.lcmState = .failure <;>
      simp [handler, failedAction, DmAction.Takes, DmAction.state, h]
  | resubmit =>
    by_cases h : vm.lcmState = .cleanupResubmit <;>
      simp [handler, resubmitAction, DmAction.Takes, DmAction.state, h]
  | finalize => simp [handler, DmAction.Takes, Outcome.wrongState]

/-! ## All steps -/

/-- The labels of the two managers, of the placements and of the ends of a set-up. -/
def LifeLabel.isQuiet : LifeLabel → Bool
  | .lcm | .dm | .place _ _ _ | .commit _ _ | .setUpDisk _ | .setUpNic _ => false
  | _ => true

namespace LifeState

variable (s : LifeState)

@[simp] theorem apply_vm (outcome : Outcome) (serial : Option Nat) :
    (s.apply outcome serial).vm = outcome.vm := rfl

@[simp] theorem apply_pending (outcome : Outcome) (serial : Option Nat) :
    (s.apply outcome serial).pending = s.pending := rfl

theorem quiet_leave {reply : Reply} {request : PendingRequest}
    (quiet : Quiet s.vm reply.outcome.vm) : Quiet s.vm (s.leave reply request).vm := by
  unfold leave
  split
  · exact quiet
  · exact .refl _

theorem quiet_comeBack {request : PendingRequest} {outcome : Outcome}
    (quiet : Quiet s.vm outcome.vm) : Quiet s.vm (s.comeBack request outcome).vm := by
  unfold comeBack
  split
  · exact quiet
  · exact .refl _

/-- The steps with a quiet label are quiet. -/
theorem quiet_next {l : LifeLabel} (quiet : l.isQuiet = true) : Quiet s.vm (s.next l).vm := by
  unfold next
  split
  · exact .refl _
  · cases l with
    | lcm | dm | place | commit | setUpDisk | setUpNic => cases quiet
    | request request => exact request.quiet s.vm
    | giveUp placement => exact s.quiet_comeBack (.refl _)
    | attach =>
      apply s.quiet_leave
      unfold DispatchManager.attach
      split
      · rename_i running
        exact DispatchManager.quiet_enter running (by simp) rfl rfl
      · exact .refl _
    | attachNic =>
      apply s.quiet_leave
      unfold DispatchManager.attachNic
      split
      · rename_i running
        exact DispatchManager.quiet_enter running (by simp) rfl rfl
      · exact .refl _
    | saveDisk diskId hot =>
      simp only [nextUnlocked]
      cases marked : s.vm.setSaveasState diskId hot with
      | none => exact .refl _
      | some vm => exact s.quiet_leave (quiet_setSaveasState marked)
    | saveDiskImage diskId hot image => exact s.quiet_comeBack (quiet_saveDiskImage _ _ _ _)
    | answer serial success info state =>
      simp only [nextUnlocked]
      cases s.command? serial with
      | none => exact .refl _
      | some command => exact command.quiet_answer _ _ _ _
    | unsent serial =>
      simp only [nextUnlocked]
      cases s.command? serial <;> exact .refl _
    | poll success state => exact VirtualMachineManagerDriver.quiet_protocol _ _ _ _
    | monitor state => exact InformationManagerDriver.quiet_monitor _ _
    | recover success =>
      simp only [nextUnlocked]
      split
      · exact LifeCycleManager.quiet_recover _ _
      · exact .refl _

/-- A disk or NIC could not be set up, for a request that waits for it. -/
def SetUpFails (l : LifeLabel) : Prop :=
  l = .setUpDisk none ∧ .setUpDisk ∈ s.pending ∨ l = .setUpNic none ∧ .setUpNic ∈ s.pending

instance (l : LifeLabel) : Decidable (s.SetUpFails l) := inferInstanceAs (Decidable (_ ∨ _))

/-- The end of a set-up leaves the VM where it is, or sends it back to RUNNING. -/
theorem setUp_next {l : LifeLabel} (setUp : (∃ disk, l = .setUpDisk disk) ∨ ∃ nic, l = .setUpNic nic) :
    (s.next l).vm.history = s.vm.history ∧ (s.next l).vm.state = s.vm.state ∧
      ((s.next l).vm.lcmState = s.vm.lcmState ∨
        (s.next l).vm.lcmState = .running ∧ s.SetUpFails l) := by
  have comeBack (request : PendingRequest) (outcome : Outcome)
      (history : outcome.vm.history = s.vm.history) (state : outcome.vm.state = s.vm.state)
      (lcmState : outcome.vm.lcmState = s.vm.lcmState ∨
        outcome.vm.lcmState = .running ∧ (request ∈ s.pending → s.SetUpFails l)) :
      (s.comeBack request outcome).vm.history = s.vm.history ∧
        (s.comeBack request outcome).vm.state = s.vm.state ∧
        ((s.comeBack request outcome).vm.lcmState = s.vm.lcmState ∨
          (s.comeBack request outcome).vm.lcmState = .running ∧ s.SetUpFails l) := by
    unfold LifeState.comeBack
    split
    · rename_i there
      exact ⟨history, state, lcmState.imp id fun failed => ⟨failed.1, failed.2 there⟩⟩
    · exact ⟨rfl, rfl, .inl rfl⟩
  unfold next
  split
  · exact ⟨rfl, rfl, .inl rfl⟩
  · rcases setUp with ⟨disk, rfl⟩ | ⟨nic, rfl⟩
    · cases disk with
      | none => exact comeBack _ _ rfl rfl (.inr ⟨rfl, fun there => .inl ⟨rfl, there⟩⟩)
      | some disk => exact comeBack _ _ rfl rfl (.inl rfl)
    · cases nic with
      | none => exact comeBack _ _ rfl rfl (.inr ⟨rfl, fun there => .inr ⟨rfl, there⟩⟩)
      | some nic => exact comeBack _ _ rfl rfl (.inl rfl)

/-- A placement is committed, or nothing is done about it. -/
theorem commit_next (placement : Placement) (stored : Bool) :
    s.locked = false ∧ .place placement ∈ s.pending ∧
        s.next (.commit placement stored) =
          { s.apply (placement.commit s.vm stored).outcome none with
            pending := s.pending.erase (.place placement) } ∨
      (s.locked = true ∨ .place placement ∉ s.pending) ∧
        s.next (.commit placement stored) = s := by
  unfold next
  split
  · rename_i locked
    exact .inr ⟨.inl locked, rfl⟩
  · rename_i unlocked
    simp only [nextUnlocked, comeBack]
    split
    · rename_i there
      exact .inl ⟨Bool.eq_false_iff.mpr unlocked, there, rfl⟩
    · rename_i missing
      exact .inr ⟨.inr missing, rfl⟩

/-- A deployment that does not enforce the capacity is committed at once. -/
theorem place_next (placement : Placement) (enforce stored : Bool) :
    (s.locked = false ∧ placement.Takes s.vm ∧ placement.kind = .deploy ∧ enforce = false ∧
        placement.check s.vm = true) ∧
        s.next (.place placement enforce stored) =
          s.apply (placement.commit s.vm stored).outcome none ∨
      ¬ (s.locked = false ∧ placement.kind = .deploy ∧ enforce = false ∧
        placement.check s.vm = true) ∧
        ((s.next (.place placement enforce stored)) = s ∨
          s.next (.place placement enforce stored) =
            { s with pending := s.pending ++ [.place placement] }) := by
  unfold next
  split
  · rename_i locked
    exact .inr ⟨by simp [locked], .inl rfl⟩
  · rename_i unlocked
    simp only [nextUnlocked]
    split
    · rename_i checked
      split
      · rename_i atOnce
        refine .inl ⟨⟨Bool.eq_false_iff.mpr unlocked, ?_, atOnce.1, atOnce.2, checked⟩, rfl⟩
        simpa [Placement.check, Placement.Takes, atOnce.1, VirtualMachineDeploy.check] using checked
      · rename_i later
        exact .inr ⟨fun both => later ⟨both.2.1, both.2.2.1⟩, .inr rfl⟩
    · rename_i unchecked
      exact .inr ⟨fun both => unchecked both.2.2.2, .inl rfl⟩

/-- The life-cycle manager handles the first event of its queue, or does nothing. -/
theorem lcm_next :
    (∃ event rest, s.locked = false ∧ s.lcmQueue = event :: rest ∧
        s.next .lcm = { s with lcmQueue := rest }.apply
          (LifeCycleManager.handler event.action s.vm) none) ∨
      (s.locked = true ∨ s.lcmQueue = []) ∧ s.next .lcm = s := by
  unfold next
  split
  · rename_i locked
    exact .inr ⟨.inl locked, rfl⟩
  · rename_i unlocked
    simp only [nextUnlocked]
    split
    · rename_i empty
      exact .inr ⟨.inr empty, rfl⟩
    · rename_i event rest queue
      rw [LifeCycleManager.doAction_trigger]
      exact .inl ⟨event, rest, Bool.eq_false_iff.mpr unlocked, queue, rfl⟩

/-- The dispatch manager handles the first event of its queue, or does nothing. -/
theorem dm_next :
    (∃ action rest, s.locked = false ∧ s.dmQueue = action :: rest ∧
        s.next .dm = { s with dmQueue := rest }.apply
          (DispatchManager.handler action s.vm) none) ∨
      (s.locked = true ∨ s.dmQueue = []) ∧ s.next .dm = s := by
  unfold next
  split
  · rename_i locked
    exact .inr ⟨.inl locked, rfl⟩
  · rename_i unlocked
    simp only [nextUnlocked]
    split
    · rename_i empty
      exact .inr ⟨.inr empty, rfl⟩
    · rename_i action rest queue
      exact .inl ⟨action, rest, Bool.eq_false_iff.mpr unlocked, queue, rfl⟩

end LifeState

end Ezilla
