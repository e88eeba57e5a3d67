import Ezilla.Lcm.LifeCycleSteps

/-!
# Placements and the history

A placement appends a history record before the dispatch manager is asked, and every later
operation works on the host of the current record.

* `Placed`, `remember`: the placements that were accepted and not given up since, with the
  records they appended;
* `LifeState.Honest`: a placement that is refused leaves the history alone and is answered
  with a failure;
* `current_host_of_reached`: in the runs in which no placement is refused late, the current
  record names the host of the last accepted placement.
-/

namespace Ezilla

/-! ## Stays -/

/-- The stay a record is about. -/
def History.stay (h : History) : Nat × Nat := (h.seq, h.hid)

namespace VirtualMachine

variable (vm : VirtualMachine)

/-- The stays of a VM, latest first. -/
def stays : List (Nat × Nat) := vm.history.map History.stay

/-- The number of the current record. -/
def seq : Option Nat := vm.stays.head?.map Prod.fst

/-- A live or cold migration has left the old host. -/
def Moving : Prop := vm.lcmState = .saveMigrate ∨ vm.lcmState = .migrate

instance : Decidable vm.Moving := inferInstanceAs (Decidable (_ ∨ _))

theorem hid_eq : vm.hid = vm.stays.head?.map Prod.snd := by
  unfold hid stays
  cases vm.history <;> rfl

theorem previousHid_eq : vm.previousHid = vm.stays.tail.head?.map Prod.snd := by
  unfold previousHid stays
  rcases vm.history with - | ⟨last, - | ⟨previous, rest⟩⟩ <;> rfl

theorem stays_setLast {change : History → History} (same : ∀ h, (change h).stay = h.stay) :
    (vm.setLast change).stays = vm.stays := by
  unfold setLast stays
  rcases vm.history with - | ⟨last, rest⟩
  · rfl
  · simp only [List.modifyHead_cons, List.map_cons, same]

theorem stays_setPrevious {change : History → History} (same : ∀ h, (change h).stay = h.stay) :
    (vm.setPrevious change).stays = vm.stays := by
  unfold setPrevious stays
  rcases vm.history with - | ⟨last, - | ⟨previous, rest⟩⟩
  · rfl
  · rfl
  · simp only [List.modify_succ_cons, List.modify_zero_cons, List.map_cons, same]

@[simp] theorem stays_setAction (action : VMAction) : (vm.setAction action).stays = vm.stays :=
  vm.stays_setLast fun _ => rfl

@[simp] theorem stays_setReason (reason : EndReason) : (vm.setReason reason).stays = vm.stays :=
  vm.stays_setLast fun _ => rfl

@[simp] theorem stays_setPreviousAction (action : VMAction) :
    (vm.setPreviousAction action).stays = vm.stays :=
  vm.stays_setPrevious fun _ => rfl

@[simp] theorem stays_setPreviousReason (reason : EndReason) :
    (vm.setPreviousReason reason).stays = vm.stays :=
  vm.stays_setPrevious fun _ => rfl

theorem stays_addHistory (hid : Nat) :
    (vm.addHistory hid).stays = ((vm.seq.map (· + 1)).getD 0, hid) :: vm.stays := by
  unfold addHistory seq stays
  cases vm.history <;> rfl

theorem stays_cpHistory {hid : Nat} (current : vm.hid = some hid) :
    ∃ last, vm.seq = some last ∧ vm.cpHistory.stays = (last + 1, hid) :: vm.stays := by
  rcases vm with ⟨_, _, _, _, _, _, _, history, _, _, _⟩
  cases history with
  | nil => cases current
  | cons last rest =>
    cases current
    exact ⟨last.seq, rfl, rfl⟩

theorem stays_cpHistory_of_none (current : vm.hid = none) : vm.cpHistory.stays = vm.stays := by
  rcases vm with ⟨_, _, _, _, _, _, _, history, _, _, _⟩
  cases history with
  | nil => rfl
  | cons last rest => cases current

theorem stays_cpPreviousHistory {hid : Nat} (previous : vm.previousHid = some hid) :
    ∃ last, vm.seq = some last ∧ vm.cpPreviousHistory.stays = (last + 1, hid) :: vm.stays := by
  rcases vm with ⟨_, _, _, _, _, _, _, history, _, _, _⟩
  rcases history with - | ⟨last, - | ⟨before, rest⟩⟩
  · cases previous
  · cases previous
  · cases previous
    exact ⟨last.seq, rfl, rfl⟩

end VirtualMachine

theorem Quiet.stays {vm vm' : VirtualMachine} (quiet : Quiet vm vm') : vm'.stays = vm.stays :=
  congrArg (List.map History.stay) quiet.2

/-- A quiet step starts no move. -/
theorem Quiet.moving {vm vm' : VirtualMachine} (quiet : Quiet vm vm')
    (active : vm.Moving → vm.state = .active) (moving : vm'.Moving) :
    vm.Moving ∧ vm'.state = vm.state := by
  unfold VirtualMachine.Moving at active moving ⊢
  cases quiet.1 with
  | stay state lcmState => exact ⟨lcmState ▸ moving, state⟩
  | wait before state lcmState =>
    rcases lcmState with same | init
    · rw [same] at moving
      simp [active moving] at before
    · simp [init] at moving
  | done before state lcmState => simp [lcmState] at moving
  | resubmit before state lcmState => simp [lcmState] at moving
  | hotplug running state lcmState =>
    simp only [List.mem_cons, List.not_mem_nil, or_false] at lcmState
    rcases lcmState with h | h | h | h <;> simp [h] at moving
  | copy before state => rcases before with ⟨-, h⟩ | ⟨-, h⟩ <;> simp [h] at moving
  | copied before state lcmState => simp [lcmState] at moving
  | copiedAsleep before lcmState => simp [lcmState] at moving
  | found before state lcmState => simp [lcmState] at moving

/-! ## The life-cycle manager -/

/-- What an event of the life-cycle manager does to the stays. -/
inductive StayStep (action : LcmAction) (vm vm' : VirtualMachine) : Prop where
  | keep (stays : vm'.stays = vm.stays) (moving : vm'.Moving → vm.Moving ∧ vm'.state = vm.state)
  | move (migration : action = .migrate ∨ action = .liveMigrate) (running : vm.In .running)
      (stays : vm'.stays = vm.stays) (state : vm'.state = .active)
  | giveUp (failure : action = .saveFailure ∧ vm.lcmState = .saveMigrate ∨
        action = .deployFailure ∧ vm.lcmState = .migrate)
      (stays : vm'.stays = vm.cpPreviousHistory.stays) (still : ¬ vm'.Moving)
  | copy (asleep : vm.state = .suspended ∨ vm.state = .poweroff)
      (stays : vm'.stays = vm.cpHistory.stays) (still : ¬ vm'.Moving)

namespace StayStep

variable {action : LcmAction} {vm vm' : VirtualMachine}

theorem refl (action : LcmAction) (vm : VirtualMachine) : StayStep action vm vm :=
  .keep rfl fun moving => ⟨moving, rfl⟩

/-- The VM enters a stage in which it does not move. -/
theorem enter (l : LcmState) (stays : vm'.stays = vm.stays) (stage : vm'.lcmState = l)
    (still : l ≠ .saveMigrate ∧ l ≠ .migrate) : StayStep action vm vm' := by
  apply keep stays
  rw [VirtualMachine.Moving, stage]
  intro moving
  exact (moving.elim still.1 still.2).elim

end StayStep

namespace LifeCycleManager

open VirtualMachine (stays_setAction stays_setReason stays_setPreviousAction
  stays_setPreviousReason)

variable (vm : VirtualMachine) (action : LcmAction)

theorem stays_failureAction : StayStep action vm (failureAction vm).vm :=
  .enter .failure (stays_setReason _ _) rfl (by decide)

theorem stays_leaveRunning {lcmState : LcmState} (closed : VMAction) (command : VmmAction)
    (still : lcmState ≠ .saveMigrate ∧ lcmState ≠ .migrate) :
    StayStep action vm (leaveRunning vm lcmState closed command).vm := by
  unfold leaveRunning
  split
  · exact .enter lcmState (stays_setAction _ _) rfl still
  · exact .refl _ _

theorem stays_moveRunning (lcmState : LcmState) (closed : VMAction) (command : VmmAction)
    (migration : action = .migrate ∨ action = .liveMigrate) :
    StayStep action vm (moveRunning vm lcmState closed command).vm := by
  unfold moveRunning
  split
  · rename_i running
    exact .move migration running (stays_setPreviousAction _ _) running.1
  · exact .refl _ _

theorem stays_deployAction : StayStep action vm (deployAction vm).vm := by
  unfold deployAction
  split
  · split
    · exact .enter .prologResume rfl rfl (by decide)
    · exact .enter .prologUndeploy rfl rfl (by decide)
    · exact .enter .prologUndeploy rfl rfl (by decide)
    · exact .enter .prolog rfl rfl (by decide)
  · exact .refl _ _

theorem stays_restoreAction : StayStep action vm (restoreAction vm).vm := by
  unfold restoreAction
  split
  · rename_i suspended
    exact .copy (.inl suspended) rfl (by rintro (h | h) <;> cases h)
  · exact .refl _ _

theorem stays_restartAction : StayStep action vm (restartAction vm).vm := by
  unfold restartAction
  split
  · split <;> first | exact .refl _ _ | exact .enter .bootUnknown rfl rfl (by decide)
  · split
    · rename_i poweroff
      exact .copy (.inr poweroff) rfl (by rintro (h | h) <;> cases h)
    · exact .refl _ _

/-- The clean-up of a VM keeps it on its host. -/
theorem stays_cleanUpVm (dispose : Bool) :
    (cleanUpVm vm dispose).1.stays = vm.stays ∧
      (cleanUpVm vm dispose).1.lcmState =
        if dispose then .cleanupDelete else .cleanupResubmit := by
  have start : (cleanUpStart vm dispose).stays = vm.stays :=
    (stays_setReason _ _).trans (stays_setAction _ _)
  have switch (lcmState : LcmState) :
      (cleanUpSwitch (cleanUpStart vm dispose) lcmState).1.stays =
          (cleanUpStart vm dispose).stays ∧
        (cleanUpSwitch (cleanUpStart vm dispose) lcmState).1.lcmState =
          (cleanUpStart vm dispose).lcmState := by
    cases lcmState <;> first
      | exact ⟨rfl, rfl⟩
      | exact ⟨stays_setPreviousReason _ _, rfl⟩
  exact ⟨(switch vm.lcmState).1.trans start, (switch vm.lcmState).2.trans rfl⟩

theorem stays_deleteAction : StayStep action vm (deleteAction vm).vm := by
  unfold deleteAction
  split
  · split
    · exact .enter .cleanupDelete rfl rfl (by decide)
    · exact .enter .cleanupDelete rfl rfl (by decide)
    · exact .enter .cleanupDelete rfl rfl (by decide)
    · exact .enter .cleanupDelete (stays_cleanUpVm vm true).1 (stays_cleanUpVm vm true).2
        (by decide)
  · exact .refl _ _

theorem stays_cleanAction : StayStep action vm (cleanAction vm).vm := by
  unfold cleanAction
  split
  · split
    · exact .refl _ _
    · exact .refl _ _
    · exact .enter .cleanupResubmit rfl rfl (by decide)
    · exact .enter .cleanupResubmit (stays_cleanUpVm vm false).1 (stays_cleanUpVm vm false).2
        (by decide)
  · exact .refl _ _

/-- A migration that is given up ends on the host of the previous record. -/
theorem stays_giveUpMigration
    (failure : action = .saveFailure ∧ vm.lcmState = .saveMigrate ∨
      action = .deployFailure ∧ vm.lcmState = .migrate) :
    StayStep action vm (giveUpMigration vm).vm := by
  apply StayStep.giveUp failure
  · rcases vm with ⟨_, _, _, _, _, _, _, history, _, _, _⟩
    rcases history with - | ⟨last, - | ⟨previous, rest⟩⟩ <;> rfl
  · rintro (h | h) <;> cases h

theorem stays_backToRunning : StayStep action vm (backToRunning vm).vm :=
  .enter .running (stays_setAction _ _) rfl (by decide)

theorem stays_saveasHotEnd (done : Nat → Effect) :
    StayStep action vm (saveasHotEnd vm done).vm := by
  obtain ⟨history, step⟩ := saveasHotEnd_cases vm done
  have stays : (saveasHotEnd vm done).vm.stays = vm.stays :=
    congrArg (List.map History.stay) history
  rcases step with ⟨state, lcmState⟩ | ⟨-, lcmState⟩ | ⟨-, lcmState⟩
  · refine .keep stays fun moves => ?_
    rw [VirtualMachine.Moving, lcmState] at moves
    exact ⟨moves, state⟩
  · exact .enter .running stays lcmState (by decide)
  · exact .enter .lcmInit stays lcmState (by decide)

/-- Every event keeps the stays, but for the moves of the VM and the records that follow a
sleep. -/
theorem stays_handler : StayStep action vm (handler action vm).vm := by
  cases action with
  | saveSuccess =>
    simp only [handler, saveSuccessAction]
    split
    · exact .enter .prologMigrate (stays_setPreviousReason _ _) rfl (by decide)
    · rename_i stage
      exact .enter .saveSuspend (stays_setReason _ _) stage (by decide)
    · exact .enter .epilogStop (stays_setReason _ _) rfl (by decide)
    · exact .refl _ _
  | saveFailure =>
    simp only [handler, saveFailureAction]
    split
    · rename_i stage
      exact stays_giveUpMigration _ _ (.inl ⟨rfl, stage⟩)
    · exact stays_backToRunning _ _
    · exact stays_backToRunning _ _
    · exact .refl _ _
  | deploySuccess =>
    simp only [handler, deploySuccessAction]
    split
    · exact .enter .running (stays_setPreviousReason _ _) rfl (by decide)
    all_goals first | exact .refl _ _ | exact .enter .running rfl rfl (by decide)
  | deployFailure =>
    simp only [handler, deployFailureAction]
    split
    · rename_i stage
      exact stays_giveUpMigration _ _ (.inr ⟨rfl, stage⟩)
    · exact stays_failureAction _ _
    · exact .enter .unknown rfl rfl (by decide)
    · exact .enter .lcmInit rfl rfl (by decide)
    · exact .enter .lcmInit rfl rfl (by decide)
    · exact .enter .epilogStop (stays_setReason _ _) rfl (by decide)
    · exact .enter .epilogUndeploy (stays_setReason _ _) rfl (by decide)
    · exact .refl _ _
  | shutdownSuccess =>
    simp only [handler, shutdownSuccessAction]
    split
    · exact .enter .epilog (stays_setReason _ _) rfl (by decide)
    · rename_i stage
      exact .enter .shutdownPoweroff (stays_setReason _ _) stage (by decide)
    · exact .enter .epilogUndeploy (stays_setReason _ _) rfl (by decide)
    · exact .refl _ _
  | shutdownFailure =>
    simp only [handler, shutdownFailureAction]
    split <;> first | exact .refl _ _ | exact stays_backToRunning _ _
  | cancelSuccess =>
    simp only [handler, cancelSuccessAction]
    split
    · exact .enter .epilog (stays_setReason _ _) rfl (by decide)
    · exact .enter .epilogUndeploy (stays_setReason _ _) rfl (by decide)
    · rename_i stage
      exact .enter .shutdownPoweroff (stays_setReason _ _) stage (by decide)
    · exact .refl _ _
  | cancelFailure =>
    simp only [handler, cancelFailureAction]
    split <;> first | exact .refl _ _ | exact stays_backToRunning _ _
  | monitorFailure =>
    simp only [handler, monitorFailureAction]
    split <;> first | exact .refl _ _ | exact stays_failureAction _ _
  | monitorSuspend =>
    simp only [handler, monitorSuspendAction]
    split <;> first
      | exact .refl _ _
      | exact .enter .saveSuspend (stays_setReason _ _) rfl (by decide)
  | monitorDone =>
    simp only [handler, monitorDoneAction]
    split <;> first | exact .refl _ _ | exact .enter .unknown rfl rfl (by decide)
  | prologSuccess =>
    simp only [handler, prologSuccessAction]
    split
    · exact .enter .boot rfl rfl (by decide)
    · exact .enter .bootUndeploy rfl rfl (by decide)
    · exact .enter .boot rfl rfl (by decide)
    · exact .enter .bootStopped rfl rfl (by decide)
    · exact .refl _ _
  | prologFailure =>
    simp only [handler, prologFailureAction]
    split
    · exact stays_failureAction _ _
    · exact stays_failureAction _ _
    · rename_i stage
      exact .enter .prologResume (stays_setReason _ _) stage (by decide)
    · rename_i stage
      exact .enter .prologUndeploy (stays_setReason _ _) stage (by decide)
    · exact .refl _ _
  | epilogSuccess =>
    simp only [handler, epilogSuccessAction]
    split <;> exact .refl _ _
  | epilogFailure =>
    simp only [handler, epilogFailureAction]
    split <;> first | exact .refl _ _ | exact stays_failureAction _ _
  | cleanupSuccess | cleanupFailure | detachNicFailure =>
    simp only [handler, cleanupCallbackAction]
    split <;> exact .refl _ _
  | attachSuccess | detachFailure =>
    simp only [handler, detachFailureAction, attachSuccessAction]
    split <;> first | exact .refl _ _ | exact .enter .running rfl rfl (by decide)
  | attachFailure | detachSuccess =>
    simp only [handler, detachSuccessAction, attachFailureAction]
    split <;> first | exact .refl _ _ | exact .enter .running rfl rfl (by decide)
  | attachNicSuccess =>
    simp only [handler, attachNicSuccessAction]
    split <;> first | exact .refl _ _ | exact .enter .running rfl rfl (by decide)
  | attachNicFailure | detachNicSuccess =>
    simp only [handler, detachNicSuccessAction, attachNicFailureAction]
    split <;> first | exact .refl _ _ | exact .enter .running rfl rfl (by decide)
  | snapshotCreateSuccess | snapshotRevertSuccess | snapshotRevertFailure
  | snapshotDeleteFailure =>
    simp only [handler, snapshotCreateSuccess, snapshotRevertSuccess, snapshotRevertFailure,
      snapshotDeleteFailure, keepActiveSnapshot]
    split <;> first | exact .refl _ _ | exact .enter .running rfl rfl (by decide)
  | snapshotCreateFailure | snapshotDeleteSuccess =>
    simp only [handler, snapshotCreateFailure, snapshotDeleteSuccess, dropActiveSnapshot]
    split <;> first | exact .refl _ _ | exact .enter .running rfl rfl (by decide)
  | saveasHotSuccess => exact stays_saveasHotEnd vm _ _
  | saveasHotFailure => exact stays_saveasHotEnd vm _ _
  | deploy => exact stays_deployAction _ _
  | suspend => exact stays_leaveRunning _ _ _ _ (by decide)
  | stop => exact stays_leaveRunning _ _ _ _ (by decide)
  | cancel => exact stays_leaveRunning _ _ _ _ (by decide)
  | shutdown => exact stays_leaveRunning _ _ _ _ (by decide)
  | undeploy => exact stays_leaveRunning _ _ _ _ (by decide)
  | undeployHard => exact stays_leaveRunning _ _ _ _ (by decide)
  | poweroff => exact stays_leaveRunning _ _ _ _ (by decide)
  | poweroffHard => exact stays_leaveRunning _ _ _ _ (by decide)
  | migrate => exact stays_moveRunning _ _ _ _ _ (.inl rfl)
  | liveMigrate => exact stays_moveRunning _ _ _ _ _ (.inr rfl)
  | restore => exact stays_restoreAction _ _
  | restart => exact stays_restartAction _ _
  | delete => exact stays_deleteAction _ _
  | clean => exact stays_cleanAction _ _
  | finalize => exact .refl _ _

end LifeCycleManager

/-! ## Accepted placements -/

/-- A placement the dispatch manager took, with the number of the record it appended. -/
structure Placed where
  kind : PlacementKind
  hid : Nat
  seq : Nat
  deriving DecidableEq, Repr

/-- A placement that is taken, with the record it appends. -/
def Placement.placed (placement : Placement) (vm : VirtualMachine) : Placed where
  kind := placement.kind
  hid := placement.hid
  seq := (vm.seq.map (· + 1)).getD 0

/-- The placements that were taken and not given up, latest first. A migration is given up when
the driver fails it, and when the life-cycle manager finds the VM in another state. -/
def remember (s : LifeState) (l : LifeLabel) (placed : List Placed) : List Placed :=
  if s.locked then placed
  else
    match l with
    | .place placement enforce stored =>
      if placement.kind = .deploy ∧ enforce = false ∧ placement.check s.vm = true ∧
          stored = true then
        placement.placed s.vm :: placed
      else placed
    | .commit placement stored =>
      if .place placement ∈ s.pending ∧ placement.Takes s.vm ∧ stored = true then
        placement.placed s.vm :: placed
      else placed
    | .lcm =>
      match s.lcmQueue.head?.map LcmEvent.action with
      | some .migrate | some .liveMigrate => if s.vm.In .running then placed else placed.tail
      | some .saveFailure => if s.vm.lcmState = .saveMigrate then placed.tail else placed
      | some .deployFailure => if s.vm.lcmState = .migrate then placed.tail else placed
      | _ => placed
    | _ => placed

/-- The placement a user is told about by a step, with the response. -/
def LifeState.response (s : LifeState) : LifeLabel → Option Committed
  | .place placement enforce stored =>
    if s.locked = false ∧ placement.kind = .deploy ∧ enforce = false ∧
        placement.check s.vm = true then
      some (placement.commit s.vm stored)
    else none
  | .commit placement stored =>
    if s.locked = false ∧ .place placement ∈ s.pending then some (placement.commit s.vm stored)
    else none
  | _ => none

/-- A placement whose dispatch is refused leaves the history alone and is answered with a
failure. -/
def LifeState.Honest (s : LifeState) (l : LifeLabel) : Prop :=
  ∀ committed, s.response l = some committed → committed.dispatched = false →
    (s.next l).vm.history = s.vm.history ∧ committed.success = false

/-- A placement that comes back to the VM finds it in a state in which it is taken, and the
database stores the record that is appended. -/
def LifeState.InTime (s : LifeState) : LifeLabel → Prop
  | .place placement enforce stored =>
    s.locked = false → placement.kind = .deploy → enforce = false →
      placement.check s.vm = true → stored = true
  | .commit placement stored =>
    s.locked = false → .place placement ∈ s.pending → placement.Takes s.vm ∧ stored = true
  | _ => True

instance (s : LifeState) (l : LifeLabel) : Decidable (s.InTime l) := by
  unfold LifeState.InTime
  split <;> infer_instance

/-- A migration that the life-cycle manager handles finds the VM running, and its record is the
current one. -/
def Current (s : LifeState) (placed : List Placed) (l : LifeLabel) : Prop :=
  ∀ event rest, l = .lcm → s.locked = false → s.lcmQueue = event :: rest →
    (event.action = .migrate ∨ event.action = .liveMigrate) →
      s.vm.In .running ∧ ∃ p rest, placed = p :: rest ∧ p.kind ≠ .deploy ∧ s.vm.seq = some p.seq

/-- A placement appends its record, taken or not. -/
theorem Placement.history_commit (placement : Placement) (vm : VirtualMachine) (stored : Bool) :
    (placement.commit vm stored).outcome.vm.history = (vm.addHistory placement.hid).history := by
  rcases placement.outcome_commit vm stored with ⟨-, -, eq⟩ | eq <;> rw [eq]

theorem honest_iff (s : LifeState) (l : LifeLabel) : s.Honest l ↔ s.InTime l := by
  -- the record is appended in any case
  have appended (placement : Placement) (stored : Bool) {s' : LifeState}
      (eq : s'.vm = (placement.commit s.vm stored).outcome.vm)
      (same : s'.vm.history = s.vm.history) : False := by
    rw [eq, placement.history_commit, VirtualMachine.addHistory] at same
    have length := congrArg List.length same
    cases history : s.vm.history <;> simp [history] at length
  cases l with
  | place placement enforce stored =>
    constructor
    · intro honest unlocked kind atOnce checked
      cases stored with
      | true => rfl
      | false =>
        have now : s.locked = false ∧ placement.kind = .deploy ∧ enforce = false ∧
            placement.check s.vm = true := ⟨unlocked, kind, atOnce, checked⟩
        rcases s.place_next placement enforce false with ⟨-, eq⟩ | ⟨later, -⟩
        · have same := (honest (placement.commit s.vm false) (if_pos now) rfl).1
          exact (appended placement false (by rw [eq]; rfl) same).elim
        · exact absurd now later
    · intro inTime committed told refused
      simp only [LifeState.response] at told
      split at told
      · rename_i atOnce
        cases told
        have takes : placement.Takes s.vm := by
          simpa [Placement.check, Placement.Takes, atOnce.2.1, VirtualMachineDeploy.check]
            using atOnce.2.2.2
        rw [inTime atOnce.1 atOnce.2.1 atOnce.2.2.1 atOnce.2.2.2,
          Placement.commit_of_takes takes] at refused
        cases refused
      · cases told
  | commit placement stored =>
    constructor
    · intro honest unlocked there
      have told : s.response (.commit placement stored) = some (placement.commit s.vm stored) :=
        if_pos ⟨unlocked, there⟩
      cases stored with
      | false =>
        rcases s.commit_next placement false with ⟨-, -, eq⟩ | ⟨locked | missing, -⟩
        · exact (appended placement false (by rw [eq]; rfl) (honest _ told rfl).1).elim
        · cases unlocked.symm.trans locked
        · exact absurd there missing
      | true =>
        refine ⟨Decidable.byContradiction fun refused => ?_, rfl⟩
        rw [Placement.commit_of_not_takes refused] at told
        exact Bool.noConfusion (honest _ told rfl).2
    · intro inTime committed told refused
      simp only [LifeState.response] at told
      split at told
      · rename_i there
        cases told
        obtain ⟨takes, rfl⟩ := inTime there.1 there.2
        rw [Placement.commit_of_takes takes] at refused
        cases refused
      · cases told
  | _ => exact iff_of_true (fun _ told => by cases told) trivial

/-! ## The invariant -/

/-- The history of a VM and the placements it goes back to. -/
structure PlacedInv (vm : VirtualMachine) (placed : List Placed) : Prop where
  current : vm.hid = placed.head?.map Placed.hid
  bounded : ∀ p ∈ placed, ∃ last, vm.seq = some last ∧ p.seq ≤ last
  sorted : placed.Pairwise fun p q => q.seq < p.seq
  previous : ∀ p rest, placed = p :: rest → vm.seq = some p.seq →
    vm.previousHid = rest.head?.map Placed.hid ∧ (p.kind ≠ .deploy → vm.previousHid ≠ none)
  moving : vm.Moving → vm.state = .active ∧ vm.previousHid = placed.tail.head?.map Placed.hid ∧
    vm.previousHid ≠ none

section Invariant

variable {vm vm' : VirtualMachine} {placed : List Placed}

/-- The stays and a move that is still on are all the invariant is about. -/
theorem PlacedInv.keep (inv : PlacedInv vm placed) (stays : vm'.stays = vm.stays)
    (moving : vm'.Moving → vm.Moving ∧ vm'.state = vm.state) : PlacedInv vm' placed := by
  have hid : vm'.hid = vm.hid := by rw [vm'.hid_eq, vm.hid_eq, stays]
  have previousHid : vm'.previousHid = vm.previousHid := by
    rw [vm'.previousHid_eq, vm.previousHid_eq, stays]
  have seq : vm'.seq = vm.seq := by rw [VirtualMachine.seq, VirtualMachine.seq, stays]
  refine ⟨hid.trans inv.current, ?_, inv.sorted, ?_, ?_⟩
  · rw [seq]
    exact inv.bounded
  · rw [seq, previousHid]
    exact inv.previous
  · intro moves
    obtain ⟨before, state⟩ := moving moves
    rw [previousHid, state]
    exact inv.moving before

/-- A new record on the host of some of the placements, on top of those left. -/
theorem PlacedInv.copy {left : List Placed} {last hid : Nat} (inv : PlacedInv vm placed)
    (suffix : left <:+ placed) (seq : vm.seq = some last)
    (stays : vm'.stays = (last + 1, hid) :: vm.stays)
    (host : left.head?.map Placed.hid = some hid) (still : ¬ vm'.Moving) :
    PlacedInv vm' left := by
  have seq' : vm'.seq = some (last + 1) := by rw [VirtualMachine.seq, stays]; rfl
  have below : ∀ p ∈ left, p.seq ≤ last := by
    intro p mem
    obtain ⟨last', same, le⟩ := inv.bounded p (suffix.subset mem)
    cases seq.symm.trans same
    exact le
  refine ⟨?_, ?_, ?_, ?_, fun moves => absurd moves still⟩
  · rw [vm'.hid_eq, stays, host]
    rfl
  · intro p mem
    exact ⟨last + 1, seq', Nat.le_succ_of_le (below p mem)⟩
  · exact inv.sorted.sublist suffix.sublist
  · intro p rest eq same
    have le := below p (eq ▸ List.mem_cons_self)
    have eq_last := Option.some.inj (seq'.symm.trans same)
    omega

/-- A placement that is taken. -/
theorem PlacedInv.push {placement : Placement} (inv : PlacedInv vm placed)
    (stays : vm'.stays = (vm.addHistory placement.hid).stays)
    (placedBefore : placement.kind ≠ .deploy → vm.hid ≠ none) (still : ¬ vm'.Moving) :
    PlacedInv vm' (placement.placed vm :: placed) := by
  rw [VirtualMachine.stays_addHistory] at stays
  have seq' : vm'.seq = some (placement.placed vm).seq := by
    rw [VirtualMachine.seq, stays]
    rfl
  have previousHid : vm'.previousHid = vm.hid := by
    rw [vm'.previousHid_eq, stays, vm.hid_eq, List.tail_cons]
  have above : ∀ p ∈ placed, p.seq < (placement.placed vm).seq := by
    intro p mem
    obtain ⟨last, seq, le⟩ := inv.bounded p mem
    simp only [Placement.placed, seq, Option.map_some, Option.getD_some]
    omega
  refine ⟨?_, ?_, List.Pairwise.cons above inv.sorted, ?_, fun moves => absurd moves still⟩
  · rw [vm'.hid_eq, stays]
    rfl
  · intro p mem
    rcases List.mem_cons.mp mem with rfl | before
    · exact ⟨_, seq', Nat.le_refl _⟩
    · exact ⟨_, seq', Nat.le_of_lt (above p before)⟩
  · intro p rest eq _
    cases eq
    rw [previousHid]
    exact ⟨inv.current, placedBefore⟩

/-- A migration that leaves its host. -/
theorem PlacedInv.move (inv : PlacedInv vm placed) (stays : vm'.stays = vm.stays)
    (state : vm'.state = .active) {p : Placed} {rest : List Placed} (head : placed = p :: rest)
    (kind : p.kind ≠ .deploy) (seq : vm.seq = some p.seq) : PlacedInv vm' placed := by
  obtain ⟨previous, host⟩ := inv.previous p rest head seq
  have previousHid : vm'.previousHid = vm.previousHid := by
    rw [vm'.previousHid_eq, vm.previousHid_eq, stays]
  have kept : PlacedInv { vm' with lcmState := .running } placed :=
    inv.keep stays (by rintro (h | h) <;> cases h)
  refine ⟨kept.current, kept.bounded, kept.sorted, kept.previous, fun _ => ⟨state, ?_, ?_⟩⟩
  · rw [previousHid, previous, head, List.tail_cons]
  · rw [previousHid]
    exact host kind

end Invariant

/-! ## Events -/

/-- The driver fails a migration. -/
def FailsMigration (action : LcmAction) (vm : VirtualMachine) : Prop :=
  action = .saveFailure ∧ vm.lcmState = .saveMigrate ∨
    action = .deployFailure ∧ vm.lcmState = .migrate

instance (action : LcmAction) (vm : VirtualMachine) : Decidable (FailsMigration action vm) :=
  inferInstanceAs (Decidable (_ ∨ _))

/-- What is remembered of an event, when migrations are handled in time. -/
theorem remember_lcm {s : LifeState} {placed : List Placed} {event : LcmEvent}
    {rest : List LcmEvent} (unlocked : s.locked = false) (queue : s.lcmQueue = event :: rest)
    (current : Current s placed .lcm) :
    remember s .lcm placed =
      if FailsMigration event.action s.vm then placed.tail else placed := by
  have head : s.lcmQueue.head?.map LcmEvent.action = some event.action := by
    rw [queue]
    rfl
  have running := current event rest rfl unlocked queue
  simp only [remember, unlocked, Bool.false_eq_true, if_false, head, FailsMigration]
  cases action : event.action with
  | migrate => simp [(running (.inl action)).1]
  | liveMigrate => simp [(running (.inr action)).1]
  | _ => simp

/-- A migration that the driver fails goes back to the placement before it. -/
theorem placed_failure {vm : VirtualMachine} {placed : List Placed} {action : LcmAction}
    (inv : PlacedInv vm placed) (fails : FailsMigration action vm) :
    PlacedInv (LifeCycleManager.handler action vm).vm placed.tail := by
  have given_up : (LifeCycleManager.handler action vm).vm =
      (LifeCycleManager.giveUpMigration vm).vm := by
    rcases fails with ⟨rfl, stage⟩ | ⟨rfl, stage⟩
    · simp only [LifeCycleManager.handler, LifeCycleManager.saveFailureAction, stage]
    · simp only [LifeCycleManager.handler, LifeCycleManager.deployFailureAction, stage]
  have moving : vm.Moving := by
    rcases fails with ⟨-, stage⟩ | ⟨-, stage⟩
    · exact .inl stage
    · exact .inr stage
  obtain ⟨-, previous, some_host⟩ := inv.moving moving
  obtain ⟨hid, host⟩ := Option.ne_none_iff_exists'.mp some_host
  obtain ⟨last, seq, stays⟩ := vm.stays_cpPreviousHistory host
  rw [given_up]
  apply inv.copy (List.tail_suffix placed) seq
  · rcases vm with ⟨_, _, _, _, _, _, _, history, _, _, _⟩
    rcases history with - | ⟨first, - | ⟨before, rest⟩⟩
    · cases host
    · cases host
    · exact stays
  · rw [← previous, host]
  · rintro (h | h) <;> cases h

theorem placed_lcm {s : LifeState} {placed : List Placed} (inv : PlacedInv s.vm placed)
    (current : Current s placed .lcm) :
    PlacedInv (s.next .lcm).vm (remember s .lcm placed) := by
  rcases s.lcm_next with ⟨event, rest, unlocked, queue, eq⟩ | ⟨idle, eq⟩
  · rw [eq, LifeState.apply_vm, remember_lcm unlocked queue current]
    split
    · rename_i fails
      exact placed_failure inv fails
    · rename_i other
      rcases LifeCycleManager.stays_handler s.vm event.action with
        ⟨stays, moving⟩ | ⟨migration, running, stays, state⟩ | ⟨failure, stays, still⟩ |
        ⟨asleep, stays, still⟩
      · exact inv.keep stays moving
      · obtain ⟨-, p, left, head, kind, seq⟩ := current event rest rfl unlocked queue migration
        exact inv.move stays state head kind seq
      · exact absurd failure other
      · cases host : s.vm.hid with
        | none =>
          rw [s.vm.stays_cpHistory_of_none host] at stays
          exact inv.keep stays fun moves => absurd moves still
        | some hid =>
          obtain ⟨last, seq, copied⟩ := s.vm.stays_cpHistory host
          exact inv.copy (List.suffix_refl placed) seq (stays.trans copied)
            (inv.current.symm.trans host) still
  · have same : remember s .lcm placed = placed := by
      rcases idle with locked | empty
      · simp only [remember, locked, if_true]
      · simp only [remember, empty, List.head?_nil, Option.map_none, ite_self]
    rw [eq, same]
    exact inv

/-! ## A VM without a record -/

/-- No event takes the last record away. -/
theorem LifeCycleManager.history_of_handler {vm : VirtualMachine} {action : LcmAction}
    (blank : (handler action vm).vm.history = []) : vm.history = [] := by
  have no_stays : (handler action vm).vm.stays = [] := congrArg (List.map History.stay) blank
  apply List.map_eq_nil_iff.mp
  show vm.stays = []
  rcases stays_handler vm action with
    ⟨stays, -⟩ | ⟨-, -, stays, -⟩ | ⟨-, stays, -⟩ | ⟨-, stays, -⟩ <;> rw [no_stays] at stays
  · exact stays.symm
  · exact stays.symm
  · rcases vm with ⟨_, _, _, _, _, _, _, history, _, _, _⟩
    rcases history with - | ⟨last, - | ⟨before, rest⟩⟩ <;> first | rfl | cases stays
  · rcases vm with ⟨_, _, _, _, _, _, _, history, _, _, _⟩
    cases history <;> first | rfl | cases stays

/-- A VM that was never placed waits for it, or is gone. -/
structure Unplaced (s : LifeState) : Prop where
  lcmState : s.vm.lcmState = .lcmInit
  state : s.vm.state = .pending ∨ s.vm.state = .hold ∨ s.vm.state = .done
  setUp : .setUpDisk ∉ s.pending ∧ .setUpNic ∉ s.pending

/-- No event of the life-cycle manager is for such a VM. -/
theorem LifeCycleManager.handler_unplaced {vm : VirtualMachine} (action : LcmAction)
    (lcmState : vm.lcmState = .lcmInit)
    (state : vm.state = .pending ∨ vm.state = .hold ∨ vm.state = .done) :
    (handler action vm).vm.state = vm.state ∧ (handler action vm).vm.lcmState = .lcmInit := by
  rcases vm with ⟨_, _, _, vmState, vmLcmState, _, _, _, disks, _, _⟩
  cases lcmState
  cases action with
  | saveasHotSuccess | saveasHotFailure =>
    simp only [handler, saveasHotSuccessAction, saveasHotFailureAction, saveasHotEnd,
      VirtualMachine.getSaveasDiskHot]
    cases disks.find? Disk.hotplugSaveAsActive <;> exact ⟨rfl, rfl⟩
  | _ => rcases state with h | h | h <;> cases h <;> exact ⟨rfl, rfl⟩

/-- A quiet step leaves such a VM where it is. -/
theorem Shift.unplaced {vm vm' : VirtualMachine} (shift : Shift vm vm')
    (lcmState : vm.lcmState = .lcmInit)
    (state : vm.state = .pending ∨ vm.state = .hold ∨ vm.state = .done) :
    vm'.lcmState = .lcmInit ∧
      (vm'.state = .pending ∨ vm'.state = .hold ∨ vm'.state = .done) := by
  cases shift with
  | stay state' lcmState' => exact ⟨lcmState'.trans lcmState, state' ▸ state⟩
  | wait before state' lcmState' =>
    exact ⟨lcmState'.elim (fun same => same.trans lcmState) id,
      state'.elim .inl fun hold => .inr (.inl hold)⟩
  | done before state' lcmState' => exact ⟨lcmState', .inr (.inr state')⟩
  | resubmit before =>
    rw [before] at state
    rcases state with h | h | h <;> cases h
  | hotplug running => cases lcmState.symm.trans running.2
  | copy before =>
    rcases before with ⟨h, -⟩ | ⟨h, -⟩ <;> rw [h] at state <;>
      rcases state with h | h | h <;> cases h
  | copied before => cases lcmState.symm.trans before
  | copiedAsleep before =>
    rcases before with ⟨h, -⟩ | ⟨h, -⟩ <;> cases lcmState.symm.trans h
  | found before => cases lcmState.symm.trans before

theorem DmAction.lcmState_of_takes {vm : VirtualMachine} (action : DmAction)
    (takes : action.Takes vm) : vm.lcmState ≠ .lcmInit := by
  intro init
  cases action <;>
    simp only [DmAction.Takes, VirtualMachine.In, init, reduceCtorEq, and_false, or_self] at takes

theorem Placement.history_commit_ne_nil (placement : Placement) (vm : VirtualMachine)
    (stored : Bool) : (placement.commit vm stored).outcome.vm.history ≠ [] := by
  rw [placement.history_commit]
  unfold VirtualMachine.addHistory
  cases vm.history <;> exact List.cons_ne_nil _ _

namespace LifeState

variable (s : LifeState)

theorem mem_pending_comeBack {request request' : PendingRequest} {outcome : Outcome}
    (mem : request ∈ (s.comeBack request' outcome).pending) : request ∈ s.pending := by
  unfold comeBack at mem
  split at mem
  · exact List.mem_of_mem_erase mem
  · exact mem

theorem mem_pending_leave {request request' : PendingRequest} {reply : Reply}
    (mem : request ∈ (s.leave reply request').pending) :
    request ∈ s.pending ∨ request = request' ∧ reply.rc = 0 := by
  unfold leave at mem
  split at mem
  · rename_i taken
    rcases List.mem_append.mp mem with before | new
    · exact .inl before
    · exact .inr ⟨List.mem_singleton.mp new, taken⟩
  · exact .inl mem

/-- A set-up is only left to a VM that was running. -/
theorem setUp_mem_next {l : LifeLabel} {request : PendingRequest}
    (setUp : request = .setUpDisk ∨ request = .setUpNic)
    (mem : request ∈ (s.next l).pending) : request ∈ s.pending ∨ s.vm.In .running := by
  unfold next at mem
  split at mem
  · exact .inl mem
  · cases l with
    | attach =>
      rcases s.mem_pending_leave mem with before | ⟨-, taken⟩
      · exact .inl before
      · unfold DispatchManager.attach at taken
        split at taken
        · rename_i running
          exact .inr running
        · cases taken
    | attachNic =>
      rcases s.mem_pending_leave mem with before | ⟨-, taken⟩
      · exact .inl before
      · unfold DispatchManager.attachNic at taken
        split at taken
        · rename_i running
          exact .inr running
        · cases taken
    | saveDisk diskId hot =>
      simp only [nextUnlocked] at mem
      split at mem
      · exact .inl mem
      · rcases s.mem_pending_leave mem with before | ⟨rfl, -⟩
        · exact .inl before
        · rcases setUp with h | h <;> cases h
    | place placement enforce stored =>
      simp only [nextUnlocked] at mem
      split at mem
      · split at mem
        · exact .inl mem
        · rcases List.mem_append.mp mem with before | new
          · exact .inl before
          · cases List.mem_singleton.mp new
            rcases setUp with h | h <;> cases h
      · exact .inl mem
    | commit | giveUp | setUpDisk | setUpNic | saveDiskImage =>
      exact .inl (s.mem_pending_comeBack mem)
    | lcm | dm | answer | unsent | recover =>
      simp only [nextUnlocked] at mem
      split at mem <;> exact .inl mem
    | request | poll | monitor => exact .inl mem

/-- A VM without a record stays unplaced until it gets one. -/
theorem unplaced_next (l : LifeLabel) (unplaced : s.vm.history = [] → Unplaced s) :
    (s.next l).vm.history = [] → Unplaced (s.next l) := by
  intro blank
  -- a step that leaves the states of an unplaced VM as they may be
  have keep (before : s.vm.history = []) (lcmState : (s.next l).vm.lcmState = .lcmInit)
      (state : (s.next l).vm.state = .pending ∨ (s.next l).vm.state = .hold ∨
        (s.next l).vm.state = .done) : Unplaced (s.next l) := by
    have was := unplaced before
    have stopped : ¬ s.vm.In .running := by
      intro running
      rw [VirtualMachine.In, was.lcmState] at running
      cases running.2
    refine ⟨lcmState, state, fun mem => ?_, fun mem => ?_⟩
    · exact (s.setUp_mem_next (.inl rfl) mem).elim was.setUp.1 stopped
    · exact (s.setUp_mem_next (.inr rfl) mem).elim was.setUp.2 stopped
  -- a step whose label is quiet, of the dispatch manager or of a set-up keeps the history
  cases quiet : l.isQuiet with
  | true =>
    obtain ⟨shift, history⟩ := s.quiet_next quiet
    rw [history] at blank
    have was := unplaced blank
    exact keep blank (shift.unplaced was.lcmState was.state).1
      (shift.unplaced was.lcmState was.state).2
  | false =>
    cases l with
    | lcm =>
      rcases s.lcm_next with ⟨event, rest, unlocked, queue, eq⟩ | ⟨-, eq⟩
      · rw [eq] at blank
        have before := LifeCycleManager.history_of_handler blank
        have was := unplaced before
        have same := LifeCycleManager.handler_unplaced event.action was.lcmState was.state
        rw [← apply_vm { s with lcmQueue := rest } _ none, ← eq] at same
        exact keep before same.2 (same.1 ▸ was.state)
      · rw [eq] at blank ⊢
        exact unplaced blank
    | dm =>
      rcases s.dm_next with ⟨action, rest, unlocked, queue, eq⟩ | ⟨-, eq⟩
      · rcases DispatchManager.handler_cases action s.vm with ⟨takes, after, -⟩ | ⟨-, after, -⟩
        · rw [eq, apply_vm, after] at blank
          have was := unplaced blank
          exact absurd was.lcmState (action.lcmState_of_takes takes)
        · have same : (s.next .dm).vm = s.vm := by rw [eq, apply_vm, after]
          rw [same] at blank
          have was := unplaced blank
          exact keep blank (same ▸ was.lcmState) (same ▸ was.state)
      · rw [eq] at blank ⊢
        exact unplaced blank
    | setUpDisk disk =>
      obtain ⟨history, state, lcmState⟩ := s.setUp_next (.inl ⟨disk, rfl⟩)
      rw [history] at blank
      have was := unplaced blank
      rcases lcmState with same | ⟨-, there⟩
      · exact keep blank (same.trans was.lcmState) (state ▸ was.state)
      · exact (there.elim (fun h => was.setUp.1 h.2) fun h => was.setUp.2 h.2).elim
    | setUpNic nic =>
      obtain ⟨history, state, lcmState⟩ := s.setUp_next (.inr ⟨nic, rfl⟩)
      rw [history] at blank
      have was := unplaced blank
      rcases lcmState with same | ⟨-, there⟩
      · exact keep blank (same.trans was.lcmState) (state ▸ was.state)
      · exact (there.elim (fun h => was.setUp.1 h.2) fun h => was.setUp.2 h.2).elim
    | commit placement stored =>
      rcases s.commit_next placement stored with ⟨-, -, eq⟩ | ⟨-, eq⟩
      · rw [eq] at blank
        exact absurd blank (placement.history_commit_ne_nil s.vm stored)
      · rw [eq] at blank ⊢
        exact unplaced blank
    | place placement enforce stored =>
      rcases s.place_next placement enforce stored with ⟨-, eq⟩ | ⟨-, eq | eq⟩
      · rw [eq] at blank
        exact absurd blank (placement.history_commit_ne_nil s.vm stored)
      · rw [eq] at blank ⊢
        exact unplaced blank
      · have same : (s.next (.place placement enforce stored)).vm = s.vm := by rw [eq]
        rw [same] at blank
        have was := unplaced blank
        exact keep blank (same ▸ was.lcmState) (same ▸ was.state)
    | request | giveUp | attach | attachNic | saveDisk | saveDiskImage | answer | unsent | poll
    | monitor | recover => cases quiet

end LifeState

/-! ## Runs -/

/-- The steps in which placements come back in time, and migrations are handled while their
record is the current one. -/
def Careful (s : LifeState × List Placed) (l : LifeLabel) : Prop :=
  s.1.InTime l ∧ Current s.1 s.2 l

/-- The states of the careful runs, with the placements taken. -/
def CarefullyReached : LifeState × List Placed → Prop :=
  Transition.Reachable (fun s => s.1.Initial ∧ s.2 = [])
    (Transition.Guarded Careful fun s l s' =>
      Transition.withMemory LifeState.next remember s l = s')

section Steps

variable {s : LifeState} {placed : List Placed} {l : LifeLabel}

theorem remember_quiet (quiet : l.isQuiet = true) : remember s l placed = placed := by
  unfold remember
  split
  · rfl
  · cases l with
    | lcm | place | commit => cases quiet
    | _ => rfl

/-- A placement that is taken, with the record it appends. -/
theorem placed_commit {placement : Placement} (inv : PlacedInv s.vm placed)
    (unplaced : s.vm.history = [] → Unplaced s) (takes : placement.Takes s.vm) :
    PlacedInv (placement.commit s.vm true).outcome.vm (placement.placed s.vm :: placed) := by
  have still : ¬ s.vm.Moving := by
    intro moves
    have active := (inv.moving moves).1
    rcases placement with ⟨kind, hid⟩
    cases kind with
    | deploy =>
      rcases takes with h | h <;> cases active.symm.trans h
    | migrate | liveMigrate =>
      rcases moves with h | h <;> cases h.symm.trans takes.2
  rw [Placement.commit_of_takes takes]
  refine @PlacedInv.push s.vm _ placed placement inv rfl ?_ still
  intro kind host
  have running : s.vm.In .running := by
    rcases placement with ⟨kind', hid⟩
    cases kind' with
    | deploy => exact absurd rfl kind
    | migrate | liveMigrate => exact takes
  have blank : s.vm.history = [] := by
    rw [VirtualMachine.hid, Option.map_eq_none_iff] at host
    exact List.head?_eq_none_iff.mp host
  cases (unplaced blank).lcmState.symm.trans running.2

theorem placed_next (inv : PlacedInv s.vm placed) (unplaced : s.vm.history = [] → Unplaced s)
    (careful : Careful (s, placed) l) :
    PlacedInv (s.next l).vm (remember s l placed) := by
  cases quiet : l.isQuiet with
  | true =>
    have shift := s.quiet_next quiet
    rw [remember_quiet quiet]
    exact inv.keep shift.stays (shift.moving fun moves => (inv.moving moves).1)
  | false =>
    cases l with
    | lcm => exact placed_lcm inv careful.2
    | dm =>
      have same : remember s .dm placed = placed := ite_self placed
      rw [same]
      rcases s.dm_next with ⟨action, rest, -, -, eq⟩ | ⟨-, eq⟩
      · rw [eq, LifeState.apply_vm]
        rcases DispatchManager.handler_cases action s.vm with ⟨-, after, -⟩ | ⟨-, after, -⟩
        · rw [after]
          exact inv.keep rfl (by rintro (h | h) <;> cases h)
        · rw [after]
          exact inv
      · rw [eq]
        exact inv
    | setUpDisk disk =>
      have same : remember s (.setUpDisk disk) placed = placed := ite_self placed
      obtain ⟨history, state, lcmState⟩ := s.setUp_next (.inl ⟨disk, rfl⟩)
      rw [same]
      refine inv.keep (congrArg (List.map History.stay) history) fun moves => ⟨?_, state⟩
      rcases lcmState with h | ⟨h, -⟩ <;> rw [VirtualMachine.Moving, h] at moves
      · exact moves
      · rcases moves with h | h <;> cases h
    | setUpNic nic =>
      have same : remember s (.setUpNic nic) placed = placed := ite_self placed
      obtain ⟨history, state, lcmState⟩ := s.setUp_next (.inr ⟨nic, rfl⟩)
      rw [same]
      refine inv.keep (congrArg (List.map History.stay) history) fun moves => ⟨?_, state⟩
      rcases lcmState with h | ⟨h, -⟩ <;> rw [VirtualMachine.Moving, h] at moves
      · exact moves
      · rcases moves with h | h <;> cases h
    | commit placement stored =>
      rcases s.commit_next placement stored with ⟨unlocked, there, eq⟩ | ⟨idle, eq⟩
      · obtain ⟨takes, rfl⟩ := careful.1 unlocked there
        have taken : remember s (.commit placement true) placed =
            placement.placed s.vm :: placed := by
          simp only [remember, unlocked, Bool.false_eq_true, if_false, there, takes, and_self,
            if_true]
        rw [eq, taken]
        exact placed_commit inv unplaced takes
      · have same : remember s (.commit placement stored) placed = placed := by
          rcases idle with h | h
          · simp only [remember, h, if_true]
          · simp only [remember, h, false_and, if_false, ite_self]
        rw [eq, same]
        exact inv
    | place placement enforce stored =>
      rcases s.place_next placement enforce stored with
        ⟨⟨unlocked, takes, kind, now, checked⟩, eq⟩ | ⟨later, eq⟩
      · obtain rfl : stored = true := careful.1 unlocked kind now checked
        have taken : remember s (.place placement enforce true) placed =
            placement.placed s.vm :: placed := by
          simp only [remember, unlocked, Bool.false_eq_true, if_false, kind, now, checked,
            and_self, if_true]
        rw [eq, taken]
        exact placed_commit inv unplaced takes
      · have same : remember s (.place placement enforce stored) placed = placed := by
          unfold remember
          split
          · rfl
          · rename_i unlocked
            exact if_neg fun now =>
              later ⟨Bool.eq_false_iff.mpr unlocked, now.1, now.2.1, now.2.2.1⟩
        rw [same]
        rcases eq with eq | eq <;> rw [eq] <;> exact inv
    | request | giveUp | attach | attachNic | saveDisk | saveDiskImage | answer | unsent | poll
    | monitor | recover => cases quiet

end Steps

/-- What the careful runs keep. -/
structure Kept (s : LifeState × List Placed) : Prop where
  placed : PlacedInv s.1.vm s.2
  unplaced : s.1.vm.history = [] → Unplaced s.1

theorem LifeState.Initial.kept {s : LifeState} (initial : s.Initial) : Kept (s, []) := by
  have blank : s.vm.stays = [] := congrArg (List.map History.stay) initial.history
  refine ⟨⟨?_, ?_, .nil, ?_, ?_⟩, fun _ => ⟨initial.lcmState, ?_, ?_, ?_⟩⟩
  · rw [s.vm.hid_eq, blank]
    rfl
  · intro p mem
    cases mem
  · intro p rest eq
    cases eq
  · intro moves
    rw [VirtualMachine.Moving, initial.lcmState] at moves
    rcases moves with h | h <;> cases h
  · exact initial.state.imp id .inl
  · rw [initial.idle.2.2.2]
    exact List.not_mem_nil
  · rw [initial.idle.2.2.2]
    exact List.not_mem_nil

theorem CarefullyReached.kept {s : LifeState × List Placed} (reached : CarefullyReached s) :
    Kept s := by
  apply Transition.Reachable.invariant _ _ reached
  · intro s start
    obtain ⟨initial, empty⟩ := start
    rcases s with ⟨s, placed⟩
    cases empty
    exact initial.kept
  · intro s l s' kept step
    obtain ⟨careful, taken⟩ := step
    cases taken
    exact ⟨placed_next kept.placed kept.unplaced careful, s.1.unplaced_next l kept.unplaced⟩

/-- In the careful runs the current record of an active VM names the host of the last placement
that was taken and not given up; and a placement that is refused is told so, and leaves the
history alone, exactly when it comes back in time and its record is stored. -/
theorem current_host_of_reached {s : LifeState × List Placed} (reached : CarefullyReached s) :
    (s.1.vm.state = .active → s.1.vm.hid = s.2.head?.map Placed.hid) ∧
      ∀ l, s.1.Honest l ↔ s.1.InTime l :=
  ⟨fun _ => reached.kept.placed.current, honest_iff s.1⟩

/-- A new VM that waits to be placed. -/
def newVm : LifeState where
  vm := { oid := 4, uid := 2, gid := 100, state := .pending, lcmState := .lcmInit }

theorem newVm_initial : newVm.Initial := ⟨.inl rfl, rfl, rfl, ⟨rfl, rfl, rfl, rfl⟩, rfl⟩

theorem current_host_of_reached_deployed :
    ∃ s, CarefullyReached s ∧ s.1.vm.state = .active ∧ s.1.vm.hid = some 7 ∧
      (s.1.vm.state = .active → s.1.vm.hid = s.2.head?.map Placed.hid) := by
  have reached : CarefullyReached
      (Transition.withMemory LifeState.next remember (newVm, [])
        (.place { kind := .deploy, hid := 7 } false true)) := by
    refine .step (.init ⟨newVm_initial, rfl⟩) ⟨⟨?_, ?_⟩, rfl⟩
    · intro _ _ _ _
      rfl
    · intro event rest h
      cases h
  exact ⟨_, reached, by decide, by decide, (current_host_of_reached reached).1⟩

/-- Two deployments tested the VM before either was committed. The second one finds it active:
it is answered with a success, its record is the current one, and the VM is then sent to its
host. -/
theorem late_deploy_appends :
    let s := [LifeLabel.place { kind := .deploy, hid := 7 } true true,
      .place { kind := .deploy, hid := 8 } true true,
      .commit { kind := .deploy, hid := 7 } true].foldl
        (Transition.withMemory LifeState.next remember) (newVm, [])
    let late := LifeLabel.commit { kind := .deploy, hid := 8 } true
    (s.1.response late).map (fun c => (c.dispatched, c.success)) = some (false, true) ∧
      (s.1.next late).vm.history ≠ s.1.vm.history ∧
      ((s.1.next late).next .lcm).vm.state = .active ∧
      ((s.1.next late).next .lcm).vm.hid = some 8 ∧
      (remember s.1 late s.2).map Placed.hid = [7] := by
  decide

end Ezilla
