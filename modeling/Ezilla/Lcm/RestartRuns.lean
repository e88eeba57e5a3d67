import Ezilla.Lcm.HistoryRuns

/-!
# Resuming a VM that was read back

The runs in which a saved VM is resumed, with the database. A VM is read back when it has left
the cache of its pool and when the daemon is started again; `stop_action` and `undeploy_action`
store it before they set the action of its current record.

* `StoredLife.Unbroken`: an unbroken step, or one that reads back the actions of the records as
  they are;
* `resumed_of_reached`: in the runs of such steps a saved VM is resumed;
* `failed_resume_starts_over`: after a failed resume it is not.
-/

namespace Ezilla

namespace StoredLife

/-- What is remembered of a VM does not depend on the database. -/
def rememberSaved (s : StoredLife) (l : StoredLabel) (saved : Option SavedKind) :
    Option SavedKind :=
  match l with
  | .life l _ => Ezilla.rememberSaved s.life l saved
  | .update | .readBack | .restart => saved

/-- Every record is stored with the action it has in memory. -/
def ActionsStored (s : StoredLife) : Prop :=
  s.store.select.map (List.map fun r => r.action) = some (s.life.vm.history.map History.action)

instance (s : StoredLife) : Decidable s.ActionsStored := inferInstanceAs (Decidable (_ = _))

/-- No resume fails and the VM is left alone while it waits; and it is read back only while the
actions of its records are stored. -/
def Unbroken (s : StoredLife × Option SavedKind) : StoredLabel → Prop
  | .life l _ => Ezilla.Unbroken (s.1.life, s.2) l
  | .update => True
  | .readBack | .restart => s.1.ActionsStored

instance (s : StoredLife × Option SavedKind) : (l : StoredLabel) → Decidable (Unbroken s l)
  | .life l _ => inferInstanceAs (Decidable (Ezilla.Unbroken (s.1.life, s.2) l))
  | .update => .isTrue trivial
  | .readBack => inferInstanceAs (Decidable s.1.ActionsStored)
  | .restart => inferInstanceAs (Decidable s.1.ActionsStored)

/-- The states of the unbroken runs, with how the VM was saved. -/
def ReachedUnbroken : StoredLife × Option SavedKind → Prop :=
  Transition.Reachable (fun s => s.1.Initial ∧ s.2 = none)
    (Transition.Guarded Unbroken fun s l s' =>
      Transition.withMemory next rememberSaved s l = s')

variable {s : StoredLife}

/-- Reading a VM back with its actions changes nothing that a resume looks at. -/
theorem select_actions (same : s.life.vm.SameStage s.body) (actions : s.ActionsStored)
    (life : LifeState) :
    (s.select life).life.vm.state = s.life.vm.state ∧
      (s.select life).life.vm.lcmState = s.life.vm.lcmState ∧
      (s.select life).life.vm.history.map History.action =
        s.life.vm.history.map History.action ∧
      (s.select life).life.pending = life.pending := by
  obtain ⟨records, there, eq⟩ := Option.map_eq_some_iff.mp actions
  simp only [select, there]
  refine ⟨same.1, same.2, ?_, trivial⟩
  rw [← eq, List.map_map]
  rfl

/-- A resting VM of a run whose steps come in turn can be read back at any time. -/
theorem ReachedInTurn.actionsStored (reached : s.ReachedInTurn)
    (rests : s.life.vm.state ≠ .active) : s.ActionsStored := by
  have agrees := reached.keptBoth.1.history
  rw [ActionsStored, reached.keptBoth.1.select_whole rests, Option.map_some, ← agrees,
    HistoryStore.history, List.map_map]
  rfl

/-- What the unbroken runs keep. -/
structure ResumeKept (s : StoredLife × Option SavedKind) : Prop where
  body : s.1.life.vm.SameStage s.1.body
  resume : ResumeInv s.1.life.vm s.2
  unplaced : s.1.life.vm.history = [] → Unplaced s.1.life

theorem ResumeKept.select {saved : Option SavedKind} (kept : ResumeKept (s, saved))
    (actions : s.ActionsStored) {life : LifeState} (pending : life.pending ⊆ s.life.pending) :
    ResumeKept (s.select life, saved) := by
  obtain ⟨state, lcmState, actions', pending'⟩ := select_actions kept.body actions life
  refine ⟨?_, kept.resume.congr state lcmState actions' fun _ => id, fun blank => ?_⟩
  · obtain ⟨records, there, -⟩ := Option.map_eq_some_iff.mp actions
    simp only [StoredLife.select, there]
    exact ⟨rfl, rfl⟩
  · have before : s.life.vm.history = [] := by
      rw [blank, List.map_nil, eq_comm, List.map_eq_nil_iff] at actions'
      exact actions'
    have was := kept.unplaced before
    refine ⟨lcmState.trans was.lcmState, ?_, fun there => ?_, fun there => ?_⟩
    · exact state.symm ▸ was.state
    · exact was.setUp.1 (pending (pending' ▸ there))
    · exact was.setUp.2 (pending (pending' ▸ there))

theorem ReachedUnbroken.kept {s : StoredLife × Option SavedKind} (reached : ReachedUnbroken s) :
    ResumeKept s := by
  apply Transition.Reachable.invariant _ _ reached
  · intro s start
    obtain ⟨⟨initial, body, -⟩, empty⟩ := start
    rcases s with ⟨s, saved⟩
    cases empty
    exact ⟨body.symm ▸ .refl _, initial.resumeInv, initial.kept.unplaced⟩
  · intro s l s' kept step
    obtain ⟨unbroken, taken⟩ := step
    cases taken
    cases l with
    | life l now =>
      exact ⟨sameStage_next kept.body _, kept.resume.next kept.unplaced unbroken,
        s.1.life.unplaced_next l kept.unplaced⟩
    | update => exact ⟨sameStage_next kept.body _, kept.resume, kept.unplaced⟩
    | readBack =>
      simp only [Transition.withMemory, StoredLife.next, rememberSaved]
      split
      · exact kept
      · exact kept.select unbroken (List.Subset.refl _)
    | restart => exact kept.select unbroken (List.nil_subset _)

end StoredLife

/-- In the unbroken runs a VM that was stopped or undeployed is resumed when it is deployed
again. -/
theorem resumed_of_reached {s : StoredLife × Option SavedKind}
    (reached : StoredLife.ReachedUnbroken s) (unlocked : s.1.life.locked = false)
    {event : LcmEvent} {rest : List LcmEvent} (queue : s.1.life.lcmQueue = event :: rest)
    (deploy : event.action = .deploy) (active : s.1.life.vm.state = .active) {kind : SavedKind}
    (saved : s.2 = some kind) : (s.1.life.next .lcm).vm.lcmState = kind.resumeStage :=
  reached.kept.resume.resumed unlocked queue deploy active saved

/-- A VM that is deployed and stopped. -/
def stopping : List LifeLabel :=
  [.place { kind := .deploy, hid := 7 } false true, .lcm,
    .answer 0 true "" .unknown, .lcm, .answer 1 true "one-4" .unknown, .lcm,
    .request .stop, .lcm, .answer 2 true "" .unknown, .lcm, .answer 3 true "" .unknown, .lcm, .dm]

/-- A VM that is resumed and deployed again. -/
def redeploying : List LifeLabel :=
  [.request .resume, .place { kind := .deploy, hid := 8 } false true]

theorem resumed_of_reached_redeployed :
    ∃ s, StoredLife.ReachedUnbroken s ∧ s.1.life.vm.state = .active ∧ s.2 = some .stopped ∧
      (s.1.life.next .lcm).vm.lcmState = .prologResume := by
  have reached : StoredLife.ReachedUnbroken
      ((StoredLife.timed stopping ++ .restart :: StoredLife.timed redeploying).foldl
        (Transition.withMemory StoredLife.next StoredLife.rememberSaved)
        (StoredLife.newVm, none)) :=
    Transition.Reachable.foldl _ (.init ⟨StoredLife.newVm_initial, rfl⟩) (by decide +kernel)
  exact ⟨_, reached, by decide +kernel, by decide +kernel,
    @resumed_of_reached _ reached (by decide +kernel) { action := .deploy } []
      (by decide +kernel) rfl (by decide +kernel) .stopped (by decide +kernel)⟩

/-- The transfer of a resume fails and the VM is stopped again. Its record was closed by
nothing, and the next deployment creates the disks of the VM anew. -/
theorem failed_resume_starts_over :
    let s := (StoredLife.timed (stopping ++ redeploying ++
      [.lcm, .answer 4 false "" .unknown, .lcm, .dm] ++ redeploying)).foldl
      (Transition.withMemory StoredLife.next StoredLife.rememberSaved) (StoredLife.newVm, none)
    s.1.life.vm.state = .active ∧ s.2 = some .stopped ∧
      s.1.life.lcmQueue = [{ action := .deploy }] ∧
      (s.1.life.next .lcm).vm.lcmState = .prolog ∧
      (s.1.life.next .lcm).commands.map Prod.snd = [.tm .prolog] := by
  decide +kernel

end Ezilla
