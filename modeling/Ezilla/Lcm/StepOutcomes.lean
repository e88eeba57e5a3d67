import Ezilla.Lcm.LifeCycleSteps

/-!
# The outcome behind a step

Every step of a VM that is not locked takes something out of the queues or the commands and
then does what one outcome says.

* `LifeState.take`: what is taken out;
* `LifeState.Source`: the outcomes a label can have;
* `LifeState.next_source`: the step.
-/

namespace Ezilla

namespace LifeState

variable (s : LifeState)

/-- What a step takes out of the queues and the commands. -/
def take : LifeLabel → LifeState
  | .lcm => { s with lcmQueue := s.lcmQueue.tail }
  | .dm => { s with dmQueue := s.dmQueue.tail }
  | .answer serial _ _ _ | .unsent serial => s.forget serial
  | _ => s

/-- The outcome of a step, with the serial number of the command that was answered. -/
inductive Source : LifeLabel → Outcome → Option Nat → Prop where
  | idle (l : LifeLabel) (taken : s.take l = s) : Source l { vm := s.vm } none
  | request (request : VmRequest) : Source (.request request) (request.run s.vm).outcome none
  | place (placement : Placement) (enforce stored : Bool) (takes : placement.Takes s.vm) :
      Source (.place placement enforce stored) (placement.commit s.vm stored).outcome none
  | commit (placement : Placement) (stored : Bool) (there : .place placement ∈ s.pending) :
      Source (.commit placement stored) (placement.commit s.vm stored).outcome none
  | attach : Source .attach (DispatchManager.attach s.vm).outcome none
  | setUpDisk (disk : Option Disk) (there : .setUpDisk ∈ s.pending) :
      Source (.setUpDisk disk) (DispatchManager.attachSetUp s.vm disk).outcome none
  | attachNic : Source .attachNic (DispatchManager.attachNic s.vm).outcome none
  | setUpNic (nic : Option Nic) (there : .setUpNic ∈ s.pending) :
      Source (.setUpNic nic) (DispatchManager.attachNicSetUp s.vm nic).outcome none
  | saveDisk (diskId : Nat) (hot : Bool) (vm : VirtualMachine)
      (marked : s.vm.setSaveasState diskId hot = some vm) :
      Source (.saveDisk diskId hot) { vm } none
  | saveDiskImage (diskId : Nat) (hot : Bool) (image : Option (Nat × String)) :
      Source (.saveDiskImage diskId hot image) (saveDiskImage s.vm diskId hot image) none
  | lcm (event : LcmEvent) (head : s.lcmQueue.head? = some event) :
      Source .lcm (LifeCycleManager.handler event.action s.vm) none
  | dm (action : DmAction) (head : s.dmQueue.head? = some action) :
      Source .dm (DispatchManager.handler action s.vm) none
  | answer (serial : Nat) (success : Bool) (info : String) (state : PollState)
      (command : Command) (sent : s.command? serial = some command) :
      Source (.answer serial success info state) (command.answer s.vm success info state)
        (some serial)
  | unsent (serial : Nat) (command : Command) (sent : s.command? serial = some command) :
      Source (.unsent serial)
        { vm := s.vm, effects := (command.failure?.map Effect.lcm).toList } (some serial)
  | poll (success : Bool) (state : PollState) :
      Source (.poll success state)
        (VirtualMachineManagerDriver.protocol s.vm (.poll state) success "") none
  | monitor (state : Option PollState) :
      Source (.monitor state) (InformationManagerDriver.monitor s.vm state) none
  | recover (success : Bool) : Source (.recover success) (LifeCycleManager.recover s.vm success) none

variable {s}

theorem mem_of_command? {n : Nat} {command : Command} (sent : s.command? n = some command) :
    (n, command) ∈ s.commands := by
  unfold command? at sent
  obtain ⟨entry, first, rfl⟩ := Option.map_eq_some_iff.mp sent
  have number := List.find?_some first
  rw [decide_eq_true_eq] at number
  subst number
  exact List.mem_of_find?_eq_some first

theorem forget_of_command?_eq_none {serial : Nat} (missing : s.command? serial = none) :
    s.forget serial = s := by
  have absent : s.commands.filter (fun entry => decide (entry.1 ≠ serial)) = s.commands := by
    rw [List.filter_eq_self]
    intro entry mem
    rw [decide_eq_true_eq]
    rintro rfl
    rw [command?, Option.map_eq_none_iff, List.find?_eq_none] at missing
    exact missing entry mem (decide_eq_true rfl)
  unfold forget
  rw [absent]

/-- A step that does nothing. -/
theorem idle_apply (unlocked : s.locked = false) : s.apply { vm := s.vm } none = s := by
  rcases s with ⟨vm, lcmQueue, dmQueue, commands, nextSerial, pending, locked⟩
  cases unlocked
  simp [apply]

/-- A step does what an outcome says, to what it has left; only the pending requests also
change. -/
theorem next_source (unlocked : s.locked = false) (l : LifeLabel) :
    ∃ outcome serial, s.Source l outcome serial ∧
      { s.next l with pending := s.pending } = (s.take l).apply outcome serial := by
  have idle (taken : s.take l = s) (same : { s.next l with pending := s.pending } = s) :
      ∃ outcome serial, s.Source l outcome serial ∧
        { s.next l with pending := s.pending } = (s.take l).apply outcome serial := by
    refine ⟨_, _, .idle l taken, ?_⟩
    rw [taken, same, idle_apply unlocked]
  have leave (reply : Reply) (request : PendingRequest) (taken : s.take l = s)
      (source : s.Source l reply.outcome none)
      (eq : s.next l = s.leave reply request) :
      ∃ outcome serial, s.Source l outcome serial ∧
        { s.next l with pending := s.pending } = (s.take l).apply outcome serial := by
    unfold LifeState.leave at eq
    split at eq
    · refine ⟨_, _, source, ?_⟩
      rw [eq, taken]
      rfl
    · exact idle taken (by rw [eq])
  have comeBack (request : PendingRequest) (outcome : Outcome) (taken : s.take l = s)
      (source : request ∈ s.pending → s.Source l outcome none)
      (eq : s.next l = s.comeBack request outcome) :
      ∃ outcome serial, s.Source l outcome serial ∧
        { s.next l with pending := s.pending } = (s.take l).apply outcome serial := by
    unfold LifeState.comeBack at eq
    split at eq
    · rename_i there
      refine ⟨_, _, source there, ?_⟩
      rw [eq, taken]
      rfl
    · exact idle taken (by rw [eq])
  have unfolded : s.next l = s.nextUnlocked l := if_neg (by rw [unlocked]; exact Bool.false_ne_true)
  cases l with
  | request request => exact ⟨_, _, .request request, by rw [unfolded]; rfl⟩
  | place placement enforce stored =>
    rcases s.place_next placement enforce stored with ⟨⟨-, takes, -⟩, eq⟩ | ⟨-, eq | eq⟩
    · exact ⟨_, _, .place placement enforce stored takes, by rw [eq]; rfl⟩
    · exact idle rfl (by rw [eq])
    · exact idle rfl (by rw [eq])
  | commit placement stored => exact comeBack _ _ rfl (.commit placement stored) unfolded
  | giveUp placement => exact comeBack _ _ rfl (fun _ => .idle _ rfl) unfolded
  | attach => exact leave _ _ rfl .attach unfolded
  | setUpDisk disk => exact comeBack _ _ rfl (.setUpDisk disk) unfolded
  | attachNic => exact leave _ _ rfl .attachNic unfolded
  | setUpNic nic => exact comeBack _ _ rfl (.setUpNic nic) unfolded
  | saveDisk diskId hot =>
    simp only [nextUnlocked] at unfolded
    split at unfolded
    · exact idle rfl (by rw [unfolded])
    · rename_i vm marked
      exact leave _ _ rfl (.saveDisk diskId hot vm marked) unfolded
  | saveDiskImage diskId hot image =>
    exact comeBack _ _ rfl (fun _ => .saveDiskImage diskId hot image) unfolded
  | lcm =>
    rcases s.lcm_next with ⟨event, rest, -, queue, eq⟩ | ⟨locked | empty, eq⟩
    · refine ⟨_, _, .lcm event (by rw [queue]; rfl), ?_⟩
      rw [eq, take, queue]
      rfl
    · cases unlocked.symm.trans locked
    · refine idle ?_ (by rw [eq])
      rw [take, empty, List.tail_nil, ← empty]
  | dm =>
    rcases s.dm_next with ⟨action, rest, -, queue, eq⟩ | ⟨locked | empty, eq⟩
    · refine ⟨_, _, .dm action (by rw [queue]; rfl), ?_⟩
      rw [eq, take, queue]
      rfl
    · cases unlocked.symm.trans locked
    · refine idle ?_ (by rw [eq])
      rw [take, empty, List.tail_nil, ← empty]
  | answer serial success info state =>
    simp only [nextUnlocked] at unfolded
    split at unfolded
    · rename_i missing
      exact idle (forget_of_command?_eq_none missing) (by rw [unfolded])
    · rename_i command sent
      exact ⟨_, _, .answer serial success info state command sent, by rw [unfolded]; rfl⟩
  | unsent serial =>
    simp only [nextUnlocked] at unfolded
    split at unfolded
    · rename_i missing
      exact idle (forget_of_command?_eq_none missing) (by rw [unfolded])
    · rename_i command sent
      exact ⟨_, _, .unsent serial command sent, by rw [unfolded]; rfl⟩
  | poll success state => exact ⟨_, _, .poll success state, by rw [unfolded]; rfl⟩
  | monitor state => exact ⟨_, _, .monitor state, by rw [unfolded]; rfl⟩
  | recover success =>
    simp only [nextUnlocked] at unfolded
    split at unfolded
    · exact ⟨_, _, .recover success, by rw [unfolded]; rfl⟩
    · exact idle rfl (by rw [unfolded])

/-! ## What is left -/

theorem commands_take (l : LifeLabel) : (s.take l).commands ⊆ s.commands := by
  cases l with
  | answer | unsent => exact List.filter_sublist.subset
  | _ => exact List.Subset.refl _

theorem lcmQueue_take (l : LifeLabel) : (s.take l).lcmQueue ⊆ s.lcmQueue := by
  cases l with
  | lcm => exact (List.tail_sublist _).subset
  | _ => exact List.Subset.refl _

@[simp] theorem nextSerial_take (l : LifeLabel) : (s.take l).nextSerial = s.nextSerial := by
  cases l <;> rfl

/-- A step with what is left of it: its outcome, and the commands, events and numbers after it. -/
theorem next_cases (unlocked : s.locked = false) (l : LifeLabel) :
    ∃ outcome serial, s.Source l outcome serial ∧ (s.next l).vm = outcome.vm ∧
      (s.next l).commands = ((s.take l).apply outcome serial).commands ∧
      (s.next l).lcmQueue = ((s.take l).apply outcome serial).lcmQueue ∧
      (s.next l).nextSerial =
        s.nextSerial + (outcome.effects.filterMap Effect.command?).length := by
  obtain ⟨outcome, serial, source, eq⟩ := next_source unlocked l
  have vm := congrArg LifeState.vm eq
  have commands := congrArg LifeState.commands eq
  have queue := congrArg LifeState.lcmQueue eq
  have number := congrArg LifeState.nextSerial eq
  refine ⟨outcome, serial, source, vm, commands, queue, ?_⟩
  simpa only [apply, nextSerial_take] using number

/-! ## Numbers of commands -/

/-- The commands after a step. -/
theorem mem_commands_apply {entry : Nat × Command} {outcome : Outcome} {serial : Option Nat}
    (mem : entry ∈ (s.apply outcome serial).commands) :
    entry ∈ s.commands ∨
      (s.nextSerial ≤ entry.1 ∧ entry.1 < (s.apply outcome serial).nextSerial) ∧
        entry.2 ∈ outcome.effects.filterMap Effect.command? := by
  rcases List.mem_append.mp mem with before | new
  · exact .inl before
  · obtain ⟨swapped, numbered, rfl⟩ := List.mem_map.mp new
    exact .inr ⟨⟨List.le_snd_of_mem_zipIdx numbered, List.snd_lt_add_of_mem_zipIdx numbered⟩,
      List.fst_mem_of_mem_zipIdx numbered⟩

/-- The events after a step. -/
theorem mem_lcmQueue_apply {event : LcmEvent} {outcome : Outcome} {serial : Option Nat}
    (mem : event ∈ (s.apply outcome serial).lcmQueue) :
    event ∈ s.lcmQueue ∨
      event.serial = serial ∧ event.action ∈ outcome.effects.filterMap Effect.lcm? := by
  rcases List.mem_append.mp mem with before | new
  · exact .inl before
  · obtain ⟨action, sent, rfl⟩ := List.mem_map.mp new
    exact .inr ⟨rfl, sent⟩

variable (s) in
/-- The commands know no number that is not used yet. -/
def Numbered : Prop := ∀ entry ∈ s.commands, entry.1 < s.nextSerial

theorem Numbered.take (numbered : s.Numbered) (l : LifeLabel) : (s.take l).Numbered := by
  intro entry mem
  rw [nextSerial_take]
  exact numbered entry (commands_take l mem)

theorem Numbered.apply (numbered : s.Numbered) (outcome : Outcome) (serial : Option Nat) :
    (s.apply outcome serial).Numbered := by
  intro entry mem
  rcases mem_commands_apply mem with before | ⟨⟨-, below⟩, -⟩
  · exact Nat.lt_of_lt_of_le (numbered entry before) (Nat.le_add_right _ _)
  · exact below

theorem Numbered.next (numbered : s.Numbered) (l : LifeLabel) : (s.next l).Numbered := by
  rcases Bool.eq_false_or_eq_true s.locked with locked | unlocked
  · have stuck : s.next l = s := if_pos locked
    exact stuck.symm ▸ numbered
  · obtain ⟨outcome, serial, -, eq⟩ := next_source unlocked l
    have after := (numbered.take l).apply outcome serial
    rw [← eq] at after
    exact after

/-- A command that is not answered is still waited for. -/
theorem command?_forget {n k : Nat} (other : n ≠ k) : (s.forget k).command? n = s.command? n := by
  unfold command? forget
  rw [List.find?_filter]
  congr 2
  funext entry
  by_cases same : entry.1 = n <;> simp [same, other]

theorem command?_apply {n : Nat} {command : Command} (sent : s.command? n = some command)
    (outcome : Outcome) (serial : Option Nat) :
    (s.apply outcome serial).command? n = some command := by
  unfold command? at sent ⊢
  obtain ⟨entry, first, rfl⟩ := Option.map_eq_some_iff.mp sent
  rw [apply, List.find?_append, first]
  rfl

/-- The number of a new command. -/
theorem command?_apply_new (numbered : s.Numbered) {outcome : Outcome} {serial : Option Nat}
    {command : Command} (commands : outcome.effects.filterMap Effect.command? = [command]) :
    (s.apply outcome serial).command? s.nextSerial = some command := by
  have unused : s.commands.find? (fun entry => entry.1 = s.nextSerial) = none := by
    rw [List.find?_eq_none]
    intro entry mem same
    rw [decide_eq_true_eq] at same
    exact Nat.lt_irrefl _ (same ▸ numbered entry mem)
  unfold command?
  rw [apply, List.find?_append, unused, commands]
  simp

end LifeState

end Ezilla
