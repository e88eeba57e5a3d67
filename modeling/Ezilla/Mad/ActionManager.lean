import Ezilla.Lib.Transition
import Mathlib.Data.List.Nodup
import Mathlib.Algebra.Order.Ring.Int

/-!
# The action manager of the drivers

A driver reads requests and triggers actions; a listener thread takes them from a queue and
runs each in a thread of its own, or in place, up to a limit. Requests, the listener and the
ends of the action threads are sections of one mutex, and a condition variable wakes the
listener.

* `ManagerState.next`: the sections, and what happens between them;
* `ManagerState.Orderly`: the counter is right, no action is run twice, a cancelled action
  stops, and the listener does not wait for nothing;
* `ManagerState.orderly_of_reached`: the runs in which this is so.
-/

namespace Ezilla

variable {Id Arg Method : Type}

/-- An action as it is registered. -/
structure RegisteredAction (Method : Type) where
  method : Method
  arity : Int
  threaded : Bool

/-- An action as it is queued: the hash that is merged from the registered action, the
arguments and the id. `rest` are the arguments that were converted to one array. -/
structure QueuedAction (Id Arg Method : Type) where
  method : Method
  threaded : Bool
  args : List Arg
  rest : Option (List Arg)
  id : Id
  deriving DecidableEq

/-- The test of `trigger_action` on the number of arguments. -/
def acceptArgs (arity : Int) (aargs : List Arg) : Option (List Arg × Option (List Arg)) :=
  if arity < 0 then
    let arity := (-arity - 1).toNat
    if arity > aargs.length then none else some (aargs.take arity, some (aargs.drop arity))
  else if arity ≠ aargs.length then
    none
  else
    some (aargs, none)

/-- Where the listener is. -/
inductive Listener (Id : Type) where
  /-- about to take the mutex -/
  | entering
  /-- in `wait`, without a signal -/
  | waiting
  /-- signalled, about to take the mutex again -/
  | woken
  /-- running an action in place, with the mutex -/
  | calling (ticket : Nat) (id : Id)
  /-- out of `start_listener` -/
  | returned
  /-- ended by an exception of an action that ran in place -/
  | raised

/-- What does not change: the limit and the registered actions. -/
structure ActionManager (Method : Type) where
  concurrency : Int
  actions : String → Option (RegisteredAction Method)

/-- The variables of a manager. Accepted actions are numbered by `accepted`; `runs` are the
numbers of those that were started, the latest first, and `threads` the action threads that
have not ended, with the id of their action. -/
structure ManagerState (Id Arg Method : Type) where
  finalize : Bool
  numRunning : Int
  actionQueue : List (Nat × QueuedAction Id Arg Method)
  actionRunning : Id → Option Nat
  threads : List (Nat × Id)
  listener : Listener Id
  accepted : Nat
  runs : List Nat

/-- The steps: a request, a section of the listener, or an end of an action. -/
inductive ManagerLabel (Id Arg : Type) where
  | trigger (aname : String) (id : Id) (aargs : List Arg)
  /-- by an action thread, or by another thread -/
  | cancel (caller : Option Nat) (id : Id)
  | listen
  /-- the action that the listener runs in place ends -/
  | called
  | callRaises
  /-- the method of an action thread ends, and its last lines are executed -/
  | ends (ticket : Nat)
  | raises (ticket : Nat)

namespace ManagerState

variable [DecidableEq Id] [DecidableEq Arg] [DecidableEq Method] (m : ActionManager Method)
  (s : ManagerState Id Arg Method)

/-- `@threads_cond.signal`. -/
def signal : ManagerState Id Arg Method :=
  match s.listener with
  | .waiting => { s with listener := .woken }
  | _ => s

/-- No section is being executed. -/
def mutexFree : Bool :=
  match s.listener with
  | .calling _ _ => false
  | _ => true

/-- `ActionManager#trigger_action`. -/
def triggerAction (aname : String) (id : Id) (aargs : List Arg) : ManagerState Id Arg Method :=
  if s.finalize then
    s
  else if aname = "FINALIZE" then
    if s.numRunning = 0 then { s with finalize := true }.signal else { s with finalize := true }
  else
    match m.actions aname with
    | none => s
    | some action =>
      match acceptArgs action.arity aargs with
      | none => s
      | some (args, rest) =>
        let s' := { s with
          actionQueue := s.actionQueue ++
            [(s.accepted, ⟨action.method, action.threaded, args, rest, id⟩)]
          accepted := s.accepted + 1 }
        if s.numRunning < m.concurrency then s'.signal else s'

/-- `ActionManager#cancel_action`. A thread that kills itself does not get further. -/
def cancelAction (caller : Option Nat) (id : Id) : ManagerState Id Arg Method :=
  match s.actionRunning id with
  | some thread =>
    let killed := { s with threads := s.threads.filter fun t => t.1 ≠ thread }
    if caller = some thread then
      killed
    else
      { killed with
        numRunning := s.numRunning - 1
        actionRunning := Function.update s.actionRunning id none }.signal
  | none =>
    match s.actionQueue.find? fun x => x.2.id = id with
    | none => s
    | some i => { s with actionQueue := s.actionQueue.filter fun x => x.2 ≠ i.2 }

/-- `ActionManager#run_action`. -/
def runAction : ManagerState Id Arg Method :=
  match s.actionQueue with
  | [] => { s with listener := .entering }
  | (ticket, action) :: rest =>
    let s' := { s with
      actionQueue := rest
      numRunning := s.numRunning + 1
      runs := ticket :: s.runs }
    if action.threaded then
      { s' with
        threads := (ticket, action.id) :: s.threads
        actionRunning := Function.update s.actionRunning action.id (some ticket)
        listener := .entering }
    else
      { s' with listener := .calling ticket action.id }

/-- The listener must wait: there is no slot, or nothing to run. -/
def mustWait : Bool := m.concurrency - s.numRunning = 0 || s.actionQueue.isEmpty

/-- The section of `ActionManager#start_listener` from the test of its inner loop on. -/
def listenFrom : ManagerState Id Arg Method :=
  if s.mustWait m then { s with listener := .waiting } else s.runAction

/-- The end of an action thread: its last lines. -/
def endThread (ticket : Nat) (id : Id) : ManagerState Id Arg Method :=
  { s with
    threads := s.threads.filter fun t => t.1 ≠ ticket
    numRunning := s.numRunning - 1
    actionRunning := Function.update s.actionRunning id none }.signal

/-- One step, where it is possible. -/
def next : ManagerLabel Id Arg → Option (ManagerState Id Arg Method)
  | .trigger aname id aargs => if s.mutexFree then some (s.triggerAction m aname id aargs) else none
  | .cancel caller id =>
    if s.mutexFree ∧ ∀ ticket ∈ caller, ticket ∈ s.threads.map Prod.fst then
      some (s.cancelAction caller id)
    else
      none
  | .listen =>
    match s.listener with
    | .entering => some (s.listenFrom m)
    | .woken =>
      if s.finalize ∧ s.numRunning = 0 then some { s with listener := .returned }
      else some (s.listenFrom m)
    | _ => none
  | .called =>
    match s.listener with
    | .calling _ _ => some { s with numRunning := s.numRunning - 1, listener := .entering }
    | _ => none
  | .callRaises =>
    match s.listener with
    | .calling _ _ => some { s with listener := .raised }
    | _ => none
  | .ends ticket =>
    match s.threads.find? fun t => t.1 = ticket with
    | some (_, id) => if s.mutexFree then some (s.endThread ticket id) else none
    | none => none
  | .raises ticket =>
    if ticket ∈ s.threads.map Prod.fst then
      some { s with threads := s.threads.filter fun t => t.1 ≠ ticket }
    else
      none

/-- A manager before `start_listener`. -/
def Initial : Prop :=
  s = ⟨false, 0, [], fun _ => none, [], .entering, 0, []⟩

/-! ## The laws of the manager -/

/-- The actions that are being executed. -/
def executing : Nat :=
  match s.listener with
  | .calling _ _ => s.threads.length + 1
  | _ => s.threads.length

/-- An action with the id is running in a thread. -/
def Runs (id : Id) : Prop := ∃ t ∈ s.threads, t.2 = id

instance (id : Id) : Decidable (s.Runs id) := inferInstanceAs (Decidable (∃ t ∈ s.threads, _))

/-- What the manager keeps to. -/
structure Orderly : Prop where
  counted : s.numRunning = s.executing
  limited : s.numRunning ≤ m.concurrency
  /-- No accepted action is run twice. -/
  once : s.runs.Nodup
  /-- A cancel stops the running action of the id, or takes the first queued one away. -/
  cancels : ∀ caller id s', s.next m (.cancel caller id) = some s' →
    s'.threads = s.threads.filter (fun t => t.2 ≠ id) ∧
      s'.actionQueue =
        if s.Runs id then s.actionQueue else s.actionQueue.eraseP fun x => x.2.id = id
  /-- The listener does not wait without a signal for what has happened already. -/
  awake : ¬ (s.listener = .waiting ∧ s.executing = 0 ∧
    (s.finalize ∨ s.actionQueue ≠ [] ∧ s.numRunning < m.concurrency))

/-- The steps that keep the manager orderly. -/
def Meets : ManagerLabel Id Arg → Prop
  | .trigger aname id aargs =>
    s.finalize = false → aname ≠ "FINALIZE" →
      ∀ action args rest, m.actions aname = some action →
      acceptArgs action.arity aargs = some (args, rest) →
      (⟨action.method, action.threaded, args, rest, id⟩ : QueuedAction Id Arg Method) ∉
        s.actionQueue.map Prod.snd
  | .cancel caller id => ∀ ticket, caller = some ticket → (ticket, id) ∉ s.threads
  | .listen =>
    if s.mustWait m then s.listener = .entering → s.finalize → s.numRunning ≠ 0
    else ∀ x ∈ s.actionQueue.head?, x.2.threaded → ¬ s.Runs x.2.id
  | .called => True
  | .callRaises => False
  | .ends _ => True
  | .raises _ => False

/-! ## What every section keeps -/

/-- The counters and the tables agree. -/
structure Sound : Prop where
  counted : s.numRunning = s.executing
  limited : s.numRunning ≤ m.concurrency
  once : (s.runs ++ s.actionQueue.map Prod.fst).Nodup
  numbered : ∀ ticket ∈ s.runs ++ s.actionQueue.map Prod.fst, ticket < s.accepted
  started : ∀ t ∈ s.threads, t.1 ∈ s.runs
  apart : (s.threads.map Prod.fst).Nodup
  table : ∀ id ticket, s.actionRunning id = some ticket ↔ (ticket, id) ∈ s.threads
  unequal : (s.actionQueue.map Prod.snd).Nodup

/-- A listener that waits without a signal has nothing to do. -/
def Waits : Prop :=
  s.listener = .waiting →
    (s.finalize → 0 < s.numRunning) ∧ (s.actionQueue ≠ [] → m.concurrency ≤ s.numRunning)

end ManagerState

namespace ManagerState

variable {m : ActionManager Method} {s : ManagerState Id Arg Method}

theorem signal_cases : s.signal = s ∧ s.listener ≠ .waiting ∨
    s.signal = { s with listener := .woken } ∧ s.listener = .waiting := by
  unfold signal
  cases is : s.listener with
  | waiting => exact Or.inr ⟨rfl, rfl⟩
  | _ => exact Or.inl ⟨rfl, nofun⟩

theorem Sound.signal (sound : s.Sound m) : s.signal.Sound m := by
  rcases signal_cases (s := s) with ⟨same, -⟩ | ⟨woken, waiting⟩
  · rw [same]
    exact sound
  · rw [woken]
    have counted := sound.counted
    rw [executing, waiting] at counted
    exact { sound with counted := counted }

theorem waits_signal : s.signal.Waits m := by
  intro waiting
  rcases signal_cases (s := s) with ⟨same, not⟩ | ⟨woken, -⟩
  · rw [same] at waiting
    exact absurd waiting not
  · rw [woken] at waiting
    cases waiting

theorem executing_of_free (free : s.mutexFree = true) : s.executing = s.threads.length := by
  unfold mutexFree at free
  unfold executing
  split
  · rename_i calling
    rw [calling] at free
    cases free
  · rfl

theorem waits_triggerAction {aname : String} {id : Id} {aargs : List Arg} (sound : s.Sound m)
    (waits : s.Waits m) : (s.triggerAction m aname id aargs).Waits m := by
  unfold ManagerState.triggerAction
  split
  · exact waits
  · rename_i going
    split
    · split
      · exact waits_signal
      · rename_i busy
        intro waiting
        refine ⟨fun _ => ?_, (waits waiting).2⟩
        have counted := sound.counted
        show 0 < s.numRunning
        omega
    · split
      · exact waits
      · split
        · exact waits
        · split
          · exact waits_signal
          · rename_i full
            intro waiting
            exact ⟨(waits waiting).1, fun _ => Int.not_lt.mp full⟩

theorem Sound.triggerAction {aname : String} {id : Id} {aargs : List Arg} (sound : s.Sound m)
    (meets : s.Meets m (.trigger aname id aargs)) : (s.triggerAction m aname id aargs).Sound m := by
  unfold ManagerState.triggerAction
  split
  · exact sound
  · rename_i going
    split
    · split
      · exact Sound.signal { sound with }
      · exact { sound with }
    · rename_i other
      split
      · exact sound
      · rename_i action registered
        split
        · exact sound
        · rename_i args rest accepted
          have fresh := meets (Bool.eq_false_iff.mpr going) other action args rest registered accepted
          have queued : Sound m { s with
              actionQueue := s.actionQueue ++
                [(s.accepted, ⟨action.method, action.threaded, args, rest, id⟩)]
              accepted := s.accepted + 1 } := by
            refine { sound with once := ?_, numbered := ?_, unequal := ?_ }
            · rw [List.map_append, ← List.append_assoc]
              refine List.nodup_append.mpr ⟨sound.once, List.nodup_singleton _, ?_⟩
              intro ticket old new there
              obtain rfl := List.mem_singleton.mp there
              exact Nat.ne_of_lt (sound.numbered ticket old)
            · intro ticket member
              rw [List.map_append, ← List.append_assoc] at member
              rcases List.mem_append.mp member with old | new
              · exact Nat.lt_succ_of_lt (sound.numbered ticket old)
              · obtain rfl := List.mem_singleton.mp new
                exact Nat.lt_succ_self _
            · rw [List.map_append]
              refine List.nodup_append.mpr ⟨sound.unequal, List.nodup_singleton _, ?_⟩
              intro x old y new same
              obtain rfl := List.mem_singleton.mp new
              subst same
              exact fresh old
          split
          · exact queued.signal
          · exact queued

theorem length_filter_ticket {threads : List (Nat × Id)} {ticket : Nat}
    (apart : (threads.map Prod.fst).Nodup) (member : ticket ∈ threads.map Prod.fst) :
    (threads.filter fun t => t.1 ≠ ticket).length + 1 = threads.length := by
  have one : threads.countP (fun t => t.1 = ticket) = 1 := by
    have counted := List.count_eq_one_of_mem apart member
    rw [List.count, List.countP_map] at counted
    rw [← counted]
    exact List.countP_congr fun t _ => by simp
  have whole := List.length_eq_countP_add_countP (fun t : Nat × Id => t.1 = ticket) (l := threads)
  rw [← List.countP_eq_length_filter, whole, one, Nat.add_comm]
  congr 1
  exact List.countP_congr fun t _ => by simp

variable [DecidableEq Id]

/-- The listener starts an action, or waits. -/
theorem Sound.listenFrom (sound : s.Sound m) (free : s.mutexFree = true)
    (meets : s.mustWait m = false → ∀ x ∈ s.actionQueue.head?, x.2.threaded → ¬ s.Runs x.2.id) :
    (s.listenFrom m).Sound m := by
  have counted := sound.counted
  rw [executing_of_free free] at counted
  have limited := sound.limited
  unfold ManagerState.listenFrom
  split
  · exact { sound with counted := counted }
  · rename_i going
    have going := Bool.eq_false_iff.mpr going
    have slot : s.numRunning < m.concurrency := by
      simp only [mustWait, Bool.or_eq_false_iff, decide_eq_false_iff_not] at going
      omega
    unfold ManagerState.runAction
    split
    · exact { sound with counted := counted }
    · rename_i ticket action rest is
      have once := sound.once
      have numbered := sound.numbered
      have unequal := sound.unequal
      rw [is] at once numbered unequal
      have moved : (s.runs ++ ticket :: rest.map Prod.fst).Perm
          (ticket :: s.runs ++ rest.map Prod.fst) := List.perm_middle
      have once' := moved.nodup once
      have numbered' : ∀ t ∈ ticket :: s.runs ++ rest.map Prod.fst, t < s.accepted :=
        fun t member => numbered t (moved.mem_iff.mpr member)
      split
      · rename_i threaded
        have alone := meets going (ticket, action) (by rw [is]; rfl) threaded
        have unrun : ticket ∉ s.runs := fun old =>
          (List.nodup_cons.mp once').1 (List.mem_append_left _ old)
        refine ⟨?_, ?_, once', numbered', ?_, ?_, ?_, (List.nodup_cons.mp unequal).2⟩
        · show s.numRunning + 1 = ((s.threads.length + 1 : Nat) : Int)
          omega
        · exact slot
        · intro t member
          rcases List.mem_cons.mp member with rfl | old
          · exact List.mem_cons_self
          · exact List.mem_cons_of_mem _ (sound.started t old)
        · refine List.nodup_cons.mpr ⟨fun old => ?_, sound.apart⟩
          obtain ⟨t, there, same⟩ := List.mem_map.mp old
          have ran := sound.started t there
          rw [same] at ran
          exact unrun ran
        · intro id' ticket'
          show Function.update s.actionRunning action.id (some ticket) id' = some ticket' ↔ _
          rw [List.mem_cons]
          by_cases same : id' = action.id
          · subst same
            rw [Function.update_self, Option.some.injEq]
            constructor
            · rintro rfl
              exact Or.inl rfl
            · rintro (new | old)
              · exact (congrArg Prod.fst new).symm
              · exact absurd ⟨_, old, rfl⟩ alone
          · rw [Function.update_of_ne same, sound.table]
            constructor
            · exact Or.inr
            · rintro (new | old)
              · exact absurd (congrArg Prod.snd new) same
              · exact old
      · refine ⟨?_, slot, once', numbered', fun t member => ?_, sound.apart, sound.table,
          (List.nodup_cons.mp unequal).2⟩
        · show s.numRunning + 1 = ((s.threads.length + 1 : Nat) : Int)
          omega
        · exact List.mem_cons_of_mem _ (sound.started t member)

/-- The listener goes to wait for an action or a slot, or for the end of an action. -/
theorem waits_listenFrom (sound : s.Sound m)
    (stays : s.mustWait m → s.finalize → s.numRunning ≠ 0) : (s.listenFrom m).Waits m := by
  unfold ManagerState.listenFrom
  split
  · rename_i must
    intro _
    constructor
    · intro final
      have counted := sound.counted
      have busy := stays must final
      show 0 < s.numRunning
      omega
    · intro queued
      simp only [mustWait, Bool.or_eq_true, decide_eq_true_eq, List.isEmpty_iff] at must
      have slots := must.resolve_right queued
      show m.concurrency ≤ s.numRunning
      omega
  · unfold ManagerState.runAction
    split
    · exact nofun
    · split
      · exact nofun
      · exact nofun

/-- A thread is found by its number as by its id. -/
theorem Sound.filter_eq {ticket : Nat} {id : Id} (sound : s.Sound m)
    (runs : (ticket, id) ∈ s.threads) :
    s.threads.filter (fun t => t.1 ≠ ticket) = s.threads.filter fun t => t.2 ≠ id := by
  refine List.filter_congr fun t member => ?_
  have same : t.1 = ticket ↔ t.2 = id := by
    constructor
    · intro first
      exact congrArg Prod.snd (List.inj_on_of_nodup_map sound.apart member runs first)
    · intro second
      have one := (sound.table t.2 t.1).mpr member
      have other := (sound.table id ticket).mpr runs
      rw [second, other] at one
      exact (Option.some.inj one).symm
  simp only [ne_eq, same]

/-- An action thread ends, or is killed by another thread. -/
theorem Sound.endThread {ticket : Nat} {id : Id} (sound : s.Sound m) (free : s.mutexFree = true)
    (runs : (ticket, id) ∈ s.threads) : (s.endThread ticket id).Sound m := by
  refine Sound.signal ?_
  have member : ticket ∈ s.threads.map Prod.fst := List.mem_map_of_mem runs
  have fewer := length_filter_ticket sound.apart member
  have counted := sound.counted
  rw [executing_of_free free] at counted
  have limited := sound.limited
  refine { sound with counted := ?_, limited := ?_, started := ?_, apart := ?_, table := ?_ }
  · rw [executing_of_free (by exact free)]
    show s.numRunning - 1 = ((s.threads.filter fun t => t.1 ≠ ticket).length : Int)
    omega
  · show s.numRunning - 1 ≤ m.concurrency
    omega
  · exact fun t kept => sound.started t (List.mem_of_mem_filter kept)
  · exact (List.filter_sublist.map Prod.fst).nodup sound.apart
  · intro id' ticket'
    show Function.update s.actionRunning id none id' = some ticket' ↔ _ ∈ s.threads.filter _
    rw [sound.filter_eq runs, List.mem_filter, ← sound.table]
    by_cases same : id' = id
    · subst same
      simp
    · simp [same]

/-! ## Every section -/

section Sections

variable [DecidableEq Arg] [DecidableEq Method] {s' : ManagerState Id Arg Method}

/-- Where there is no killing, the tables say which actions are queued and which run. -/
theorem Sound.cancelAction {caller : Option Nat} {id : Id} (sound : s.Sound m)
    (free : s.mutexFree = true) (meets : ∀ ticket, caller = some ticket → (ticket, id) ∉ s.threads) :
    (s.cancelAction caller id).Sound m := by
  unfold ManagerState.cancelAction
  split
  · rename_i thread is
    have runs := (sound.table id thread).mp is
    rw [if_neg fun self => meets thread self runs]
    exact sound.endThread free runs
  · split
    · exact sound
    · have kept {β : Type} (f : Nat × QueuedAction Id Arg Method → β) (p) :=
        (List.filter_sublist (p := p) (l := s.actionQueue)).map f
      refine { sound with once := ?_, numbered := ?_, unequal := ?_ }
      · exact ((kept Prod.fst _).append_left s.runs).nodup sound.once
      · exact fun ticket member =>
          sound.numbered ticket (((kept Prod.fst _).append_left s.runs).subset member)
      · exact (kept Prod.snd _).nodup sound.unequal

theorem waits_cancelAction {caller : Option Nat} {id : Id} (sound : s.Sound m) (waits : s.Waits m)
    (meets : ∀ ticket, caller = some ticket → (ticket, id) ∉ s.threads) :
    (s.cancelAction caller id).Waits m := by
  unfold ManagerState.cancelAction
  split
  · rename_i thread is
    rw [if_neg fun self => meets thread self ((sound.table id thread).mp is)]
    exact waits_signal
  · split
    · exact waits
    · intro waiting
      refine ⟨(waits waiting).1, fun left => (waits waiting).2 fun none => left ?_⟩
      show s.actionQueue.filter _ = []
      rw [none, List.filter_nil]

theorem Sound.next {l : ManagerLabel Id Arg} (sound : s.Sound m) (meets : s.Meets m l)
    (taken : s.next m l = some s') : s'.Sound m := by
  cases l with
  | trigger aname id aargs =>
    simp only [ManagerState.next] at taken
    split at taken
    · cases taken
      exact sound.triggerAction meets
    · cases taken
  | cancel caller id =>
    simp only [ManagerState.next] at taken
    split at taken
    · rename_i can
      cases taken
      exact sound.cancelAction can.1 meets
    · cases taken
  | listen =>
    have idle : s.mutexFree = true → s.mustWait m = false →
        ∀ x ∈ s.actionQueue.head?, x.2.threaded → ¬ s.Runs x.2.id := by
      intro _ going
      simp only [Meets, going, Bool.false_eq_true, if_false] at meets
      exact meets
    simp only [ManagerState.next] at taken
    split at taken
    · rename_i is
      have free : s.mutexFree = true := by rw [mutexFree, is]
      cases taken
      exact sound.listenFrom free (idle free)
    · rename_i is
      have free : s.mutexFree = true := by rw [mutexFree, is]
      split at taken
      · cases taken
        have counted := sound.counted
        rw [executing_of_free free] at counted
        exact { sound with counted := counted }
      · cases taken
        exact sound.listenFrom free (idle free)
    · cases taken
  | called =>
    simp only [ManagerState.next] at taken
    split at taken
    · rename_i ticket id is
      cases taken
      have counted := sound.counted
      have limited := sound.limited
      have more : s.executing = s.threads.length + 1 := by
        unfold executing
        rw [is]
      rw [more] at counted
      refine { sound with counted := ?_, limited := ?_ }
      · show s.numRunning - 1 = (s.threads.length : Int)
        omega
      · show s.numRunning - 1 ≤ m.concurrency
        omega
    · cases taken
  | callRaises => exact meets.elim
  | ends ticket =>
    simp only [ManagerState.next] at taken
    split at taken
    · rename_i thread id found
      split at taken
      · rename_i free
        cases taken
        have same : thread = ticket := by simpa using List.find?_some found
        have runs := List.mem_of_find?_eq_some found
        subst same
        exact sound.endThread free runs
      · cases taken
    · cases taken
  | raises ticket => exact meets.elim

theorem Waits.next {l : ManagerLabel Id Arg} (waits : s.Waits m) (sound : s.Sound m)
    (meets : s.Meets m l) (taken : s.next m l = some s') : s'.Waits m := by
  cases l with
  | trigger aname id aargs =>
    simp only [ManagerState.next] at taken
    split at taken
    · cases taken
      exact waits_triggerAction sound waits
    · cases taken
  | cancel caller id =>
    simp only [ManagerState.next] at taken
    split at taken
    · cases taken
      exact waits_cancelAction sound waits meets
    · cases taken
  | listen =>
    simp only [ManagerState.next] at taken
    split at taken
    · rename_i entering
      cases taken
      refine waits_listenFrom sound fun must => ?_
      simp only [Meets, must, if_true] at meets
      exact meets entering
    · split at taken
      · cases taken
        exact nofun
      · rename_i going
        cases taken
        exact waits_listenFrom sound fun _ final none => going ⟨final, none⟩
    · cases taken
  | called =>
    simp only [ManagerState.next] at taken
    split at taken
    · cases taken
      exact nofun
    · cases taken
  | callRaises => exact meets.elim
  | ends ticket =>
    simp only [ManagerState.next] at taken
    split at taken
    · split at taken
      · cases taken
        exact waits_signal
      · cases taken
    · cases taken
  | raises ticket => exact meets.elim

theorem filter_ne_first {queue : List (Nat × QueuedAction Id Arg Method)}
    {i : Nat × QueuedAction Id Arg Method} {id : Id} (unequal : (queue.map Prod.snd).Nodup)
    (found : queue.find? (fun x => x.2.id = id) = some i) :
    queue.filter (fun x => x.2 ≠ i.2) = queue.eraseP fun x => x.2.id = id := by
  induction queue with
  | nil => cases found
  | cons x queue ih =>
    obtain ⟨fresh, rest⟩ := List.nodup_cons.mp unequal
    by_cases first : x.2.id = id
    · rw [List.find?_cons_of_pos (by simpa using first)] at found
      cases found
      rw [List.eraseP_cons_of_pos (by simpa using first), List.filter_cons_of_neg (by simp)]
      refine List.filter_eq_self.mpr fun y member => ?_
      have other : y.2 ≠ i.2 := fun same => fresh (same ▸ List.mem_map_of_mem member)
      simpa using other
    · rw [List.find?_cons_of_neg (by simpa using first)] at found
      have other : x.2 ≠ i.2 := fun same =>
        fresh (same ▸ List.mem_map_of_mem (List.mem_of_find?_eq_some found))
      rw [List.eraseP_cons_of_neg (by simpa using first),
        List.filter_cons_of_pos (by simpa using other), ih rest found]

/-- A cancel does what it should in a state whose tables agree. -/
theorem Sound.cancels {caller : Option Nat} {id : Id} (sound : s.Sound m) :
    (s.cancelAction caller id).threads = s.threads.filter (fun t => t.2 ≠ id) ∧
      (s.cancelAction caller id).actionQueue =
        if s.Runs id then s.actionQueue else s.actionQueue.eraseP fun x => x.2.id = id := by
  unfold ManagerState.cancelAction
  split
  · rename_i thread is
    have runs := (sound.table id thread).mp is
    have running : s.Runs id := ⟨_, runs, rfl⟩
    rw [if_pos running, ← sound.filter_eq runs]
    split
    · exact ⟨rfl, rfl⟩
    · rcases signal_cases (s := { s with
          threads := s.threads.filter fun t => t.1 ≠ thread
          numRunning := s.numRunning - 1
          actionRunning := Function.update s.actionRunning id none }) with ⟨same, -⟩ | ⟨same, -⟩
      · rw [same]
        exact ⟨rfl, rfl⟩
      · rw [same]
        exact ⟨rfl, rfl⟩
  · rename_i is
    have idle : ¬ s.Runs id := by
      rintro ⟨⟨ticket, _⟩, member, rfl⟩
      rw [(sound.table _ ticket).mpr member] at is
      cases is
    have all : s.threads.filter (fun t => t.2 ≠ id) = s.threads :=
      List.filter_eq_self.mpr fun t member => by simpa using fun same => idle ⟨t, member, same⟩
    rw [if_neg idle, all]
    split
    · rename_i missing
      refine ⟨rfl, (List.eraseP_of_forall_not fun x member => ?_).symm⟩
      simpa using List.find?_eq_none.mp missing x member
    · rename_i i found
      exact ⟨rfl, filter_ne_first sound.unequal found⟩

/-- In every run whose steps meet `Meets`, under a limit that is not negative, the manager is
orderly in every state. -/
theorem orderly_of_reached (nonneg : 0 ≤ m.concurrency)
    (reached : Transition.Reachable Initial
      (Transition.Guarded (fun s l => s.Meets m l) fun s l s' => s.next m l = some s') s) :
    s.Orderly m := by
  have kept : ∀ (s : ManagerState Id Arg Method) l s', s.Sound m ∧ s.Waits m →
      Transition.Guarded (fun s l => s.Meets m l) (fun s l s' => s.next m l = some s') s l s' →
      s'.Sound m ∧ s'.Waits m := fun s l s' ⟨sound, waits⟩ ⟨meets, taken⟩ =>
    ⟨sound.next meets taken, waits.next sound meets taken⟩
  have started : ∀ s : ManagerState Id Arg Method, Initial s → s.Sound m ∧ s.Waits m := by
    rintro s rfl
    refine ⟨⟨rfl, nonneg, List.nodup_nil, nofun, nofun, List.nodup_nil, fun _ _ => ?_,
      List.nodup_nil⟩, nofun⟩
    exact iff_of_false nofun List.not_mem_nil
  have inv := Transition.Reachable.invariant started kept reached
  obtain ⟨sound, waits⟩ := inv
  refine ⟨sound.counted, sound.limited, (List.nodup_append.mp sound.once).1, ?_, ?_⟩
  · intro caller id s' taken
    simp only [ManagerState.next] at taken
    split at taken
    · cases taken
      exact sound.cancels
    · cases taken
  · rintro ⟨waiting, none, final | ⟨queued, slot⟩⟩
    · have busy := (waits waiting).1 final
      have counted := sound.counted
      omega
    · have full := (waits waiting).2 queued
      omega

end Sections

/-! ## Runs of a driver -/

/-- A driver with one slot. -/
def initDriver : ActionManager String where
  concurrency := 1
  actions aname := if aname = "INIT" then some ⟨"init", 0, true⟩ else none

def emptyManager : ManagerState Nat String String :=
  ⟨false, 0, [], fun _ => none, [], .entering, 0, []⟩

/-- While `INIT` runs the manager is orderly. -/
theorem orderly_of_reached_init :
    0 ≤ initDriver.concurrency ∧
      ∃ s, (emptyManager.next initDriver (.trigger "INIT" 0 [])).bind
        (fun s => s.next initDriver .listen) = some s ∧ s.Orderly initDriver := by
  refine ⟨by decide, _, rfl, orderly_of_reached (by decide) ?_⟩
  refine .step (l := .listen) (.step (l := .trigger "INIT" 0 []) (.init rfl) ⟨?_, rfl⟩) ⟨?_, rfl⟩
  · exact fun _ _ _ _ _ _ _ => List.not_mem_nil
  · rintro x - - ⟨t, runs, -⟩
    cases runs

/-- A driver that is stopped before its listener waits for the first time is never woken. -/
theorem finalize_before_wait :
    ¬ ∀ (m : ActionManager String) (s : ManagerState Nat String String), 0 ≤ m.concurrency →
        Transition.Reachable Initial (fun s l s' => s.next m l = some s') s → s.Orderly m := by
  intro always
  have stopped := always initDriver
    { emptyManager with finalize := true, listener := .waiting } (by decide)
    (.step (l := .listen) (.step (l := .trigger "FINALIZE" 0 []) (.init rfl) rfl) rfl)
  exact stopped.awake ⟨rfl, rfl, Or.inl rfl⟩

end ManagerState

end Ezilla
