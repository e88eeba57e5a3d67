import Ezilla.Vm.RestrictedAttributes
import Ezilla.Lib.Transition

/-!
# Updates of a user template and the scheduling cycle

The user template of a VM is replaced as a whole, by its users and by the scheduler. A
cycle of the scheduler reads the VMs with scheduled actions, asks the daemon for every
action that is due, marks it in its copy of the template and writes the copy back. It
then reads the pending VMs and writes a copy back with a message where no host was found.

* `Template.replaceTemplate`: what an update leaves, for a user and for oneadmin;
* `Machine`: a VM in the daemon and the scheduler's copy of its template;
* `State.next`: a step of a user, of the cycle, or of an answer to it;
* `Machine.Lawful`: the updates of users stay and every scheduled action is sent once;
* `Meets`: the steps after which that is so.
-/

namespace Ezilla

namespace Template

/-- `VirtualMachine::replace_template`: `none` where the restricted attributes are read or
deleted twice. -/
def replaceTemplate (old tmpl : Template) (keepRestricted : Bool)
    (restricted : List RestrictedEntry) : Option Template :=
  if keepRestricted then do
    let allowed ← tmpl.removeRestricted restricted
    let kept ← old.removeAllExceptRestricted restricted
    some (allowed.merge kept)
  else
    some tmpl

/-- `VirtualMachineXML::get_actions`, which takes the scheduled actions out of the template. -/
def getActions (tmpl : Template) : List Attribute × Template :=
  (tmpl.get "SCHED_ACTION", tmpl.filter fun a => a.name ≠ "SCHED_ACTION")

end Template

namespace TemplateUpdates

/-! ## Scheduled actions -/

/-- `VirtualMachineXML::parse_action_name`: whether the name in lower case is supported. -/
def parseActionName (action : String) : Bool :=
  action.toLower ∈ ["shutdown", "shutdown-hard", "undeploy", "undeploy-hard", "hold", "release",
    "stop", "suspend", "resume", "boot", "delete", "delete-recreate", "reboot", "reboot-hard",
    "poweroff", "poweroff-hard", "snapshot-create"]

/-- What the daemon's answer to a call looks like from the scheduler. -/
inductive Reply where
  | success
  | failure (message : String)
  | exception

/-- The request for one action: whether it succeeded, and `error_msg` after it, which an
exception leaves as it was. -/
def callAction (action errorMsg : String) (reply : Reply) : Bool × String :=
  if parseActionName action then
    match reply with
    | .success => (true, errorMsg)
    | .failure message => (false, message)
    | .exception => (false, errorMsg)
  else
    (false, "This action is not supported.")

/-- `has_time == 0 && has_done == -1 && action_time < the_time`. -/
def due (theTime : Int) (action : List (String × String)) : Bool :=
  match Attribute.vectorInt action "TIME" with
  | some time => Attribute.vectorInt action "DONE" = none ∧ time < theTime
  | none => false

/-- `static_cast<int>` of a time. -/
def intTime (t : Int) : Int := t.bmod (2 ^ 32)

/-- The action after its request. -/
def marked (theTime : Int) (timeStr : String) (call : Bool × String)
    (action : List (String × String)) : List (String × String) :=
  if call.1 then
    Attribute.replace (action.filter fun v => v.1 ≠ "MESSAGE") "DONE" (toString (intTime theTime))
  else
    Attribute.replace action "MESSAGE" (timeStr ++ " : " ++ call.2)

/-- What tells scheduled actions apart: their values without the marks of the scheduler. -/
def actionKey (action : List (String × String)) : List (String × String) :=
  action.filter fun v => v.1 ≠ "MESSAGE" ∧ v.1 ≠ "DONE"

/-- How many scheduled actions of one key wait in a template. -/
def pending (tmpl : Template) (key : List (String × String)) : Nat :=
  (tmpl.vectors "SCHED_ACTION").countP fun action =>
    Attribute.vectorInt action "DONE" = none ∧ actionKey action = key

/-! ## A VM and the scheduler's copies -/

/-- What surrounds the two programs: how a template arrives that the daemon sent to the
scheduler, how one arrives that the scheduler sent back, and the text of a time. -/
structure Wire where
  pull : Template → Template
  push : Template → Template
  logTime : Int → String
  restricted : List RestrictedEntry

/-- A copy of a user template: as it was read, the number of the user's update that it stems
from, and as the scheduler changed it. -/
structure Copy where
  read : Template
  source : Nat
  tmpl : Template

/-- `VirtualMachineXML::log` of the last message of `match`, at its time. -/
def Copy.log (w : Wire) (message : Option (Int × String)) (copy : Copy) : Copy :=
  match message with
  | some (time, text) =>
    { copy with tmpl := copy.tmpl.replace "SCHED_MESSAGE" (w.logTime time ++ " : " ++ text) }
  | none => copy

/-- What the scheduler does with a VM. -/
inductive Task where
  | none
  /-- In the loop of `do_scheduled_actions`, with the attributes to come and whether an
  action was sent since the copy was read. -/
  | acting (copy : Copy) (attributes : List Attribute) (sent : Bool)
  /-- In `match`. -/
  | matching (copy : Copy)

/-- A VM: its user template with the update it stems from, all updates that were answered
with success to a user, the scheduler's task, and the actions sent with success, each with
the update it was scheduled in. -/
structure Machine where
  template : Template
  source : Nat
  updates : List Template
  task : Task
  sent : List (Nat × List (String × String))

structure State where
  machines : Nat → Machine
  theTime : Int
  errorMsg : String

inductive Label where
  /-- A user's update of a VM. -/
  | update (oid : Nat) (keepRestricted : Bool) (tmpl : Template)
  /-- `do_scheduled_actions` begins. -/
  | start (theTime : Int)
  /-- The VM is read with the scheduled actions of the pool. -/
  | readActions (oid : Nat)
  /-- One turn of the loop over the attributes, with the daemon's reply where it asks. -/
  | act (oid : Nat) (reply : Reply)
  /-- The copy with the marks is written back. -/
  | writeActions (oid : Nat) (success : Bool)
  /-- The VM is read with the pending VMs. -/
  | readPending (oid : Nat)
  /-- A host was found for it. -/
  | matched (oid : Nat)
  /-- The copy is written back with the message logged last, and its time. -/
  | writeMessage (oid : Nat) (message : Option (Int × String)) (success : Bool)

namespace Machine

variable (w : Wire) (m : Machine)

/-- The update of a user. -/
def update (keepRestricted : Bool) (tmpl : Template) : Option Machine :=
  (m.template.replaceTemplate tmpl keepRestricted w.restricted).map fun left =>
    { m with
      template := left
      source := m.updates.length
      updates := m.updates ++ [left] }

/-- A copy for the scheduler. -/
def copy : Copy :=
  ⟨w.pull m.template, m.source, w.pull m.template⟩

def readActions : Option Machine :=
  match m.task with
  | .none =>
    let (attributes, rest) := (m.copy w).tmpl.getActions
    some { m with task := .acting { m.copy w with tmpl := rest } attributes false }
  | _ => none

/-- The turn of the loop: an attribute with a single value is dropped. -/
def act (theTime : Int) (errorMsg : String) (reply : Reply) : Option (Machine × String) :=
  match m.task with
  | .acting copy (.single _ _ :: attributes) sent =>
    some ({ m with task := .acting copy attributes sent }, errorMsg)
  | .acting copy (.vector name action :: attributes) sent =>
    if due theTime action then
      let call := callAction (Attribute.vectorValue action "ACTION") errorMsg reply
      let action' := marked theTime (w.logTime theTime) call action
      some
        ({ m with
           task := .acting { copy with tmpl := copy.tmpl ++ [.vector name action'] } attributes
             (sent || call.1)
           sent := if call.1 then (copy.source, actionKey action) :: m.sent else m.sent },
         call.2)
    else
      some
        ({ m with
           task := .acting { copy with tmpl := copy.tmpl ++ [.vector name action] } attributes sent },
         errorMsg)
  | _ => none

/-- `VirtualMachinePoolXML::update`, as oneadmin. The scheduler does not look at its result. -/
def write (copy : Copy) (success : Bool) : Option Machine :=
  if success then
    (m.template.replaceTemplate (w.push copy.tmpl) false w.restricted).map fun left =>
      { m with template := left, source := copy.source, task := .none }
  else
    some { m with task := .none }

def writeActions (success : Bool) : Option Machine :=
  match m.task with
  | .acting copy [] _ => m.write w copy success
  | _ => none

def readPending : Option Machine :=
  match m.task with
  | .none => some { m with task := .matching (m.copy w) }
  | _ => none

def matched : Option Machine :=
  match m.task with
  | .matching _ => some { m with task := .none }
  | _ => none

def writeMessage (message : Option (Int × String)) (success : Bool) : Option Machine :=
  match m.task with
  | .matching copy => m.write w (copy.log w message) success
  | _ => none

end Machine

namespace State

variable (w : Wire) (s : State)

def setMachine (oid : Nat) (m : Machine) : State :=
  { s with machines := Function.update s.machines oid m }

/-- One step of a user or of the scheduler; `none` where it cannot be taken. -/
def next : Label → Option State
  | .update oid keepRestricted tmpl =>
    ((s.machines oid).update w keepRestricted tmpl).map (s.setMachine oid)
  | .start theTime => some { s with theTime := theTime, errorMsg := "" }
  | .readActions oid => ((s.machines oid).readActions w).map (s.setMachine oid)
  | .act oid reply =>
    ((s.machines oid).act w s.theTime s.errorMsg reply).map fun (m, errorMsg) =>
      { s.setMachine oid m with errorMsg := errorMsg }
  | .writeActions oid success => ((s.machines oid).writeActions w success).map (s.setMachine oid)
  | .readPending oid => ((s.machines oid).readPending w).map (s.setMachine oid)
  | .matched oid => (s.machines oid).matched.map (s.setMachine oid)
  | .writeMessage oid message success =>
    ((s.machines oid).writeMessage w message success).map (s.setMachine oid)

end State

/-- The VMs as they were created, which counts as their first update. -/
def Started (s : State) : Prop :=
  ∀ oid, (s.machines oid).updates = [(s.machines oid).template] ∧ (s.machines oid).source = 0 ∧
    (s.machines oid).task = .none ∧ (s.machines oid).sent = []

def Step (w : Wire) (s : State) (l : Label) (s' : State) : Prop :=
  s.next w l = some s'

/-! ## What users can rely on -/

/-- Two templates with the same attributes of every name. -/
def Same (tmpl tmpl' : Template) : Prop :=
  ∀ name, tmpl.get name = tmpl'.get name

/-- Two templates that differ at most in the attributes the scheduler sets. -/
def SameButSched (tmpl tmpl' : Template) : Prop :=
  ∀ name, name ≠ "SCHED_MESSAGE" → name ≠ "SCHED_ACTION" → tmpl.get name = tmpl'.get name

namespace Machine

variable (m : Machine)

/-- How many actions of one key an update scheduled. -/
def scheduled (n : Nat) (key : List (String × String)) : Nat :=
  pending (m.updates[n]?.getD []) key

structure Lawful : Prop where
  /-- The last update of a user is there, but for the attributes the scheduler sets. -/
  kept : SameButSched m.template (m.updates.getLast?.getD [])
  /-- An action is sent with success at most as often as an update scheduled it. -/
  once : ∀ n key, m.sent.count (n, key) ≤ m.scheduled n key

/-- The condition on a write: the copy arrives as it is, and no update since it was read
changed what the scheduler does not set. -/
def WriteMeets (w : Wire) (copy : Copy) : Prop :=
  Same (w.push copy.tmpl) copy.tmpl ∧ SameButSched m.template copy.read

/-- The condition on the write of the marks: after an action was sent it is not refused,
unless a user's update replaced the template since. -/
def WriteActionsMeets (w : Wire) (success : Bool) : Prop :=
  match m.task with
  | .acting copy _ sent =>
    if success then m.WriteMeets w copy else sent = true → m.source ≠ copy.source
  | _ => True

def WriteMessageMeets (w : Wire) (message : Option (Int × String)) (success : Bool) : Prop :=
  match m.task with
  | .matching copy => success = true → m.WriteMeets w (copy.log w message)
  | _ => True

end Machine

/-- The condition on a step: templates arrive as they are, a write undoes no update of a
user, and the marks of the actions that were sent are written. -/
def Meets (w : Wire) (s : State) : Label → Prop
  | .readActions oid | .readPending oid =>
    Same (w.pull (s.machines oid).template) (s.machines oid).template
  | .writeActions oid success => (s.machines oid).WriteActionsMeets w success
  | .writeMessage oid message success => (s.machines oid).WriteMessageMeets w message success
  | _ => True

/-! ## Attributes by name -/

variable {tmpl tmpl' : Template} {name name' : String}

theorem get_append : Template.get (tmpl ++ tmpl') name = tmpl.get name ++ tmpl'.get name :=
  List.filter_append tmpl tmpl'

theorem get_without_ne (other : name' ≠ name) :
    Template.get (tmpl.filter fun a => a.name ≠ name) name' = tmpl.get name' := by
  unfold Template.get
  rw [List.filter_filter]
  refine List.filter_congr fun a _ => ?_
  by_cases named : a.name = name'
  · simp [named, other]
  · simp [named]

theorem get_without_self : Template.get (tmpl.filter fun a => a.name ≠ name) name = [] := by
  unfold Template.get
  rw [List.filter_filter]
  exact List.filter_eq_nil_iff.mpr fun a _ => by simp

theorem get_get : Template.get (tmpl.get name) name = tmpl.get name := by
  unfold Template.get
  rw [List.filter_filter]
  simp only [Bool.and_self]

theorem get_eq_nil (named : ∀ a ∈ tmpl, a.name = name) (other : name' ≠ name) :
    tmpl.get name' = [] :=
  List.filter_eq_nil_iff.mpr fun a member => by
    rw [named a member]
    simpa using Ne.symm other

theorem Same.symm (same : Same tmpl tmpl') : Same tmpl' tmpl :=
  fun name => (same name).symm

theorem Same.butSched (same : Same tmpl tmpl') : SameButSched tmpl tmpl' :=
  fun name _ _ => same name

theorem SameButSched.refl (tmpl : Template) : SameButSched tmpl tmpl :=
  fun _ _ _ => rfl

theorem SameButSched.symm (same : SameButSched tmpl tmpl') : SameButSched tmpl' tmpl :=
  fun name message action => (same name message action).symm

theorem SameButSched.trans {tmpl'' : Template} (first : SameButSched tmpl tmpl')
    (second : SameButSched tmpl' tmpl'') : SameButSched tmpl tmpl'' :=
  fun name message action => (first name message action).trans (second name message action)

/-- A scheduled action that is put into a template changes no other attribute. -/
theorem SameButSched.push {read : Template} (same : SameButSched tmpl read) (a : Attribute)
    (named : a.name = "SCHED_ACTION") : SameButSched (tmpl ++ [a]) read := by
  intro name message action
  have none : Template.get [a] name = [] := by
    refine get_eq_nil (fun b member => ?_) action
    rw [List.mem_singleton.mp member]
    exact named
  rw [get_append, none, List.append_nil]
  exact same name message action

theorem get_replace_ne {value : String} (other : name' ≠ name) :
    (tmpl.replace name value).get name' = tmpl.get name' := by
  have none : Template.get [.single name value] name' = [] := by
    refine get_eq_nil (fun b member => ?_) other
    rw [List.mem_singleton.mp member]
    rfl
  unfold Template.replace
  rw [get_append, none, List.append_nil]
  exact get_without_ne other

/-! ## Pending actions -/

variable {key : List (String × String)}

theorem pending_congr (same : tmpl.get "SCHED_ACTION" = tmpl'.get "SCHED_ACTION") :
    pending tmpl key = pending tmpl' key := by
  unfold pending Template.vectors
  rw [same]

theorem pending_append : pending (tmpl ++ tmpl') key = pending tmpl key + pending tmpl' key := by
  unfold pending Template.vectors
  rw [get_append, List.filterMap_append, List.countP_append]

theorem pending_cons (a : Attribute) : pending (a :: tmpl) key = pending [a] key + pending tmpl key :=
  @pending_append [a] tmpl key

theorem pending_nil : pending [] key = 0 := rfl

theorem pending_single {value : String} : pending [.single name value] key = 0 := by
  unfold pending Template.vectors Template.get
  by_cases named : name = "SCHED_ACTION" <;> simp [Attribute.name, named]

theorem pending_vector {action : List (String × String)} :
    pending [.vector "SCHED_ACTION" action] key =
      if Attribute.vectorInt action "DONE" = none ∧ actionKey action = key then 1 else 0 := by
  unfold pending Template.vectors Template.get
  simp [Attribute.name, List.countP_cons]

theorem getActions_pending :
    pending (tmpl.getActions.2 ++ tmpl.getActions.1) key = pending tmpl key := by
  refine pending_congr ?_
  unfold Template.getActions
  rw [get_append, get_without_self, get_get, List.nil_append]

/-! ### Marks -/

variable {action : List (String × String)} {theTime : Int} {timeStr errorMsg : String}

/-- The marks are not part of what tells actions apart. -/
theorem actionKey_replace {value : String} (mark : name = "MESSAGE" ∨ name = "DONE") :
    actionKey (Attribute.replace action name value) = actionKey action := by
  unfold actionKey Attribute.replace
  rw [List.filter_cons_of_neg (by rcases mark with rfl | rfl <;> simp), List.filter_filter]
  refine List.filter_congr fun v _ => ?_
  rcases mark with rfl | rfl <;> by_cases done : v.1 = "DONE" <;>
    by_cases message : v.1 = "MESSAGE" <;> simp [done, message]

theorem actionKey_filter :
    actionKey (action.filter fun v => v.1 ≠ "MESSAGE") = actionKey action := by
  unfold actionKey
  rw [List.filter_filter]
  refine List.filter_congr fun v _ => ?_
  by_cases message : v.1 = "MESSAGE" <;> simp [message]

theorem actionKey_marked (call : Bool × String) :
    actionKey (marked theTime timeStr call action) = actionKey action := by
  unfold marked
  split
  · rw [actionKey_replace (Or.inr rfl), actionKey_filter]
  · exact actionKey_replace (Or.inl rfl)

/-- The time that marks an action as done is read back. -/
theorem vectorInt_marked_success (message : String) :
    Attribute.vectorInt (marked theTime timeStr (true, message) action) "DONE" =
      some (intTime theTime) := by
  have lower : -2 ^ 31 ≤ intTime theTime := Int.le_bmod (by decide)
  have upper : intTime theTime < 2 ^ 31 := Int.bmod_lt (by decide)
  unfold Attribute.vectorInt marked
  rw [if_pos rfl, Attribute.vectorValue_replace, if_neg (toString_int_ne_empty _)]
  exact parseInt_toString_int lower upper

theorem vectorInt_marked_failure (message : String) :
    Attribute.vectorInt (marked theTime timeStr (false, message) action) "DONE" =
      Attribute.vectorInt action "DONE" := by
  unfold Attribute.vectorInt marked
  rw [if_neg Bool.false_ne_true, Attribute.vectorValue_replace_ne (by decide)]

theorem due_pending (isDue : due theTime action = true) :
    Attribute.vectorInt action "DONE" = none := by
  unfold due at isDue
  split at isDue
  · exact (of_decide_eq_true isDue).1
  · cases isDue

/-- After its request an action waits unless the request succeeded. -/
theorem pending_marked (call : Bool × String) (isDue : due theTime action = true) :
    pending [.vector "SCHED_ACTION" (marked theTime timeStr call action)] key +
        (if call.1 = true ∧ actionKey action = key then 1 else 0) =
      pending [.vector "SCHED_ACTION" action] key := by
  obtain ⟨success, message⟩ := call
  rw [pending_vector, pending_vector, actionKey_marked, due_pending isDue]
  cases success with
  | true =>
    rw [vectorInt_marked_success]
    simp
  | false =>
    rw [vectorInt_marked_failure, due_pending isDue]
    simp

namespace Machine

/-! ## What a VM keeps -/

section Sound

variable (m : Machine)

/-- The actions of an update that were sent and those that wait in a template are not more
than it scheduled. -/
def Bound (n : Nat) (tmpl : Template) : Prop :=
  ∀ key, m.sent.count (n, key) + pending tmpl key ≤ m.scheduled n key

/-- What is known of a copy with the attributes that are to be put back. -/
structure CopySound (copy : Copy) (attributes : List Attribute) : Prop where
  bound : m.Bound copy.source (copy.tmpl ++ attributes)
  same : SameButSched copy.tmpl copy.read
  actions : ∀ a ∈ attributes, a.name = "SCHED_ACTION"

/-- The daemon's own template lags behind only where an action was sent that the write is
to mark. -/
def TaskSound : Task → Prop
  | .none => m.Bound m.source m.template
  | .acting copy attributes sent =>
    m.CopySound copy attributes ∧
      (sent = false ∨ m.source ≠ copy.source → m.Bound m.source m.template)
  | .matching copy => m.CopySound copy [] ∧ m.Bound m.source m.template

structure Sound : Prop where
  lawful : m.Lawful
  task : m.TaskSound m.task

end Sound

variable {w : Wire} {m m' : Machine} {copy : Copy} {attributes : List Attribute}

theorem Bound.mono {n : Nat} (bound : m.Bound n tmpl) (sent : m'.sent = m.sent)
    (more : ∀ n key, m.scheduled n key ≤ m'.scheduled n key) : m'.Bound n tmpl := by
  intro key
  rw [sent]
  exact (bound key).trans (more n key)

theorem CopySound.mono (sound : m.CopySound copy attributes) (sent : m'.sent = m.sent)
    (more : ∀ n key, m.scheduled n key ≤ m'.scheduled n key) : m'.CopySound copy attributes :=
  ⟨sound.bound.mono sent more, sound.same, sound.actions⟩

/-! ### Updates of users -/

theorem scheduled_length : m.scheduled m.updates.length key = 0 := by
  unfold scheduled
  rw [List.getElem?_eq_none (Nat.le_refl _)]
  rfl

/-- Nothing was sent of an update that is yet to come. -/
theorem Lawful.count_length (lawful : m.Lawful) : m.sent.count (m.updates.length, key) = 0 := by
  have most := lawful.once m.updates.length key
  rw [scheduled_length] at most
  exact Nat.le_zero.mp most

theorem Sound.update {keepRestricted : Bool} (sound : m.Sound)
    (taken : m.update w keepRestricted tmpl = some m') : m'.Sound := by
  obtain ⟨left, -, rfl⟩ := Option.map_eq_some_iff.mp taken
  set m' : Machine :=
    { m with template := left, source := m.updates.length, updates := m.updates ++ [left] } with is
  have own : ∀ key, m'.scheduled m.updates.length key = pending left key := by
    intro key
    simp only [is, scheduled, List.getElem?_concat_length, Option.getD_some]
  have more : ∀ n key, m.scheduled n key ≤ m'.scheduled n key := by
    intro n key
    by_cases old : n < m.updates.length
    · simp only [is, scheduled, List.getElem?_append_left old, Nat.le_refl]
    · simp only [scheduled, List.getElem?_eq_none (Nat.le_of_not_lt old), Option.getD_none,
        pending_nil, Nat.zero_le]
  have fresh : m'.Bound m.updates.length left := by
    intro key
    have none : m'.sent.count (m.updates.length, key) = 0 := sound.lawful.count_length
    rw [none, own, Nat.zero_add]
  refine ⟨⟨?_, fun n key => (sound.lawful.once n key).trans (more n key)⟩, ?_⟩
  · simp only [is, List.getLast?_concat, Option.getD_some]
    exact SameButSched.refl left
  · have before := sound.task
    change m'.TaskSound m.task
    cases task : m.task with
    | none => exact fresh
    | acting copy attributes sent =>
      rw [task] at before
      exact ⟨before.1.mono rfl more, fun _ => fresh⟩
    | matching copy =>
      rw [task] at before
      exact ⟨before.1.mono rfl more, fresh⟩

/-! ### Reads -/

theorem copySound_copy (pulled : Same (w.pull m.template) m.template)
    (bound : m.Bound m.source m.template) : m.CopySound (m.copy w) [] := by
  refine ⟨fun key => ?_, SameButSched.refl _, fun a member => absurd member List.not_mem_nil⟩
  rw [List.append_nil]
  have same : pending (m.copy w).tmpl key = pending m.template key :=
    pending_congr (pulled "SCHED_ACTION")
  rw [same]
  exact bound key

theorem Sound.readPending (sound : m.Sound) (pulled : Same (w.pull m.template) m.template)
    (taken : m.readPending w = some m') : m'.Sound := by
  have before := sound.task
  unfold Machine.readPending at taken
  split at taken
  · rename_i task
    rw [task] at before
    cases taken
    exact ⟨⟨sound.lawful.kept, sound.lawful.once⟩, copySound_copy pulled before, before⟩
  · cases taken

theorem Sound.readActions (sound : m.Sound) (pulled : Same (w.pull m.template) m.template)
    (taken : m.readActions w = some m') : m'.Sound := by
  have before := sound.task
  unfold Machine.readActions at taken
  split at taken
  · rename_i task
    rw [task] at before
    cases taken
    refine ⟨⟨sound.lawful.kept, sound.lawful.once⟩, ⟨fun key => ?_, ?_, ?_⟩, fun _ => before⟩
    · have whole := (copySound_copy pulled before).bound key
      rw [List.append_nil] at whole
      rw [← getActions_pending] at whole
      exact whole
    · exact fun name _ action => get_without_ne action
    · exact fun a member => of_decide_eq_true (List.mem_filter.mp member).2
  · cases taken

/-! ### The loop over the actions -/

/-- The log of sent actions after one request. -/
def sentAfter (sent : List (Nat × List (String × String))) (source : Nat)
    (call : Bool × String) (action : List (String × String)) :
    List (Nat × List (String × String)) :=
  if call.1 then (source, actionKey action) :: sent else sent

theorem count_sentAfter (sent : List (Nat × List (String × String))) (source : Nat)
    (call : Bool × String) :
    (sentAfter sent source call action).count (source, key) =
      sent.count (source, key) + if call.1 = true ∧ actionKey action = key then 1 else 0 := by
  unfold sentAfter
  obtain ⟨success, message⟩ := call
  cases success with
  | true => simp [List.count_cons]
  | false => simp

theorem count_sentAfter_ne (sent : List (Nat × List (String × String))) {source n : Nat}
    (call : Bool × String) (other : n ≠ source) :
    (sentAfter sent source call action).count (n, key) = sent.count (n, key) := by
  unfold sentAfter
  split
  · exact List.count_cons_of_ne fun same => other (congrArg Prod.fst same).symm
  · rfl

theorem Sound.act {errorMsg errorMsg' : String} {reply : Reply} {theTime : Int} (sound : m.Sound)
    (taken : m.act w theTime errorMsg reply = some (m', errorMsg')) : m'.Sound := by
  have before := sound.task
  unfold Machine.act at taken
  split at taken
  · -- an attribute with a single value is dropped, and no action waits in it
    rename_i copy name value attributes sent task
    rw [task] at before
    obtain ⟨⟨bound, same, actions⟩, own⟩ := before
    cases taken
    refine ⟨⟨sound.lawful.kept, sound.lawful.once⟩, ⟨fun key => ?_, same, ?_⟩, own⟩
    · have whole := bound key
      rw [pending_append, pending_cons, pending_single, Nat.zero_add, ← pending_append] at whole
      exact whole
    · exact fun a member => actions a (List.mem_cons_of_mem _ member)
  · rename_i copy name action attributes sent task
    rw [task] at before
    obtain ⟨⟨bound, same, actions⟩, own⟩ := before
    obtain rfl : name = "SCHED_ACTION" := actions _ List.mem_cons_self
    have rest : ∀ a ∈ attributes, a.name = "SCHED_ACTION" :=
      fun a member => actions a (List.mem_cons_of_mem _ member)
    split at taken
    · rename_i isDue
      cases taken
      set call := callAction (Attribute.vectorValue action "ACTION") errorMsg reply with asked
      have counted : ∀ key, (sentAfter m.sent copy.source call action).count (copy.source, key) +
          pending (copy.tmpl ++ [.vector "SCHED_ACTION"
            (marked theTime (w.logTime theTime) call action)] ++ attributes) key ≤
          m.scheduled copy.source key := by
        intro key
        have whole := bound key
        have mark : pending [.vector "SCHED_ACTION"
              (marked theTime (w.logTime theTime) call action)] key +
            (if call.1 = true ∧ actionKey action = key then 1 else 0) =
            pending [.vector "SCHED_ACTION" action] key := pending_marked call isDue
        rw [pending_append, pending_cons] at whole
        rw [count_sentAfter, pending_append, pending_append]
        omega
      refine ⟨⟨sound.lawful.kept, fun n key => ?_⟩, ⟨counted, same.push _ rfl, rest⟩, ?_⟩
      · by_cases mine : n = copy.source
        · subst mine
          exact (Nat.le_add_right _ _).trans (counted key)
        · exact (count_sentAfter_ne m.sent call mine).trans_le (sound.lawful.once n key)
      · rintro apart key
        by_cases mine : m.source = copy.source
        · have neither : (sent || call.1) = false := apart.resolve_right fun other => other mine
          obtain ⟨unsent, failed⟩ := Bool.or_eq_false_iff.mp neither
          simp only [failed, Bool.false_eq_true, if_false]
          exact own (Or.inl unsent) key
        · have bound := own (Or.inr mine) key
          exact (congrArg (· + pending m.template key)
            (count_sentAfter_ne m.sent call mine)).trans_le bound
    · cases taken
      refine ⟨⟨sound.lawful.kept, sound.lawful.once⟩, ⟨fun key => ?_, same.push _ rfl, rest⟩, own⟩
      have whole := bound key
      rw [List.append_cons] at whole
      exact whole
  · cases taken

/-! ### Writes -/

theorem Sound.write (lawful : m.Lawful) (sound : m.CopySound copy [])
    (meets : m.WriteMeets w copy) (taken : m.write w copy true = some m') : m'.Sound := by
  obtain ⟨pushed, current⟩ := meets
  cases taken
  refine ⟨⟨?_, lawful.once⟩, fun key => ?_⟩
  · exact (pushed.butSched.trans sound.same).trans (current.symm.trans lawful.kept)
  · have bound := sound.bound key
    rw [List.append_nil] at bound
    have same : pending (w.push copy.tmpl) key = pending copy.tmpl key :=
      pending_congr (pushed "SCHED_ACTION")
    exact (congrArg (m.sent.count (copy.source, key) + ·) same).trans_le bound

theorem Sound.refused (lawful : m.Lawful) (bound : m.Bound m.source m.template)
    (taken : m.write w copy false = some m') : m'.Sound := by
  cases taken
  exact ⟨⟨lawful.kept, lawful.once⟩, bound⟩

theorem Sound.writeActions {success : Bool} (sound : m.Sound)
    (meets : m.WriteActionsMeets w success) (taken : m.writeActions w success = some m') :
    m'.Sound := by
  have before := sound.task
  unfold Machine.writeActions at taken
  unfold WriteActionsMeets at meets
  split at taken
  · rename_i copy sent task
    rw [task] at before meets
    obtain ⟨tracked, own⟩ := before
    cases success with
    | true => exact Sound.write sound.lawful tracked meets taken
    | false =>
      refine Sound.refused sound.lawful (own ?_) taken
      cases sent with
      | true => exact Or.inr (meets rfl)
      | false => exact Or.inl rfl
  · cases taken

theorem CopySound.log {message : Option (Int × String)} (sound : m.CopySound copy []) :
    m.CopySound (copy.log w message) [] := by
  unfold Copy.log
  split
  · refine ⟨fun key => ?_, fun name other action => ?_, sound.actions⟩
    · have bound := sound.bound key
      rw [List.append_nil] at bound ⊢
      rw [pending_congr (get_replace_ne (by decide))]
      exact bound
    · exact (get_replace_ne other).trans (sound.same name other action)
  · exact sound

theorem Sound.writeMessage {message : Option (Int × String)} {success : Bool} (sound : m.Sound)
    (meets : m.WriteMessageMeets w message success)
    (taken : m.writeMessage w message success = some m') : m'.Sound := by
  have before := sound.task
  unfold Machine.writeMessage at taken
  unfold WriteMessageMeets at meets
  split at taken
  · rename_i copy task
    rw [task] at before meets
    obtain ⟨tracked, own⟩ := before
    cases success with
    | true => exact Sound.write sound.lawful tracked.log (meets rfl) taken
    | false => exact Sound.refused sound.lawful own taken
  · cases taken

theorem Sound.matched (sound : m.Sound) (taken : m.matched = some m') : m'.Sound := by
  have before := sound.task
  unfold Machine.matched at taken
  split at taken
  · rename_i copy task
    rw [task] at before
    cases taken
    exact ⟨⟨sound.lawful.kept, sound.lawful.once⟩, before.2⟩
  · cases taken

end Machine

/-! ## Runs -/

open Transition

variable {w : Wire} {s s' : State} {l : Label}

def State.Sound (s : State) : Prop :=
  ∀ oid, (s.machines oid).Sound

theorem sound_setMachine {oid : Nat} {m : Machine} (sound : s.Sound) (own : m.Sound) :
    (s.setMachine oid m).Sound := by
  intro other
  unfold State.setMachine
  rcases eq_or_ne other oid with rfl | apart
  · simp only [Function.update_self]
    exact own
  · simp only [Function.update_of_ne apart]
    exact sound other

theorem sound_next (sound : s.Sound) (meets : Meets w s l) (taken : Step w s l s') :
    s'.Sound := by
  unfold Step State.next at taken
  cases l with
  | update oid keepRestricted tmpl =>
    obtain ⟨m, took, rfl⟩ := Option.map_eq_some_iff.mp taken
    exact sound_setMachine sound ((sound oid).update took)
  | start theTime =>
    cases taken
    exact sound
  | readActions oid =>
    obtain ⟨m, took, rfl⟩ := Option.map_eq_some_iff.mp taken
    exact sound_setMachine sound ((sound oid).readActions meets took)
  | act oid reply =>
    obtain ⟨⟨m, errorMsg⟩, took, rfl⟩ := Option.map_eq_some_iff.mp taken
    exact sound_setMachine sound ((sound oid).act took)
  | writeActions oid success =>
    obtain ⟨m, took, rfl⟩ := Option.map_eq_some_iff.mp taken
    exact sound_setMachine sound ((sound oid).writeActions meets took)
  | readPending oid =>
    obtain ⟨m, took, rfl⟩ := Option.map_eq_some_iff.mp taken
    exact sound_setMachine sound ((sound oid).readPending meets took)
  | matched oid =>
    obtain ⟨m, took, rfl⟩ := Option.map_eq_some_iff.mp taken
    exact sound_setMachine sound ((sound oid).matched took)
  | writeMessage oid message success =>
    obtain ⟨m, took, rfl⟩ := Option.map_eq_some_iff.mp taken
    exact sound_setMachine sound ((sound oid).writeMessage meets took)

theorem sound_started (started : Started s) : s.Sound := by
  intro oid
  obtain ⟨updates, source, task, sent⟩ := started oid
  have own : (s.machines oid).Bound (s.machines oid).source (s.machines oid).template := by
    intro key
    rw [sent, source, List.count_nil, Nat.zero_add]
    simp only [Machine.scheduled, updates, List.getElem?_cons_zero, Option.getD_some, Nat.le_refl]
  refine ⟨⟨?_, fun n key => ?_⟩, ?_⟩
  · rw [updates]
    exact SameButSched.refl _
  · rw [sent]
    exact Nat.zero_le _
  · rw [task]
    exact own

/-- In every run whose steps meet the condition, the updates of users stay and every
scheduled action is sent once. -/
theorem lawful_of_meets (reached : Reachable Started (Guarded (Meets w) (Step w)) s) :
    ∀ oid, (s.machines oid).Lawful := by
  have sound : s.Sound :=
    reached.invariant (fun _ => sound_started) fun _ _ _ before taken =>
      sound_next before taken.1 taken.2
  exact fun oid => (sound oid).lawful

/-! ## Runs of one VM -/

/-- Templates arrive as they were sent. -/
def plainWire : Wire where
  pull := id
  push := id
  logTime _ := ""
  restricted := []

def stopAction : List (String × String) :=
  [("ACTION", "stop"), ("TIME", "5")]

/-- VMs with an attribute and an action. -/
def created : State where
  machines _ :=
    let tmpl := [.single "A" "1", .vector "SCHED_ACTION" stopAction]
    ⟨tmpl, 0, [tmpl], .none, []⟩
  theTime := 0
  errorMsg := ""

theorem started_created : Started created :=
  fun _ => ⟨rfl, rfl, rfl, rfl⟩

/-- A user's update between a read and the write of a message. -/
def lostUpdate : List Label :=
  [.readPending 0, .update 0 false [.single "A" "2"],
    .writeMessage 0 (some (7, "No hosts enabled to run VMs")) true]

/-- An action whose mark is refused, and the next cycle. -/
def repeatedAction : List Label :=
  [.start 10, .readActions 0, .act 0 .success, .writeActions 0 false,
    .start 40, .readActions 0, .act 0 .success]

theorem reached_of_labels (labels : List Label)
    (taken : labels.foldlM (State.next plainWire) created = some s) :
    Reachable Started (Step plainWire) s :=
  Reachable.foldlM (State.next plainWire) labels (fun _ _ _ took => took)
    (.init started_created) taken

/-- An update that was answered with success is undone by the write of a message, and an
action is sent with success twice. -/
theorem update_lost_and_action_repeated :
    (∃ s, Reachable Started (Step plainWire) s ∧
      (s.machines 0).updates.getLast?.map (Template.get · "A") = some [.single "A" "2"] ∧
      (s.machines 0).template.get "A" = [.single "A" "1"]) ∧
    ∃ s, Reachable Started (Step plainWire) s ∧
      (s.machines 0).scheduled 0 stopAction = 1 ∧
      (s.machines 0).sent.count (0, stopAction) = 2 := by
  constructor
  · exact ⟨_, reached_of_labels lostUpdate rfl, rfl, rfl⟩
  · exact ⟨_, reached_of_labels repeatedAction rfl, by decide +kernel, by decide +kernel⟩

theorem meets_readActions (s : State) (oid : Nat) : Meets plainWire s (.readActions oid) :=
  fun _ => rfl

/-- A cycle that sends an action and marks it. -/
theorem lawful_of_meets_marked :
    ∃ s, [Label.start 10, .readActions 0, .act 0 .success, .writeActions 0 true].foldlM
        (State.next plainWire) created = some s ∧
      ∀ oid, (s.machines oid).Lawful := by
  refine ⟨_, rfl, lawful_of_meets (w := plainWire) ?_⟩
  have started : Reachable Started (Guarded (Meets plainWire) (Step plainWire)) _ :=
    .step (l := Label.start 10) (.init started_created) ⟨trivial, rfl⟩
  have read := Reachable.step (l := Label.readActions 0) started ⟨meets_readActions _ 0, rfl⟩
  have asked := Reachable.step (l := Label.act 0 .success) read ⟨trivial, rfl⟩
  exact Reachable.step (l := Label.writeActions 0 true) asked
    ⟨⟨fun _ => rfl, fun _ _ _ => rfl⟩, rfl⟩

end TemplateUpdates

end Ezilla
