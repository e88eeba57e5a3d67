import Ezilla.Lib.Transition
import Mathlib.Data.List.Basic
import Mathlib.Order.Basic

/-!
# Object ids of a pool

A pool counts the ids it has given in `lastOID`. The counter is in memory, and after each
allocation it is stored in the control row of the pool, where the constructor reads it again
when the daemon starts. The row of the object itself is inserted before that.

* `IdPool.next`: allocations, drops, restarts and a crash in the middle of an allocation;
* `IdPool.Lawful`: what each of them should do;
* `IdPool.lawful_iff_proper`: the runs in which they do.
-/

namespace Ezilla

open Transition

/-- The largest `int`. -/
def intMax : Int := 2147483647

/-- What is left of a pool and its tables. `rows` are the ids with a row in the object table,
and `control` is the `last_oid` of the control row. -/
structure IdPool where
  lastOID : Int
  control : Option Int
  rows : List Int
  deriving DecidableEq

/-- The steps of a pool. An object is `valid` when the table takes its row unless the id has
one, `stored` is whether the control row could be written, and `read` whether it could be
read. -/
inductive IdStep where
  | allocate (valid stored : Bool)
  /-- an allocation that ends in a crash after the row was inserted; the daemon starts again -/
  | allocateCrash (valid read : Bool)
  | drop (oid : Int)
  | restart (read : Bool)
  deriving DecidableEq

namespace IdPool

/-- A pool when it is used for the first time. Some pools keep the ids up to 99 for objects of
their own, and have inserted a few of these. -/
def new : Option (Fin 100) → IdPool
  | none => ⟨-1, none, []⟩
  | some n => ⟨99, some 99, (List.range n).map Int.ofNat⟩

variable (s : IdPool)

/-- `PoolSQL::update_lastOID`. The result of the statement is not looked at. -/
def updateLastOID (stored : Bool) : IdPool :=
  { s with control := if stored then some s.lastOID else s.control }

/-- The counter that an allocation increments. -/
def counter : Int := if s.lastOID = intMax then -1 else s.lastOID

/-- Whether the object gets its row, under the next id. -/
def accepts (valid : Bool) : Bool := valid && s.counter + 1 ∉ s.rows

/-- `PoolSQL::allocate` up to the insertion of the row. -/
def insert (valid : Bool) : Option Int × IdPool :=
  if s.accepts valid then
    (some (s.counter + 1),
      { s with lastOID := s.counter + 1, rows := (s.counter + 1) :: s.rows })
  else
    (none, { s with lastOID := s.counter })

/-- `PoolSQL::allocate`. -/
def allocate (valid stored : Bool) : Option Int × IdPool :=
  match s.insert valid with
  | (some oid, s') => (some oid, s'.updateLastOID stored)
  | (none, s') => (none, s')

/-- `PoolSQL::drop`. -/
def drop (oid : Int) : IdPool := { s with rows := s.rows.filter (· ≠ oid) }

/-- The constructor: the counter is what `init_cb` reads, or -1. -/
def restart (read : Bool) : IdPool :=
  { s with lastOID := if read then s.control.getD (-1) else -1 }

/-- One step. -/
def next : IdStep → IdPool
  | .allocate valid stored => (s.allocate valid stored).2
  | .allocateCrash valid read => (s.insert valid).2.restart read
  | .drop oid => s.drop oid
  | .restart read => s.restart read

/-- The ids of the objects created so far, the last one first. -/
def remember (l : IdStep) (issued : List Int) : List Int :=
  match l with
  | .allocate valid _ => (s.insert valid).1.toList ++ issued
  | .allocateCrash valid _ => (s.insert valid).1.toList ++ issued
  | _ => issued

/-! ## What the steps should do -/

/-- A valid object gets an id greater than all earlier ones. -/
def CanAllocate (issued : List Int) : Prop :=
  ∃ oid, (s.allocate true true).1 = some oid ∧ ∀ i ∈ issued, i < oid

/-- A successful allocation gives an id greater than all earlier ones, and a failed one leaves
the counter alone. -/
def AllocatesAbove (issued : List Int) (valid stored : Bool) : Prop :=
  match s.allocate valid stored with
  | (some oid, _) => ∀ i ∈ issued, i < oid
  | (none, s') => s'.lastOID = s.lastOID

/-- What a step should do. After a restart a valid object can be allocated. -/
def Lawful (m : IdPool × List Int) : IdStep → Prop
  | .allocate valid stored => m.1.AllocatesAbove m.2 valid stored
  | .drop _ => True
  | l => (m.1.next l).CanAllocate (m.1.remember l m.2)

/-- The counter is not at its end, and no object has an id above it. -/
def Ahead (issued : List Int) : Prop :=
  s.lastOID ≠ intMax ∧ ∀ i ∈ issued, i ≤ s.lastOID

/-- A step in the right place: an allocation has a counter that is not at its end, and a
restart reads a control row that is not behind the objects, the one that a crash leaves
included. -/
def Proper (m : IdPool × List Int) : IdStep → Prop
  | .allocate _ _ => m.1.lastOID ≠ intMax
  | .allocateCrash valid read =>
    (m.1.restart read).Ahead m.2 ∧
      (m.1.accepts valid = true → m.1.counter + 1 ≤ (m.1.restart read).lastOID)
  | .drop _ => True
  | .restart read => (m.1.restart read).Ahead m.2

/-- What the steps in the right place keep. -/
structure Counted (m : IdPool × List Int) : Prop where
  rows : ∀ i ∈ m.1.rows, i ∈ m.2
  issued : ∀ i ∈ m.2, i ≤ m.1.lastOID
  full : m.1.lastOID = intMax → intMax ∈ m.2
  fullControl : m.1.control = some intMax → intMax ∈ m.2

variable {s} {issued : List Int} {m : IdPool × List Int} {l : IdStep} {valid stored read : Bool}

theorem counter_eq (below : s.lastOID ≠ intMax) : s.counter = s.lastOID := if_neg below

theorem insert_accepted (accepted : s.accepts valid = true) :
    s.insert valid = (some (s.counter + 1),
      { s with lastOID := s.counter + 1, rows := (s.counter + 1) :: s.rows }) :=
  if_pos accepted

theorem insert_refused (refused : s.accepts valid = false) :
    s.insert valid = (none, { s with lastOID := s.counter }) :=
  if_neg (Bool.eq_false_iff.mp refused)

theorem allocate_accepted (accepted : s.accepts valid = true) :
    s.allocate valid stored = (some (s.counter + 1),
      { s with lastOID := s.counter + 1, rows := (s.counter + 1) :: s.rows }.updateLastOID
        stored) := by
  rw [allocate, insert_accepted accepted]

theorem allocate_refused (refused : s.accepts valid = false) :
    s.allocate valid stored = (none, { s with lastOID := s.counter }) := by
  rw [allocate, insert_refused refused]

/-- After a start a valid object can be allocated exactly when the counter is ahead of the
objects. -/
theorem canAllocate_iff (rows : ∀ i ∈ s.rows, i ∈ issued)
    (full : s.lastOID = intMax → intMax ∈ issued) :
    s.CanAllocate issued ↔ s.Ahead issued := by
  unfold CanAllocate
  by_cases atEnd : s.lastOID = intMax
  · have start : s.counter = -1 := if_pos atEnd
    refine iff_of_false (fun can => ?_) fun ahead => ahead.1 atEnd
    obtain ⟨oid, given, above⟩ := can
    have last := above intMax (full atEnd)
    cases accepted : s.accepts true with
    | true =>
      rw [allocate_accepted accepted, start] at given
      cases given
      exact absurd last (by decide)
    | false =>
      rw [allocate_refused accepted] at given
      cases given
  · constructor
    · intro can
      obtain ⟨oid, given, above⟩ := can
      refine ⟨atEnd, fun i created => ?_⟩
      have less := above i created
      cases accepted : s.accepts true with
      | true =>
        rw [allocate_accepted accepted, counter_eq atEnd] at given
        cases given
        omega
      | false =>
        rw [allocate_refused accepted] at given
        cases given
    · intro ahead
      have absent : s.lastOID + 1 ∉ s.rows := fun taken => by
        have := ahead.2 _ (rows _ taken)
        omega
      have accepted : s.accepts true = true := by
        simp [accepts, counter_eq atEnd, absent]
      refine ⟨s.lastOID + 1, ?_, fun i created => Int.lt_add_one_of_le (ahead.2 i created)⟩
      rw [allocate_accepted accepted, counter_eq atEnd]

/-- An allocation does what it should exactly when the counter is not at its end. -/
theorem allocatesAbove_iff (counted : Counted m) :
    m.1.AllocatesAbove m.2 valid stored ↔ m.1.lastOID ≠ intMax := by
  by_cases atEnd : m.1.lastOID = intMax
  · have start : m.1.counter = -1 := if_pos atEnd
    refine iff_of_false (fun lawful => ?_) fun below => below atEnd
    unfold AllocatesAbove at lawful
    cases accepted : m.1.accepts valid with
    | true =>
      rw [allocate_accepted accepted, start] at lawful
      exact absurd (lawful intMax (counted.full atEnd)) (by decide)
    | false =>
      rw [allocate_refused accepted, start] at lawful
      have wrapped : (-1 : Int) = m.1.lastOID := lawful
      rw [atEnd] at wrapped
      exact absurd wrapped (by decide)
  · refine iff_of_true ?_ atEnd
    unfold AllocatesAbove
    cases accepted : m.1.accepts valid with
    | true =>
      rw [allocate_accepted accepted, counter_eq atEnd]
      exact fun i created => Int.lt_add_one_of_le (counted.issued i created)
    | false =>
      rw [allocate_refused accepted, counter_eq atEnd]

theorem counted_new {kept : Option (Fin 100)} : Counted (new kept, (new kept).rows) := by
  cases kept with
  | none =>
    refine ⟨fun _ row => row, fun _ created => ?_, fun atEnd => ?_, fun atEnd => ?_⟩
    · cases created
    · cases atEnd
    · cases atEnd
  | some n =>
    refine ⟨fun _ row => row, fun i created => ?_, fun atEnd => ?_, fun atEnd => ?_⟩
    · obtain ⟨k, below, rfl⟩ := List.mem_map.mp created
      have := List.mem_range.mp below
      have : k ≤ 99 := by omega
      exact Int.ofNat_le.mpr this
    · cases atEnd
    · cases atEnd

/-- The end of the counter is only read when it was given. -/
theorem Counted.full_restart (counted : Counted m)
    (atEnd : (m.1.restart read).lastOID = intMax) : intMax ∈ m.2 := by
  have start : (-1 : Int) ≠ intMax := by decide
  cases read with
  | false => exact absurd atEnd start
  | true =>
    unfold restart at atEnd
    cases control : m.1.control with
    | none =>
      rw [control] at atEnd
      exact absurd atEnd start
    | some c =>
      rw [control] at atEnd
      exact counted.fullControl (by rw [control, ← atEnd]; rfl)

/-- A start that reads a control row that is not behind keeps the count. -/
theorem Counted.restarted (counted : Counted m) (ahead : (m.1.restart read).Ahead m.2) :
    Counted (m.1.restart read, m.2) :=
  ⟨counted.rows, ahead.2, fun atEnd => absurd atEnd ahead.1, counted.fullControl⟩

/-- A new object is counted, whatever is stored of it. -/
theorem Counted.inserted (counted : Counted m) (below : m.1.lastOID ≠ intMax) :
    Counted ((m.1.insert valid).2, (m.1.insert valid).1.toList ++ m.2) := by
  cases accepted : m.1.accepts valid with
  | true =>
    rw [insert_accepted accepted, counter_eq below]
    refine ⟨fun i row => ?_, fun i created => ?_, fun atEnd => ?_, fun atEnd => ?_⟩
    · rcases List.mem_cons.mp row with rfl | row
      · exact List.mem_cons_self
      · exact List.mem_cons_of_mem _ (counted.rows i row)
    · rcases List.mem_cons.mp created with rfl | created
      · exact Int.le_refl _
      · have := counted.issued i created
        exact Int.le_trans this (Int.le_of_lt (Int.lt_succ _))
    · exact List.mem_cons.mpr (.inl atEnd.symm)
    · exact List.mem_cons_of_mem _ (counted.fullControl atEnd)
  | false =>
    rw [insert_refused accepted, counter_eq below]
    exact counted

/-- The control row that is written holds the counter. -/
theorem Counted.updated (counted : Counted m) :
    Counted (m.1.updateLastOID stored, m.2) := by
  refine ⟨counted.rows, counted.issued, counted.full, fun atEnd => ?_⟩
  cases stored with
  | true => exact counted.full (Option.some.inj atEnd)
  | false => exact counted.fullControl atEnd

theorem Counted.allocated (counted : Counted m) (below : m.1.lastOID ≠ intMax) :
    Counted ((m.1.allocate valid stored).2, m.1.remember (.allocate valid stored) m.2) := by
  have inserted := @Counted.inserted m valid counted below
  show Counted (_, (m.1.insert valid).1.toList ++ m.2)
  unfold allocate
  split
  · rename_i row
    rw [row] at inserted ⊢
    exact inserted.updated
  · rename_i row
    rw [row] at inserted ⊢
    exact inserted

theorem Counted.dropped {oid : Int} (counted : Counted m) : Counted (m.1.drop oid, m.2) :=
  ⟨fun i row => counted.rows i (List.mem_filter.mp row).1, counted.issued, counted.full,
    counted.fullControl⟩

/-- A row that a crash leaves is an object like any other. -/
theorem Counted.rows_insert (counted : Counted m) :
    ∀ i ∈ (m.1.insert valid).2.rows, i ∈ (m.1.insert valid).1.toList ++ m.2 := by
  intro i row
  cases accepted : m.1.accepts valid with
  | true =>
    rw [insert_accepted accepted] at row ⊢
    rcases List.mem_cons.mp row with rfl | row
    · exact List.mem_cons_self
    · exact List.mem_cons_of_mem _ (counted.rows i row)
  | false =>
    rw [insert_refused accepted] at row ⊢
    exact counted.rows i row

theorem control_insert : (s.insert valid).2.control = s.control := by
  unfold insert
  split <;> rfl

/-- What the daemon reads after a crash does not depend on the row that was inserted. -/
theorem restart_insert : ((s.insert valid).2.restart read).lastOID = (s.restart read).lastOID := by
  unfold restart
  rw [control_insert]

/-- The counter is ahead after a crash exactly when it is ahead of the other objects and of the
one that was inserted. -/
theorem ahead_insert_iff :
    ((s.insert valid).2.restart read).Ahead ((s.insert valid).1.toList ++ issued) ↔
      (s.restart read).Ahead issued ∧
        (s.accepts valid = true → s.counter + 1 ≤ (s.restart read).lastOID) := by
  unfold Ahead
  rw [restart_insert, and_assoc, and_congr_right_iff]
  intro _
  cases accepted : s.accepts valid with
  | true =>
    rw [insert_accepted accepted]
    simp only [Option.toList_some, List.cons_append, List.nil_append, List.forall_mem_cons,
      true_implies]
    exact and_comm
  | false =>
    rw [insert_refused accepted]
    simp

/-- A step does what it should exactly when it is in the right place. -/
theorem lawful_iff_step (m : IdPool × List Int) (l : IdStep) (counted : Counted m) :
    Lawful m l ↔ Proper m l := by
  cases l with
  | allocate valid stored => exact allocatesAbove_iff counted
  | allocateCrash valid read =>
    refine (@canAllocate_iff ((m.1.insert valid).2.restart read) _ counted.rows_insert
      fun atEnd => ?_).trans ahead_insert_iff
    exact List.mem_append_right _ (counted.full_restart (restart_insert.symm.trans atEnd))
  | drop oid => exact Iff.rfl
  | restart read => exact canAllocate_iff counted.rows counted.full_restart

/-- A step in the right place keeps the count. -/
theorem counted_next (m : IdPool × List Int) (l : IdStep) (counted : Counted m)
    (lawful : Lawful m l) : Counted (withMemory next remember m l) := by
  have proper := (lawful_iff_step m l counted).mp lawful
  cases l with
  | allocate valid stored => exact counted.allocated proper
  | allocateCrash valid read =>
    have ahead := ahead_insert_iff.mpr proper
    refine ⟨counted.rows_insert, ahead.2, fun atEnd => absurd atEnd ahead.1, fun atEnd => ?_⟩
    exact List.mem_append_right _ (counted.fullControl (control_insert.symm.trans atEnd))
  | drop oid => exact counted.dropped
  | restart read => exact counted.restarted proper

/-- In every run of a pool, each step does what it should exactly when each one is in the right
place. -/
theorem lawful_iff_proper (kept : Option (Fin 100)) (labels : List IdStep) :
    Along (withMemory next remember) Lawful (new kept, (new kept).rows) labels ↔
      Along (withMemory next remember) Proper (new kept, (new kept).rows) labels :=
  along_congr counted_next lawful_iff_step labels counted_new

/-- The daemon stops between the row of the second object and the control row: no object can be
allocated any more, and when that object is dropped its id is given again. -/
theorem crash_before_control :
    ¬ Along (withMemory next remember) Lawful (new none, [])
        [.allocate true true, .allocateCrash true true] ∧
      ([IdStep.allocate true true, .allocateCrash true true, .allocate true true].foldl
        (withMemory next remember) (new none, [])).2 = [1, 0] ∧
      ([IdStep.allocate true true, .allocateCrash true true, .drop 1, .allocate true true].foldl
        (withMemory next remember) (new none, [])).2 = [1, 1, 0] := by
  refine ⟨fun lawful => ?_, by decide, by decide⟩
  obtain ⟨oid, given, _⟩ := lawful.2.1
  cases given

end IdPool

end Ezilla
