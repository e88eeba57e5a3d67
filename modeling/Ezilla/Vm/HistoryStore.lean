import Ezilla.Vm.VirtualMachine
import Ezilla.Lib.WriteBack

/-!
# The history and what is stored of it

A VM keeps its history records in memory. `VirtualMachinePool::update` stores the body of the
VM, with the current record in it; `update_history` and `update_previous_history` store one
record as a row of the table `history`. `VirtualMachine::select` takes the current record from
the body and the others from the table.

* `HistoryRecord`: a record with its times;
* `HistoryCall`: the calls of the handlers that have to do with the history;
* `HistoryStore`, `HistoryStore.select`: the records in memory and in the database.

The text of the VM in a row (`vm_info`) is left out: no record gets it back.
-/

namespace Ezilla

/-! ## Records -/

/-- The times of a history record; 0 stands for a time that was not set. -/
structure HistoryTimes where
  stime : Nat := 0
  etime : Nat := 0
  prologStime : Nat := 0
  prologEtime : Nat := 0
  runningStime : Nat := 0
  runningEtime : Nat := 0
  epilogStime : Nat := 0
  epilogEtime : Nat := 0
  deriving DecidableEq, Repr

/-- The time a setter is about. -/
inductive HistoryTime where
  | stime
  | etime
  | prologStime
  | prologEtime
  | runningStime
  | runningEtime
  | epilogStime
  | epilogEtime
  deriving DecidableEq, Repr

/-- `VirtualMachine::set_stime` … `set_epilog_etime`. -/
def HistoryTimes.set (times : HistoryTimes) (now : Nat) : HistoryTime → HistoryTimes
  | .stime => { times with stime := now }
  | .etime => { times with etime := now }
  | .prologStime => { times with prologStime := now }
  | .prologEtime => { times with prologEtime := now }
  | .runningStime => { times with runningStime := now }
  | .runningEtime => { times with runningEtime := now }
  | .epilogStime => { times with epilogStime := now }
  | .epilogEtime => { times with epilogEtime := now }

/-- `History`, with its times. -/
structure HistoryRecord extends History where
  times : HistoryTimes := {}
  deriving DecidableEq, Repr

/-- The number of a record, under which its row is stored. -/
def HistoryRecord.number (r : HistoryRecord) : Nat := r.seq

/-- What a record is about: its number and its host. -/
def HistoryRecord.stay (r : HistoryRecord) : Nat × Nat := (r.seq, r.hid)

/-! ## Calls -/

/-- The calls of a handler that have to do with the history. -/
inductive HistoryCall where
  /-- `VirtualMachinePool::update`. -/
  | update
  | updateHistory
  | updatePreviousHistory
  | addHistory (hid : Nat)
  | cpHistory
  | cpPreviousHistory
  | setTime (time : HistoryTime) (now : Nat)
  | setAction (action : VMAction)
  | setReason (reason : EndReason)
  | setPreviousTime (time : HistoryTime) (now : Nat)
  | setPreviousAction (action : VMAction)
  | setPreviousReason (reason : EndReason)
  deriving DecidableEq, Repr

namespace HistoryCall

/-- What a call does to the records and to what is stored of them. -/
def op : HistoryCall → WriteBack.Op HistoryRecord
  | .update => .saveHead
  | .updateHistory => .saveRow .last
  | .updatePreviousHistory => .saveRow .previous
  | .addHistory hid => .add fun seq => { seq, hid }
  | .cpHistory => .copy .last fun seq r => { seq, hid := r.hid }
  | .cpPreviousHistory => .copy .previous fun seq r => { seq, hid := r.hid }
  | .setTime time now => .modify .last fun r => { r with times := r.times.set now time }
  | .setAction action => .modify .last fun r => { r with action }
  | .setReason reason => .modify .last fun r => { r with reason }
  | .setPreviousTime time now =>
    .modify .previous fun r => { r with times := r.times.set now time }
  | .setPreviousAction action => .modify .previous fun r => { r with action }
  | .setPreviousReason reason => .modify .previous fun r => { r with reason }

/-- What a call does to a VM without times. -/
def onVm (vm : VirtualMachine) : HistoryCall → VirtualMachine
  | .update | .updateHistory | .updatePreviousHistory => vm
  | .setTime _ _ | .setPreviousTime _ _ => vm
  | .addHistory hid => vm.addHistory hid
  | .cpHistory => vm.cpHistory
  | .cpPreviousHistory => vm.cpPreviousHistory
  | .setAction action => vm.setAction action
  | .setReason reason => vm.setReason reason
  | .setPreviousAction action => vm.setPreviousAction action
  | .setPreviousReason reason => vm.setPreviousReason reason

/-- No call changes the number of a record. -/
theorem keeps_op (call : HistoryCall) : call.op.Keeps HistoryRecord.number := by
  cases call <;> simp [op, WriteBack.Op.Keeps, HistoryRecord.number]

end HistoryCall

/-- The records in memory and in the database. -/
abbrev HistoryStore := WriteBack.Store HistoryRecord

namespace HistoryStore

/-- Some calls, in order. -/
def calls (s : HistoryStore) (calls : List HistoryCall) : HistoryStore :=
  s.run HistoryRecord.number HistoryCall.op calls

/-- The history part of `VirtualMachine::select`; `none` stands for a row that is missing. -/
def select (s : HistoryStore) : Option (List HistoryRecord) := s.reload HistoryRecord.number

/-- The records without their times. -/
def history (s : HistoryStore) : List History := s.records.map HistoryRecord.toHistory

end HistoryStore

/-- A call does the same to the records as to the VM. -/
theorem HistoryCall.history_run {s : HistoryStore} {vm : VirtualMachine}
    (same : s.history = vm.history) (call : HistoryCall) :
    HistoryStore.history (call.op.run HistoryRecord.number s) = (call.onVm vm).history := by
  rcases s with ⟨records, head, rows⟩
  rcases vm with ⟨_, _, _, _, _, _, _, history, _, _, _⟩
  have eq : records.map HistoryRecord.toHistory = history := same
  subst eq
  cases call with
  | update => rfl
  | updateHistory => cases records <;> rfl
  | updatePreviousHistory => rcases records with - | ⟨current, - | ⟨previous, rest⟩⟩ <;> rfl
  | addHistory hid => cases records <;> rfl
  | cpHistory => cases records <;> rfl
  | cpPreviousHistory => rcases records with - | ⟨current, - | ⟨previous, rest⟩⟩ <;> rfl
  | setTime time now => cases records <;> rfl
  | setAction action => cases records <;> rfl
  | setReason reason => cases records <;> rfl
  | setPreviousTime time now =>
    rcases records with - | ⟨current, - | ⟨previous, rest⟩⟩ <;> rfl
  | setPreviousAction action =>
    rcases records with - | ⟨current, - | ⟨previous, rest⟩⟩ <;> rfl
  | setPreviousReason reason =>
    rcases records with - | ⟨current, - | ⟨previous, rest⟩⟩ <;> rfl

/-- Some calls do the same to the records as to the VM. -/
theorem HistoryStore.history_calls {s : HistoryStore} {vm : VirtualMachine}
    (same : s.history = vm.history) (calls : List HistoryCall) :
    (s.calls calls).history = (calls.foldl HistoryCall.onVm vm).history := by
  induction calls generalizing s vm with
  | nil => exact same
  | cons call calls ih => exact ih (call.history_run same)

end Ezilla
