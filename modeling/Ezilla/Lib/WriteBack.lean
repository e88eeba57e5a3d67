import Mathlib.Logic.Function.Basic
import Mathlib.Tactic.TypeStar

/-!
# Numbered records that are written back

A list of numbered records, latest first, is kept in memory. The last one is also stored as
the head page of the object they belong to, and each of them as a row of a table. The
operations append records, change the last two of them, and store them; reading the object
back takes its last record from the head page and the others from the table.

* `Store`, `Op.run`: the records, what is stored of them, and the operations;
* `Dirty`, `Dirty.after`: which parts may be out of date, followed through a list of
  operations without looking at the records;
* `Sound.run`: that following them is right;
* `Store.reload_view`: what reading back gives when all parts but the row of the last record
  are up to date;
* `Sound.reload`: the records that were read back are stored as those before were.

Everything is up to a view of the records, so that the same operations can be followed for
whole records and for a part that no change touches.
-/

namespace WriteBack

variable {Record View : Type*}

/-- The records in memory, latest first, the head page and the table. -/
structure Store (Record : Type*) where
  records : List Record := []
  head : Option Record := none
  rows : Nat → Option Record := fun _ => none

/-- The two records that operations work on. -/
inductive Place where
  | last
  | previous
  deriving DecidableEq, Repr

/-- How many records are later. -/
def Place.index : Place → Nat
  | .last => 0
  | .previous => 1

/-- What can be done with the records. A new record is made for the next number, and from the
record it is a copy of. -/
inductive Op (Record : Type*) where
  | add (new : Nat → Record)
  | copy (place : Place) (new : Nat → Record → Record)
  | modify (place : Place) (change : Record → Record)
  | saveRow (place : Place)
  | saveHead

section Run

variable (number : Record → Nat)

/-- The number of the next record. -/
def Store.nextNumber (s : Store Record) : Nat :=
  (s.records.head?.map fun r => number r + 1).getD 0

/-- One operation. -/
def Op.run (s : Store Record) : Op Record → Store Record
  | .add new => { s with records := new (s.nextNumber number) :: s.records }
  | .copy place new =>
    match s.records[place.index]? with
    | none => s
    | some r => { s with records := new (s.nextNumber number) r :: s.records }
  | .modify place change => { s with records := s.records.modify place.index change }
  | .saveRow place =>
    match s.records[place.index]? with
    | none => s
    | some r => { s with rows := Function.update s.rows (number r) (some r) }
  | .saveHead => { s with head := s.records.head? }

/-- Some calls, each of which is an operation, in order. -/
def Store.run {Call : Type*} (op : Call → Op Record) (s : Store Record) (calls : List Call) :
    Store Record :=
  calls.foldl (fun s call => (op call).run number s) s

/-- An operation gives new records their number and leaves the other numbers. -/
def Op.Keeps : Op Record → Prop
  | .add new => ∀ n, number (new n) = n
  | .copy _ new => ∀ n r, number (new n r) = n
  | .modify _ change => ∀ r, number (change r) = number r
  | .saveRow _ | .saveHead => True

/-- The numbers go down to 0. -/
def Numbered : List Record → Prop
  | [] => True
  | r :: rest => number r = rest.length ∧ Numbered rest

variable {number} {s : Store Record} {op : Op Record} {records : List Record}

theorem Numbered.get (numbered : Numbered number records) {i : Nat} {r : Record}
    (get : records[i]? = some r) : number r + i + 1 = records.length := by
  induction records generalizing i with
  | nil => cases get
  | cons first rest ih =>
    cases i with
    | zero =>
      cases get
      rw [numbered.1, List.length_cons]
    | succ i =>
      have here := ih numbered.2 get
      rw [List.length_cons]
      omega

theorem Numbered.nextNumber (numbered : Numbered number s.records) :
    s.nextNumber number = s.records.length := by
  unfold Store.nextNumber
  cases records : s.records with
  | nil => rfl
  | cons last rest =>
    rw [records] at numbered
    exact congrArg (· + 1) numbered.1

theorem numbered_modify {change : Record → Record} (keeps : ∀ r, number (change r) = number r)
    (i : Nat) : Numbered number (records.modify i change) ↔ Numbered number records := by
  induction records generalizing i with
  | nil => cases i <;> exact Iff.rfl
  | cons first rest ih =>
    cases i with
    | zero => simp only [List.modify_zero_cons, Numbered, keeps]
    | succ i => simp only [List.modify_succ_cons, Numbered, List.length_modify, ih]

/-- Every operation keeps the numbers in order. -/
theorem Numbered.run (numbered : Numbered number s.records) (keeps : op.Keeps number) :
    Numbered number (op.run number s).records := by
  cases op with
  | add new => exact ⟨(keeps _).trans numbered.nextNumber, numbered⟩
  | copy place new =>
    simp only [Op.run]
    split
    · exact numbered
    · exact ⟨(keeps _ _).trans numbered.nextNumber, numbered⟩
  | modify place change => exact (numbered_modify keeps _).mpr numbered
  | saveRow place =>
    simp only [Op.run]
    split <;> exact numbered
  | saveHead => exact numbered

theorem Numbered.runs {Call : Type*} {op : Call → Op Record}
    (numbered : Numbered number s.records) (calls : List Call)
    (keeps : ∀ call, (op call).Keeps number) :
    Numbered number (s.run number op calls).records := by
  induction calls generalizing s with
  | nil => exact numbered
  | cons call calls ih => exact ih (numbered.run (keeps call))

end Run

/-! ## Parts that are out of date -/

/-- Which parts may be out of date: the head page, the rows of the last two records, and those
of the records before. -/
structure Dirty where
  head : Bool
  last : Bool
  previous : Bool
  older : Bool
  deriving DecidableEq, Repr

namespace Dirty

/-- The parts after an operation; a change may be visible or not. -/
def after (visible : Bool) (d : Dirty) : Op Record → Dirty
  | .add _ | .copy _ _ => ⟨true, true, d.last, d.previous || d.older⟩
  | .modify .last _ => { d with head := d.head || visible, last := d.last || visible }
  | .modify .previous _ => { d with previous := d.previous || visible }
  | .saveRow .last => { d with last := false }
  | .saveRow .previous => { d with previous := false }
  | .saveHead => { d with head := false }

/-- Some calls, each with what is seen of it, in order. -/
def run {Call : Type*} (op : Call → Op Record) (visible : Call → Bool) (d : Dirty)
    (calls : List Call) : Dirty :=
  calls.foldl (fun d call => d.after (visible call) (op call)) d

/-- No part is out of date that is not also in the other list. -/
structure Le (d d' : Dirty) : Prop where
  head : d'.head = false → d.head = false
  last : d'.last = false → d.last = false
  previous : d'.previous = false → d.previous = false
  older : d'.older = false → d.older = false

instance : LE Dirty := ⟨Le⟩

/-- The comparison, computed. -/
def leb (d d' : Dirty) : Bool :=
  (!d.head || d'.head) && (!d.last || d'.last) && (!d.previous || d'.previous) &&
    (!d.older || d'.older)

theorem le_of_leb {d d' : Dirty} (computed : d.leb d' = true) : d ≤ d' := by
  simp only [leb, Bool.and_eq_true, Bool.or_eq_true, Bool.not_eq_true'] at computed
  obtain ⟨⟨⟨head, last⟩, previous⟩, older⟩ := computed
  exact ⟨fun h => head.resolve_right (by simp [h]), fun h => last.resolve_right (by simp [h]),
    fun h => previous.resolve_right (by simp [h]), fun h => older.resolve_right (by simp [h])⟩

theorem le_refl (d : Dirty) : d ≤ d := ⟨id, id, id, id⟩

theorem le_trans {d d' d'' : Dirty} (le : d ≤ d') (le' : d' ≤ d'') : d ≤ d'' :=
  ⟨le.head ∘ le'.head, le.last ∘ le'.last, le.previous ∘ le'.previous, le.older ∘ le'.older⟩

end Dirty

section Sound

variable (number : Record → Nat) (view : Record → View)

/-- The row of a record is up to date. -/
def Clean (s : Store Record) (i : Nat) : Prop :=
  ∀ r, s.records[i]? = some r → (s.rows (number r)).map view = some (view r)

/-- The other parts are up to date. -/
structure Sound (d : Dirty) (s : Store Record) : Prop where
  head : d.head = false → s.head.map view = s.records.head?.map view
  last : d.last = false → Clean number view s 0
  previous : d.previous = false → Clean number view s 1
  older : d.older = false → ∀ i, 2 ≤ i → Clean number view s i

/-- No change of the operation is seen. -/
def Op.Hidden : Op Record → Prop
  | .modify _ change => ∀ r, view (change r) = view r
  | _ => True

variable {number view} {d d' : Dirty} {s : Store Record} {visible : Bool} {op : Op Record}

theorem Sound.mono (le : d ≤ d') (sound : Sound number view d s) : Sound number view d' s :=
  ⟨fun h => sound.head (le.head h), fun h => sound.last (le.last h),
    fun h => sound.previous (le.previous h), fun h => sound.older (le.older h)⟩

/-- A new record moves the others one place back. -/
theorem Sound.push (sound : Sound number view d s) (r : Record) :
    Sound number view ⟨true, true, d.last, d.previous || d.older⟩
      { s with records := r :: s.records } where
  head h := by cases h
  last h := by cases h
  previous h := sound.last h
  older h i le := by
    rw [Bool.or_eq_false_iff] at h
    obtain ⟨i, rfl⟩ : ∃ j, i = j + 1 := ⟨i - 1, by omega⟩
    rcases Nat.lt_or_ge i 2 with first | later
    · obtain rfl : i = 1 := by omega
      exact sound.previous h.1
    · exact sound.older h.2 i later

/-- A change of one record leaves the rows of the others as they are. -/
theorem Clean.modify {change : Record → Record} (keeps : ∀ r, number (change r) = number r)
    {i k : Nat} (clean : Clean number view s i)
    (seen : i = k → ∀ r, view (change r) = view r) :
    Clean number view { s with records := s.records.modify k change } i := by
  intro r get
  rw [List.getElem?_modify] at get
  obtain ⟨before, was, rfl⟩ := Option.map_eq_some_iff.mp get
  split
  · rename_i same
    rw [keeps, seen same.symm]
    exact clean before was
  · exact clean before was

/-- Storing one row leaves the others as they are. -/
theorem Clean.saveRow (numbered : Numbered number s.records) {i k : Nat} {r : Record}
    (get : s.records[k]? = some r) (clean : i ≠ k → Clean number view s i) :
    Clean number view { s with rows := Function.update s.rows (number r) (some r) } i := by
  intro r' get'
  by_cases same : i = k
  · cases same
    cases get.symm.trans get'
    exact congrArg (Option.map view) (Function.update_self (number r) (some r) s.rows)
  · have here := numbered.get get
    have there := numbered.get get'
    have other : number r' ≠ number r := by omega
    exact (congrArg (Option.map view) (Function.update_of_ne other (some r) s.rows)).trans
      (clean same r' get')

/-- One operation is followed right. -/
theorem Sound.step (sound : Sound number view d s) (numbered : Numbered number s.records)
    (keeps : op.Keeps number) (seen : visible = true ∨ op.Hidden view) :
    Sound number view (d.after visible op) (op.run number s) := by
  cases op with
  | add new => exact sound.push _
  | copy place new =>
    simp only [Op.run]
    split
    · rename_i missing
      -- there are too few records for a copy, so that no row but the last one matters
      have few (i : Nat) (pos : 1 ≤ i) : Clean number view s i := by
        intro r get
        rw [List.getElem?_eq_none_iff] at missing
        have short : s.records.length ≤ 1 := by
          cases place <;> simp only [Place.index] at missing <;> omega
        have there := numbered.get get
        omega
      refine ⟨fun h => ?_, fun h => ?_, fun _ => few 1 (Nat.le_refl 1), fun _ i le => few i ?_⟩
      · cases h
      · cases h
      · omega
    · exact sound.push _
  | modify place change =>
    have hidden (h : visible = false) (r : Record) : view (change r) = view r := by
      rcases seen with shown | hidden
      · cases h.symm.trans shown
      · exact hidden r
    cases place with
    | last =>
      refine ⟨fun h => ?_, fun h => ?_, fun h => ?_, fun h i le => ?_⟩
      · obtain ⟨clean, same⟩ := Bool.or_eq_false_iff.mp h
        refine (sound.head clean).trans ?_
        simp only [Op.run]
        cases s.records with
        | nil => rfl
        | cons last rest => exact congrArg some (hidden same last).symm
      · obtain ⟨clean, same⟩ := Bool.or_eq_false_iff.mp h
        exact (sound.last clean).modify keeps fun _ => hidden same
      · exact (sound.previous h).modify keeps fun other => by cases other
      · exact (sound.older h i le).modify keeps fun other => by simp [Place.index] at other; omega
    | previous =>
      refine ⟨fun h => ?_, fun h => ?_, fun h => ?_, fun h i le => ?_⟩
      · refine (sound.head h).trans ?_
        simp only [Op.run]
        cases s.records <;> rfl
      · exact (sound.last h).modify keeps fun other => by cases other
      · obtain ⟨clean, same⟩ := Bool.or_eq_false_iff.mp h
        exact (sound.previous clean).modify keeps fun _ => hidden same
      · exact (sound.older h i le).modify keeps fun other => by simp [Place.index] at other; omega
  | saveRow place =>
    simp only [Op.run]
    split
    · rename_i missing
      cases place with
      | last =>
        exact ⟨sound.head, fun _ r get => (by cases missing.symm.trans get), sound.previous,
          sound.older⟩
      | previous =>
        exact ⟨sound.head, sound.last, fun _ r get => (by cases missing.symm.trans get),
          sound.older⟩
    · rename_i r get
      cases place with
      | last =>
        exact ⟨sound.head, fun _ => .saveRow numbered get fun other => absurd rfl other,
          fun h => .saveRow numbered get fun _ => sound.previous h,
          fun h i le => .saveRow numbered get fun _ => sound.older h i le⟩
      | previous =>
        exact ⟨sound.head, fun h => .saveRow numbered get fun _ => sound.last h,
          fun _ => .saveRow numbered get fun other => absurd rfl other,
          fun h i le => .saveRow numbered get fun _ => sound.older h i le⟩
  | saveHead => exact ⟨fun _ => rfl, sound.last, sound.previous, sound.older⟩

/-- A list of calls is followed right. -/
theorem Sound.run {Call : Type*} {op : Call → Op Record} {seen : Call → Bool}
    (sound : Sound number view d s) (numbered : Numbered number s.records) (calls : List Call)
    (keeps : ∀ call, (op call).Keeps number)
    (visible : ∀ call, seen call = true ∨ (op call).Hidden view) :
    Sound number view (d.run op seen calls) (s.run number op calls) := by
  induction calls generalizing d s with
  | nil => exact sound
  | cons call calls ih =>
    exact ih (sound.step numbered (keeps call) (visible call)) (numbered.run (keeps call))

end Sound

/-! ## Reading back -/

/-- The rows with smaller numbers, latest first, when they are all there. -/
def older (rows : Nat → Option Record) : Nat → Option (List Record)
  | 0 => some []
  | n + 1 =>
    match rows n with
    | none => none
    | some r => (older rows n).map (r :: ·)

/-- Reading the records back: the last one from the head page, the others from the table. -/
def Store.reload (number : Record → Nat) (s : Store Record) : Option (List Record) :=
  match s.head with
  | none => some []
  | some r => (older s.rows (number r)).map (r :: ·)

section Reload

variable {number : Record → Nat} {view : Record → View} {s : Store Record} {d : Dirty}

theorem older_view {rows : Nat → Option Record} {records : List Record}
    (numbered : Numbered number records)
    (clean : ∀ r ∈ records, (rows (number r)).map view = some (view r)) :
    (older rows records.length).map (List.map view) = some (records.map view) := by
  induction records with
  | nil => rfl
  | cons first rest ih =>
    have row := clean first List.mem_cons_self
    rw [numbered.1] at row
    obtain ⟨stored, there, same⟩ := Option.map_eq_some_iff.mp row
    have before := ih numbered.2 fun r member => clean r (List.mem_cons_of_mem _ member)
    obtain ⟨left, read, eq⟩ := Option.map_eq_some_iff.mp before
    rw [List.length_cons, older, there, read]
    simp only [Option.map_some, List.map_cons, same, eq]

/-- Reading back gives the records, up to the view, when only the row of the last one may be
out of date. -/
theorem Store.reload_view (numbered : Numbered number s.records)
    (sound : Sound number view ⟨false, d.last, false, false⟩ s)
    (determines : ∀ r r', view r = view r' → number r = number r') :
    (s.reload number).map (List.map view) = some (s.records.map view) := by
  have head := sound.head rfl
  unfold Store.reload
  cases records : s.records with
  | nil =>
    rw [records, List.head?_nil, Option.map_none, Option.map_eq_none_iff] at head
    rw [head]
    rfl
  | cons last rest =>
    rw [records, List.head?_cons, Option.map_some] at head
    obtain ⟨stored, there, same⟩ := Option.map_eq_some_iff.mp head
    rw [records] at numbered
    have before : (older s.rows rest.length).map (List.map view) = some (rest.map view) := by
      apply older_view numbered.2
      intro r member
      obtain ⟨i, get⟩ := List.mem_iff_getElem?.mp member
      have row : s.records[i + 1]? = some r := by rw [records]; exact get
      cases i with
      | zero => exact sound.previous rfl r row
      | succ i => exact sound.older rfl (i + 2) (by omega) r row
    obtain ⟨left, read, eq⟩ := Option.map_eq_some_iff.mp before
    simp only [there, determines _ _ same, numbered.1, read, Option.map_some, List.map_cons, same,
      eq]

/-- After the records are read back they are the ones in memory, and the same parts are up to
date. -/
theorem Sound.reload (numbered : Numbered number s.records)
    (sound : Sound number view ⟨false, false, false, false⟩ s)
    (determines : ∀ r r', view r = view r' → number r = number r') {read : List Record}
    (eq : s.reload number = some read) :
    Numbered number read ∧
      Sound number view ⟨false, false, false, false⟩ { s with records := read } := by
  have same : read.map view = s.records.map view := by
    have viewed := Store.reload_view (d := ⟨false, false, false, false⟩) numbered sound determines
    rw [eq] at viewed
    exact Option.some.inj viewed
  have numbers {left right : List Record} (same : left.map view = right.map view)
      (numbered : Numbered number right) : Numbered number left := by
    induction left generalizing right with
    | nil => trivial
    | cons r left ih =>
      cases right with
      | nil => cases same
      | cons r' right =>
        obtain ⟨first, rest⟩ := List.cons.inj same
        have length := congrArg List.length rest
        rw [List.length_map, List.length_map] at length
        exact ⟨(determines _ _ first).trans (numbered.1.trans length.symm), ih rest numbered.2⟩
  have numbered' := numbers same numbered
  -- every record but the first one is a row, and the first one is the head page
  have head : s.head = read.head? := by
    unfold Store.reload at eq
    split at eq
    · cases eq
      assumption
    · rename_i r there
      obtain ⟨left, -, rfl⟩ := Option.map_eq_some_iff.mp eq
      exact there
  have clean (i : Nat) : Clean number view { s with records := read } i := by
    intro r get
    have get' : (read.map view)[i]? = some (view r) := by
      rw [List.getElem?_map]
      exact congrArg (Option.map view) get
    rw [same, List.getElem?_map] at get'
    obtain ⟨before, was, eqv⟩ := Option.map_eq_some_iff.mp get'
    have row : (s.rows (number before)).map view = some (view before) := by
      match i with
      | 0 => exact sound.last rfl before was
      | 1 => exact sound.previous rfl before was
      | i + 2 => exact sound.older rfl (i + 2) (Nat.le_add_left 2 i) before was
    rw [determines _ _ eqv, eqv] at row
    exact row
  exact ⟨numbered', fun _ => congrArg (Option.map view) head, fun _ => clean 0, fun _ => clean 1,
    fun _ i _ => clean i⟩

end Reload

end WriteBack
