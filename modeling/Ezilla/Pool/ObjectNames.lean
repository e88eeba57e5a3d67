import Ezilla.Lib.Transition
import Ezilla.Lib.UniqueTable
import Ezilla.Pool.ObjectBody

/-!
# Names of the objects of a pool

Images and networks have names that are unique for each owner. A request that allocates,
renames or gives away an object first looks the name up and then, in a section of its own,
writes the object. An object is inserted with `INSERT` and updated with `REPLACE`; its body has
to be a document for that, and it is the body that the object is read from later.

* `NamePool.next`: the sections of the requests;
* `NamePool.Law`: rows only go away when they are deleted, and a request about an object
  that is gone fails;
* `NamePool.names_lawful_of_reached`: the runs in which this holds.

What the cache by name holds at a look-up is part of the label: it can be behind the table,
and nothing that is proved depends on it.
-/

namespace Ezilla

open Transition

/-- `PoolObjectSQL::name_is_valid`. -/
def nameIsValid (name : String) : Bool :=
  name ≠ "" && !(name.toList.any fun c => c ∈ "&|:\\\";/'#\x7b\x7d$".toList) &&
    name.utf8ByteSize ≤ 128

/-- What the cache by name holds under a name and owner: the object, whether it is valid, and
whether it still is when it gets locked. -/
structure NameHit where
  oid : Nat
  valid : Bool
  validLocked : Bool

/-- A request in progress. -/
inductive NameTask where
  /-- an allocation whose name was looked up -/
  | allocating (o : NamedObject)
  /-- an image that was inserted -/
  | registering (oid : Nat)
  /-- a rename that was authorized; the owner is the one that was read then -/
  | rename (oid : Nat) (newName : String) (uid : Int)
  /-- a rename whose name was looked up -/
  | renaming (oid : Nat) (newName : String)
  /-- a chown that was authorized -/
  | chown (oid : Nat) (newUid newGid : Int)
  /-- a chown that has read the name of the object -/
  | chownNamed (oid : Nat) (newUid newGid : Int) (name : String)
  /-- a chown whose name was looked up -/
  | chowning (oid : Nat) (newUid newGid : Int)

/-- The object that a rename or a chown is about. -/
def NameTask.changes : NameTask → Option Nat
  | .rename oid _ _ => some oid
  | .renaming oid _ => some oid
  | .chown oid _ _ => some oid
  | .chownNamed oid _ _ _ => some oid
  | .chowning oid _ _ => some oid
  | _ => none

/-- The sections of the requests. `allowed` is the outcome of the authorization, `quota` that
of the quotas of a chown, and `registered` that of `register_image` and `clone_image`; `data` is
the rest of the body that is written. -/
inductive NameStep where
  | allocate (thread : Nat) (o : NamedObject) (hit : Option NameHit)
  | insert (thread : Nat) (image : Bool) (data : ObjectData)
  | register (thread : Nat) (registered : Bool)
  | rename (thread oid : Nat) (newName : String) (allowed : Bool)
  | chown (thread oid : Nat) (newUid newGid : Int) (oneadmin allowed : Bool)
  | readName (thread : Nat)
  | check (thread : Nat) (hit : Option NameHit)
  | update (thread : Nat) (quota : Bool) (data : ObjectData)
  | delete (oid : Nat)
  /-- an object is read into the cache by another request -/
  | load (oid : Nat)
  /-- `PoolSQL::replace` -/
  | evict (oid : Nat)
  /-- the daemon is started again and reads the next id -/
  | restart (nextOid : Nat)

def NameStep.thread? : NameStep → Option Nat
  | .allocate thread _ _ => some thread
  | .insert thread _ _ => some thread
  | .register thread _ => some thread
  | .rename thread _ _ _ => some thread
  | .chown thread _ _ _ _ _ => some thread
  | .readName thread => some thread
  | .check thread _ => some thread
  | .update thread _ _ => some thread
  | _ => none

/-- A row: the columns of the object, and its body. -/
structure NameRow where
  object : NamedObject
  body : List Char

/-- The columns of `UNIQUE(name, uid)`. -/
def NameRow.key (row : NameRow) : String × Int := row.object.key

/-- What the objects of a pool have in common: the root of their bodies, and how the database
escapes a text. -/
structure PoolKind where
  root : List Char
  escape : List Char → List Char

/-- The table, the valid objects in memory, and the requests. -/
structure NamePool where
  table : UniqueTable Nat NameRow.key true
  cached : Nat → Option NamedObject
  nextOid : Nat
  tasks : Nat → Option NameTask
  crashed : Bool

/-- The object with a new owner and group, where -1 keeps the old. -/
def NamedObject.chowned (o : NamedObject) (newUid newGid : Int) : NamedObject :=
  { o with
    uid := if newUid = -1 then o.uid else newUid
    gid := if newGid = -1 then o.gid else newGid }

namespace NamePool

variable (k : PoolKind) (s : NamePool)

/-- The object that is read from the body of a row. -/
def read (oid : Nat) : Option NamedObject :=
  (s.table.find oid).bind fun row => (NamedObject.fromXml k.root row.body).bind fun found =>
    if found.1 = oid then some found.2 else none

/-- `PoolSQL::get` of an id. -/
def get (oid : Nat) : Option NamedObject :=
  match s.cached oid with
  | some o => some o
  | none => s.read k oid

/-- An object that was got is in memory. -/
def load (oid : Nat) : NamePool :=
  { s with cached := Function.update s.cached oid (s.get k oid) }

/-- `PoolObjectSQL::select` of a name and owner, which the body has to have as well. -/
def select (key : String × Int) : Option Nat :=
  (s.table.findKey key).filter fun oid => ((s.read k oid).map NamedObject.key) = some key

/-- `PoolSQL::get` of a name and owner. -/
def getByName (hit : Option NameHit) (lock : Bool) (key : String × Int) : Option Nat :=
  match hit with
  | some h =>
    if h.valid then (if lock && !h.validLocked then none else some h.oid)
    else s.select k key
  | none => s.select k key

def setTask (thread : Nat) (task : Option NameTask) : NamePool :=
  { s with tasks := Function.update s.tasks thread task }

/-- `PoolSQL::update` of a locked object; nobody asks whether it could be stored. -/
def write (oid : Nat) (o : NamedObject) (data : ObjectData) : NamePool :=
  let body := o.toXml k.root oid data
  { s with
    table := if NamedObject.isXml (k.escape body) then s.table.replace oid ⟨o, body⟩ else s.table
    cached := Function.update s.cached oid (some o) }

/-- `PoolSQL::drop`. -/
def drop (oid : Nat) : NamePool :=
  { s with
    table := s.table.delete oid
    cached := Function.update s.cached oid none }

/-- The look-up of `ImagePool::allocate` and `VirtualNetworkPool::allocate`. -/
def allocate (thread : Nat) (o : NamedObject) (hit : Option NameHit) : Answer × NamePool :=
  if !nameIsValid o.name then (.failure, s)
  else
    match s.getByName k hit false o.key with
    | some _ => (.failure, s)
    | none => (.pending, s.setTask thread (some (.allocating o)))

/-- `PoolSQL::allocate`. -/
def insert (thread : Nat) (o : NamedObject) (image : Bool) (data : ObjectData) :
    Answer × NamePool :=
  let body := o.toXml k.root s.nextOid data
  if !NamedObject.isXml (k.escape body) then (.failure, s.setTask thread none)
  else
    match s.table.insert s.nextOid ⟨o, body⟩ with
    | none => (.failure, s.setTask thread none)
    | some table =>
      let s' := { s with table, nextOid := s.nextOid + 1 }
      if image then (.pending, s'.setTask thread (some (.registering s.nextOid)))
      else (.success, s'.setTask thread none)

/-- An image that cannot be registered is dropped again. -/
def register (thread oid : Nat) (registered : Bool) : Answer × NamePool :=
  if registered then (.success, s.setTask thread none)
  else
    match s.get k oid with
    | some _ => (.failure, (s.drop oid).setTask thread none)
    | none => (.failure, s.setTask thread none)

/-- `RequestManagerRename::request_execute` up to the authorization. -/
def rename (thread oid : Nat) (newName : String) (allowed : Bool) : Answer × NamePool :=
  match s.get k oid with
  | none => (.failure, s)
  | some o =>
    if o.name = newName then (.success, s.load k oid)
    else if !allowed then (.failure, s.load k oid)
    else (.pending, (s.load k oid).setTask thread (some (.rename oid newName o.uid)))

/-- `RequestManagerChown::request_execute` up to the authorization; oneadmin is not asked. -/
def chown (thread oid : Nat) (newUid newGid : Int) (oneadmin allowed : Bool) :
    Answer × NamePool :=
  let goOn (s : NamePool) : Answer × NamePool :=
    if !allowed then (.failure, s)
    else (.pending, s.setTask thread
      (some (if newUid = -1 then .chowning oid newUid newGid else .chown oid newUid newGid)))
  if oneadmin then goOn s
  else if (s.get k oid).isNone then (.failure, s)
  else goOn (s.load k oid)

/-- The first section of `RequestManagerChown::check_name_unique`. -/
def readName (thread oid : Nat) (newUid newGid : Int) : Answer × NamePool :=
  match s.get k oid with
  | none => (.failure, s.setTask thread none)
  | some o =>
    (.pending, (s.load k oid).setTask thread (some (.chownNamed oid newUid newGid o.name)))

/-- The look-up of the new name and owner. -/
def check (thread : Nat) (hit : Option NameHit) (key : String × Int) (task : NameTask) :
    Answer × NamePool :=
  match s.getByName k hit true key with
  | some _ => (.failure, s.setTask thread none)
  | none => (.pending, s.setTask thread (some task))

/-- The last section of a rename. Without an object it answers and goes on. -/
def updateRename (thread oid : Nat) (newName : String) (data : ObjectData) : Answer × NamePool :=
  match s.get k oid with
  | none => (.pending, { s with crashed := true })
  | some o =>
    if !nameIsValid newName then (.failure, (s.load k oid).setTask thread none)
    else (.success, (s.write k oid { o with name := newName } data).setTask thread none)

/-- The last section of a chown, with the quotas before it. -/
def updateChown (thread oid : Nat) (newUid newGid : Int) (quota : Bool) (data : ObjectData) :
    Answer × NamePool :=
  if !quota then (.failure, s.setTask thread none)
  else
    match s.get k oid with
    | none => (.failure, s.setTask thread none)
    | some o => (.success, (s.write k oid (o.chowned newUid newGid) data).setTask thread none)

/-- One section, where it is possible. -/
def next : NameStep → Option (Answer × NamePool)
  | .allocate thread o hit =>
    if (s.tasks thread).isSome then none else some (s.allocate k thread o hit)
  | .insert thread image data =>
    match s.tasks thread with
    | some (.allocating o) => some (s.insert k thread o image data)
    | _ => none
  | .register thread registered =>
    match s.tasks thread with
    | some (.registering oid) => some (s.register k thread oid registered)
    | _ => none
  | .rename thread oid newName allowed =>
    if (s.tasks thread).isSome then none else some (s.rename k thread oid newName allowed)
  | .chown thread oid newUid newGid oneadmin allowed =>
    if (s.tasks thread).isSome then none
    else some (s.chown k thread oid newUid newGid oneadmin allowed)
  | .readName thread =>
    match s.tasks thread with
    | some (.chown oid newUid newGid) => some (s.readName k thread oid newUid newGid)
    | _ => none
  | .check thread hit =>
    match s.tasks thread with
    | some (.rename oid newName uid) =>
      some (s.check k thread hit (newName, uid) (.renaming oid newName))
    | some (.chownNamed oid newUid newGid name) =>
      some (s.check k thread hit (name, newUid) (.chowning oid newUid newGid))
    | _ => none
  | .update thread quota data =>
    match s.tasks thread with
    | some (.renaming oid newName) => some (s.updateRename k thread oid newName data)
    | some (.chowning oid newUid newGid) =>
      some (s.updateChown k thread oid newUid newGid quota data)
    | _ => none
  | .delete oid =>
    match s.get k oid with
    | none => some (.failure, s)
    | some _ => some (.success, s.drop oid)
  | .load oid => some (.success, s.load k oid)
  | .evict oid => some (.success, { s with cached := Function.update s.cached oid none })
  | .restart nextOid =>
    some (.success,
      { table := s.table, cached := fun _ => none, nextOid, tasks := fun _ => none,
        crashed := false })

/-- A section of a daemon that has not crashed, or its next start. -/
def Step (s : NamePool) (l : NameStep) (s' : NamePool) : Prop :=
  (s.crashed = false ∨ ∃ nextOid, l = .restart nextOid) ∧ ∃ answer, s.next k l = some (answer, s')

/-- A daemon that was just started on a new database. -/
def Started (s : NamePool) : Prop :=
  s.table = .empty ∧ (∀ oid, s.cached oid = none) ∧ (∀ thread, s.tasks thread = none) ∧
    s.crashed = false

/-! ## The laws -/

/-- No two objects have the same name and owner. -/
def Unique : Prop :=
  ∀ a b x y, s.get k a = some x → s.get k b = some y → x.key = y.key → a = b

/-- A row only goes away when its object is deleted, and a rename or chown of an object that
is gone is answered with failure and changes nothing. -/
def Law (l : NameStep) : Prop :=
  ∀ answer s', s.next k l = some (answer, s') →
    (∀ oid, s.table.find oid ≠ none → s'.table.find oid = none → l = .delete oid) ∧
    ∀ thread task oid, l.thread? = some thread → s.tasks thread = some task →
      task.changes = some oid → s.get k oid = none →
      answer ≠ .success ∧ (∀ quota data, l = .update thread quota data → answer = .failure) ∧
        s'.table = s.table ∧ (∀ o, s'.get k o = s.get k o) ∧ s'.crashed = false

/-- No other object has the name and owner. -/
def Free (oid : Nat) (key : String × Int) : Prop :=
  ∀ other, other ≠ oid → ∀ row, s.table.find other = some row → row.key ≠ key

/-- The body of an object is a document, and the object is read from it as it was written. -/
structure Stored (oid : Nat) (o : NamedObject) (data : ObjectData) : Prop where
  document : NamedObject.isXml (k.escape (o.toXml k.root oid data)) = true
  readsBack : o.ReadsBack k.root oid data

/-- When an object is written nobody has got its new name and owner since the look-up, an object
that is renamed still exists, images are registered, and bodies are read as they were written. -/
def Meets : NameStep → Prop
  | .insert thread _ data =>
    match s.tasks thread with
    | some (.allocating o) =>
      NamedObject.isXml (k.escape (o.toXml k.root s.nextOid data)) = true →
        o.ReadsBack k.root s.nextOid data
    | _ => True
  | .register _ registered => registered = true
  | .update thread quota data =>
    match s.tasks thread with
    | some (.renaming oid newName) => ∃ o, s.get k oid = some o ∧ (nameIsValid newName →
      s.Free oid (newName, o.uid) ∧ Stored k oid { o with name := newName } data)
    | some (.chowning oid newUid newGid) => quota → ∀ o, s.get k oid = some o →
      (newUid ≠ -1 → s.Free oid (o.name, newUid)) ∧ Stored k oid (o.chowned newUid newGid) data
    | _ => True
  | _ => True

/-! ## What a section does -/

/-- The bodies have what the columns have, and an object in memory is as its row. -/
structure Sound : Prop where
  bodies : ∀ oid row, s.table.find oid = some row →
    NamedObject.fromXml k.root row.body = some ((oid : Int), row.object)
  memory : ∀ oid o, s.cached oid = some o → (s.table.find oid).map NameRow.object = some o

/-- The effect of a section on the table and the objects in memory. -/
inductive Effect (s : NamePool) (l : NameStep) (s' : NamePool) : Prop where
  | same (table : s'.table = s.table)
      (cached : ∀ oid, s'.cached oid = s.cached oid ∨
        s'.cached oid = (s.table.find oid).map NameRow.object ∨ s'.cached oid = none)
  | insert (row : NameRow) (table : s.table.insert s.nextOid row = some s'.table)
      (cached : s'.cached = s.cached)
      (body : NamedObject.fromXml k.root row.body = some ((s.nextOid : Int), row.object))
  | write (oid : Nat) (row : NameRow) (there : s.get k oid ≠ none) (free : s.Free oid row.key)
      (table : s'.table = s.table.replace oid row)
      (cached : s'.cached = Function.update s.cached oid (some row.object))
      (body : NamedObject.fromXml k.root row.body = some ((oid : Int), row.object))
  | delete (oid : Nat) (asked : l = .delete oid) (table : s'.table = s.table.delete oid)
      (cached : s'.cached = Function.update s.cached oid none)

variable {k} {s} {s' : NamePool} {l : NameStep} {answer : Answer}

theorem Sound.read_eq (sound : s.Sound k) (oid : Nat) :
    s.read k oid = (s.table.find oid).map NameRow.object := by
  unfold read
  cases found : s.table.find oid with
  | none => rfl
  | some row =>
    rw [Option.bind_some, sound.bodies oid row found, Option.bind_some, if_pos rfl,
      Option.map_some]

theorem Sound.get_eq (sound : s.Sound k) (oid : Nat) :
    s.get k oid = (s.table.find oid).map NameRow.object := by
  unfold get
  cases is : s.cached oid with
  | none => exact sound.read_eq oid
  | some o => exact (sound.memory oid o is).symm

/-- A look-up by name finds the row with the columns. -/
theorem Sound.select_eq (sound : s.Sound k) (key : String × Int) :
    s.select k key = s.table.findKey key := by
  unfold select
  cases found : s.table.findKey key with
  | none => rfl
  | some oid =>
    obtain ⟨row, there, has⟩ := UniqueTable.exists_of_findKey found
    refine Option.filter_some_pos (decide_eq_true ?_)
    rw [sound.read_eq, there]
    exact congrArg some has

theorem Sound.load_cached (sound : s.Sound k) (oid other : Nat) :
    (s.load k oid).cached other = s.cached other ∨
      (s.load k oid).cached other = (s.table.find other).map NameRow.object ∨
      (s.load k oid).cached other = none := by
  by_cases here : other = oid
  · subst here
    exact Or.inr (Or.inl ((Function.update_self _ _ _).trans (sound.get_eq other)))
  · exact Or.inl (Function.update_of_ne here _ _)

theorem Effect.sound (sound : s.Sound k) (effect : Effect k s l s') : s'.Sound k := by
  cases effect with
  | same table cached =>
    refine ⟨fun oid row found => sound.bodies oid row (table ▸ found), fun oid o is => ?_⟩
    rw [table]
    rcases cached oid with old | row | none
    · exact sound.memory oid o (old ▸ is)
    · exact row ▸ is
    · rw [none] at is
      cases is
  | insert new table cached body =>
    refine ⟨fun oid row found => ?_, fun oid o is => ?_⟩
    · obtain ⟨-, rows⟩ := UniqueTable.find_insert (c := oid) table
      rw [rows] at found
      split at found
      · rename_i here
        cases found
        rw [here]
        exact body
      · exact sound.bodies oid row found
    · rw [cached] at is
      obtain ⟨fresh, rows⟩ := UniqueTable.find_insert (c := oid) table
      have row := sound.memory oid o is
      rw [rows, if_neg (by rintro rfl; rw [fresh] at row; cases row)]
      exact row
  | write oid new there free table cached body =>
    refine ⟨fun other row found => ?_, fun other o is => ?_⟩
    · rw [table] at found
      by_cases here : other = oid
      · subst here
        rw [UniqueTable.find_replace_self] at found
        cases found
        exact body
      · rw [UniqueTable.find_replace_ne here fun _ c d ne => free c ne d] at found
        exact sound.bodies other row found
    · rw [cached] at is
      rw [table]
      by_cases here : other = oid
      · subst here
        rw [Function.update_self] at is
        rw [UniqueTable.find_replace_self]
        exact is
      · rw [Function.update_of_ne here] at is
        rw [UniqueTable.find_replace_ne here fun _ c d ne => free c ne d]
        exact sound.memory other o is
  | delete oid asked table cached =>
    refine ⟨fun other row found => ?_, fun other o is => ?_⟩
    · rw [table] at found
      by_cases here : other = oid
      · subst here
        rw [UniqueTable.find_delete_self] at found
        cases found
      · rw [UniqueTable.find_delete_ne here] at found
        exact sound.bodies other row found
    · rw [cached] at is
      rw [table]
      by_cases here : other = oid
      · subst here
        rw [Function.update_self] at is
        cases is
      · rw [Function.update_of_ne here] at is
        rw [UniqueTable.find_delete_ne here]
        exact sound.memory other o is

/-- A row is kept, unless its object is deleted. -/
theorem Effect.kept (effect : Effect k s l s') (oid : Nat) (row : s.table.find oid ≠ none)
    (gone : s'.table.find oid = none) : l = .delete oid := by
  cases effect with
  | same table _ =>
    rw [table] at gone
    exact absurd gone row
  | insert row' table _ _ =>
    obtain ⟨-, rows⟩ := UniqueTable.find_insert (c := oid) table
    rw [rows] at gone
    split at gone
    · cases gone
    · exact absurd gone row
  | write oid' row' _ free table _ _ =>
    rw [table] at gone
    by_cases here : oid = oid'
    · subst here
      rw [UniqueTable.find_replace_self] at gone
      cases gone
    · rw [UniqueTable.find_replace_ne here fun _ c d ne => free c ne d] at gone
      exact absurd gone row
  | delete oid' asked table _ =>
    rw [table] at gone
    by_cases here : oid = oid'
    · rw [asked, here]
    · rw [UniqueTable.find_delete_ne here] at gone
      exact absurd gone row

/-- The last section of a rename or a chown writes an object that exists. -/
theorem effect_write {oid : Nat} {o : NamedObject} {data : ObjectData} {thread : Nat}
    (there : s.get k oid ≠ none) (free : s.Free oid o.key) (stored : Stored k oid o data) :
    Effect k s l ((s.write k oid o data).setTask thread none) :=
  .write oid ⟨o, o.toXml k.root oid data⟩ there free (if_pos stored.document) rfl stored.readsBack

theorem effect_check {hit : Option NameHit} {thread : Nat} {key : String × Int} {task : NameTask} :
    Effect k s l (s.check k thread hit key task).2 := by
  unfold check
  split
  · exact .same rfl fun _ => Or.inl rfl
  · exact .same rfl fun _ => Or.inl rfl

/-- Every section that meets the condition has one of the effects. -/
theorem effect_of_next (sound : s.Sound k) (meets : s.Meets k l)
    (taken : s.next k l = some (answer, s')) : Effect k s l s' := by
  have stays (thread : Nat) (task : Option NameTask) : Effect k s l (s.setTask thread task) :=
    .same rfl fun _ => Or.inl rfl
  have loads (oid thread : Nat) (task : Option NameTask) :
      Effect k s l ((s.load k oid).setTask thread task) := .same rfl (sound.load_cached oid)
  have loaded (oid : Nat) : Effect k s l (s.load k oid) := .same rfl (sound.load_cached oid)
  have nothing : Effect k s l s := .same rfl fun _ => Or.inl rfl
  cases l with
  | allocate thread o hit =>
    simp only [next, allocate] at taken
    split at taken
    · cases taken
    · split at taken
      · cases taken
        exact nothing
      · split at taken
        · cases taken
          exact nothing
        · cases taken
          exact stays thread _
  | insert thread image data =>
    simp only [next] at taken
    split at taken
    · rename_i o is
      simp only [Meets, is] at meets
      simp only [insert] at taken
      split at taken
      · cases taken
        exact stays thread _
      · rename_i document
        have body := meets (by simpa using document)
        split at taken
        · cases taken
          exact stays thread _
        · rename_i table inserted
          split at taken
          · cases taken
            exact .insert _ inserted rfl body
          · cases taken
            exact .insert _ inserted rfl body
    · cases taken
  | register thread registered =>
    simp only [next] at taken
    split at taken
    · rename_i oid is
      have registered : registered = true := meets
      simp only [register, registered, if_true] at taken
      cases taken
      exact stays thread _
    · cases taken
  | rename thread oid newName allowed =>
    simp only [next, rename] at taken
    split at taken
    · cases taken
    · split at taken
      · cases taken
        exact nothing
      · split at taken
        · cases taken
          exact loaded oid
        · split at taken
          · cases taken
            exact loaded oid
          · cases taken
            exact loads oid thread _
  | chown thread oid newUid newGid oneadmin allowed =>
    simp only [next, chown] at taken
    split at taken
    · cases taken
    · split at taken
      · split at taken
        · cases taken
          exact nothing
        · cases taken
          exact stays thread _
      · split at taken
        · cases taken
          exact nothing
        · split at taken
          · cases taken
            exact loaded oid
          · cases taken
            exact loads oid thread _
  | readName thread =>
    simp only [next] at taken
    split at taken
    · rename_i oid newUid newGid is
      simp only [readName] at taken
      split at taken
      · cases taken
        exact stays thread _
      · cases taken
        exact loads oid thread _
    · cases taken
  | check thread hit =>
    simp only [next] at taken
    split at taken
    · obtain rfl : _ = s' := congrArg Prod.snd (Option.some.inj taken)
      exact effect_check
    · obtain rfl : _ = s' := congrArg Prod.snd (Option.some.inj taken)
      exact effect_check
    · cases taken
  | update thread quota data =>
    simp only [next] at taken
    split at taken
    · rename_i oid newName is
      simp only [Meets, is] at meets
      obtain ⟨o, there, written⟩ := meets
      simp only [updateRename, there] at taken
      split at taken
      · cases taken
        exact loads oid thread _
      · rename_i valid
        obtain ⟨free, stored⟩ := written (by simpa using valid)
        cases taken
        exact effect_write (by rw [there]; exact Option.some_ne_none o) free stored
    · rename_i oid newUid newGid is
      simp only [Meets, is] at meets
      simp only [updateChown] at taken
      split at taken
      · cases taken
        exact stays thread _
      · rename_i accepted
        split at taken
        · cases taken
          exact stays thread _
        · rename_i o there
          obtain ⟨free, stored⟩ := meets (by simpa using accepted) o there
          cases taken
          refine effect_write (by rw [there]; exact Option.some_ne_none o) ?_ stored
          by_cases keeps : newUid = -1
          · intro other ne row found taken
            rw [sound.get_eq, Option.map_eq_some_iff] at there
            obtain ⟨old, found', rfl⟩ := there
            refine ne (UniqueTable.eq_of_key_eq found found' (taken.trans ?_))
            simp only [NameRow.key, NamedObject.key, NamedObject.chowned, if_pos keeps]
          · simp only [NamedObject.key, NamedObject.chowned, if_neg keeps]
            exact free keeps
    · cases taken
  | delete oid =>
    simp only [next] at taken
    split at taken
    · cases taken
      exact nothing
    · cases taken
      exact .delete oid rfl rfl rfl
  | load oid =>
    simp only [next] at taken
    cases taken
    exact loaded oid
  | evict oid =>
    simp only [next] at taken
    cases taken
    refine .same rfl fun other => ?_
    by_cases here : other = oid
    · subst here
      exact Or.inr (Or.inr (Function.update_self _ _ _))
    · exact Or.inl (Function.update_of_ne here _ _)
  | restart nextOid =>
    simp only [next] at taken
    cases taken
    exact .same rfl fun _ => Or.inr (Or.inr rfl)

/-- A section of a request about an object that is gone. -/
theorem fails_of_gone {thread oid : Nat} {task : NameTask} (meets : s.Meets k l)
    (taken : s.next k l = some (answer, s')) (mine : l.thread? = some thread)
    (is : s.tasks thread = some task) (changes : task.changes = some oid)
    (gone : s.get k oid = none) :
    answer ≠ .success ∧ (∀ quota data, l = .update thread quota data → answer = .failure) ∧
      s'.table = s.table ∧ (∀ o, s'.get k o = s.get k o) ∧ s'.crashed = s.crashed := by
  have stays (answer : Answer) (task : Option NameTask) (fails : answer ≠ .success)
      (last : ∀ quota data, l = .update thread quota data → answer = .failure) :
      answer ≠ .success ∧ (∀ quota data, l = .update thread quota data → answer = .failure) ∧
        (s.setTask thread task).table = s.table ∧
        (∀ o, (s.setTask thread task).get k o = s.get k o) ∧
        (s.setTask thread task).crashed = s.crashed :=
    ⟨fails, last, rfl, fun _ => rfl, rfl⟩
  cases l with
  | allocate thread' o hit =>
    cases mine
    simp only [next, is, Option.isSome_some, if_true] at taken
    cases taken
  | rename thread' oid' newName allowed =>
    cases mine
    simp only [next, is, Option.isSome_some, if_true] at taken
    cases taken
  | chown thread' oid' newUid newGid oneadmin allowed =>
    cases mine
    simp only [next, is, Option.isSome_some, if_true] at taken
    cases taken
  | insert thread' image data =>
    cases mine
    simp only [next, is] at taken
    split at taken
    · rename_i same
      cases same
      cases changes
    · cases taken
  | register thread' registered =>
    cases mine
    simp only [next, is] at taken
    split at taken
    · rename_i same
      cases same
      cases changes
    · cases taken
  | readName thread' =>
    cases mine
    simp only [next, is] at taken
    split at taken
    · rename_i oid' newUid newGid same
      cases same
      cases changes
      simp only [readName, gone] at taken
      cases taken
      exact stays .failure none nofun fun _ _ impossible => by cases impossible
    · cases taken
  | check thread' hit =>
    cases mine
    have checked {key : String × Int} {next : NameTask}
        (taken : some (s.check k thread hit key next) = some (answer, s')) :
        answer ≠ .success ∧
          (∀ quota data, NameStep.check thread hit = .update thread quota data →
            answer = .failure) ∧
          s'.table = s.table ∧ (∀ o, s'.get k o = s.get k o) ∧ s'.crashed = s.crashed := by
      unfold check at taken
      split at taken
      · cases taken
        exact stays .failure none nofun fun _ _ impossible => by cases impossible
      · cases taken
        exact stays .pending _ nofun fun _ _ impossible => by cases impossible
    simp only [next, is] at taken
    split at taken
    · exact checked taken
    · exact checked taken
    · cases taken
  | update thread' quota data =>
    cases mine
    simp only [next, is] at taken
    split at taken
    · rename_i oid' newName same
      cases same
      cases changes
      simp only [Meets, is, gone] at meets
      obtain ⟨o, impossible, -⟩ := meets
      cases impossible
    · rename_i oid' newUid newGid same
      cases same
      cases changes
      simp only [updateChown, gone] at taken
      split at taken
      · cases taken
        exact stays .failure none nofun fun _ _ _ => rfl
      · cases taken
        exact stays .failure none nofun fun _ _ _ => rfl
    · cases taken
  | delete oid' => cases mine
  | load oid' => cases mine
  | evict oid' => cases mine
  | restart nextOid => cases mine

/-- A look-up that asked the table keeps the condition for the update after it, as long as
nobody writes and the new name is read back. -/
theorem meets_of_check {s₁ : NamePool} {thread oid : Nat} {newName : String} {o : NamedObject}
    {hit : Option NameHit} {quota : Bool} {data : ObjectData} (sound : s.Sound k)
    (stale : ∀ h ∈ hit, h.valid = false)
    (is : s.tasks thread = some (.rename oid newName o.uid))
    (checked : s.next k (.check thread hit) = some (.pending, s₁)) (there : s₁.get k oid = some o)
    (stored : Stored k oid { o with name := newName } data) :
    s₁.Meets k (.update thread quota data) := by
  simp only [next, is, check] at checked
  have asked : s.getByName k hit true (newName, o.uid) = s.table.findKey (newName, o.uid) := by
    cases hit with
    | none => exact sound.select_eq _
    | some h =>
      rw [getByName, stale h rfl]
      exact sound.select_eq _
  rw [asked] at checked
  split at checked
  · cases checked
  · rename_i free
    cases checked
    have now : (s.setTask thread (some (.renaming oid newName))).tasks thread =
        some (.renaming oid newName) := Function.update_self _ _ _
    simp only [Meets, now]
    refine ⟨o, there, fun _ => ⟨?_, stored⟩⟩
    exact fun other _ row found => UniqueTable.findKey_eq_none_iff.mp free other row found

/-- The networks, in a database that doubles quotes. -/
def vnets : PoolKind where
  root := ['V', 'N', 'E', 'T']
  escape text := text.flatMap fun c => if c = '\'' then [c, c] else [c]

def noNetworks : NamePool where
  table := .empty
  cached _ := none
  nextOid := 0
  tasks _ := none
  crashed := false

theorem started_noNetworks : Started noNetworks := ⟨rfl, fun _ => rfl, fun _ => rfl, rfl⟩

/-- The state after some sections. -/
def after (labels : List NameStep) : Option NamePool :=
  labels.foldlM (fun s l => if s.crashed then none else (s.next vnets l).map Prod.snd) noNetworks

theorem reachable_of_after {labels : List NameStep} {s : NamePool} (run : after labels = some s) :
    Reachable Started (Step vnets) s := by
  refine Reachable.foldlM _ labels (fun s l s' taken => ?_) (.init started_noNetworks) run
  split at taken
  · cases taken
  · rename_i running
    obtain ⟨⟨answer, s'⟩, next, rfl⟩ := Option.map_eq_some_iff.mp taken
    exact ⟨Or.inl (Bool.eq_false_iff.mpr running), answer, next⟩

def annas : ObjectData := ⟨['a', 'n', 'n', 'a'], ['u', 's', 'e', 'r', 's'], []⟩

/-- Networks `a` and `b` of user 2 are allocated. -/
def twoNetworks : List NameStep :=
  [.allocate 0 ⟨"a", 2, 1⟩ none, .insert 0 false annas,
    .allocate 0 ⟨"b", 2, 1⟩ none, .insert 0 false annas]

/-- Both networks are to be called `c`, and both look-ups come before the updates. -/
def renameBoth : List NameStep :=
  twoNetworks ++ [.rename 0 0 "c" true, .rename 1 1 "c" true, .check 0 none, .check 1 none,
    .update 0 true annas]

/-- The second update replaces the row of the first network. -/
theorem network_replaced :
    (after renameBoth).map (fun s => (s.crashed, (s.table.find 0).isSome,
      (s.next vnets (.update 1 true annas)).map fun r => (r.2.table.find 0).isSome)) =
      some (false, true, some false) := by
  decide +kernel

/-- A network that is given a section as its name has another name once it is read again. -/
example : (after (twoNetworks ++ [.rename 0 0 "<![CDATA[b]]>" true, .check 0 none,
    .update 0 true annas, .evict 0])).map (fun s => (s.get vnets 0, s.get vnets 1)) =
      some (some ⟨"b", 2, 1⟩, some ⟨"b", 2, 1⟩) := by
  decide +kernel

end NamePool

end Ezilla
