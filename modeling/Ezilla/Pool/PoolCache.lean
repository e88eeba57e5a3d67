import Ezilla.Lib.Transition
import Ezilla.Lib.UniqueTable
import Mathlib.Data.List.AList

/-!
# The cache of a pool

A pool keeps the objects that were read from its table in a map by id, and in one by name if it
is looked up by name. `replace` makes room in it: the queue of the ids that were ever loaded is
turned until an object turns up that is in the map and not locked.

* `PoolCache.next`: the sections of the requests, each under the mutex of the pool or the lock of
  an object;
* `PoolCache.Evicts`: a call of `replace` ends, with one unlocked object removed;
* `PoolCache.IndexExact`: the name index loses the entries of one object and no others;
* `PoolCache.sound_of_reached`: what the first rests on, in every run.

An object is renamed under its lock, and `update_cache_index` follows after the lock is given up.
-/

namespace Ezilla

open Transition

/-- `PoolObjectSQL` in memory. -/
structure CachedObject where
  oid : Nat
  name : String
  uid : Int
  valid : Bool
  locked : Bool
  deriving DecidableEq

/-- A rename between its update and its `update_cache_index`, with the two keys. -/
structure PendingIndex where
  old : String
  new : String
  deriving DecidableEq

/-- `PoolSQL::MAX_POOL_SIZE`. -/
def maxPoolSize : Nat := 15000

/-- `PoolSQL`, where `key` gives the entry of a name and owner, and `unique` says if the table has
a constraint on it, which that of the templates has not. Objects are known by where they are in
memory; what is no longer there was deleted. -/
structure PoolCache (key : String → Int → String) (unique : Bool) where
  usesNamePool : Bool
  objects : Nat → Option CachedObject
  unused : Nat
  pool : AList fun _ : Nat => Nat
  namePool : AList fun _ : String => Nat
  oidQueue : List Nat
  table : UniqueTable Nat (fun r : String × Int => key r.1 r.2) unique
  lastOid : Nat
  pending : List PendingIndex

namespace PoolCache

variable {key : String → Int → String} {unique : Bool} (s : PoolCache key unique)

/-- `map::insert`, which keeps what is there. -/
def insertNew {α β : Type} [DecidableEq α] (t : AList fun _ : α => β) (a : α) (b : β) :
    AList fun _ : α => β :=
  if (t.lookup a).isSome then t else t.insert a b

def setObject (p : Nat) (o : Option CachedObject) : PoolCache key unique :=
  { s with objects := Function.update s.objects p o }

/-! ## Eviction -/

/-- What `PoolSQL::replace` does with an object that it could lock, at the front of the queue. -/
def evict (oid p : Nat) (o : CachedObject) (rest : List Nat) : PoolCache key unique :=
  { s with
    objects := Function.update s.objects p none
    pool := s.pool.erase oid
    namePool := if s.usesNamePool then s.namePool.erase (key o.name o.uid) else s.namePool
    oidQueue := rest }

/-- The loop of `PoolSQL::replace`, at most `n` times around. -/
def replaceLoop : Nat → PoolCache key unique → Option (PoolCache key unique)
  | 0, _ => none
  | n + 1, s =>
    match s.oidQueue with
    | [] => none
    | oid :: rest =>
      match s.pool.lookup oid with
      | none => replaceLoop n { s with oidQueue := rest }
      | some p =>
        match s.objects p with
        | none => none
        | some o =>
          if o.locked then replaceLoop n { s with oidQueue := rest ++ [oid] }
          else some (s.evict oid p o rest)

/-- `PoolSQL::replace`. Once around the queue is enough, or no object can be removed. -/
def replace : Option (PoolCache key unique) := replaceLoop s.oidQueue.length s

/-! ## Look-ups

A step has no result where a lock is waited for, or a deleted object is read. -/

/-- An object that was found in a map is returned if it is valid. -/
def hit (p : Nat) (olock : Bool) : Option (Option Nat × PoolCache key unique) :=
  match s.objects p with
  | none => none
  | some o =>
    if !o.valid then some (none, s)
    else if !olock then some (some p, s)
    else if o.locked then none
    else some (some p, s.setObject p (some { o with locked := true }))

/-- An object in the way of another one is locked, taken out of the maps and deleted. -/
def discard (p : Nat) (entry : CachedObject → String) : Option (PoolCache key unique) :=
  match s.objects p with
  | none => none
  | some o =>
    if o.locked then none
    else
      some { s with
        objects := Function.update s.objects p none
        pool := s.pool.erase o.oid
        namePool := s.namePool.erase (entry o) }

/-- A row becomes an object in memory. -/
def load (oid : Nat) (row : String × Int) (olock : Bool) : PoolCache key unique :=
  { s with
    objects := Function.update s.objects s.unused (some ⟨oid, row.1, row.2, true, olock⟩)
    unused := s.unused + 1
    pool := insertNew s.pool oid s.unused
    namePool := if s.usesNamePool then insertNew s.namePool (key row.1 row.2) s.unused
      else s.namePool
    oidQueue := s.oidQueue ++ [oid] }

/-- The end of a look-up that loaded an object. -/
def loaded (oid : Nat) (row : String × Int) (olock : Bool) :
    Option (Option Nat × PoolCache key unique) :=
  let s' := s.load oid row olock
  if maxPoolSize < s'.pool.keys.length then (s'.replace).map fun s' => (some s.unused, s')
  else some (some s.unused, s')

/-- `PoolSQL::get` of an id. -/
def get (oid : Int) (olock : Bool) : Option (Option Nat × PoolCache key unique) :=
  if oid < 0 then some (none, s)
  else
    match s.pool.lookup oid.toNat with
    | some p => s.hit p olock
    | none =>
      match s.table.find oid.toNat with
      | none => some (none, s)
      | some row =>
        match if s.usesNamePool then s.namePool.lookup (key row.1 row.2) else none with
        | none => s.loaded oid.toNat row olock
        | some q =>
          (s.discard q fun _ => key row.1 row.2).bind fun s => s.loaded oid.toNat row olock

/-- The part of `PoolSQL::get` of a name where it is not in the index: `select` finds the row. -/
def select (name : String) (uid : Int) (olock : Bool) :
    Option (Option Nat × PoolCache key unique) :=
  match s.table.findKey (key name uid) with
  | none => some (none, s)
  | some oid =>
    match s.table.find oid with
    | none => some (none, s)
    | some row => s.loaded oid row olock

/-- `PoolSQL::get` of a name. -/
def getByName (name : String) (uid : Int) (olock : Bool) :
    Option (Option Nat × PoolCache key unique) :=
  if !s.usesNamePool then some (none, s)
  else
    match s.namePool.lookup (key name uid) with
    | none => s.select name uid olock
    | some p =>
      match s.objects p with
      | none => none
      | some o =>
        if o.valid then s.hit p olock
        else (s.discard p fun o => key o.name o.uid).bind fun s => s.select name uid olock

/-! ## Changes -/

/-- The section of a rename or of a chown: a valid object that is locked gets its new name and
owner, and its row is replaced. The entry in the index is updated later, from the values that the
request has for the old name and owner. -/
def rename (p : Nat) (oldName : String) (oldUid : Int) (name : String) (uid : Int) :
    Option (PoolCache key unique) :=
  match s.objects p with
  | none => none
  | some o =>
    if o.locked && o.valid then
      some { s with
        objects := Function.update s.objects p (some { o with name := name, uid := uid })
        table := s.table.replace o.oid (name, uid)
        pending := ⟨key oldName oldUid, key name uid⟩ :: s.pending }
    else none

/-- `PoolSQL::update_cache_index`. -/
def updateCacheIndex (r : PendingIndex) : PoolCache key unique :=
  if s.usesNamePool then
    match s.namePool.lookup r.old with
    | none => s
    | some p => { s with namePool := insertNew (s.namePool.erase r.old) r.new p }
  else s

/-- `PoolSQL::drop` of a valid object that is locked. -/
def drop (p : Nat) : Option (PoolCache key unique) :=
  match s.objects p with
  | none => none
  | some o =>
    if o.locked && o.valid then
      some { s with
        objects := Function.update s.objects p (some { o with valid := false })
        table := s.table.delete o.oid }
    else none

/-- `PoolSQL::allocate`, which leaves the cache alone. -/
def allocate (name : String) (uid : Int) : PoolCache key unique :=
  match s.table.insert (s.lastOid + 1) (name, uid) with
  | none => s
  | some table => { s with table := table, lastOid := s.lastOid + 1 }

def unlock (p : Nat) : Option (PoolCache key unique) :=
  (s.objects p).map fun o => s.setObject p (some { o with locked := false })

/-- `PoolSQL::clean`, which waits for every object in the map. The queue is left as it is. -/
def clean : Option (PoolCache key unique) :=
  if s.pool.entries.all fun e => (s.objects e.2).any fun o => !o.locked then
    some { s with
      objects := fun p => if p ∈ s.pool.entries.map Sigma.snd then none else s.objects p
      pool := ∅
      namePool := ∅ }
  else none

/-! ## Runs -/

/-- The sections of the requests. -/
inductive Section where
  | get (oid : Int) (olock : Bool)
  | getByName (name : String) (uid : Int) (olock : Bool)
  | rename (p : Nat) (oldName : String) (oldUid : Int) (name : String) (uid : Int)
  | updateCacheIndex (r : PendingIndex)
  | drop (p : Nat)
  | allocate (name : String) (uid : Int)
  | unlock (p : Nat)
  | clean

def next : Section → Option (PoolCache key unique)
  | .get oid olock => (s.get oid olock).map Prod.snd
  | .getByName name uid olock => (s.getByName name uid olock).map Prod.snd
  | .rename p oldName oldUid name uid => s.rename p oldName oldUid name uid
  | .updateCacheIndex r =>
    if r ∈ s.pending then some { s.updateCacheIndex r with pending := s.pending.erase r } else none
  | .drop p => s.drop p
  | .allocate name uid => some (s.allocate name uid)
  | .unlock p => s.unlock p
  | .clean => s.clean

def step (s : PoolCache key unique) (l : Section) (s' : PoolCache key unique) : Prop :=
  s.next l = some s'

/-- The daemon starts with any table and without objects in memory. -/
def Init (s : PoolCache key unique) : Prop :=
  (∀ p, s.objects p = none) ∧ s.pool = ∅ ∧ s.namePool = ∅ ∧ s.oidQueue = [] ∧ s.pending = [] ∧
    ∀ oid row, s.table.find oid = some row → oid ≤ s.lastOid

/-! ## What an eviction is to do -/

/-- The object is in the map, and not locked. -/
structure Evictable (oid p : Nat) (o : CachedObject) : Prop where
  cached : s.pool.lookup oid = some p
  there : s.objects p = some o
  unlocked : o.locked = false

/-- One object that was not locked is no longer in the map and in memory. -/
structure Removed (s' : PoolCache key unique) (oid p : Nat) (o : CachedObject) : Prop extends
    s.Evictable oid p o where
  pool : s'.pool = s.pool.erase oid
  objects : s'.objects = Function.update s.objects p none

/-- Every id in the map is in the queue, and a call of `replace` ends without reading from an
empty queue, if there is an object to remove. -/
structure Evicts : Prop where
  queued : ∀ oid ∈ s.pool, oid ∈ s.oidQueue
  ends : ∀ oid p o, s.Evictable oid p o →
    ∃ s' oid p o, s.replace = some s' ∧ s.Removed s' oid p o

/-- A call of `replace` takes the entries of the object that it removes out of the name index, and
no others. -/
def IndexExact : Prop :=
  ∀ s' oid p o, s.replace = some s' → s.Removed s' oid p o → ∀ k,
    s'.namePool.lookup k = if s.namePool.lookup k = some p then none else s.namePool.lookup k

/-! ## The map by id -/

/-- The objects of the map are in memory under their ids, which are in the queue. -/
structure Sound : Prop where
  stored : ∀ oid p, s.pool.lookup oid = some p → ∃ o, s.objects p = some o ∧ o.oid = oid
  queued : ∀ oid p, s.pool.lookup oid = some p → oid ∈ s.oidQueue
  fresh : ∀ p, s.unused ≤ p → s.objects p = none

variable {s} {s' : PoolCache key unique} {oid p : Nat} {o : CachedObject} {rest : List Nat}

theorem mem_pool_iff {t : AList fun _ : Nat => Nat} : oid ∈ t ↔ ∃ p, t.lookup oid = some p := by
  rw [← AList.lookup_isSome, Option.isSome_iff_exists]

theorem lookup_erase_some {α β : Type} [DecidableEq α] {t : AList fun _ : α => β} {a c : α}
    {b : β} (found : (t.erase a).lookup c = some b) : c ≠ a ∧ t.lookup c = some b := by
  have other : c ≠ a := by
    intro same
    rw [same, AList.lookup_erase] at found
    cases found
  rw [AList.lookup_erase_ne other] at found
  exact ⟨other, found⟩

theorem lookup_insertNew {α β : Type} [DecidableEq α] {t : AList fun _ : α => β} {a c : α}
    {b : β} (none : t.lookup a = none) :
    (insertNew t a b).lookup c = if c = a then some b else t.lookup c := by
  unfold insertNew
  rw [none, Option.isSome_none, if_neg Bool.false_ne_true]
  by_cases same : c = a
  · rw [same, AList.lookup_insert, if_pos rfl]
  · rw [AList.lookup_insert_ne same, if_neg same]

/-- The map without one object, which is deleted. -/
theorem Sound.remove (sound : s.Sound)
    (own : ∀ o, s.objects p = some o → o.oid = oid)
    (pool : s'.pool = s.pool.erase oid) (objects : s'.objects = Function.update s.objects p none)
    (queue : ∀ oid' ∈ s.oidQueue, oid' ∈ s.pool → oid' ≠ oid → oid' ∈ s'.oidQueue)
    (unused : s'.unused = s.unused) : s'.Sound := by
  refine ⟨fun oid' p' found => ?_, fun oid' p' found => ?_, fun p' above => ?_⟩
  · rw [pool] at found
    obtain ⟨other, found⟩ := lookup_erase_some found
    obtain ⟨o, there, is⟩ := sound.stored oid' p' found
    have apart : p' ≠ p := by
      intro same
      rw [same] at there
      exact other (is.symm.trans (own o there))
    rw [objects, Function.update_of_ne apart]
    exact ⟨o, there, is⟩
  · rw [pool] at found
    obtain ⟨other, found⟩ := lookup_erase_some found
    exact queue oid' (sound.queued oid' p' found) (mem_pool_iff.mpr ⟨p', found⟩) other
  · rw [unused] at above
    rw [objects]
    by_cases same : p' = p
    · rw [same, Function.update_self]
    · rw [Function.update_of_ne same, sound.fresh p' above]

/-- One turn of the queue. -/
theorem Sound.turn (sound : s.Sound) {queue : List Nat}
    (kept : ∀ oid' p', s.pool.lookup oid' = some p' → oid' ∈ queue) :
    Sound { s with oidQueue := queue } :=
  ⟨sound.stored, kept, sound.fresh⟩

/-- The loop removes an object that it could lock; the other ids stay in the queue. -/
theorem replaceLoop_cases (sound : s.Sound) {n : Nat} (run : replaceLoop n s = some s') :
    ∃ oid p o rest, s.Evictable oid p o ∧ s' = s.evict oid p o rest ∧
      ∀ oid' ∈ s.oidQueue, oid' ∈ s.pool → oid' ≠ oid → oid' ∈ rest := by
  induction n generalizing s with
  | zero => cases run
  | succ n ih =>
    unfold replaceLoop at run
    cases front : s.oidQueue with
    | nil =>
      rw [front] at run
      cases run
    | cons first queue =>
      rw [front] at run
      dsimp only at run
      cases cached : s.pool.lookup first with
      | none =>
        rw [cached] at run
        have absent : first ∉ s.pool := AList.lookup_eq_none.mp cached
        have turned : ∀ oid' p', s.pool.lookup oid' = some p' → oid' ∈ queue := by
          intro oid' p' found
          have member := sound.queued oid' p' found
          rw [front] at member
          rcases List.mem_cons.mp member with rfl | later
          · exact absurd (mem_pool_iff.mpr ⟨p', found⟩) absent
          · exact later
        obtain ⟨oid, p, o, rest, evictable, is, kept⟩ := ih (sound.turn turned) run
        refine ⟨oid, p, o, rest, ⟨evictable.cached, evictable.there, evictable.unlocked⟩, is,
          fun oid' _ member ne => ?_⟩
        obtain ⟨p', found⟩ := mem_pool_iff.mp member
        exact kept oid' (turned oid' p' found) member ne
      | some p =>
        rw [cached] at run
        dsimp only at run
        cases there : s.objects p with
        | none =>
          rw [there] at run
          cases run
        | some o =>
          rw [there] at run
          dsimp only at run
          cases locked : o.locked with
          | false =>
            rw [locked, if_neg Bool.false_ne_true] at run
            cases run
            refine ⟨first, p, o, queue, ⟨cached, there, locked⟩, rfl, fun oid' member _ ne => ?_⟩
            exact (List.mem_cons.mp member).resolve_left ne
          | true =>
            rw [locked, if_pos rfl] at run
            have turned : ∀ oid' ∈ first :: queue, oid' ∈ queue ++ [first] := by
              intro oid' member
              rcases List.mem_cons.mp member with rfl | later
              · exact List.mem_append_right _ List.mem_cons_self
              · exact List.mem_append_left _ later
            have again : Sound { s with oidQueue := queue ++ [first] } := by
              refine sound.turn fun oid' p' found => turned oid' ?_
              rw [← front]
              exact sound.queued oid' p' found
            obtain ⟨oid, p, o, rest, evictable, is, kept⟩ := ih again run
            exact ⟨oid, p, o, rest, ⟨evictable.cached, evictable.there, evictable.unlocked⟩, is,
              fun oid' member cached ne => kept oid' (turned oid' member) cached ne⟩

/-- The loop comes to an object that is not locked, or removes another one before. -/
theorem replaceLoop_ends (stored : ∀ oid p, s.pool.lookup oid = some p → s.objects p ≠ none)
    (evictable : s.Evictable oid p o) {n : Nat} {before after : List Nat}
    (queue : s.oidQueue = before ++ oid :: after) (enough : before.length < n) :
    ∃ s', replaceLoop n s = some s' := by
  induction n generalizing s before after with
  | zero => exact absurd enough (Nat.not_lt_zero _)
  | succ n ih =>
    unfold replaceLoop
    cases before with
    | nil =>
      rw [queue, List.nil_append]
      dsimp only
      rw [evictable.cached]
      dsimp only
      rw [evictable.there]
      dsimp only
      rw [evictable.unlocked, if_neg Bool.false_ne_true]
      exact ⟨_, rfl⟩
    | cons first before =>
      rw [queue, List.cons_append]
      dsimp only
      have fewer : before.length < n := Nat.lt_of_succ_lt_succ enough
      have same : ∀ queue, Evictable { s with oidQueue := queue } oid p o := fun _ =>
        ⟨evictable.cached, evictable.there, evictable.unlocked⟩
      cases cached : s.pool.lookup first with
      | none => exact ih stored (same _) rfl fewer
      | some q =>
        obtain ⟨other, there⟩ := Option.ne_none_iff_exists'.mp (stored first q cached)
        dsimp only
        rw [there]
        dsimp only
        cases locked : other.locked with
        | false => exact ⟨_, rfl⟩
        | true => exact ih stored (same _) (List.append_assoc before (oid :: after) [first]) fewer

theorem Sound.stored_ne_none (sound : s.Sound) (oid p : Nat)
    (cached : s.pool.lookup oid = some p) : s.objects p ≠ none := by
  obtain ⟨o, there, _⟩ := sound.stored oid p cached
  rw [there]
  exact Option.some_ne_none o

theorem evict_removed (evictable : s.Evictable oid p o) :
    s.Removed (s.evict oid p o rest) oid p o :=
  ⟨evictable, rfl, rfl⟩

/-- In a sound cache an object is removed if there is one that is not locked. -/
theorem Sound.evicts (sound : s.Sound) : s.Evicts := by
  refine ⟨fun oid member => ?_, fun oid p o evictable => ?_⟩
  · obtain ⟨p, cached⟩ := mem_pool_iff.mp member
    exact sound.queued oid p cached
  · obtain ⟨before, after, split⟩ :=
      List.append_of_mem (sound.queued oid p evictable.cached)
    have enough : before.length < s.oidQueue.length := by
      rw [split, List.length_append, List.length_cons]
      omega
    obtain ⟨s', run⟩ := replaceLoop_ends sound.stored_ne_none evictable split enough
    obtain ⟨oid, p, o, rest, removed, rfl, _⟩ := replaceLoop_cases sound run
    exact ⟨_, oid, p, o, run, evict_removed removed⟩

theorem Sound.replace (sound : s.Sound) (run : s.replace = some s') : s'.Sound := by
  obtain ⟨oid, p, o, rest, evictable, rfl, kept⟩ := replaceLoop_cases sound run
  refine sound.remove (fun o' there => ?_) rfl rfl kept rfl
  obtain ⟨o'', there', is⟩ := sound.stored oid p evictable.cached
  rw [there'] at there
  cases there
  exact is

/-- An object changes without its id. -/
theorem Sound.setObject (sound : s.Sound) {o' : CachedObject} (there : s.objects p = some o)
    (id : o'.oid = o.oid) (objects : s'.objects = Function.update s.objects p (some o'))
    (pool : s'.pool = s.pool) (queue : s'.oidQueue = s.oidQueue) (unused : s'.unused = s.unused) :
    s'.Sound := by
  refine ⟨fun oid q found => ?_, fun oid q found => ?_, fun q above => ?_⟩
  · rw [pool] at found
    obtain ⟨other, is_there, is⟩ := sound.stored oid q found
    rw [objects]
    by_cases same : q = p
    · rw [same, there] at is_there
      cases is_there
      rw [same, Function.update_self]
      exact ⟨o', rfl, id.trans is⟩
    · rw [Function.update_of_ne same]
      exact ⟨other, is_there, is⟩
  · rw [pool] at found
    rw [queue]
    exact sound.queued oid q found
  · rw [unused] at above
    have free := sound.fresh q above
    rw [objects, Function.update_of_ne, free]
    intro same
    rw [same, there] at free
    cases free

theorem Sound.hit (sound : s.Sound) {olock : Bool} {r : Option Nat}
    (run : s.hit p olock = some (r, s')) : s'.Sound := by
  unfold PoolCache.hit at run
  cases there : s.objects p with
  | none =>
    rw [there] at run
    cases run
  | some o =>
    rw [there] at run
    dsimp only at run
    split at run
    · cases run
      exact sound
    · split at run
      · cases run
        exact sound
      · split at run
        · cases run
        · cases run
          refine sound.setObject there ?_ rfl rfl rfl rfl
          rfl

theorem Sound.discard (sound : s.Sound) {entry : CachedObject → String}
    (run : s.discard p entry = some s') : s'.Sound := by
  unfold PoolCache.discard at run
  cases there : s.objects p with
  | none =>
    rw [there] at run
    cases run
  | some o =>
    rw [there] at run
    dsimp only at run
    split at run
    · cases run
    · cases run
      refine sound.remove (fun o' there' => ?_) rfl rfl (fun oid' member _ _ => member) rfl
      rw [there] at there'
      cases there'
      rfl

theorem load_objects (oid : Nat) (row : String × Int) (olock : Bool) (q : Nat) :
    (s.load oid row olock).objects q =
      if q = s.unused then some ⟨oid, row.1, row.2, true, olock⟩ else s.objects q :=
  Function.update_apply _ _ _ _

theorem Sound.load (sound : s.Sound) (oid : Nat) (row : String × Int) (olock : Bool) :
    (s.load oid row olock).Sound := by
  have other : ∀ q o, s.objects q = some o → q ≠ s.unused := by
    intro q o there same
    rw [same, sound.fresh _ (Nat.le_refl _)] at there
    cases there
  have old : ∀ oid' q, s.pool.lookup oid' = some q →
      ∃ o, (s.load oid row olock).objects q = some o ∧ o.oid = oid' := by
    intro oid' q found
    obtain ⟨o, there, is⟩ := sound.stored oid' q found
    refine ⟨o, ?_, is⟩
    rw [load_objects, if_neg (other q o there), there]
  have pool : (s.load oid row olock).pool = insertNew s.pool oid s.unused := rfl
  have queue : (s.load oid row olock).oidQueue = s.oidQueue ++ [oid] := rfl
  have member : ∀ oid' q, (s.load oid row olock).pool.lookup oid' = some q →
      s.pool.lookup oid' = some q ∨ oid' = oid ∧ q = s.unused := by
    intro oid' q found
    rw [pool] at found
    cases before : s.pool.lookup oid with
    | some p =>
      unfold insertNew at found
      rw [before, Option.isSome_some, if_pos rfl] at found
      exact .inl found
    | none =>
      rw [lookup_insertNew before] at found
      split at found
      · rename_i same
        cases found
        exact .inr ⟨same, rfl⟩
      · exact .inl found
  refine ⟨fun oid' q found => ?_, fun oid' q found => ?_, fun q above => ?_⟩
  · rcases member oid' q found with before | ⟨rfl, rfl⟩
    · exact old oid' q before
    · refine ⟨⟨oid', row.1, row.2, true, olock⟩, ?_, rfl⟩
      rw [load_objects, if_pos rfl]
  · rw [queue]
    rcases member oid' q found with before | ⟨rfl, _⟩
    · exact List.mem_append_left _ (sound.queued oid' q before)
    · exact List.mem_append_right _ List.mem_cons_self
  · have later : s.unused + 1 ≤ q := above
    rw [load_objects, if_neg (by omega), sound.fresh q (by omega)]

theorem Sound.loaded (sound : s.Sound) {row : String × Int} {olock : Bool} {r : Option Nat}
    (run : s.loaded oid row olock = some (r, s')) : s'.Sound := by
  unfold PoolCache.loaded at run
  dsimp only at run
  split at run
  · obtain ⟨s'', replaced, is⟩ := Option.map_eq_some_iff.mp run
    cases is
    exact (sound.load oid row olock).replace replaced
  · cases run
    exact sound.load oid row olock

theorem Sound.get (sound : s.Sound) {oid : Int} {olock : Bool} {r : Option Nat}
    (run : s.get oid olock = some (r, s')) : s'.Sound := by
  unfold PoolCache.get at run
  split at run
  · cases run
    exact sound
  · split at run
    · exact sound.hit run
    · split at run
      · cases run
        exact sound
      · split at run
        · exact sound.loaded run
        · obtain ⟨s'', discarded, run⟩ := Option.bind_eq_some_iff.mp run
          exact (sound.discard discarded).loaded run

theorem Sound.select (sound : s.Sound) {name : String} {uid : Int} {olock : Bool}
    {r : Option Nat} (run : s.select name uid olock = some (r, s')) : s'.Sound := by
  unfold PoolCache.select at run
  split at run
  · cases run
    exact sound
  · split at run
    · cases run
      exact sound
    · exact sound.loaded run

theorem Sound.getByName (sound : s.Sound) {name : String} {uid : Int} {olock : Bool}
    {r : Option Nat} (run : s.getByName name uid olock = some (r, s')) : s'.Sound := by
  unfold PoolCache.getByName at run
  split at run
  · cases run
    exact sound
  · split at run
    · exact sound.select run
    · split at run
      · cases run
      · split at run
        · exact sound.hit run
        · obtain ⟨s'', discarded, run⟩ := Option.bind_eq_some_iff.mp run
          exact (sound.discard discarded).select run

theorem Sound.rename (sound : s.Sound) {oldName name : String} {oldUid uid : Int}
    (run : s.rename p oldName oldUid name uid = some s') : s'.Sound := by
  unfold PoolCache.rename at run
  cases there : s.objects p with
  | none =>
    rw [there] at run
    cases run
  | some o =>
    rw [there] at run
    dsimp only at run
    split at run
    · cases run
      refine sound.setObject there ?_ rfl rfl rfl rfl
      rfl
    · cases run

theorem Sound.drop (sound : s.Sound) (run : s.drop p = some s') : s'.Sound := by
  unfold PoolCache.drop at run
  cases there : s.objects p with
  | none =>
    rw [there] at run
    cases run
  | some o =>
    rw [there] at run
    dsimp only at run
    split at run
    · cases run
      refine sound.setObject there ?_ rfl rfl rfl rfl
      rfl
    · cases run

theorem Sound.unlock (sound : s.Sound) (run : s.unlock p = some s') : s'.Sound := by
  obtain ⟨o, there, rfl⟩ := Option.map_eq_some_iff.mp run
  refine sound.setObject there ?_ rfl rfl rfl rfl
  rfl

/-- Nothing that the map by id is about changes. -/
theorem Sound.congr (sound : s.Sound) (objects : s'.objects = s.objects) (pool : s'.pool = s.pool)
    (queue : s'.oidQueue = s.oidQueue) (unused : s'.unused = s.unused) : s'.Sound := by
  refine ⟨fun oid p found => ?_, fun oid p found => ?_, fun p above => ?_⟩
  · rw [pool] at found
    rw [objects]
    exact sound.stored oid p found
  · rw [pool] at found
    rw [queue]
    exact sound.queued oid p found
  · rw [unused] at above
    rw [objects]
    exact sound.fresh p above

theorem Sound.clean (sound : s.Sound) (run : s.clean = some s') : s'.Sound := by
  unfold PoolCache.clean at run
  split at run
  · cases run
    refine ⟨fun oid p found => ?_, fun oid p found => ?_, fun p above => ?_⟩
    · cases found
    · cases found
    · dsimp only
      rw [sound.fresh p above, ite_self]
  · cases run

theorem sound_init (start : Init s) : s.Sound := by
  obtain ⟨objects, pool, _, _, _, _⟩ := start
  have none : ∀ oid p, s.pool.lookup oid ≠ some p := by
    intro oid p found
    rw [pool] at found
    cases found
  exact ⟨fun oid p found => absurd found (none oid p), fun oid p found => absurd found (none oid p),
    fun p _ => objects p⟩

theorem Sound.step {l : Section} (sound : s.Sound) (taken : step s l s') : s'.Sound := by
  unfold PoolCache.step next at taken
  cases l with
  | get oid olock =>
    obtain ⟨⟨r, s''⟩, run, rfl⟩ := Option.map_eq_some_iff.mp taken
    exact sound.get run
  | getByName name uid olock =>
    obtain ⟨⟨r, s''⟩, run, rfl⟩ := Option.map_eq_some_iff.mp taken
    exact sound.getByName run
  | rename p oldName oldUid name uid => exact sound.rename taken
  | updateCacheIndex r =>
    dsimp only at taken
    split at taken
    · cases taken
      unfold PoolCache.updateCacheIndex
      split
      · split
        · exact sound.congr rfl rfl rfl rfl
        · exact sound.congr rfl rfl rfl rfl
      · exact sound.congr rfl rfl rfl rfl
    · cases taken
  | drop p => exact sound.drop taken
  | allocate name uid =>
    cases taken
    unfold PoolCache.allocate
    split
    · exact sound
    · exact sound.congr rfl rfl rfl rfl
  | unlock p => exact sound.unlock taken
  | clean => exact sound.clean taken

/-- The cache is sound in every state, whatever the requests do. -/
theorem sound_of_reached (reached : Reachable Init step s) : s.Sound :=
  reached.invariant (fun _ start => sound_init start) fun _ _ _ sound taken => sound.step taken

end PoolCache

end Ezilla
