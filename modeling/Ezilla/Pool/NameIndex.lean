import Ezilla.Pool.PoolCache

/-!
# The name index of a pool

A rename gives an object its new name under the lock of the object, and moves its entry of the
index later, when the lock was given up. In between the entry does not have the key of the object.

* `PoolCache.entryOf`: the key of the entry that an object has;
* `PoolCache.Indexed`: the index has one entry for every object in memory;
* `PoolCache.Undisturbed`: the steps that leave the names of unfinished renames alone;
* `PoolCache.eviction_exact`: what holds of `replace` in every run, and in undisturbed ones.
-/

namespace Ezilla

open Transition

namespace PoolCache

variable {key : String → Int → String} {unique : Bool}

/-! ## Unfinished renames -/

/-- The keys of unfinished renames. -/
def pendingKeys (pending : List PendingIndex) : List String :=
  pending.flatMap fun r => [r.old, r.new]

/-- Two renames that have no key in common. -/
def Apart (r r' : PendingIndex) : Prop :=
  r.old ≠ r'.old ∧ r.old ≠ r'.new ∧ r.new ≠ r'.old ∧ r.new ≠ r'.new

/-- Every key of an unfinished rename occurs in one of them, once. -/
structure Distinct (pending : List PendingIndex) : Prop where
  apart : pending.Pairwise Apart
  keys : ∀ r ∈ pending, r.old ≠ r.new

/-- The entry of an object with a key: the old key while its rename is unfinished. -/
def entryOf (pending : List PendingIndex) (k : String) : String :=
  match pending.find? fun r => r.new = k with
  | some r => r.old
  | none => k

/-- No object that is not locked has an unfinished rename. -/
def Settled (s : PoolCache key unique) : Prop :=
  ∀ oid p o, s.Evictable oid p o → ∀ r ∈ s.pending, r.new ≠ key o.name o.uid

/-- A look-up that loads an object evicts none, or none with an unfinished rename. -/
def RoomOrSettled (s : PoolCache key unique) : Prop :=
  s.pool.keys.length < maxPoolSize ∨ s.Settled

/-- The steps that leave the names of unfinished renames alone. A look-up by id loads no object with
such a name; a look-up by name finds a valid object, or nothing, or is about another name. A rename
starts from the name that the object has, with no unfinished rename, and the new name is free. -/
def Undisturbed (s : PoolCache key unique) : Section → Prop
  | .get oid _ => s.pool.lookup oid.toNat = none → ∀ row, s.table.find oid.toNat = some row →
      key row.1 row.2 ∉ pendingKeys s.pending ∧ s.RoomOrSettled
  | .getByName name uid _ =>
      (∃ p o, s.namePool.lookup (key name uid) = some p ∧ s.objects p = some o ∧
        o.valid = true) ∨
      (s.namePool.lookup (key name uid) = none ∧ s.table.findKey (key name uid) = none) ∨
      key name uid ∉ pendingKeys s.pending ∧ s.RoomOrSettled
  | .rename p oldName oldUid name uid => ∀ o, s.objects p = some o →
      key oldName oldUid = key o.name o.uid ∧ (∀ r ∈ s.pending, r.new ≠ key o.name o.uid) ∧
      key name uid ∉ pendingKeys s.pending ∧ s.namePool.lookup (key name uid) = none ∧
      ∀ oid row, oid ≠ o.oid → s.table.find oid = some row → key row.1 row.2 ≠ key name uid
  | _ => True

/-! ## The invariant -/

/-- Every object in memory is in the map, and has one entry in the index. A valid one agrees with
its row, and another has none. -/
structure Indexed (s : PoolCache key unique) : Prop where
  owned : ∀ p o, s.objects p = some o → s.pool.lookup o.oid = some p
  index : ∀ k p, s.namePool.lookup k = some p ↔
    ∃ o, s.objects p = some o ∧ entryOf s.pending (key o.name o.uid) = k
  row : ∀ p o, s.objects p = some o →
    s.table.find o.oid = if o.valid then some (o.name, o.uid) else none
  known : ∀ p o, s.objects p = some o → o.oid ≤ s.lastOid
  listed : ∀ oid row, s.table.find oid = some row → oid ≤ s.lastOid
  gone : ∀ r ∈ s.pending, ∀ p o, s.objects p = some o → key o.name o.uid ≠ r.old
  distinct : Distinct s.pending

section Pending

variable {pending : List PendingIndex} {k : String} {r r' : PendingIndex}

instance : Std.Symm Apart :=
  ⟨fun _ _ ⟨olds, cross, cross', news⟩ => ⟨olds.symm, cross'.symm, cross.symm, news.symm⟩⟩

theorem old_mem (member : r ∈ pending) : r.old ∈ pendingKeys pending :=
  List.mem_flatMap.mpr ⟨r, member, List.mem_cons_self⟩

theorem new_mem (member : r ∈ pending) : r.new ∈ pendingKeys pending :=
  List.mem_flatMap.mpr ⟨r, member, List.mem_cons_of_mem _ List.mem_cons_self⟩

theorem Distinct.old_ne_new (distinct : Distinct pending) (member : r ∈ pending)
    (member' : r' ∈ pending) : r.old ≠ r'.new := by
  by_cases same : r = r'
  · rw [← same]
    exact distinct.keys r member
  · exact (distinct.apart.forall member member' same).2.1

theorem Distinct.eq_of_old (distinct : Distinct pending) (member : r ∈ pending)
    (member' : r' ∈ pending) (old : r.old = r'.old) : r = r' := by
  by_contra other
  exact (distinct.apart.forall member member' other).1 old

theorem Distinct.eq_of_new (distinct : Distinct pending) (member : r ∈ pending)
    (member' : r' ∈ pending) (new : r.new = r'.new) : r = r' := by
  by_contra other
  exact (distinct.apart.forall member member' other).2.2.2 new

theorem Distinct.erase (distinct : Distinct pending) (r : PendingIndex) :
    Distinct (pending.erase r) :=
  ⟨distinct.apart.sublist List.erase_sublist,
    fun r' member => distinct.keys r' (List.mem_of_mem_erase member)⟩

theorem entryOf_of_new_ne (none : ∀ r ∈ pending, r.new ≠ k) : entryOf pending k = k := by
  unfold entryOf
  rw [List.find?_eq_none.mpr fun r member => by simpa using none r member]

theorem entryOf_cases (pending : List PendingIndex) (k : String) :
    (∀ r ∈ pending, r.new ≠ k) ∧ entryOf pending k = k ∨
      ∃ r ∈ pending, r.new = k ∧ entryOf pending k = r.old := by
  unfold entryOf
  cases found : pending.find? fun r => decide (r.new = k) with
  | none =>
    refine .inl ⟨fun r member same => ?_, rfl⟩
    exact absurd (decide_eq_true same) (List.find?_eq_none.mp found r member)
  | some r =>
    have same := List.find?_some found
    exact .inr ⟨r, List.mem_of_find?_eq_some found, of_decide_eq_true same, rfl⟩

theorem entryOf_new (distinct : Distinct pending) (member : r ∈ pending) :
    entryOf pending r.new = r.old := by
  rcases entryOf_cases pending r.new with ⟨none, _⟩ | ⟨r', member', same, entry⟩
  · exact absurd rfl (none r member)
  · rw [entry, distinct.eq_of_new member' member same]

theorem entryOf_cons_new (r : PendingIndex) (pending : List PendingIndex) :
    entryOf (r :: pending) r.new = r.old := by
  unfold entryOf
  rw [List.find?_cons, decide_eq_true rfl]

theorem entryOf_cons_ne (other : k ≠ r.new) : entryOf (r :: pending) k = entryOf pending k := by
  unfold entryOf
  rw [List.find?_cons, decide_eq_false other.symm]

end Pending

/-! ## One object comes or goes -/

section Changes

variable {s s' : PoolCache key unique} {p : Nat} {o : CachedObject} {rest : List Nat}

/-- No two objects have one entry. -/
theorem Indexed.ext (indexed : s.Indexed) {q : Nat} {o' : CachedObject}
    (there : s.objects p = some o) (other : s.objects q = some o')
    (same : entryOf s.pending (key o.name o.uid) = entryOf s.pending (key o'.name o'.uid)) :
    p = q := by
  have one := (indexed.index _ p).mpr ⟨o, there, rfl⟩
  have two := (indexed.index _ q).mpr ⟨o', other, rfl⟩
  rw [same, two] at one
  cases one
  rfl

/-- An object goes, with its entry. -/
theorem Indexed.remove (indexed : s.Indexed) (there : s.objects p = some o)
    (objects : s'.objects = Function.update s.objects p none)
    (pool : s'.pool = s.pool.erase o.oid)
    (names : s'.namePool = s.namePool.erase (entryOf s.pending (key o.name o.uid)))
    (table : s'.table = s.table) (last : s'.lastOid = s.lastOid)
    (pending : s'.pending = s.pending) : s'.Indexed := by
  have kept : ∀ q o', s'.objects q = some o' ↔ q ≠ p ∧ s.objects q = some o' := by
    intro q o'
    rw [objects]
    by_cases same : q = p
    · rw [same, Function.update_self]
      exact iff_of_false nofun fun both => both.1 rfl
    · rw [Function.update_of_ne same]
      exact ⟨fun found => ⟨same, found⟩, fun both => both.2⟩
  refine ⟨fun q o' found => ?_, fun k q => ?_, fun q o' found => ?_, fun q o' found => ?_, ?_,
    fun r member q o' found => ?_, ?_⟩
  · obtain ⟨other, found⟩ := (kept q o').mp found
    have cached := indexed.owned q o' found
    have apart : o'.oid ≠ o.oid := by
      intro same
      rw [same, indexed.owned p o there] at cached
      cases cached
      exact other rfl
    rw [pool, AList.lookup_erase_ne apart, cached]
  · rw [names, pending]
    constructor
    · intro found
      obtain ⟨ne, found⟩ := lookup_erase_some found
      obtain ⟨o', is_there, entry⟩ := (indexed.index k q).mp found
      refine ⟨o', (kept q o').mpr ⟨?_, is_there⟩, entry⟩
      intro same
      rw [same, there] at is_there
      cases is_there
      exact ne entry.symm
    · intro ⟨o', found, entry⟩
      obtain ⟨other, found⟩ := (kept q o').mp found
      have ne : k ≠ entryOf s.pending (key o.name o.uid) := by
        intro same
        exact other (indexed.ext found there (entry.trans same))
      rw [AList.lookup_erase_ne ne]
      exact (indexed.index k q).mpr ⟨o', found, entry⟩
  · rw [table]
    exact indexed.row q o' ((kept q o').mp found).2
  · rw [last]
    exact indexed.known q o' ((kept q o').mp found).2
  · rw [table, last]
    exact indexed.listed
  · rw [pending] at member
    exact indexed.gone r member q o' ((kept q o').mp found).2
  · rw [pending]
    exact indexed.distinct

/-- An object that was not in memory comes, under a free name. -/
theorem Indexed.load (indexed : s.Indexed) (sound : s.Sound) (names : s.usesNamePool = true)
    {oid : Nat} {row : String × Int} (olock : Bool) (found : s.table.find oid = some row)
    (absent : s.pool.lookup oid = none) (free : s.namePool.lookup (key row.1 row.2) = none)
    (settled : key row.1 row.2 ∉ pendingKeys s.pending) : (s.load oid row olock).Indexed := by
  have fresh := sound.fresh s.unused (Nat.le_refl _)
  have kept : ∀ q o', (s.load oid row olock).objects q = some o' →
      q = s.unused ∧ o' = ⟨oid, row.1, row.2, true, olock⟩ ∨
        q ≠ s.unused ∧ s.objects q = some o' := by
    intro q o' is
    rw [load_objects] at is
    split at is
    · rename_i same
      cases is
      exact .inl ⟨same, rfl⟩
    · rename_i other
      exact .inr ⟨other, is⟩
  have none : ∀ r ∈ s.pending, r.new ≠ key row.1 row.2 := by
    intro r member same
    exact settled (same ▸ new_mem member)
  have pool : (s.load oid row olock).pool = insertNew s.pool oid s.unused := rfl
  have namePool : (s.load oid row olock).namePool =
      insertNew s.namePool (key row.1 row.2) s.unused := if_pos names
  have pending : (s.load oid row olock).pending = s.pending := rfl
  have table : (s.load oid row olock).table = s.table := rfl
  refine ⟨fun q o' is => ?_, fun k q => ?_, fun q o' is => ?_, fun q o' is => ?_,
    indexed.listed, fun r member q o' is => ?_, indexed.distinct⟩
  · rw [pool, lookup_insertNew absent]
    rcases kept q o' is with ⟨rfl, rfl⟩ | ⟨_, is⟩
    · exact if_pos rfl
    · have cached := indexed.owned q o' is
      have other : o'.oid ≠ oid := by
        intro same
        rw [same, absent] at cached
        cases cached
      rw [if_neg other, cached]
  · rw [namePool, lookup_insertNew free, pending]
    constructor
    · intro entry
      split at entry
      · rename_i same
        cases entry
        refine ⟨_, (load_objects oid row olock s.unused).trans (if_pos rfl), ?_⟩
        rw [same]
        exact entryOf_of_new_ne none
      · obtain ⟨o', is, entry⟩ := (indexed.index k q).mp entry
        refine ⟨o', ?_, entry⟩
        have other : q ≠ s.unused := by
          intro same
          rw [same, fresh] at is
          cases is
        rw [load_objects, if_neg other, is]
    · intro ⟨o', is, entry⟩
      rcases kept q o' is with ⟨rfl, rfl⟩ | ⟨_, is⟩
      · rw [← entry]
        exact if_pos (entryOf_of_new_ne none)
      · have old := (indexed.index k q).mpr ⟨o', is, entry⟩
        have other : k ≠ key row.1 row.2 := by
          intro same
          rw [same, free] at old
          cases old
        rw [if_neg other, old]
  · rw [table]
    rcases kept q o' is with ⟨rfl, rfl⟩ | ⟨_, is⟩
    · exact found
    · exact indexed.row q o' is
  · rcases kept q o' is with ⟨rfl, rfl⟩ | ⟨_, is⟩
    · exact indexed.listed oid row found
    · exact indexed.known q o' is
  · rcases kept q o' is with ⟨rfl, rfl⟩ | ⟨_, is⟩
    · intro same
      exact settled (same ▸ old_mem member)
    · exact indexed.gone r member q o' is

/-- An object changes without its id and name. -/
theorem Indexed.setObject (indexed : s.Indexed) {o' : CachedObject}
    (there : s.objects p = some o) (id : o'.oid = o.oid) (name : o'.name = o.name)
    (uid : o'.uid = o.uid) (objects : s'.objects = Function.update s.objects p (some o'))
    (pool : s'.pool = s.pool) (names : s'.namePool = s.namePool)
    (own : s'.table.find o.oid = if o'.valid then some (o'.name, o'.uid) else none)
    (others : ∀ oid, oid ≠ o.oid → s'.table.find oid = s.table.find oid)
    (last : s'.lastOid = s.lastOid) (pending : s'.pending = s.pending) : s'.Indexed := by
  -- every object is one that was there with the same id and name
  have kept : ∀ q o₁, s'.objects q = some o₁ → ∃ o₀, s.objects q = some o₀ ∧ o₁.oid = o₀.oid ∧
      o₁.name = o₀.name ∧ o₁.uid = o₀.uid := by
    intro q o₁ is
    rw [objects] at is
    by_cases same : q = p
    · rw [same, Function.update_self] at is
      cases is
      exact ⟨o, same ▸ there, id, name, uid⟩
    · rw [Function.update_of_ne same] at is
      exact ⟨o₁, is, rfl, rfl, rfl⟩
  have lifted : ∀ q o₀, s.objects q = some o₀ → ∃ o₁, s'.objects q = some o₁ ∧
      o₁.name = o₀.name ∧ o₁.uid = o₀.uid := by
    intro q o₀ is
    rw [objects]
    by_cases same : q = p
    · rw [same, there] at is
      cases is
      rw [same, Function.update_self]
      exact ⟨o', rfl, name, uid⟩
    · rw [Function.update_of_ne same]
      exact ⟨o₀, is, rfl, rfl⟩
  refine ⟨fun q o₁ is => ?_, fun k q => ?_, fun q o₁ is => ?_, fun q o₁ is => ?_,
    fun oid row is => ?_, fun r member q o₁ is => ?_, ?_⟩
  · obtain ⟨o₀, was, same_id, _, _⟩ := kept q o₁ is
    rw [pool, same_id]
    exact indexed.owned q o₀ was
  · rw [names, pending, indexed.index k q]
    constructor
    · intro ⟨o₀, was, entry⟩
      obtain ⟨o₁, is, same_name, same_uid⟩ := lifted q o₀ was
      exact ⟨o₁, is, by rw [same_name, same_uid, entry]⟩
    · intro ⟨o₁, is, entry⟩
      obtain ⟨o₀, was, _, same_name, same_uid⟩ := kept q o₁ is
      exact ⟨o₀, was, by rw [← same_name, ← same_uid, entry]⟩
  · rw [objects] at is
    by_cases same : q = p
    · rw [same, Function.update_self] at is
      cases is
      rw [id, own]
    · rw [Function.update_of_ne same] at is
      have other : o₁.oid ≠ o.oid := by
        intro same_id
        have cached := indexed.owned q o₁ is
        rw [same_id, indexed.owned p o there] at cached
        cases cached
        exact same rfl
      rw [others _ other]
      exact indexed.row q o₁ is
  · obtain ⟨o₀, was, same_id, _, _⟩ := kept q o₁ is
    rw [last, same_id]
    exact indexed.known q o₀ was
  · rw [last]
    by_cases same : oid = o.oid
    · rw [same]
      exact indexed.known p o there
    · rw [others oid same] at is
      exact indexed.listed oid row is
  · obtain ⟨o₀, was, _, same_name, same_uid⟩ := kept q o₁ is
    rw [pending] at member
    rw [same_name, same_uid]
    exact indexed.gone r member q o₀ was
  · rw [pending]
    exact indexed.distinct

end Changes

/-! ## Steps -/

section Steps

variable {s s' : PoolCache key unique} {p : Nat} {o : CachedObject} {r : PendingIndex}

theorem Indexed.hit (indexed : s.Indexed) {olock : Bool} {result : Option Nat}
    (run : s.hit p olock = some (result, s')) : s'.Indexed := by
  unfold PoolCache.hit at run
  cases there : s.objects p with
  | none =>
    rw [there] at run
    cases run
  | some o =>
    rw [there] at run
    dsimp only at run
    split at run
    · cases run
      exact indexed
    · split at run
      · cases run
        exact indexed
      · split at run
        · cases run
        · cases run
          refine indexed.setObject there ?_ ?_ ?_ rfl rfl rfl ?_ (fun _ _ => rfl) rfl rfl
          · rfl
          · rfl
          · rfl
          · exact indexed.row p o there

/-- An object is thrown out by its entry; then nothing is found there. -/
theorem Indexed.discard (indexed : s.Indexed) {entry : CachedObject → String} {k : String}
    (found : s.namePool.lookup k = some p) (own : ∀ o, s.objects p = some o → entry o = k)
    (run : s.discard p entry = some s') : s'.Indexed ∧ s'.namePool = s.namePool.erase k ∧
      s'.pending = s.pending ∧ s'.table = s.table ∧ s'.usesNamePool = s.usesNamePool ∧
      s'.pool.keys.length ≤ s.pool.keys.length ∧
      (∀ oid q, s'.pool.lookup oid = some q → s.pool.lookup oid = some q) ∧
      ∀ q o, s'.objects q = some o → s.objects q = some o := by
  obtain ⟨o, there, is_entry⟩ := (indexed.index k p).mp found
  unfold PoolCache.discard at run
  rw [there] at run
  dsimp only at run
  split at run
  · cases run
  · cases run
    rw [own o there]
    refine ⟨?_, rfl, rfl, rfl, rfl, ?_, fun oid q cached => ?_, fun q o' is => ?_⟩
    · refine indexed.remove there rfl rfl ?_ rfl rfl rfl
      rw [is_entry]
    · rw [AList.keys_erase]
      exact List.length_erase_le
    · exact (lookup_erase_some cached).2
    · dsimp only at is
      by_cases same : q = p
      · rw [same, Function.update_self] at is
        cases is
      · rwa [Function.update_of_ne same] at is

/-- The object that `replace` removes has its own key as entry, if no rename is unfinished. -/
theorem Indexed.replace (indexed : s.Indexed) (sound : s.Sound) (names : s.usesNamePool = true)
    (settled : s.Settled) (run : s.replace = some s') : s'.Indexed := by
  obtain ⟨oid, p, o, rest, evictable, rfl, _⟩ := replaceLoop_cases sound run
  obtain ⟨o', there, id⟩ := sound.stored oid p evictable.cached
  have same := there.symm.trans evictable.there
  cases same
  have entry := entryOf_of_new_ne (settled oid p _ evictable)
  refine indexed.remove there rfl ?_ ?_ rfl rfl rfl
  · rw [id]
    rfl
  · rw [entry]
    exact if_pos names

theorem Settled.load (settled : s.Settled) {oid : Nat} {row : String × Int}
    {olock : Bool} (fresh : key row.1 row.2 ∉ pendingKeys s.pending) :
    (s.load oid row olock).Settled := by
  intro oid' q o evictable r member
  have there := evictable.there
  have pool : (s.load oid row olock).pool = insertNew s.pool oid s.unused := rfl
  rw [load_objects] at there
  split at there
  · cases there
    intro same
    exact fresh (same ▸ new_mem member)
  · rename_i other
    have cached := evictable.cached
    have before : s.pool.lookup oid' = some q := by
      rw [pool] at cached
      cases absent : s.pool.lookup oid with
      | none =>
        rw [lookup_insertNew absent] at cached
        split at cached
        · cases cached
          exact absurd rfl other
        · exact cached
      | some q' =>
        unfold insertNew at cached
        rwa [absent, Option.isSome_some, if_pos rfl] at cached
    exact settled oid' q o ⟨before, there, evictable.unlocked⟩ r member

theorem Indexed.loaded (indexed : s.Indexed) (sound : s.Sound) (names : s.usesNamePool = true)
    {oid : Nat} {row : String × Int} {olock : Bool} {result : Option Nat}
    (found : s.table.find oid = some row) (absent : s.pool.lookup oid = none)
    (free : s.namePool.lookup (key row.1 row.2) = none)
    (fresh : key row.1 row.2 ∉ pendingKeys s.pending) (room : s.RoomOrSettled)
    (run : s.loaded oid row olock = some (result, s')) : s'.Indexed := by
  have after := indexed.load sound names olock found absent free fresh
  unfold PoolCache.loaded at run
  dsimp only at run
  split at run
  · rename_i full
    obtain ⟨s'', replaced, is⟩ := Option.map_eq_some_iff.mp run
    cases is
    have settled : s.Settled := by
      refine room.resolve_left fun fits => ?_
      have pool : (s.load oid row olock).pool = s.pool.insert oid s.unused := by
        show insertNew s.pool oid s.unused = _
        unfold insertNew
        rw [absent, Option.isSome_none, if_neg Bool.false_ne_true]
      rw [pool, AList.keys_insert, List.length_cons] at full
      have shorter := List.length_erase_le (a := oid) (l := s.pool.keys)
      omega
    exact after.replace (sound.load oid row olock) names (settled.load fresh) replaced
  · cases run
    exact after

theorem RoomOrSettled.of_le (room : s.RoomOrSettled)
    (size : s'.pool.keys.length ≤ s.pool.keys.length) (pending : s'.pending = s.pending)
    (pool : ∀ oid q, s'.pool.lookup oid = some q → s.pool.lookup oid = some q)
    (objects : ∀ q o, s'.objects q = some o → s.objects q = some o) : s'.RoomOrSettled := by
  rcases room with fits | settled
  · exact .inl (Nat.lt_of_le_of_lt size fits)
  · refine .inr fun oid q o evictable r member => ?_
    rw [pending] at member
    exact settled oid q o ⟨pool oid q evictable.cached, objects q o evictable.there,
      evictable.unlocked⟩ r member

theorem Indexed.get (indexed : s.Indexed) (sound : s.Sound) (names : s.usesNamePool = true)
    {oid : Int} {olock : Bool} {result : Option Nat}
    (undisturbed : s.Undisturbed (.get oid olock)) (run : s.get oid olock = some (result, s')) :
    s'.Indexed := by
  unfold PoolCache.get at run
  split at run
  · cases run
    exact indexed
  · cases absent : s.pool.lookup oid.toNat with
    | some p =>
      rw [absent] at run
      exact indexed.hit run
    | none =>
      rw [absent] at run
      dsimp only at run
      cases found : s.table.find oid.toNat with
      | none =>
        rw [found] at run
        cases run
        exact indexed
      | some row =>
        obtain ⟨fresh, room⟩ := undisturbed absent row found
        rw [found] at run
        dsimp only at run
        cases entry : s.namePool.lookup (key row.1 row.2) with
        | none =>
          rw [entry] at run
          exact indexed.loaded sound names found absent entry fresh room run
        | some q =>
          rw [entry] at run
          obtain ⟨s'', discarded, run⟩ := Option.bind_eq_some_iff.mp run
          obtain ⟨indexed', erased, pending, table, uses, size, pool, objects⟩ :=
            indexed.discard entry (fun _ _ => rfl) discarded
          have absent' : s''.pool.lookup oid.toNat = none := by
            refine Option.eq_none_iff_forall_ne_some.mpr fun q cached => ?_
            have before := pool _ _ cached
            rw [absent] at before
            cases before
          have free' : s''.namePool.lookup (key row.1 row.2) = none := by
            rw [erased, AList.lookup_erase]
          rw [← pending] at fresh
          rw [← table] at found
          exact indexed'.loaded (sound.discard discarded) (uses.trans names) found absent' free'
            fresh (room.of_le size pending pool objects) run

/-- A row that is found by its name, where the index has nothing, is not in the map. -/
theorem Indexed.select (indexed : s.Indexed) (sound : s.Sound) (names : s.usesNamePool = true)
    {name : String} {uid : Int} {olock : Bool} {result : Option Nat}
    (free : s.namePool.lookup (key name uid) = none)
    (undisturbed : s.table.findKey (key name uid) = none ∨
      key name uid ∉ pendingKeys s.pending ∧ s.RoomOrSettled)
    (run : s.select name uid olock = some (result, s')) : s'.Indexed := by
  unfold PoolCache.select at run
  cases row_id : s.table.findKey (key name uid) with
  | none =>
    rw [row_id] at run
    cases run
    exact indexed
  | some oid =>
    obtain ⟨fresh, room⟩ := undisturbed.resolve_left (by rw [row_id]; exact Option.some_ne_none oid)
    rw [row_id] at run
    dsimp only at run
    cases found : s.table.find oid with
    | none =>
      rw [found] at run
      cases run
      exact indexed
    | some row =>
      rw [found] at run
      have same := UniqueTable.key_of_findKey row_id found
      have absent : s.pool.lookup oid = none := by
        refine Option.eq_none_iff_forall_ne_some.mpr fun p cached => ?_
        obtain ⟨o, there, id⟩ := sound.stored oid p cached
        have own := indexed.row p o there
        rw [id, found] at own
        split at own
        · cases own
          have entry := (indexed.index _ p).mpr ⟨o, there, rfl⟩
          have none : ∀ r ∈ s.pending, r.new ≠ key o.name o.uid := by
            intro r member is
            exact fresh (same ▸ is ▸ new_mem member)
          rw [entryOf_of_new_ne none] at entry
          rw [← same, entry] at free
          cases free
        · cases own
      rw [← same] at free fresh
      exact indexed.loaded sound names found absent free fresh room run

theorem Indexed.getByName (indexed : s.Indexed) (sound : s.Sound) (names : s.usesNamePool = true)
    {name : String} {uid : Int} {olock : Bool} {result : Option Nat}
    (undisturbed : s.Undisturbed (.getByName name uid olock))
    (run : s.getByName name uid olock = some (result, s')) : s'.Indexed := by
  unfold PoolCache.getByName at run
  simp only [names, Bool.not_true, Bool.false_eq_true, if_false] at run
  cases entry : s.namePool.lookup (key name uid) with
  | none =>
    rw [entry] at run
    refine indexed.select sound names entry ?_ run
    rcases undisturbed with ⟨p, o, is, _, _⟩ | ⟨_, none⟩ | settled
    · rw [entry] at is
      cases is
    · exact .inl none
    · exact .inr settled
  | some p =>
    obtain ⟨o, there, is_entry⟩ := (indexed.index _ p).mp entry
    rw [entry] at run
    dsimp only at run
    rw [there] at run
    dsimp only at run
    split at run
    · exact indexed.hit run
    · rename_i invalid
      obtain ⟨fresh, room⟩ : key name uid ∉ pendingKeys s.pending ∧ s.RoomOrSettled := by
        rcases undisturbed with ⟨p', o', is, there', valid⟩ | ⟨is, _⟩ | settled
        · rw [entry] at is
          cases is
          rw [there] at there'
          cases there'
          exact absurd valid invalid
        · rw [entry] at is
          cases is
        · exact settled
      obtain ⟨s'', discarded, run⟩ := Option.bind_eq_some_iff.mp run
      have own : ∀ o, s.objects p = some o → key o.name o.uid = key name uid := by
        intro o' there'
        rw [there] at there'
        cases there'
        rcases entryOf_cases s.pending (key o.name o.uid) with ⟨_, is⟩ | ⟨r, member, _, is⟩
        · rw [← is, is_entry]
        · rw [is_entry] at is
          exact absurd (is ▸ old_mem member) fresh
      obtain ⟨indexed', erased, pending, table, uses, size, pool, objects⟩ :=
        indexed.discard entry own discarded
      have free' : s''.namePool.lookup (key name uid) = none := by
        rw [erased, AList.lookup_erase]
      refine indexed'.select (sound.discard discarded) (uses.trans names) free' (.inr ?_) run
      rw [pending]
      exact ⟨fresh, room.of_le size pending pool objects⟩

/-- An object with a free new name keeps its entry. -/
theorem Indexed.rename (indexed : s.Indexed) {oldName name : String} {oldUid uid : Int}
    (undisturbed : s.Undisturbed (.rename p oldName oldUid name uid))
    (run : s.rename p oldName oldUid name uid = some s') : s'.Indexed := by
  unfold PoolCache.rename at run
  cases there : s.objects p with
  | none =>
    rw [there] at run
    cases run
  | some o =>
    obtain ⟨old, none, fresh, free, others⟩ := undisturbed o there
    rw [there] at run
    dsimp only at run
    split at run
    · rename_i locked
      cases run
      have valid : o.valid = true := (Bool.and_eq_true_iff.mp locked).2
      have entry := entryOf_of_new_ne none
      have own := (indexed.index _ p).mpr ⟨o, there, entry⟩
      have apart : key o.name o.uid ≠ key name uid := by
        intro same
        rw [same, free] at own
        cases own
      -- no other object has the old or the new name
      have other : ∀ q o', s.objects q = some o' → q ≠ p →
          key o'.name o'.uid ≠ key o.name o.uid ∧ key o'.name o'.uid ≠ key name uid := by
        intro q o' is ne
        constructor
        · intro same
          exact ne (indexed.ext is there (by rw [same]))
        · intro same
          have unused : ∀ r ∈ s.pending, r.new ≠ key name uid := by
            intro r member is
            exact fresh (is ▸ new_mem member)
          have is_entry := (indexed.index _ q).mpr ⟨o', is, rfl⟩
          rw [same, entryOf_of_new_ne unused, free] at is_entry
          cases is_entry
      have kept : ∀ q o', Function.update s.objects p (some { o with name := name, uid := uid }) q
          = some o' → q = p ∧ o' = { o with name := name, uid := uid } ∨
            q ≠ p ∧ s.objects q = some o' := by
        intro q o' is
        by_cases same : q = p
        · rw [same, Function.update_self] at is
          cases is
          exact .inl ⟨same, rfl⟩
        · rw [Function.update_of_ne same] at is
          exact .inr ⟨same, is⟩
      have entry_new : entryOf (⟨key oldName oldUid, key name uid⟩ :: s.pending) (key name uid) =
          key o.name o.uid :=
        (entryOf_cons_new _ _).trans old
      have entry_ne : ∀ k, k ≠ key name uid →
          entryOf (⟨key oldName oldUid, key name uid⟩ :: s.pending) k = entryOf s.pending k :=
        fun k ne => entryOf_cons_ne ne
      refine ⟨fun q o' is => ?_, fun k q => ?_, fun q o' is => ?_, fun q o' is => ?_,
        fun oid row is => ?_, fun r member q o' is => ?_, ⟨List.pairwise_cons.mpr ⟨?_, ?_⟩, ?_⟩⟩
      · rcases kept q o' is with ⟨rfl, rfl⟩ | ⟨_, is⟩
        · exact indexed.owned q o there
        · exact indexed.owned q o' is
      · rw [indexed.index k q]
        constructor
        · intro ⟨o', is, is_entry⟩
          by_cases same : q = p
          · rw [same, there] at is
            cases is
            refine ⟨{ o with name := name, uid := uid }, ?_, ?_⟩
            · rw [same]
              exact Function.update_self _ _ _
            · rw [← is_entry, entry]
              exact entry_new
          · refine ⟨o', (Function.update_of_ne same _ _).trans is, ?_⟩
            rw [← is_entry]
            exact entry_ne _ (other q o' is same).2
        · intro ⟨o', is, is_entry⟩
          rcases kept q o' is with ⟨rfl, rfl⟩ | ⟨ne, is⟩
          · refine ⟨o, there, ?_⟩
            rw [← is_entry, entry]
            exact entry_new.symm
          · refine ⟨o', is, ?_⟩
            rw [← is_entry]
            exact (entry_ne _ (other q o' is ne).2).symm
      · rcases kept q o' is with ⟨rfl, rfl⟩ | ⟨ne, is⟩
        · rw [if_pos valid]
          exact UniqueTable.find_replace_self
        · have id_ne : o'.oid ≠ o.oid := by
            intro same
            have cached := indexed.owned q o' is
            rw [same, indexed.owned p o there] at cached
            cases cached
            exact ne rfl
          rw [← indexed.row q o' is]
          exact UniqueTable.find_replace_ne id_ne fun _ oid row ne found => others oid row ne found
      · rcases kept q o' is with ⟨rfl, rfl⟩ | ⟨_, is⟩
        · exact indexed.known q o there
        · exact indexed.known q o' is
      · by_cases same : oid = o.oid
        · rw [same]
          exact indexed.known p o there
        · have row_is := (UniqueTable.find_replace_ne same fun _ oid row ne found =>
            others oid row ne found).symm.trans is
          exact indexed.listed oid row row_is
      · rcases List.mem_cons.mp member with rfl | later
        · rcases kept q o' is with ⟨rfl, rfl⟩ | ⟨ne, is⟩
          · exact fun same => apart (old ▸ same.symm)
          · exact fun same => (other q o' is ne).1 (same.trans old)
        · rcases kept q o' is with ⟨rfl, rfl⟩ | ⟨_, is⟩
          · intro same
            exact fresh (same ▸ old_mem later)
          · exact indexed.gone r later q o' is
      · intro r member
        unfold Apart
        rw [old]
        refine ⟨(indexed.gone r member p o there), (none r member).symm, ?_, ?_⟩
        · intro same
          have is_old : key name uid = r.old := same
          exact fresh (is_old ▸ old_mem member)
        · intro same
          have is_new : key name uid = r.new := same
          exact fresh (is_new ▸ new_mem member)
      · exact indexed.distinct.apart
      · intro r member
        rcases List.mem_cons.mp member with rfl | member
        · exact fun same => apart (old ▸ same)
        · exact indexed.distinct.keys r member
    · cases run

/-- The entry moves to the new name, if the object is still there. -/
theorem Indexed.updateCacheIndex (indexed : s.Indexed) (names : s.usesNamePool = true)
    (member : r ∈ s.pending) :
    Indexed { s.updateCacheIndex r with pending := s.pending.erase r } := by
  have distinct := indexed.distinct
  have erased := distinct.erase r
  have left : ∀ r' ∈ s.pending, r' ≠ r → r' ∈ s.pending.erase r := fun r' member' ne =>
    (List.mem_erase_of_ne ne).mpr member'
  have new_gone : ∀ r' ∈ s.pending.erase r, r'.new ≠ r.new := by
    intro r' member' same
    have is := distinct.eq_of_new (List.mem_of_mem_erase member') member same
    rw [is] at member'
    exact (List.Nodup.not_mem_erase (distinct.apart.imp fun apart same => apart.1 (by rw [same])))
      member'
  have entry_new : entryOf (s.pending.erase r) r.new = r.new := entryOf_of_new_ne new_gone
  have entry_ne : ∀ k, k ≠ r.new → entryOf (s.pending.erase r) k = entryOf s.pending k := by
    intro k ne
    rcases entryOf_cases s.pending k with ⟨none, is⟩ | ⟨r', member', new, is⟩
    · rw [is, entryOf_of_new_ne fun r' member' => none r' (List.mem_of_mem_erase member')]
    · have other : r' ≠ r := fun same => ne (same ▸ new.symm)
      rw [is, ← new, entryOf_new erased (left r' member' other)]
  have gone : ∀ r' ∈ s.pending.erase r, ∀ p o, s.objects p = some o → key o.name o.uid ≠ r'.old :=
    fun r' member' => indexed.gone r' (List.mem_of_mem_erase member')
  -- the object with the new name, if there is one, has the old entry
  have renamed : ∀ q o, s.objects q = some o → key o.name o.uid = r.new →
      s.namePool.lookup r.old = some q := by
    intro q o is same
    refine (indexed.index r.old q).mpr ⟨o, is, ?_⟩
    rw [same]
    exact entryOf_new distinct member
  unfold PoolCache.updateCacheIndex
  rw [if_pos names]
  cases entry : s.namePool.lookup r.old with
  | none =>
    refine ⟨indexed.owned, fun k q => ?_, indexed.row, indexed.known, indexed.listed, gone, erased⟩
    rw [indexed.index k q]
    refine exists_congr fun o => and_congr_right fun is => ?_
    have ne : key o.name o.uid ≠ r.new := by
      intro same
      rw [renamed q o is same] at entry
      cases entry
    exact iff_of_eq (congrArg (· = k) (entry_ne _ ne).symm)
  | some p =>
    obtain ⟨o, there, is_old⟩ := (indexed.index r.old p).mp entry
    have own : key o.name o.uid = r.new := by
      rcases entryOf_cases s.pending (key o.name o.uid) with ⟨_, is⟩ | ⟨r', member', new, is⟩
      · rw [is] at is_old
        exact absurd is_old (indexed.gone r member p o there)
      · have same := distinct.eq_of_old member' member (is.symm.trans is_old)
        rw [← new, same]
    have free : (s.namePool.erase r.old).lookup r.new = none := by
      rw [AList.lookup_erase_ne (distinct.keys r member).symm]
      refine Option.eq_none_iff_forall_ne_some.mpr fun q found => ?_
      obtain ⟨o', _, is⟩ := (indexed.index r.new q).mp found
      rcases entryOf_cases s.pending (key o'.name o'.uid) with ⟨none, same⟩ | ⟨r', member', _, old⟩
      · exact none r member (is.symm.trans same)
      · exact distinct.old_ne_new member' member (old.symm.trans is)
    refine ⟨indexed.owned, fun k q => ?_, indexed.row, indexed.known, indexed.listed, gone, erased⟩
    dsimp only
    rw [lookup_insertNew free]
    by_cases new : k = r.new
    · rw [if_pos new, new]
      constructor
      · intro same
        cases same
        refine ⟨o, there, ?_⟩
        rw [own, entry_new]
      · intro ⟨o', is, is_entry⟩
        by_cases same : key o'.name o'.uid = r.new
        · rw [← entry, renamed q o' is same]
        · rw [entry_ne _ same] at is_entry
          have found := (indexed.index r.new q).mpr ⟨o', is, is_entry⟩
          rw [← AList.lookup_erase_ne (distinct.keys r member).symm, free] at found
          cases found
    · rw [if_neg new]
      by_cases old : k = r.old
      · rw [old, AList.lookup_erase]
        refine iff_of_false nofun fun ⟨o', is, is_entry⟩ => ?_
        by_cases same : key o'.name o'.uid = r.new
        · rw [same, entry_new] at is_entry
          exact distinct.keys r member is_entry.symm
        · rw [entry_ne _ same] at is_entry
          have found := (indexed.index r.old q).mpr ⟨o', is, is_entry⟩
          rw [entry] at found
          cases found
          rw [there] at is
          cases is
          exact same own
      · rw [AList.lookup_erase_ne old, indexed.index k q]
        refine exists_congr fun o' => and_congr_right fun is => ?_
        by_cases same : key o'.name o'.uid = r.new
        · rw [same, entry_new, entryOf_new distinct member]
          exact iff_of_false (Ne.symm old) (Ne.symm new)
        · rw [entry_ne _ same]

theorem Indexed.drop (indexed : s.Indexed) (run : s.drop p = some s') : s'.Indexed := by
  unfold PoolCache.drop at run
  cases there : s.objects p with
  | none =>
    rw [there] at run
    cases run
  | some o =>
    rw [there] at run
    dsimp only at run
    split at run
    · cases run
      refine indexed.setObject there ?_ ?_ ?_ rfl rfl rfl ?_ ?_ rfl rfl
      · rfl
      · rfl
      · rfl
      · exact UniqueTable.find_delete_self
      · exact fun oid other => UniqueTable.find_delete_ne other
    · cases run

theorem Indexed.unlock (indexed : s.Indexed) (run : s.unlock p = some s') : s'.Indexed := by
  obtain ⟨o, there, rfl⟩ := Option.map_eq_some_iff.mp run
  refine indexed.setObject there ?_ ?_ ?_ rfl rfl rfl ?_ (fun _ _ => rfl) rfl rfl
  · rfl
  · rfl
  · rfl
  · exact indexed.row p o there

theorem Indexed.allocate (indexed : s.Indexed) (name : String) (uid : Int) :
    (s.allocate name uid).Indexed := by
  unfold PoolCache.allocate
  cases inserted : s.table.insert (s.lastOid + 1) (name, uid) with
  | none => exact indexed
  | some table =>
    have rows : ∀ oid, oid ≤ s.lastOid → table.find oid = s.table.find oid := by
      intro oid below
      rw [(UniqueTable.find_insert inserted).2, if_neg (by omega)]
    refine ⟨indexed.owned, indexed.index, fun q o is => ?_, fun q o is => ?_, fun oid row is => ?_,
      indexed.gone, indexed.distinct⟩
    · exact (rows _ (indexed.known q o is)).trans (indexed.row q o is)
    · exact Nat.le_succ_of_le (indexed.known q o is)
    · dsimp only at is ⊢
      rw [(UniqueTable.find_insert inserted).2] at is
      split at is
      · omega
      · have below := indexed.listed oid row is
        omega

theorem Indexed.clean (indexed : s.Indexed) (run : s.clean = some s') : s'.Indexed := by
  unfold PoolCache.clean at run
  split at run
  · cases run
    have empty : ∀ q o, (if q ∈ s.pool.entries.map Sigma.snd then none else s.objects q) ≠ some o := by
      intro q o is
      split at is
      · cases is
      · rename_i absent
        have cached := AList.mem_lookup_iff.mp (indexed.owned q o is)
        exact absent (List.mem_map.mpr ⟨_, cached, rfl⟩)
    refine ⟨fun q o is => absurd is (empty q o), fun k q => ?_, fun q o is => absurd is (empty q o),
      fun q o is => absurd is (empty q o), indexed.listed,
      fun _ _ q o is => absurd is (empty q o), indexed.distinct⟩
    exact iff_of_false nofun fun ⟨o, is, _⟩ => empty q o is
  · cases run

end Steps

/-! ## Runs -/

section Runs

variable {s s' : PoolCache key unique} {l : Section}

/-- A pool without an index keeps it empty. -/
structure KeepsUse (s s' : PoolCache key unique) : Prop where
  use : s'.usesNamePool = s.usesNamePool
  empty : s.usesNamePool = false → s.namePool = ∅ → s'.namePool = ∅

theorem KeepsUse.refl (s : PoolCache key unique) : KeepsUse s s := ⟨rfl, fun _ empty => empty⟩

theorem KeepsUse.trans {s'' : PoolCache key unique} (first : KeepsUse s s')
    (second : KeepsUse s' s'') :
    KeepsUse s s'' :=
  ⟨second.use.trans first.use,
    fun unused empty => second.empty (first.use.trans unused) (first.empty unused empty)⟩

/-- The index does not change. -/
theorem KeepsUse.same (use : s'.usesNamePool = s.usesNamePool) (names : s'.namePool = s.namePool) :
    KeepsUse s s' :=
  ⟨use, fun _ empty => names.trans empty⟩

/-- The index changes only if it is used. -/
theorem KeepsUse.used (use : s'.usesNamePool = s.usesNamePool) {t : AList fun _ : String => Nat}
    (names : s'.namePool = if s.usesNamePool then t else s.namePool) : KeepsUse s s' := by
  refine ⟨use, fun unused empty => ?_⟩
  rw [names, unused]
  exact empty

theorem keepsUse_hit {p : Nat} {olock : Bool} {result : Option Nat}
    (run : s.hit p olock = some (result, s')) : KeepsUse s s' := by
  unfold PoolCache.hit at run
  split at run
  · cases run
  · split at run
    · cases run
      exact .refl s
    · split at run
      · cases run
        exact .refl s
      · split at run
        · cases run
        · cases run
          exact .same rfl rfl

theorem keepsUse_discard {p : Nat} {entry : CachedObject → String}
    (run : s.discard p entry = some s') : KeepsUse s s' := by
  unfold PoolCache.discard at run
  split at run
  · cases run
  · split at run
    · cases run
    · cases run
      refine ⟨rfl, fun _ empty => ?_⟩
      dsimp only
      rw [empty]
      rfl

theorem keepsUse_loaded (sound : s.Sound) {oid : Nat} {row : String × Int} {olock : Bool}
    {result : Option Nat} (run : s.loaded oid row olock = some (result, s')) : KeepsUse s s' := by
  have first : KeepsUse s (s.load oid row olock) := .used rfl rfl
  unfold PoolCache.loaded at run
  dsimp only at run
  split at run
  · obtain ⟨s'', replaced, is⟩ := Option.map_eq_some_iff.mp run
    cases is
    obtain ⟨_, _, _, _, _, rfl, _⟩ := replaceLoop_cases (sound.load oid row olock) replaced
    exact first.trans (.used rfl rfl)
  · cases run
    exact first

theorem keepsUse_select (sound : s.Sound) {name : String} {uid : Int} {olock : Bool}
    {result : Option Nat} (run : s.select name uid olock = some (result, s')) : KeepsUse s s' := by
  unfold PoolCache.select at run
  split at run
  · cases run
    exact .refl s
  · split at run
    · cases run
      exact .refl s
    · exact keepsUse_loaded sound run

theorem keepsUse_step (sound : s.Sound) (taken : step s l s') : KeepsUse s s' := by
  unfold PoolCache.step next at taken
  cases l with
  | get oid olock =>
    obtain ⟨⟨result, s''⟩, run, rfl⟩ := Option.map_eq_some_iff.mp taken
    unfold PoolCache.get at run
    split at run
    · cases run
      exact .refl s
    · split at run
      · exact keepsUse_hit run
      · split at run
        · cases run
          exact .refl s
        · split at run
          · exact keepsUse_loaded sound run
          · obtain ⟨s₁, discarded, run⟩ := Option.bind_eq_some_iff.mp run
            exact (keepsUse_discard discarded).trans (keepsUse_loaded (sound.discard discarded) run)
  | getByName name uid olock =>
    obtain ⟨⟨result, s''⟩, run, rfl⟩ := Option.map_eq_some_iff.mp taken
    unfold PoolCache.getByName at run
    split at run
    · cases run
      exact .refl s
    · split at run
      · exact keepsUse_select sound run
      · split at run
        · cases run
        · split at run
          · exact keepsUse_hit run
          · obtain ⟨s₁, discarded, run⟩ := Option.bind_eq_some_iff.mp run
            exact (keepsUse_discard discarded).trans (keepsUse_select (sound.discard discarded) run)
  | rename p oldName oldUid name uid =>
    dsimp only at taken
    unfold PoolCache.rename at taken
    split at taken
    · cases taken
    · split at taken
      · cases taken
        exact .same rfl rfl
      · cases taken
  | updateCacheIndex r =>
    dsimp only at taken
    split at taken
    · cases taken
      unfold PoolCache.updateCacheIndex
      split
      · rename_i used
        split
        · exact .same rfl rfl
        · refine ⟨rfl, fun unused => ?_⟩
          rw [used] at unused
          cases unused
      · exact .same rfl rfl
    · cases taken
  | drop p =>
    dsimp only at taken
    unfold PoolCache.drop at taken
    split at taken
    · cases taken
    · split at taken
      · cases taken
        exact .same rfl rfl
      · cases taken
  | allocate name uid =>
    cases taken
    unfold PoolCache.allocate
    split
    · exact .refl s
    · exact .same rfl rfl
  | unlock p =>
    obtain ⟨o, _, rfl⟩ := Option.map_eq_some_iff.mp taken
    exact .same rfl rfl
  | clean =>
    dsimp only at taken
    unfold PoolCache.clean at taken
    split at taken
    · cases taken
      exact ⟨rfl, fun _ _ => rfl⟩
    · cases taken

/-- The index has an entry for every object, or the pool has none. -/
structure Lawful (s : PoolCache key unique) : Prop where
  sound : s.Sound
  indexed : s.usesNamePool = true → s.Indexed
  unnamed : s.usesNamePool = false → s.namePool = ∅

theorem lawful_init (start : Init s) : s.Lawful := by
  have sound := sound_init start
  obtain ⟨objects, pool, names, _, pending, listed⟩ := start
  have none : ∀ p o, s.objects p ≠ some o := by
    intro p o is
    rw [objects p] at is
    cases is
  have keys : Distinct s.pending := by
    rw [pending]
    exact ⟨List.Pairwise.nil, nofun⟩
  refine ⟨sound, fun _ => ?_, fun _ => names⟩
  refine ⟨fun p o is => absurd is (none p o), fun k p => ?_, fun p o is => absurd is (none p o),
    fun p o is => absurd is (none p o), listed, fun _ _ p o is => absurd is (none p o), keys⟩
  rw [names]
  exact iff_of_false nofun fun ⟨o, is, _⟩ => none p o is

theorem Indexed.step (indexed : s.Indexed) (sound : s.Sound) (names : s.usesNamePool = true)
    (undisturbed : s.Undisturbed l) (taken : step s l s') : s'.Indexed := by
  unfold PoolCache.step next at taken
  cases l with
  | get oid olock =>
    obtain ⟨⟨result, s''⟩, run, rfl⟩ := Option.map_eq_some_iff.mp taken
    exact indexed.get sound names undisturbed run
  | getByName name uid olock =>
    obtain ⟨⟨result, s''⟩, run, rfl⟩ := Option.map_eq_some_iff.mp taken
    exact indexed.getByName sound names undisturbed run
  | rename p oldName oldUid name uid => exact indexed.rename undisturbed taken
  | updateCacheIndex r =>
    dsimp only at taken
    split at taken
    · rename_i member
      cases taken
      exact indexed.updateCacheIndex names member
    · cases taken
  | drop p => exact indexed.drop taken
  | allocate name uid =>
    cases taken
    exact indexed.allocate name uid
  | unlock p => exact indexed.unlock taken
  | clean => exact indexed.clean taken

theorem Lawful.step (lawful : s.Lawful) (undisturbed : s.usesNamePool = true → s.Undisturbed l)
    (taken : step s l s') : s'.Lawful := by
  have keeps := keepsUse_step lawful.sound taken
  refine ⟨lawful.sound.step taken, fun used => ?_, fun unused => ?_⟩
  · rw [keeps.use] at used
    exact (lawful.indexed used).step lawful.sound used (undisturbed used) taken
  · rw [keeps.use] at unused
    exact keeps.empty unused (lawful.unnamed unused)

/-- The entries of an object that has no unfinished rename are the one under its key. -/
theorem Lawful.indexExact (lawful : s.Lawful) (settled : s.usesNamePool = true → s.Settled) :
    s.IndexExact := by
  intro s' oid p o run removed k
  obtain ⟨oid', p', o', rest, evictable, rfl, _⟩ := replaceLoop_cases lawful.sound run
  -- the object that is gone is the one that was evicted
  have same : p = p' := by
    by_contra other
    have gone : (s.evict oid' p' o' rest).objects p = none := by
      rw [removed.objects, Function.update_self]
    have kept : (s.evict oid' p' o' rest).objects p = s.objects p :=
      Function.update_of_ne other _ _
    rw [gone, removed.there] at kept
    cases kept
  subst same
  have namePool : (s.evict oid' p o' rest).namePool =
      if s.usesNamePool then s.namePool.erase (key o'.name o'.uid) else s.namePool := rfl
  rw [namePool]
  cases used : s.usesNamePool with
  | false =>
    rw [if_neg Bool.false_ne_true, lawful.unnamed used, AList.lookup_empty, if_neg nofun]
  | true =>
    have indexed := lawful.indexed used
    have entry := entryOf_of_new_ne (settled used oid' p o' evictable)
    have own := (indexed.index _ p).mpr ⟨o', evictable.there, entry⟩
    rw [if_pos rfl]
    by_cases here : k = key o'.name o'.uid
    · rw [here, AList.lookup_erase, own, if_pos rfl]
    · rw [AList.lookup_erase_ne here, if_neg]
      intro found
      obtain ⟨o'', there, is_entry⟩ := (indexed.index k p).mp found
      rw [evictable.there] at there
      cases there
      exact here (is_entry.symm.trans entry)

/-- In every state a call of `replace` ends, with one unlocked object removed. Where all steps
leave the names of unfinished renames alone, and no unlocked object has an unfinished rename, the
index loses the entry of this object only. -/
theorem eviction_exact (s : PoolCache key unique) :
    (Reachable Init step s → s.Evicts) ∧
      (Reachable Init (Guarded (fun s l => s.usesNamePool = true → s.Undisturbed l) step) s →
        (s.usesNamePool = true → s.Settled) → s.Evicts ∧ s.IndexExact) := by
  constructor
  · intro reached
    exact (sound_of_reached reached).evicts
  · intro reached settled
    have lawful : s.Lawful := by
      apply reached.invariant fun s start => lawful_init start
      intro s l s' lawful taken
      exact lawful.step taken.1 taken.2
    exact ⟨lawful.sound.evicts, lawful.indexExact settled⟩

end Runs

/-- `PoolSQL::key`. -/
def nameAndOwner (name : String) (uid : Int) : String := name ++ ":" ++ toString uid

/-- A pool with one row, before anything is looked up. -/
def oneRow : PoolCache nameAndOwner true where
  usesNamePool := true
  objects _ := none
  unused := 0
  pool := ∅
  namePool := ∅
  oidQueue := []
  table := ⟨[(1, ("a", 0))], by decide, fun _ => by decide⟩
  lastOid := 1
  pending := []

theorem init_oneRow : Init oneRow := by
  refine ⟨fun _ => rfl, rfl, rfl, rfl, rfl, fun oid row found => ?_⟩
  have member := UniqueTable.find_eq_some_iff.mp found
  have only := List.mem_singleton.mp member
  cases only
  exact Nat.le_refl 1

/-- The object is evicted after its rename gave up the lock: the index still has it under the old
name. -/
theorem renamed_entry_stays : ∃ s : PoolCache nameAndOwner true, Reachable Init step s ∧ ∃ s',
    s.replace = some s' ∧ s.pool.lookup 1 = some 0 ∧ s'.pool.lookup 1 = none ∧
      s'.objects 0 = none ∧ s'.namePool.lookup "a:0" = some 0 := by
  let run : Option (PoolCache nameAndOwner true) :=
    [Section.get 1 true, .rename 0 "a" 0 "b" 0, .unlock 0].foldlM next oneRow
  have ends : (run.bind replace).isSome = true := by decide +kernel
  obtain ⟨s', ends⟩ := Option.isSome_iff_exists.mp ends
  obtain ⟨s, reached, replaced⟩ := Option.bind_eq_some_iff.mp ends
  have before : run.map (fun s => s.pool.lookup 1) = some (some 0) := by decide +kernel
  have after : (run.bind replace).map (fun s => (s.pool.lookup 1, s.objects 0,
      s.namePool.lookup "a:0")) = some (none, none, some 0) := by decide +kernel
  rw [reached] at before
  rw [ends] at after
  simp only [Option.map_some, Option.some.injEq, Prod.mk.injEq] at before after
  exact ⟨s, Reachable.foldlM next _ (fun _ _ _ taken => taken) (.init init_oneRow) reached, s',
    replaced, before, after.1, after.2.1, after.2.2⟩

/-- The object is loaded and not locked. -/
theorem eviction_exact_loaded :
    (oneRow.load 1 ("a", 0) false).Evicts ∧ (oneRow.load 1 ("a", 0) false).IndexExact := by
  have taken : step oneRow (.get 1 false) (oneRow.load 1 ("a", 0) false) := rfl
  have undisturbed : oneRow.Undisturbed (.get 1 false) := by
    intro _ row _
    exact ⟨List.not_mem_nil, .inl (by decide)⟩
  refine (eviction_exact _).2 (.step (l := .get 1 false) (.init init_oneRow)
    ⟨fun _ => undisturbed, taken⟩) fun _ oid p o _ r member => ?_
  exact absurd member List.not_mem_nil

end PoolCache

end Ezilla
