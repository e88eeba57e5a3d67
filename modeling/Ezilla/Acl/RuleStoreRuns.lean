import Ezilla.Acl.RuleStore
import Ezilla.Acl.AclMeaning
import Ezilla.Lib.Transition

/-!
# Runs of the rule store

Requests add and delete rules, and deleting a user, a group, a cluster or a
resource deletes the rules about it: their oids are collected under one lock and
each of them is deleted under a lock of its own. An addition reads the oid that
it returns from `lastOID`, after it has released the lock.

* `RuleSystem`: the store with the additions and deletions that are under way;
* `consistent_of_reachable`: the indexes and the table agree after any run;
* `store_laws_of_reached`: what the additions and deletions promise, in the runs whose
  steps meet `Meets`.
-/

namespace Ezilla

open PackedWord Transition

/-- What is deleted with its rules. -/
inductive DeletedObject where
  | user (uid : Oid)
  | group (gid : Oid)
  | cluster (cid : Oid)
  | resource (objType : ObjectType) (oid : Oid)

/-- How the oids of rules are collected: `del_user_matching_rules` and
`del_resource_matching_rules`. -/
inductive RuleQuery where
  | user (userReq : BitVec 64)
  | resource (resourceReq resourceMask : BitVec 64)
  deriving DecidableEq

def RuleQuery.matches : RuleQuery → AclRule → Bool
  | user userReq, r => r.user = userReq
  | resource resourceReq resourceMask, r => r.resource &&& resourceMask = resourceReq

namespace DeletedObject

/-- The queries of `del_uid_rules`, `del_gid_rules`, `del_cid_rules` and
`del_resource_rules`. -/
def queries : DeletedObject → List RuleQuery
  | user uid => [.user (AclRule.individualId ||| uid.val.signExtend 64)]
  | group gid =>
    let request := AclRule.groupId ||| gid.val.signExtend 64
    [.user request, .resource request (AclRule.groupId ||| 0x00000000FFFFFFFF#64)]
  | cluster cid =>
    [.resource (AclRule.clusterId ||| cid.val.signExtend 64)
      (AclRule.clusterId ||| 0x00000000FFFFFFFF#64)]
  | resource objType oid =>
    [.resource (objType.code ||| AclRule.individualId ||| oid.val.signExtend 64)
      0xFFFFFFFFFFFFFFFF#64]

/-- The rule has the user or the group as its user selector. -/
def NamesUser : DeletedObject → AclRule → Prop
  | user uid, r => r.meaning.user = .individual uid.val
  | group gid, r => r.meaning.user = .group gid.val
  | cluster _, _ => False
  | resource _ _, _ => False

/-- The rule has the group or the cluster as its resource selector, or is about
this one resource. -/
def NamesResource : DeletedObject → AclRule → Prop
  | user _, _ => False
  | group gid, r => r.meaning.resource = .group gid.val
  | cluster cid, r => r.meaning.resource = .cluster cid.val
  | resource objType oid, r =>
    r.resource = objType.code ||| AclRule.individualId ||| oid.val.signExtend 64

/-- The rule names what is deleted. -/
def Names (d : DeletedObject) (r : AclRule) : Prop :=
  d.NamesUser r ∨ d.NamesResource r

end DeletedObject

/-- A deletion that is under way: the queries and the oids it still has to work
on. The other fields record the rules that were stored when it began, those
that have left the store since, and those it deleted itself. -/
structure RuleDeletion where
  deleted : DeletedObject
  queries : List RuleQuery
  oids : List Int
  begun : List AclRule
  gone : List AclRule
  removed : List AclRule

/-- The store, the additions between their locked section and their return, each
with the oid of the rule it stored, and the deletions under way. -/
structure RuleSystem where
  store : RuleStore
  adds : Nat → Option Int
  deletions : Nat → Option RuleDeletion

/-- The steps, by a thread where they are more than one; `answer` is what the
database answers. -/
inductive RuleStep where
  | add (thread : Nat) (user resource rights : BitVec 64) (answer : Bool)
  | addReturn (thread : Nat)
  | del (oid : Int) (answer : Bool)
  | delete (thread : Nat) (deleted : DeletedObject)
  | collect (thread : Nat)
  | deleteNext (thread : Nat) (answer : Bool)
  | deleteDone (thread : Nat)

namespace RuleSystem

/-- The deletions under way, with a rule that has left the store. -/
def noteGone (s : RuleSystem) (gone : Option AclRule) : Nat → Option RuleDeletion :=
  fun thread => (s.deletions thread).map fun d => { d with gone := gone.toList ++ d.gone }

/-- One step, where the thread is at it. -/
def next (s : RuleSystem) : RuleStep → Option RuleSystem
  | .add thread user resource rights answer =>
    if s.adds thread = none then
      match s.store.addSection user resource rights answer with
      | (.ok rule, store) =>
        some { s with store, adds := Function.update s.adds thread (some rule.oid) }
      | (.error _, store) => some { s with store }
    else none
  | .addReturn thread =>
    if s.adds thread = none then none
    else some { s with adds := Function.update s.adds thread none }
  | .del oid answer =>
    some { s with
      store := (s.store.delRule oid answer).2
      deletions := s.noteGone (s.store.delRule oid answer).1 }
  | .delete thread deleted =>
    match s.deletions thread with
    | some _ => none
    | none =>
      let d : RuleDeletion := ⟨deleted, deleted.queries, [], s.store.rows, [], []⟩
      some { s with deletions := Function.update s.deletions thread (some d) }
  | .collect thread =>
    match s.deletions thread with
    | some ⟨deleted, query :: queries, [], begun, gone, removed⟩ =>
      let oids := (s.store.manager.aclRules.filter query.matches).map AclRule.oid
      some { s with
        deletions := Function.update s.deletions thread
          (some ⟨deleted, queries, oids, begun, gone, removed⟩) }
    | _ => none
  | .deleteNext thread answer =>
    match s.deletions thread with
    | some ⟨deleted, queries, oid :: oids, begun, gone, removed⟩ =>
      let (rule, store) := s.store.delRule oid answer
      some { s with
        store
        deletions := Function.update (s.noteGone rule) thread
          (some ⟨deleted, queries, oids, begun, rule.toList ++ gone, rule.toList ++ removed⟩) }
    | _ => none
  | .deleteDone thread =>
    match s.deletions thread with
    | some ⟨_, [], [], _, _, _⟩ =>
      some { s with deletions := Function.update s.deletions thread none }
    | _ => none

/-- What the daemon loads when it starts. -/
def Loaded (s : RuleSystem) : Prop :=
  s.store.Consistent ∧ s.adds = (fun _ => none) ∧ s.deletions = fun _ => none

def Step (s : RuleSystem) (l : RuleStep) (s' : RuleSystem) : Prop :=
  s.next l = some s'

/-! ## What the operations promise -/

/-- A deletion has removed exactly the rules that named what it deleted. -/
def Exact (d : RuleDeletion) : Prop :=
  (∀ r ∈ d.removed, d.deleted.Names r) ∧ ∀ r ∈ d.begun, d.deleted.Names r → r ∈ d.gone

/-- A failed addition changes nothing, a successful one returns the oid of its
rule, and a deletion that ends was exact. -/
def Law (s : RuleSystem) : RuleStep → RuleSystem → Prop
  | .add _ user resource rights answer, s' =>
    ¬ s.store.Accepts user resource rights answer → s'.store = s.store
  | .addReturn thread, _ => ∀ oid, s.adds thread = some oid → s.store.lastOid = oid
  | .deleteDone thread, _ => ∀ d, s.deletions thread = some d → Exact d
  | _, _ => True

/-- An addition that stores its rule does so while no other one is about to
return, and takes no oid that a deletion has collected; one that fails does not
start the oids again; a deletion begins when the rules for its user or group have
clean user words or the resource selector as well; and the database deletes the rows
it is asked to delete. -/
def Meets (s : RuleSystem) : RuleStep → Prop
  | .add _ user resource rights answer =>
    if s.store.Accepts user resource rights answer then
      (∀ thread, s.adds thread = none) ∧
        ∀ thread d, s.deletions thread = some d → s.store.nextOid ∉ d.oids
    else
      s.store.lastOid ≠ RuleStore.maxOid
  | .delete _ deleted => ∀ r ∈ s.store.rows, deleted.NamesUser r →
      r.CleanUser ∨ deleted.NamesResource r
  | .deleteNext thread answer => ∀ d oid, s.deletions thread = some d → d.oids.head? = some oid →
      s.store.oids oid ≠ none → answer = true
  | _ => True

end RuleSystem

/-! ## What the queries find -/

section Queries

variable {r : AclRule}

theorem AclRule.user_individual_iff (wellFormed : r.malformed = false) (uid : Oid) :
    r.user = AclRule.individualId ||| uid.val.signExtend 64 ↔
      r.CleanUser ∧ r.meaning.user = .individual uid.val := by
  have word : AclRule.individualId ||| uid.val.signExtend 64 = BitVec.twoPow 32 0 ++ uid.val := by
    rw [individualId_eq, signExtend_of_nonneg uid.property, BitVec.or_append]
    simp
  rw [word, user_eq_iff wellFormed (by decide)]
  simp only [AclRule.meaning, individualId_eq, groupId_eq,
    and_flag_ne_zero_iff (show 0 < 32 by decide), and_flag_ne_zero_iff (show 1 < 32 by decide)]
  cases (flags r.user).getLsbD 0 with
  | true => simp
  | false => cases (flags r.user).getLsbD 1 <;> simp

theorem AclRule.user_group_iff (wellFormed : r.malformed = false) (gid : Oid) :
    r.user = AclRule.groupId ||| gid.val.signExtend 64 ↔
      r.CleanUser ∧ r.meaning.user = .group gid.val := by
  have word : AclRule.groupId ||| gid.val.signExtend 64 = BitVec.twoPow 32 1 ++ gid.val := by
    rw [groupId_eq, signExtend_of_nonneg gid.property, BitVec.or_append]
    simp
  obtain ⟨-, selectors⟩ := AclRule.user_of_wellFormed wellFormed
  rw [word, user_eq_iff wellFormed (by decide)]
  simp only [AclRule.meaning, individualId_eq, groupId_eq,
    and_flag_ne_zero_iff (show 0 < 32 by decide), and_flag_ne_zero_iff (show 1 < 32 by decide)]
  revert selectors
  generalize (flags r.user).getLsbD 0 = u₀
  generalize (flags r.user).getLsbD 1 = u₁
  rintro (⟨rfl, rfl, -⟩ | ⟨rfl, rfl, -⟩ | ⟨rfl, rfl, -⟩) <;> simp

/-- A mask over one selector and the whole id finds the rules with that selector. -/
theorem AclRule.resource_and_eq_iff {i : Nat} (small : i < 4) (id : Oid) {selector : BitVec 64}
    (selector_eq : selector = BitVec.twoPow 32 i ++ 0#32) :
    r.resource &&& (selector ||| 0x00000000FFFFFFFF#64) = selector ||| id.val.signExtend 64 ↔
      (flags r.resource).getLsbD i = true ∧ r.resourceId = id.val := by
  have mask : selector ||| 0x00000000FFFFFFFF#64 = BitVec.twoPow 32 i ++ BitVec.allOnes 32 := by
    rw [selector_eq, show (0x00000000FFFFFFFF#64) = 0#32 ++ BitVec.allOnes 32 by decide,
      BitVec.or_append, BitVec.or_zero, BitVec.zero_or]
  have word : selector ||| id.val.signExtend 64 = BitVec.twoPow 32 i ++ id.val := by
    rw [selector_eq, signExtend_of_nonneg id.property, BitVec.or_append, BitVec.or_zero,
      BitVec.zero_or]
  rw [mask, word, and_append_eq_iff, and_twoPow_eq_iff (by omega)]
  rfl

/-- The selector bits of a stored rule say whether its resources are a group's or a cluster's. -/
theorem AclRule.resource_selector_iff (wellFormed : r.malformed = false) (id : BitVec 32) :
    ((flags r.resource).getLsbD 1 = true ∧ r.resourceId = id ↔ r.meaning.resource = .group id) ∧
      ((flags r.resource).getLsbD 3 = true ∧ r.resourceId = id ↔
        r.meaning.resource = .cluster id) := by
  obtain ⟨-, selectors⟩ := AclRule.resource_of_wellFormed wellFormed
  simp only [AclRule.meaning, individualId_eq, groupId_eq, clusterId_eq,
    and_flag_ne_zero_iff (show 0 < 32 by decide), and_flag_ne_zero_iff (show 1 < 32 by decide),
    and_flag_ne_zero_iff (show 3 < 32 by decide)]
  revert selectors
  generalize (flags r.resource).getLsbD 0 = s₀
  generalize (flags r.resource).getLsbD 1 = s₁
  generalize (flags r.resource).getLsbD 3 = s₃
  rintro (⟨rfl, rfl, -, rfl⟩ | ⟨rfl, rfl, -, rfl⟩ | ⟨rfl, rfl, -, rfl⟩ | ⟨rfl, rfl, -, rfl⟩) <;>
    simp

theorem AclRule.resource_group_iff (wellFormed : r.malformed = false) (gid : Oid) :
    r.resource &&& (AclRule.groupId ||| 0x00000000FFFFFFFF#64) =
        AclRule.groupId ||| gid.val.signExtend 64 ↔
      r.meaning.resource = .group gid.val := by
  rw [resource_and_eq_iff (show 1 < 4 by decide) gid groupId_eq]
  exact (resource_selector_iff wellFormed gid.val).1

theorem AclRule.resource_cluster_iff (wellFormed : r.malformed = false) (cid : Oid) :
    r.resource &&& (AclRule.clusterId ||| 0x00000000FFFFFFFF#64) =
        AclRule.clusterId ||| cid.val.signExtend 64 ↔
      r.meaning.resource = .cluster cid.val := by
  rw [resource_and_eq_iff (show 3 < 4 by decide) cid clusterId_eq]
  exact (resource_selector_iff wellFormed cid.val).2

theorem RuleQuery.matches_individual_iff {objType : ObjectType} {oid : Oid} :
    (RuleQuery.resource (objType.code ||| AclRule.individualId ||| oid.val.signExtend 64)
        0xFFFFFFFFFFFFFFFF#64).matches r = true ↔
      r.resource = objType.code ||| AclRule.individualId ||| oid.val.signExtend 64 := by
  have whole : r.resource &&& 0xFFFFFFFFFFFFFFFF#64 = r.resource := BitVec.and_allOnes
  simp only [RuleQuery.matches, whole, decide_eq_true_eq]

/-- Only rules that name what is deleted are found. -/
theorem DeletedObject.names_of_matches (wellFormed : r.malformed = false) {deleted : DeletedObject}
    {query : RuleQuery} (member : query ∈ deleted.queries) (found : query.matches r = true) :
    deleted.Names r := by
  cases deleted with
  | user uid =>
    obtain rfl := List.mem_singleton.mp member
    exact Or.inl ((AclRule.user_individual_iff wellFormed uid).mp (of_decide_eq_true found)).2
  | group gid =>
    rcases List.mem_cons.mp member with rfl | member
    · exact Or.inl ((AclRule.user_group_iff wellFormed gid).mp (of_decide_eq_true found)).2
    · obtain rfl := List.mem_singleton.mp member
      exact Or.inr ((AclRule.resource_group_iff wellFormed gid).mp (of_decide_eq_true found))
  | cluster cid =>
    obtain rfl := List.mem_singleton.mp member
    exact Or.inr ((AclRule.resource_cluster_iff wellFormed cid).mp (of_decide_eq_true found))
  | resource objType oid =>
    obtain rfl := List.mem_singleton.mp member
    exact Or.inr (RuleQuery.matches_individual_iff.mp found)

/-- The rules that name what is deleted are found, where their user words are clean. -/
theorem DeletedObject.matches_of_names (wellFormed : r.malformed = false) {deleted : DeletedObject}
    (clean : deleted.NamesUser r → r.CleanUser ∨ deleted.NamesResource r)
    (names : deleted.Names r) : ∃ query ∈ deleted.queries, query.matches r = true := by
  have settled : deleted.NamesUser r ∧ r.CleanUser ∨ deleted.NamesResource r := by
    rcases names with byUser | byResource
    · rcases clean byUser with tidy | byResource
      · exact Or.inl ⟨byUser, tidy⟩
      · exact Or.inr byResource
    · exact Or.inr byResource
  cases deleted with
  | user uid =>
    rcases settled with ⟨byUser, tidy⟩ | impossible
    · refine ⟨_, List.mem_singleton_self _, decide_eq_true ?_⟩
      exact (AclRule.user_individual_iff wellFormed uid).mpr ⟨tidy, byUser⟩
    · exact impossible.elim
  | group gid =>
    rcases settled with ⟨byUser, tidy⟩ | byResource
    · refine ⟨_, List.mem_cons_self, decide_eq_true ?_⟩
      exact (AclRule.user_group_iff wellFormed gid).mpr ⟨tidy, byUser⟩
    · refine ⟨_, List.mem_cons_of_mem _ (List.mem_singleton_self _), decide_eq_true ?_⟩
      exact (AclRule.resource_group_iff wellFormed gid).mpr byResource
  | cluster cid =>
    rcases settled with ⟨impossible, -⟩ | byResource
    · exact impossible.elim
    · refine ⟨_, List.mem_singleton_self _, decide_eq_true ?_⟩
      exact (AclRule.resource_cluster_iff wellFormed cid).mpr byResource
  | resource objType oid =>
    rcases settled with ⟨impossible, -⟩ | byResource
    · exact impossible.elim
    · exact ⟨_, List.mem_singleton_self _, RuleQuery.matches_individual_iff.mpr byResource⟩

end Queries

namespace RuleSystem

/-! ## What holds between the steps -/

/-- What a deletion under way knows about the store. -/
structure Tracks (d : RuleDeletion) (store : RuleStore) : Prop where
  queries : ∀ q ∈ d.queries, q ∈ d.deleted.queries
  doomed : ∀ oid ∈ d.oids, ∀ r ∈ store.rows, r.oid = oid → d.deleted.Names r
  covered : ∀ r ∈ d.begun, d.deleted.Names r → r ∈ d.gone ∨
    r ∈ store.rows ∧ (r.oid ∈ d.oids ∨ ∃ q ∈ d.queries, q.matches r = true)
  removed : ∀ r ∈ d.removed, d.deleted.Names r

/-- The invariant of the runs whose steps meet the condition. -/
structure Inv (s : RuleSystem) : Prop where
  consistent : s.store.Consistent
  pending : ∀ thread oid, s.adds thread = some oid → s.store.lastOid = oid
  tracks : ∀ thread d, s.deletions thread = some d → Tracks d s.store

section Steps

variable {s s' : RuleSystem} {d : RuleDeletion} {thread : Nat}

theorem wellFormed_of_row (consistent : s.store.Consistent) {r : AclRule}
    (member : r ∈ s.store.rows) : r.malformed = false :=
  s.store.manager.wellFormed r ((consistent.same r).mpr member)

/-- A deletion does not mind a rule that is added under an oid it has not collected. -/
theorem Tracks.add {store store' : RuleStore} {rule : AclRule} (tracks : Tracks d store)
    (rows : store'.rows = store.rows ++ [rule]) (free : rule.oid ∉ d.oids) : Tracks d store' where
  queries := tracks.queries
  doomed := by
    intro oid member r within same
    rw [rows, List.mem_append, List.mem_singleton] at within
    rcases within with old | rfl
    · exact tracks.doomed oid member r old same
    · exact absurd (same ▸ member) free
  covered := by
    intro r member names
    refine (tracks.covered r member names).imp_right fun found => ⟨?_, found.2⟩
    rw [rows]
    exact List.mem_append_left _ found.1
  removed := tracks.removed

/-- A deletion notes the rules that others delete. -/
theorem Tracks.del {store : RuleStore} (consistent : store.Consistent) (tracks : Tracks d store)
    (oid : Int) (answer : Bool) :
    Tracks { d with gone := (store.delRule oid answer).1.toList ++ d.gone }
      (store.delRule oid answer).2 where
  queries := tracks.queries
  doomed := fun oid' member r within same =>
    tracks.doomed oid' member r (consistent.mem_del_iff.mp within).1 same
  covered := by
    intro r member names
    rcases tracks.covered r member names with gone | ⟨within, ahead⟩
    · exact Or.inl (List.mem_append_right _ gone)
    · by_cases deleted : (store.delRule oid answer).1 = some r
      · refine Or.inl (List.mem_append_left _ ?_)
        rw [deleted]
        exact List.mem_singleton_self r
      · exact Or.inr ⟨consistent.mem_del_iff.mpr ⟨within, deleted⟩, ahead⟩
  removed := tracks.removed

/-- What a step of a deletion does with the next oid. -/
theorem Tracks.deleteNext {store : RuleStore} (consistent : store.Consistent)
    {deleted : DeletedObject} {queries : List RuleQuery} {oid : Int} {oids : List Int}
    {begun gone removed : List AclRule} {answer : Bool}
    (tracks : Tracks ⟨deleted, queries, oid :: oids, begun, gone, removed⟩ store)
    (answered : store.oids oid ≠ none → answer = true) :
    Tracks ⟨deleted, queries, oids, begun, (store.delRule oid answer).1.toList ++ gone,
      (store.delRule oid answer).1.toList ++ removed⟩ (store.delRule oid answer).2 := by
  have others := tracks.del consistent oid answer
  have dropped : ∀ r, (store.delRule oid answer).1 = some r → r ∈ store.rows ∧ r.oid = oid := by
    intro r is
    rw [consistent.delRule_eq] at is
    split at is
    · rename_i rule indexed
      cases is
      exact (consistent.indexed _ _).mp indexed
    · cases is
  refine ⟨tracks.queries, fun oid' member => others.doomed oid' (List.mem_cons_of_mem _ member),
    fun r member names => ?_, fun r member => ?_⟩
  · rcases others.covered r member names with gone | ⟨within, at_ | ahead⟩
    · exact Or.inl gone
    · rcases List.mem_cons.mp at_ with same | later
      · -- the rule of this oid has just been deleted
        obtain ⟨stored, unremoved⟩ := consistent.mem_del_iff.mp within
        have indexed : store.oids oid = some r := (consistent.indexed _ _).mpr ⟨stored, same⟩
        refine absurd ?_ unremoved
        rw [consistent.delRule_eq, indexed, answered (by rw [indexed]; exact Option.some_ne_none r)]
      · exact Or.inr ⟨within, Or.inl later⟩
    · exact Or.inr ⟨within, Or.inr ahead⟩
  · rcases List.mem_append.mp member with new | old
    · obtain ⟨stored, same⟩ := dropped r (Option.mem_toList.mp new)
      exact tracks.doomed oid List.mem_cons_self r stored same
    · exact tracks.removed r old

/-- Collecting the oids of a query hands its rules on to the deletion. -/
theorem Tracks.collect (consistent : s.store.Consistent) {deleted : DeletedObject} {query : RuleQuery}
    {queries : List RuleQuery} {begun gone removed : List AclRule}
    (tracks : Tracks ⟨deleted, query :: queries, [], begun, gone, removed⟩ s.store) :
    Tracks ⟨deleted, queries, (s.store.manager.aclRules.filter query.matches).map AclRule.oid,
      begun, gone, removed⟩ s.store where
  queries := fun q member => tracks.queries q (List.mem_cons_of_mem _ member)
  doomed := by
    intro oid member r within same
    obtain ⟨r', found, rfl⟩ := List.mem_map.mp member
    obtain ⟨stored, matched⟩ := List.mem_filter.mp found
    rw [consistent.same] at stored
    obtain rfl : r = r' := List.inj_on_of_nodup_map consistent.distinct within stored same
    exact DeletedObject.names_of_matches (wellFormed_of_row consistent within)
      (tracks.queries query List.mem_cons_self) matched
  covered := by
    intro r member names
    refine (tracks.covered r member names).imp_right ?_
    rintro ⟨within, impossible | ⟨q, here, matched⟩⟩
    · exact absurd impossible List.not_mem_nil
    · rcases List.mem_cons.mp here with rfl | later
      · refine ⟨within, Or.inl (List.mem_map_of_mem (List.mem_filter.mpr ⟨?_, matched⟩))⟩
        exact (consistent.same r).mpr within
      · exact ⟨within, Or.inr ⟨q, later, matched⟩⟩
  removed := tracks.removed

theorem Tracks.delete (consistent : s.store.Consistent) {deleted : DeletedObject}
    (clean : ∀ r ∈ s.store.rows, deleted.NamesUser r → r.CleanUser ∨ deleted.NamesResource r) :
    Tracks ⟨deleted, deleted.queries, [], s.store.rows, [], []⟩ s.store where
  queries := fun _ member => member
  doomed := fun _ impossible => absurd impossible List.not_mem_nil
  covered := fun r member names => Or.inr ⟨member, Or.inr
    (DeletedObject.matches_of_names (wellFormed_of_row consistent member) (clean r member) names)⟩
  removed := fun _ impossible => absurd impossible List.not_mem_nil

/-- A deletion that has worked on all its queries and oids was exact. -/
theorem Tracks.exact {store : RuleStore} {deleted : DeletedObject} {begun gone removed : List AclRule}
    (tracks : Tracks ⟨deleted, [], [], begun, gone, removed⟩ store) :
    Exact ⟨deleted, [], [], begun, gone, removed⟩ := by
  refine ⟨tracks.removed, fun r member names => ?_⟩
  rcases tracks.covered r member names with gone | ⟨-, impossible | ⟨q, impossible, -⟩⟩
  · exact gone
  · exact absurd impossible List.not_mem_nil
  · exact absurd impossible List.not_mem_nil

/-- The store changes as in one of the operations, whatever the step. -/
theorem consistent_next {l : RuleStep} (consistent : s.store.Consistent)
    (taken : s.next l = some s') : s'.store.Consistent := by
  cases l with
  | add thread user resource rights answer =>
    have kept := @RuleStore.Consistent.add s.store user resource rights answer consistent
    simp only [next] at taken
    split at taken
    · split at taken
      · rename_i store run
        cases taken
        rwa [run] at kept
      · rename_i store run
        cases taken
        rwa [run] at kept
    · cases taken
  | addReturn thread =>
    simp only [next] at taken
    split at taken
    · cases taken
    · cases taken
      exact consistent
  | del oid answer =>
    cases taken
    exact consistent.del
  | delete thread deleted =>
    simp only [next] at taken
    split at taken
    · cases taken
    · cases taken
      exact consistent
  | collect thread =>
    simp only [next] at taken
    split at taken
    · cases taken
      exact consistent
    · cases taken
  | deleteNext thread answer =>
    simp only [next] at taken
    split at taken
    · cases taken
      exact consistent.del
    · cases taken
  | deleteDone thread =>
    simp only [next] at taken
    split at taken
    · cases taken
      exact consistent
    · cases taken

/-- A failed addition that does not start the oids again leaves the store as it was. -/
theorem store_of_failed {user resource rights : BitVec 64} {answer : Bool}
    (refused : ¬ s.store.Accepts user resource rights answer)
    (inside : s.store.lastOid ≠ RuleStore.maxOid) :
    ∃ e, s.store.addSection user resource rights answer = (.error e, s.store) := by
  obtain ⟨e, run⟩ := RuleStore.addSection_failed refused
  have back : s.store.nextOid - 1 = s.store.lastOid := by
    rw [RuleStore.nextOid, if_neg inside]
    omega
  rw [back] at run
  exact ⟨e, run⟩

/-- One step keeps the invariant. -/
theorem Inv.next {l : RuleStep} (inv : Inv s) (meets : Meets s l) (taken : s.next l = some s') :
    Inv s' := by
  have consistent := consistent_next inv.consistent taken
  cases l with
  | add thread user resource rights answer =>
    simp only [RuleSystem.next] at taken
    split at taken
    · by_cases accepted : s.store.Accepts user resource rights answer
      · obtain ⟨store, run, -, -, rows, lastOid⟩ := RuleStore.addSection_accepted accepted
        simp only [run] at taken
        cases taken
        simp only [Meets, if_pos accepted] at meets
        refine ⟨consistent, fun thread' oid is => ?_, fun thread' d is => ?_⟩
        · rcases update_eq_some is with ⟨-, same⟩ | ⟨-, other⟩
          · cases same
            exact lastOid
          · rw [meets.1 thread'] at other
            cases other
        · exact (inv.tracks thread' d is).add rows (meets.2 thread' d is)
      · simp only [Meets, if_neg accepted] at meets
        obtain ⟨e, run⟩ := store_of_failed accepted meets
        simp only [run] at taken
        cases taken
        exact ⟨consistent, inv.pending, inv.tracks⟩
    · cases taken
  | addReturn thread =>
    simp only [RuleSystem.next] at taken
    split at taken
    · cases taken
    · cases taken
      refine ⟨consistent, fun thread' oid is => ?_, inv.tracks⟩
      rcases update_eq_some is with ⟨-, impossible⟩ | ⟨-, other⟩
      · cases impossible
      · exact inv.pending thread' oid other
  | del oid answer =>
    cases taken
    refine ⟨consistent, fun thread oid' is => ?_, fun thread d is => ?_⟩
    · rw [← inv.pending thread oid' is]
      change (s.store.delRule oid answer).2.lastOid = _
      rw [inv.consistent.delRule_eq]
      split <;> rfl
    · obtain ⟨d', found, rfl⟩ := Option.map_eq_some_iff.mp is
      exact (inv.tracks thread d' found).del inv.consistent oid answer
  | delete thread deleted =>
    simp only [RuleSystem.next] at taken
    split at taken
    · cases taken
    · cases taken
      refine ⟨consistent, inv.pending, fun thread' d is => ?_⟩
      rcases update_eq_some is with ⟨-, same⟩ | ⟨-, other⟩
      · cases same
        exact Tracks.delete inv.consistent meets
      · exact inv.tracks thread' d other
  | collect thread =>
    simp only [RuleSystem.next] at taken
    split at taken
    · rename_i deleted query queries begun gone removed found
      cases taken
      refine ⟨consistent, inv.pending, fun thread' d is => ?_⟩
      rcases update_eq_some is with ⟨-, same⟩ | ⟨-, other⟩
      · cases same
        exact (inv.tracks thread _ found).collect inv.consistent
      · exact inv.tracks thread' d other
    · cases taken
  | deleteNext thread answer =>
    simp only [RuleSystem.next] at taken
    split at taken
    · rename_i deleted queries oid oids begun gone removed found
      cases taken
      have answered := meets _ oid found rfl
      refine ⟨consistent, fun thread' oid' is => ?_, fun thread' d is => ?_⟩
      · rw [← inv.pending thread' oid' is]
        change (s.store.delRule oid answer).2.lastOid = _
        rw [inv.consistent.delRule_eq]
        split <;> rfl
      · rcases update_eq_some is with ⟨-, same⟩ | ⟨-, other⟩
        · cases same
          exact (inv.tracks thread _ found).deleteNext inv.consistent answered
        · obtain ⟨d', found', rfl⟩ := Option.map_eq_some_iff.mp other
          exact (inv.tracks thread' d' found').del inv.consistent oid answer
    · cases taken
  | deleteDone thread =>
    simp only [RuleSystem.next] at taken
    split at taken
    · cases taken
      refine ⟨consistent, inv.pending, fun thread' d is => ?_⟩
      rcases update_eq_some is with ⟨-, impossible⟩ | ⟨-, other⟩
      · cases impossible
      · exact inv.tracks thread' d other
    · cases taken

/-- The operations keep their promises where the invariant holds. -/
theorem Inv.law {l : RuleStep} (inv : Inv s) (meets : Meets s l) (taken : s.next l = some s') :
    Law s l s' := by
  cases l with
  | add thread user resource rights answer =>
    intro refused
    simp only [Meets, if_neg refused] at meets
    obtain ⟨e, run⟩ := store_of_failed refused meets
    simp only [RuleSystem.next, run] at taken
    split at taken
    · cases taken
      rfl
    · cases taken
  | addReturn thread => exact inv.pending thread
  | deleteDone thread =>
    intro d is
    simp only [RuleSystem.next, is] at taken
    obtain ⟨deleted, queries, oids, begun, gone, removed⟩ := d
    have tracks := inv.tracks thread _ is
    cases queries with
    | nil =>
      cases oids with
      | nil => exact tracks.exact
      | cons oid oids => cases taken
    | cons query queries => cases taken
  | del oid answer => exact trivial
  | delete thread deleted => exact trivial
  | collect thread => exact trivial
  | deleteNext thread answer => exact trivial

end Steps

theorem Inv.loaded {s : RuleSystem} (loaded : Loaded s) : Inv s := by
  obtain ⟨consistent, adds, deletions⟩ := loaded
  refine ⟨consistent, fun thread oid is => ?_, fun thread d is => ?_⟩
  · rw [adds] at is
    cases is
  · rw [deletions] at is
    cases is

/-- The indexes and the table hold the same rules after any run. -/
theorem consistent_of_reachable {s : RuleSystem} (reached : Reachable Loaded Step s) :
    s.store.Consistent := by
  induction reached with
  | init loaded => exact loaded.1
  | step _ taken ih => exact consistent_next ih taken

/-- The store is consistent after any run. After a run whose steps meet the
condition, each further step that meets it keeps the promises of the operations. -/
theorem store_laws_of_reached {s : RuleSystem} (reached : Reachable Loaded Step s) :
    s.store.Consistent ∧
      (Reachable Loaded (Guarded Meets Step) s →
        ∀ l s', Meets s l → Step s l s' → Law s l s') := by
  refine ⟨consistent_of_reachable reached, fun met l s' meets taken => ?_⟩
  have inv : Inv s := met.invariant (fun _ => Inv.loaded) fun _ _ _ before taken =>
    before.next taken.1 taken.2
  exact inv.law meets taken

/-! ## Two additions at a time -/

/-- The manager before its first rule. -/
def empty : RuleSystem where
  store := ⟨⟨[], AclManager.wellFormed_nil⟩, fun _ => none, [], -1⟩
  adds _ := none
  deletions _ := none

theorem loaded_empty : Loaded empty := by
  refine ⟨⟨fun r => Iff.rfl, List.nodup_nil, List.nodup_nil, fun oid r => ?_, fun r impossible => ?_⟩,
    rfl, rfl⟩
  · simp [empty]
  · exact absurd impossible List.not_mem_nil

/-- The default rules: the users' group may create templates, and everyone documents. -/
def createTemplates (thread : Nat) : RuleStep :=
  .add thread 0x200000001#64 0x20400000000#64 0x8#64 true

def createDocuments (thread : Nat) : RuleStep :=
  .add thread 0x400000000#64 0x400400000000#64 0x8#64 true

/-- The state after the additions of two threads. -/
def added : Option RuleSystem :=
  (empty.next (createTemplates 0)).bind fun s => s.next (createDocuments 1)

/-- The rule of the first thread has oid 0, and the thread is about to return 1. -/
theorem added_twice :
    added.map (fun s => (s.adds 0, s.store.lastOid)) = some (some 0, 1) := by decide +kernel

/-- The first addition returns the oid of the rule that another one has stored since. -/
theorem wrong_oid_returned :
    ¬ ∀ (s : RuleSystem), Reachable Loaded Step s →
      s.store.Consistent ∧ ∀ l s', Step s l s' → Law s l s' := by
  intro always
  obtain ⟨s, run, counted⟩ := Option.map_eq_some_iff.mp added_twice
  obtain ⟨mid, first, second⟩ := Option.bind_eq_some_iff.mp run
  have reached : Reachable Loaded Step s := .step (.step (.init loaded_empty) first) second
  have stored : s.adds 0 = some 0 := congrArg Prod.fst counted
  have last : s.store.lastOid = 1 := congrArg Prod.snd counted
  have taken : Step s (.addReturn 0) { s with adds := Function.update s.adds 0 none } := by
    simp [Step, next, stored]
  have same := (always s reached).2 _ _ taken 0 stored
  rw [last] at same
  exact absurd same (by decide)

/-- The promises after the first default rule was added. -/
theorem store_laws_of_reached_added :
    ∃ s, empty.next (createTemplates 0) = some s ∧
      s.store.Consistent ∧
      (Reachable Loaded (Guarded Meets Step) s →
        ∀ l s', Meets s l → Step s l s' → Law s l s') ∧
      Reachable Loaded (Guarded Meets Step) s := by
  obtain ⟨s, first⟩ : ∃ s, empty.next (createTemplates 0) = some s :=
    Option.isSome_iff_exists.mp (by decide +kernel)
  have accepted : empty.store.Accepts 0x200000001#64 0x20400000000#64 0x8#64 true := by
    decide +kernel
  have meets : Meets empty (createTemplates 0) := by
    simp only [Meets, createTemplates, if_pos accepted]
    refine ⟨fun _ => rfl, fun _ d is => ?_⟩
    cases is
  have laws := store_laws_of_reached (.step (.init loaded_empty) first)
  exact ⟨s, first, laws.1, laws.2, .step (.init loaded_empty) ⟨meets, first⟩⟩

end RuleSystem

end Ezilla
