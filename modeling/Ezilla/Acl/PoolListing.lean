import Ezilla.Acl.AclMeaning

/-!
# What a user is shown of a pool

A pool is listed with a condition on the rows of its table. `AclManager::reverse_search`
collects from the stored rules the objects, groups and clusters that a caller may
use, and `PoolSQL::acl_filter` and `PoolSQL::usr_filter` write them as a condition.

* `PoolListing.reverseSearch`: the search, with its early exit on a rule for all objects;
* `PoolListing.usrFilter`: the condition;
* `PoolListing.usrFilter_selects_iff`: the rows it selects are those the caller owns or
  may use.
-/

namespace Ezilla

open PackedWord

namespace PoolListing

/-! ## The search -/

/-- What `reverse_search` returns. -/
structure Found where
  all : Bool
  oids : List (BitVec 32)
  gids : List (BitVec 32)
  cids : List (BitVec 32)
  deriving DecidableEq

/-- The words that a rule is compared with, without any id. -/
def selectorReq (objType : ObjectType) (selector : BitVec 64) : BitVec 64 :=
  objType.code ||| selector

/-- The resource word has the type and the selector. -/
def hasSelector (objType : ObjectType) (selector : BitVec 64) (r : AclRule) : Bool :=
  r.resource &&& selectorReq objType selector = selectorReq objType selector

/-- The ids that a rule adds to the lists. -/
def Found.push (objType : ObjectType) (found : Found) (r : AclRule) : Found :=
  let found :=
    if hasSelector objType AclRule.groupId r then { found with gids := found.gids ++ [r.resourceId] }
    else if hasSelector objType AclRule.individualId r then
      { found with oids := found.oids ++ [r.resourceId] }
    else found
  if hasSelector objType AclRule.clusterId r then { found with cids := found.cids ++ [r.resourceId] }
  else found

/-- The loop over the rules of one user word. It ends at a rule about all objects. -/
def searchRules (objType : ObjectType) (op : Operation) : Found → List AclRule → Found
  | found, [] => found
  | found, r :: rules =>
    if r.rights &&& op.code = op.code then
      if hasSelector objType AclRule.allId r then { found with all := true }
      else searchRules objType op (found.push objType r) rules
    else searchRules objType op found rules

/-- One pass of the loop over the user words. -/
def searchUser (m : AclManager) (objType : ObjectType) (op : Operation) (found : Found)
    (userReq : BitVec 64) : Found :=
  let found := searchRules objType op found (m.aclRules.filter fun r => r.user = userReq)
  if found.all then ⟨true, [], [], []⟩ else found

/-- `AclManager::reverse_search`. -/
def reverseSearch (m : AclManager) (uid gid : Oid) (objType : ObjectType) (op : Operation) : Found :=
  (userReqs uid gid).foldl (searchUser m objType op) ⟨false, [], [], []⟩

/-! ## The condition -/

/-- The columns that the conditions name. -/
inductive Column where
  | oid
  | uid
  | gid
  | cid
  | groupU
  | otherU
  deriving DecidableEq

/-- The value of a column in the row of an object. Only the tables of hosts,
networks and datastores have a column for the cluster. -/
def Column.read (obj : PoolObjectAuth) : Column → Option (BitVec 32)
  | oid => some obj.oid
  | uid => some obj.uid
  | gid => some obj.gid
  | cid =>
    if obj.objType = .host ∨ obj.objType = .net ∨ obj.objType = .datastore then some obj.cid
    else none
  | groupU => some (if obj.groupU then 1 else 0)
  | otherU => some (if obj.otherU then 1 else 0)

/-- A condition on a row. -/
inductive SqlFilter where
  | eq (c : Column) (v : BitVec 32)
  | and (a b : SqlFilter)
  | or (a b : SqlFilter)

/-- The value of a condition; a column that the table does not have is an error. -/
def SqlFilter.eval (obj : PoolObjectAuth) : SqlFilter → Option Bool
  | eq c v => (c.read obj).map fun x => x = v
  | and a b => (a.eval obj).bind fun x => (b.eval obj).map fun y => x && y
  | or a b => (a.eval obj).bind fun x => (b.eval obj).map fun y => x || y

/-- `PoolSQL::acl_filter`: everything, or the alternatives to add. -/
def aclFilter (m : AclManager) (uid gid : Oid) (authObject : ObjectType) :
    Bool × List (Column × BitVec 32) :=
  if uid.val = 0 ∨ gid.val = 0 then (true, [])
  else
    let found := reverseSearch m uid gid authObject .use
    (found.all, found.oids.map (Column.oid, ·) ++ found.gids.map (Column.gid, ·) ++
      found.cids.map (Column.cid, ·))

/-- `" OR column = id"` for each alternative. -/
def orTerms (f : SqlFilter) (terms : List (Column × BitVec 32)) : SqlFilter :=
  terms.foldl (fun f t => .or f (.eq t.1 t.2)) f

/-- The filter flag of a listing. -/
inductive FilterFlag where
  /-- -3 -/
  | mine
  /-- -1 -/
  | mineGroup
  /-- -2 -/
  | all
  | user (uid : Oid)

/-- `PoolSQL::usr_filter`; no condition stands for every row. -/
def usrFilter (uid gid : Oid) (flag : FilterFlag) (all : Bool)
    (aclStr : List (Column × BitVec 32)) : Option SqlFilter :=
  let own : SqlFilter := .eq .uid uid.val
  let group : SqlFilter := .and (.eq .gid gid.val) (.eq .groupU 1)
  match flag with
  | .mine => some own
  | .mineGroup => some (.or own group)
  | .all => if all then none else some (orTerms (.or (.or own group) (.eq .otherU 1)) aclStr)
  | .user other =>
    if other ≠ uid ∧ all = false then
      some (.and (.eq .uid other.val) (orTerms (.or group (.eq .otherU 1)) aclStr))
    else some (.eq .uid other.val)

/-- The answer of the database for the row of an object. -/
def selects (m : AclManager) (uid gid : Oid) (flag : FilterFlag) (obj : PoolObjectAuth) :
    Option Bool :=
  let acl := aclFilter m uid gid obj.objType
  match usrFilter uid gid flag acl.1 acl.2 with
  | none => some true
  | some f => f.eval obj

/-! ## What the search finds -/

section Search

variable {m : AclManager} {objType : ObjectType} {op : Operation} {found : Found}

/-- A rule that includes the operation, about all objects of the type. -/
def GrantsAll (objType : ObjectType) (op : Operation) (r : AclRule) : Prop :=
  r.rights &&& op.code = op.code ∧ hasSelector objType AclRule.allId r = true

/-- The rule adds an id of the object to one of the lists. -/
def Adds (obj : PoolObjectAuth) (r : AclRule) : Prop :=
  hasSelector obj.objType AclRule.groupId r = true ∧ obj.gid = r.resourceId ∨
    hasSelector obj.objType AclRule.groupId r = false ∧
      hasSelector obj.objType AclRule.individualId r = true ∧ obj.oid = r.resourceId ∨
    hasSelector obj.objType AclRule.clusterId r = true ∧ obj.cid = r.resourceId

/-- An id of the object is in one of the lists. -/
def Found.Lists (found : Found) (obj : PoolObjectAuth) : Prop :=
  obj.oid ∈ found.oids ∨ obj.gid ∈ found.gids ∨ obj.cid ∈ found.cids

theorem lists_push {obj : PoolObjectAuth} (r : AclRule) :
    (found.push obj.objType r).Lists obj ↔ found.Lists obj ∨ Adds obj r := by
  unfold Found.push Found.Lists Adds
  generalize hasSelector obj.objType AclRule.groupId r = group
  generalize hasSelector obj.objType AclRule.individualId r = individual
  generalize hasSelector obj.objType AclRule.clusterId r = cluster
  cases group <;> cases individual <;> cases cluster <;>
    simp only [Bool.false_eq_true, if_false, if_true, List.mem_append, List.mem_singleton,
      true_and, false_and, false_or, or_false, Bool.true_eq_false] <;>
    grind

theorem push_all (r : AclRule) : (found.push objType r).all = found.all := by
  unfold Found.push
  split <;> split <;> (try split) <;> rfl

/-- Only rules with the cluster selector add clusters. -/
theorem mem_push_cids {r : AclRule} {id : BitVec 32} (member : id ∈ (found.push objType r).cids) :
    id ∈ found.cids ∨ hasSelector objType AclRule.clusterId r = true := by
  by_cases cluster : hasSelector objType AclRule.clusterId r = true
  · exact Or.inr cluster
  · left
    unfold Found.push at member
    simp only [cluster, Bool.false_eq_true, if_false] at member
    split at member
    · exact member
    · split at member
      · exact member
      · exact member

theorem searchRules_all (found : Found) (rules : List AclRule) :
    (searchRules objType op found rules).all = true ↔
      found.all = true ∨ ∃ r ∈ rules, GrantsAll objType op r := by
  induction rules generalizing found with
  | nil => simp [searchRules]
  | cons r rules ih =>
    unfold searchRules
    split
    · rename_i right
      split
      · rename_i all
        exact iff_of_true rfl (Or.inr ⟨r, List.mem_cons_self, right, all⟩)
      · rename_i some
        have other : ¬ GrantsAll objType op r := fun grants => some grants.2
        rw [ih, push_all]
        simp only [List.mem_cons, exists_eq_or_imp, other, false_or]
    · rename_i right
      have other : ¬ GrantsAll objType op r := fun grants => right grants.1
      rw [ih]
      simp only [List.mem_cons, exists_eq_or_imp, other, false_or]

theorem searchRules_lists {obj : PoolObjectAuth} (found : Found) (rules : List AclRule)
    (some : ¬ ∃ r ∈ rules, GrantsAll obj.objType op r) :
    (searchRules obj.objType op found rules).Lists obj ↔
      found.Lists obj ∨ ∃ r ∈ rules, r.rights &&& op.code = op.code ∧ Adds obj r := by
  induction rules generalizing found with
  | nil => simp [searchRules]
  | cons r rules ih =>
    have later : ¬ ∃ r ∈ rules, GrantsAll obj.objType op r := fun all => some
      (all.imp fun _ grants => ⟨List.mem_cons_of_mem _ grants.1, grants.2⟩)
    unfold searchRules
    split
    · rename_i right
      rw [if_neg fun all => some ⟨r, List.mem_cons_self, right, all⟩, ih _ later, lists_push]
      simp only [List.mem_cons, exists_eq_or_imp, right, true_and, or_assoc]
    · rename_i right
      rw [ih _ later]
      simp only [List.mem_cons, exists_eq_or_imp, right, false_and, false_or]

theorem searchRules_cids {id : BitVec 32} (found : Found) (rules : List AclRule)
    (member : id ∈ (searchRules objType op found rules).cids) :
    id ∈ found.cids ∨ ∃ r ∈ rules, hasSelector objType AclRule.clusterId r = true := by
  induction rules generalizing found with
  | nil => exact Or.inl member
  | cons r rules ih =>
    unfold searchRules at member
    split at member
    · split at member
      · exact Or.inl member
      · rcases ih _ member with before | ⟨r', within, cluster⟩
        · exact (mem_push_cids before).imp_right fun cluster => ⟨r, List.mem_cons_self, cluster⟩
        · exact Or.inr ⟨r', List.mem_cons_of_mem _ within, cluster⟩
    · exact (ih _ member).imp_right fun ⟨r', within, cluster⟩ =>
        ⟨r', List.mem_cons_of_mem _ within, cluster⟩

/-- The state of the loop over the user words, in terms of the rules under the words
that were done. -/
structure Searched (m : AclManager) (obj : PoolObjectAuth) (op : Operation)
    (userReqs : List (BitVec 64)) (found : Found) : Prop where
  all : found.all = true ↔ ∃ r ∈ m.aclRules, r.user ∈ userReqs ∧ GrantsAll obj.objType op r
  lists : found.all = false → (found.Lists obj ↔ ∃ r ∈ m.aclRules, r.user ∈ userReqs ∧
    r.rights &&& op.code = op.code ∧ Adds obj r)
  cids : ∀ id ∈ found.cids, ∃ r ∈ m.aclRules, hasSelector obj.objType AclRule.clusterId r = true

theorem Searched.next {obj : PoolObjectAuth} {reqs : List (BitVec 64)}
    (searched : Searched m obj op reqs found) (userReq : BitVec 64) :
    Searched m obj op (reqs ++ [userReq]) (searchUser m obj.objType op found userReq) := by
  have all : (searchRules obj.objType op found (m.aclRules.filter fun r => r.user = userReq)).all =
      true ↔ ∃ r ∈ m.aclRules, r.user ∈ reqs ++ [userReq] ∧ GrantsAll obj.objType op r := by
    rw [searchRules_all, searched.all]
    simp only [List.mem_filter, decide_eq_true_eq, List.mem_append, List.mem_singleton, or_and_right,
      and_or_left, exists_or, and_assoc]
  unfold searchUser
  simp only []
  split
  · rename_i every
    refine ⟨iff_of_true rfl (all.mp every), fun none => ?_, fun id impossible => ?_⟩
    · cases none
    · exact absurd impossible List.not_mem_nil
  · rename_i some
    refine ⟨all, fun none => ?_, fun id member => ?_⟩
    · have before : found.all = false := by
        refine Bool.eq_false_iff.mpr fun every => some ?_
        exact (searchRules_all _ _).mpr (Or.inl every)
      rw [searchRules_lists _ _ fun every => some ((searchRules_all _ _).mpr (Or.inr every)),
        searched.lists before]
      simp only [List.mem_filter, decide_eq_true_eq, List.mem_append, List.mem_singleton,
        or_and_right, and_or_left, exists_or, and_assoc]
    · rcases searchRules_cids _ _ member with old | ⟨r, within, cluster⟩
      · exact searched.cids id old
      · exact ⟨r, List.mem_of_mem_filter within, cluster⟩

theorem searched_reverseSearch (uid gid : Oid) (obj : PoolObjectAuth) :
    Searched m obj op (userReqs uid gid) (reverseSearch m uid gid obj.objType op) := by
  have start : Searched m obj op [] ⟨false, [], [], []⟩ := by
    refine ⟨?_, fun _ => ?_, ?_⟩
    · simp
    · simp [Found.Lists]
    · simp
  have done := ((start.next AclRule.allId).next (AclRule.individualId ||| uid.val.signExtend 64)).next
    (AclRule.groupId ||| gid.val.signExtend 64)
  exact done

end Search

/-! ## The search and the evaluator -/

section Rules

variable {m : AclManager} {obj : PoolObjectAuth} {op : Operation} {uid gid : Oid} {r : AclRule}

/-- A selector of a resource word, on its bits. -/
theorem hasSelector_iff {objType : ObjectType} {selector : BitVec 64} {i : Nat}
    (isSelector : selector = BitVec.twoPow 32 i ++ 0#32) (small : i < 4) :
    hasSelector objType selector r = true ↔
      (flags r.resource).getLsbD objType.flag = true ∧ (flags r.resource).getLsbD i = true := by
  have req : selectorReq objType selector =
      (BitVec.twoPow 32 objType.flag ||| BitVec.twoPow 32 i) ++ 0#32 := by
    rw [selectorReq, isSelector, objType.code_eq, BitVec.or_append]
    simp
  rw [hasSelector, decide_eq_true_eq, req, and_append_zero_eq_iff, and_or_eq_iff,
    and_twoPow_eq_iff objType.flag_lt, and_twoPow_eq_iff (by omega)]

/-- The evaluator accepts a rule that is about all objects or that adds an id of the object. -/
theorem matchRule_search_iff (wellFormed : r.malformed = false) :
    (AclRequest.of obj op).matchRule r = true ↔
      GrantsAll obj.objType op r ∨ r.rights &&& op.code = op.code ∧ Adds obj r := by
  obtain ⟨-, selectors⟩ := AclRule.resource_of_wellFormed wellFormed
  have group := @hasSelector_iff r obj.objType _ 1 groupId_eq (by decide)
  have individual := @hasSelector_iff r obj.objType _ 0 individualId_eq (by decide)
  have all := @hasSelector_iff r obj.objType _ 2 allId_eq (by decide)
  have cluster := @hasSelector_iff r obj.objType _ 3 clusterId_eq (by decide)
  have alone : (flags r.resource).getLsbD 0 = true → (flags r.resource).getLsbD 1 = false := by
    intro set
    rcases selectors with ⟨-, clear, -⟩ | ⟨clear, -⟩ | ⟨clear, -⟩ | ⟨clear, -⟩
    · exact clear
    all_goals exact absurd (set.symm.trans clear) (by decide)
  rw [matchRule_bits_iff wellFormed]
  unfold GrantsAll Adds
  rw [group, individual, all, cluster, ← Bool.not_eq_true, group]
  grind

/-- A well-formed rule with the cluster selector is about types that have a cluster. -/
theorem clustered_of_hasSelector (wellFormed : r.malformed = false) {objType : ObjectType}
    (cluster : hasSelector objType AclRule.clusterId r = true) :
    objType = .host ∨ objType = .net ∨ objType = .datastore := by
  obtain ⟨type, set⟩ := (hasSelector_iff clusterId_eq (by decide)).mp cluster
  have passed := List.any_eq_false.mp wellFormed
  simp only [AclRule.checks, List.mem_cons, List.not_mem_nil, or_false, forall_eq_or_imp, forall_eq,
    clusterId_eq, Bool.and_eq_true, decide_eq_true_eq,
    and_flag_ne_zero_iff (show 3 < 32 by decide)] at passed
  obtain ⟨-, -, -, -, -, -, -, invalid, -⟩ := passed
  have none : r.resourceCode &&& 0xFFFFFFF000000000#64 &&& AclRule.invalidClusterObjects = 0 :=
    Classical.byContradiction fun some => invalid ⟨set, some⟩
  have bit := congrArg (fun x => BitVec.getLsbD x (32 + objType.flag)) none
  have word : r.resource.getLsbD (32 + objType.flag) = true := by
    rw [← append_flags_ident r.resource, BitVec.getLsbD_append, if_neg (by omega),
      Nat.add_sub_cancel_left]
    exact type
  simp only [AclRule.resourceCode, BitVec.getLsbD_and, word, Bool.true_and] at bit
  revert bit
  cases objType <;> decide

/-- The permissions of an object that let a caller use it. -/
theorem own_use_iff :
    (∃ p ∈ obj.permissions, p.Grants uid gid obj .use) ↔
      obj.uid = uid.val ∧ obj.ownerU = true ∨ obj.gid = gid.val ∧ obj.groupU = true ∨
        obj.otherU = true := by
  have grants : ∀ (user : UserSelector) (rights : Operation → Bool),
      AclPermission.Grants ⟨user, fun t => t = obj.objType, .individual obj.oid, rights⟩ uid gid
        obj .use ↔ user.Covers uid gid ∧ rights .use = true := fun user rights =>
    ⟨fun g => ⟨g.user, g.right⟩, fun h => ⟨h.1, decide_eq_true rfl, rfl, h.2⟩⟩
  simp only [PoolObjectAuth.permissions, List.mem_cons, List.not_mem_nil, or_false,
    exists_eq_or_imp, exists_eq_left, grants, UserSelector.Covers, PoolObjectAuth.permOperations,
    true_and]

/-- The evaluator grants use through the bits of the object, a rule for all objects of
the type, or a rule that adds an id of the object. -/
theorem authorize_use_iff :
    m.authorize uid gid obj .use = true ↔
      (obj.uid = uid.val ∧ obj.ownerU = true ∨ obj.gid = gid.val ∧ obj.groupU = true ∨
        obj.otherU = true) ∨
      (reverseSearch m uid gid obj.objType .use).all = true ∨
        (reverseSearch m uid gid obj.objType .use).all = false ∧
          (reverseSearch m uid gid obj.objType .use).Lists obj := by
  have searched := @searched_reverseSearch m .use uid gid obj
  have stored : (∃ r ∈ m.aclRules, r.user ∈ userReqs uid gid ∧
        (AclRequest.of obj .use).matchRule r = true) ↔
      (∃ r ∈ m.aclRules, r.user ∈ userReqs uid gid ∧ GrantsAll obj.objType .use r) ∨
        ∃ r ∈ m.aclRules, r.user ∈ userReqs uid gid ∧
          r.rights &&& Operation.use.code = Operation.use.code ∧ Adds obj r := by
    rw [← exists_or]
    refine exists_congr fun r => ?_
    rw [← and_or_left, ← and_or_left]
    exact and_congr_right fun member => and_congr_right fun _ =>
      matchRule_search_iff (m.wellFormed r member)
  rw [AclManager.authorize_eq_true_iff, own_rules_iff, own_use_iff, stored, ← searched.all]
  refine or_congr_right ?_
  cases all : (reverseSearch m uid gid obj.objType .use).all with
  | true => simp
  | false =>
    rw [searched.lists all]
    simp

end Rules

/-! ## The selected rows -/

section Rows

variable {m : AclManager} {obj : PoolObjectAuth} {uid gid : Oid}

/-- The alternatives are added to a condition, where their columns exist. -/
theorem orTerms_eval {f : SqlFilter} {b : Bool} (terms : List (Column × BitVec 32))
    (first : f.eval obj = some b) (readable : ∀ t ∈ terms, t.1.read obj ≠ none) :
    (orTerms f terms).eval obj = some (b || terms.any fun t => t.1.read obj = some t.2) := by
  unfold orTerms
  induction terms generalizing f b with
  | nil => simpa using first
  | cons t terms ih =>
    obtain ⟨x, read⟩ := Option.ne_none_iff_exists'.mp (readable t List.mem_cons_self)
    have next : (SqlFilter.or f (.eq t.1 t.2)).eval obj = some (b || decide (x = t.2)) := by
      simp [SqlFilter.eval, first, read]
    rw [List.foldl_cons, ih next fun t member => readable t (List.mem_cons_of_mem _ member),
      List.any_cons, read, Bool.or_assoc]
    simp

/-- The alternatives of a search name columns that the table has, and hold for the
objects that are listed. -/
theorem aclFilter_terms (outside : ¬ (uid.val = 0 ∨ gid.val = 0)) :
    (∀ t ∈ (aclFilter m uid gid obj.objType).2, t.1.read obj ≠ none) ∧
      (((aclFilter m uid gid obj.objType).2.any fun t => t.1.read obj = some t.2) = true ↔
        (reverseSearch m uid gid obj.objType .use).Lists obj) := by
  have searched := @searched_reverseSearch m .use uid gid obj
  have clustered : ∀ id ∈ (reverseSearch m uid gid obj.objType .use).cids,
      Column.cid.read obj = some obj.cid := by
    intro id member
    obtain ⟨r, stored, cluster⟩ := searched.cids id member
    exact if_pos (clustered_of_hasSelector (m.wellFormed r stored) cluster)
  simp only [aclFilter, if_neg outside]
  constructor
  · intro t member
    simp only [List.mem_append, List.mem_map] at member
    rcases member with (⟨id, -, rfl⟩ | ⟨id, -, rfl⟩) | ⟨id, within, rfl⟩
    · exact Option.some_ne_none _
    · exact Option.some_ne_none _
    · rw [clustered id within]
      exact Option.some_ne_none _
  · simp only [List.any_append, List.any_map, Bool.or_eq_true, List.any_eq_true,
      Function.comp_apply, decide_eq_true_eq, Found.Lists, or_assoc]
    refine or_congr ?_ (or_congr ?_ ?_)
    · simp [Column.read, eq_comm]
    · simp [Column.read, eq_comm]
    · constructor
      · rintro ⟨id, member, same⟩
        rw [clustered id member, Option.some.injEq] at same
        exact same ▸ member
      · intro member
        exact ⟨obj.cid, member, clustered obj.cid member⟩

theorem administrator_iff {uid gid : Oid} :
    uid.val = 0 ∨ gid.val = 0 ↔ uid = oneadminId ∨ gid = oneadminId := by
  rw [Subtype.ext_iff, Subtype.ext_iff]
  rfl

/-- The rows that are selected are those the caller owns or may use, and of another
user's rows those the caller may use. -/
theorem selects_iff (m : AclManager) (uid gid : Oid) (obj : PoolObjectAuth) :
    selects m uid gid .all obj = some (obj.uid = uid.val || m.addAuth uid gid obj .use) ∧
      ∀ other : Oid, other ≠ uid →
        selects m uid gid (.user other) obj =
          some (obj.uid = other.val && m.addAuth uid gid obj .use) := by
  by_cases administrator : uid.val = 0 ∨ gid.val = 0
  · have may : m.addAuth uid gid obj .use = true := if_pos (administrator_iff.mp administrator)
    have acl : aclFilter m uid gid obj.objType = (true, []) := if_pos administrator
    refine ⟨?_, fun other different => ?_⟩
    · simp [selects, usrFilter, acl, may]
    · simp [selects, usrFilter, acl, may, SqlFilter.eval, Column.read]
  · have acl : (aclFilter m uid gid obj.objType).1 =
        (reverseSearch m uid gid obj.objType .use).all := by
      rw [aclFilter, if_neg administrator]
    obtain ⟨readable, listed⟩ := @aclFilter_terms m obj uid gid administrator
    have may : m.addAuth uid gid obj .use = m.authorize uid gid obj .use :=
      if_neg fun first => administrator (administrator_iff.mpr first)
    have group : (SqlFilter.or (.and (.eq .gid gid.val) (.eq .groupU 1)) (.eq .otherU 1)).eval obj =
        some (obj.gid = gid.val && obj.groupU || obj.otherU) := by
      cases inGroup : obj.groupU <;> cases others : obj.otherU <;>
        simp [SqlFilter.eval, Column.read, inGroup, others]
    have own : (SqlFilter.or (.or (.eq .uid uid.val) (.and (.eq .gid gid.val) (.eq .groupU 1)))
        (.eq .otherU 1)).eval obj =
        some (obj.uid = uid.val || obj.gid = gid.val && obj.groupU || obj.otherU) := by
      cases inGroup : obj.groupU <;> cases others : obj.otherU <;>
        simp [SqlFilter.eval, Column.read, inGroup, others]
    have granted := @authorize_use_iff m obj uid gid
    rw [may]
    refine ⟨?_, fun other different => ?_⟩
    · unfold selects usrFilter
      simp only [acl]
      cases all : (reverseSearch m uid gid obj.objType .use).all with
      | true =>
        have use : m.authorize uid gid obj .use = true := granted.mpr (Or.inr (Or.inl all))
        simp [use]
      | false =>
        simp only [Bool.false_eq_true, if_false]
        rw [orTerms_eval _ own readable]
        refine congrArg some (Bool.eq_iff_iff.mpr ?_)
        simp only [Bool.or_eq_true, Bool.and_eq_true, decide_eq_true_eq, listed, granted, all,
          Bool.false_eq_true, false_or, true_and]
        grind
    · unfold selects usrFilter
      simp only [acl, ne_eq, different, not_false_eq_true, true_and]
      cases all : (reverseSearch m uid gid obj.objType .use).all with
      | true =>
        have use : m.authorize uid gid obj .use = true := granted.mpr (Or.inr (Or.inl all))
        simp [use, SqlFilter.eval, Column.read]
      | false =>
        have apart : obj.uid = other.val → obj.uid ≠ uid.val := fun same same' =>
          different (Subtype.ext (same.symm.trans same'))
        have theirs : (SqlFilter.eq .uid other.val).eval obj =
            some (decide (obj.uid = other.val)) := rfl
        rw [if_pos rfl]
        change ((SqlFilter.eq .uid other.val).eval obj).bind _ = _
        rw [theirs, Option.bind_some, orTerms_eval _ group readable, Option.map_some]
        refine congrArg some (Bool.eq_iff_iff.mpr ?_)
        simp only [Bool.or_eq_true, Bool.and_eq_true, decide_eq_true_eq, listed, granted, all,
          Bool.false_eq_true, false_or, true_and]
        grind

/-- A row that an administrator neither owns nor is granted by the rules is listed too. -/
theorem administrator_lists_all :
    ¬ ∀ (m : AclManager) (uid gid : Oid) (obj : PoolObjectAuth),
      selects m uid gid .all obj = some (obj.uid = uid.val || m.authorize uid gid obj .use) ∧
        ∀ other : Oid, other ≠ uid →
          selects m uid gid (.user other) obj =
            some (obj.uid = other.val && m.authorize uid gid obj .use) := by
  intro always
  let obj : PoolObjectAuth := { objType := .vm, oid := 3, uid := 9, gid := 9 }
  exact absurd (always ⟨[], by simp⟩ ⟨0, rfl⟩ ⟨0, rfl⟩ obj).1 (by decide +kernel)

end Rows

end PoolListing

end Ezilla
