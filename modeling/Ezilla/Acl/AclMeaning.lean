import Ezilla.Acl.AclManager
import Ezilla.Lib.PackedWord
import Mathlib.Tactic.IntervalCases

/-!
# What access control rules mean

A rule says who may do what on which objects. `AclPermission` states that without the
packed words: a user selector, the types and the resource selector it is about, and the
operations it includes. `AclRule.meaning` reads a stored rule this way, and
`PoolObjectAuth.permissions` gives the permissions an object carries itself.

`AclManager.authorize_iff` compares the evaluator with this meaning. The evaluator finds
a stored rule only under the exact user word of the caller, and `malformed` never looks
at the bits above the selectors of that word; a rule that has one of them set is stored
and covers callers it is never looked up for.
-/

namespace Ezilla

open PackedWord

/-! ## Permissions -/

/-- Who a permission is for. -/
inductive UserSelector where
  | individual (uid : BitVec 32)
  | group (gid : BitVec 32)
  | all
  deriving DecidableEq

/-- The selector covers a caller. -/
def UserSelector.Covers (uid gid : Oid) : UserSelector → Prop
  | .individual id => id = uid.val
  | .group id => id = gid.val
  | .all => True

instance (uid gid : Oid) : DecidablePred (UserSelector.Covers uid gid)
  | .individual id => inferInstanceAs (Decidable (id = uid.val))
  | .group id => inferInstanceAs (Decidable (id = gid.val))
  | .all => isTrue trivial

/-- Which objects of its types a permission is about. -/
inductive ResourceSelector where
  | individual (oid : BitVec 32)
  | group (gid : BitVec 32)
  | cluster (cid : BitVec 32)
  | all
  deriving DecidableEq

/-- The selector covers an object. -/
def ResourceSelector.Covers (obj : PoolObjectAuth) : ResourceSelector → Prop
  | .individual id => id = obj.oid
  | .group id => id = obj.gid
  | .cluster id => id = obj.cid
  | .all => True

instance (obj : PoolObjectAuth) : DecidablePred (ResourceSelector.Covers obj)
  | .individual id => inferInstanceAs (Decidable (id = obj.oid))
  | .group id => inferInstanceAs (Decidable (id = obj.gid))
  | .cluster id => inferInstanceAs (Decidable (id = obj.cid))
  | .all => isTrue trivial

/-- A permission: a rule without its packed words. -/
structure AclPermission where
  user : UserSelector
  types : ObjectType → Bool
  resource : ResourceSelector
  rights : Operation → Bool

/-- The permission covers the caller and the object and includes the operation. -/
structure AclPermission.Grants (p : AclPermission) (uid gid : Oid) (obj : PoolObjectAuth)
    (op : Operation) : Prop where
  user : p.user.Covers uid gid
  type : p.types obj.objType = true
  resource : p.resource.Covers obj
  right : p.rights op = true

/-- Reading of a stored rule. -/
def AclRule.meaning (r : AclRule) : AclPermission where
  user :=
    if r.user &&& AclRule.individualId ≠ 0 then .individual r.userId
    else if r.user &&& AclRule.groupId ≠ 0 then .group r.userId
    else .all
  types := fun t => r.resource &&& t.code ≠ 0
  resource :=
    if r.resource &&& AclRule.individualId ≠ 0 then .individual r.resourceId
    else if r.resource &&& AclRule.groupId ≠ 0 then .group r.resourceId
    else if r.resource &&& AclRule.clusterId ≠ 0 then .cluster r.resourceId
    else .all
  rights := fun op => r.rights &&& op.code ≠ 0

/-- The operations of three permission bits; nobody may create through them. -/
def PoolObjectAuth.permOperations (u m a : Bool) : Operation → Bool
  | .use => u
  | .manage => m
  | .admin => a
  | .create => false

/-- The permissions an object carries itself: those of its owner, its group and others,
each about this one object. -/
def PoolObjectAuth.permissions (obj : PoolObjectAuth) : List AclPermission :=
  let own (user : UserSelector) (rights : Operation → Bool) : AclPermission :=
    ⟨user, fun t => t = obj.objType, .individual obj.oid, rights⟩
  [own (.individual obj.uid) (permOperations obj.ownerU obj.ownerM obj.ownerA),
   own (.group obj.gid) (permOperations obj.groupU obj.groupM obj.groupA),
   own .all (permOperations obj.otherU obj.otherM obj.otherA)]

/-- Some stored rule or some permission of the object itself grants the request. -/
def AclManager.Authorized (m : AclManager) (uid gid : Oid) (obj : PoolObjectAuth)
    (op : Operation) : Prop :=
  (∃ p ∈ obj.permissions, p.Grants uid gid obj op) ∨
    ∃ r ∈ m.aclRules, r.meaning.Grants uid gid obj op

/-- The user word has no bits besides its selectors and its id. -/
def AclRule.CleanUser (r : AclRule) : Prop := r.user &&& ~~~0x7FFFFFFFF#64 = 0

instance (r : AclRule) : Decidable r.CleanUser := inferInstanceAs (Decidable (_ = _))

/-! ## The packed words -/

/-- The bit of a type, and its place among the flags of a resource word. -/
def ObjectType.flag (t : ObjectType) : Nat :=
  match t with
  | .vm => 4
  | .host => 5
  | .net => 6
  | .image => 7
  | .user => 8
  | .template => 9
  | .group => 10
  | .acl => 11
  | .datastore => 12
  | .cluster => 13
  | .document => 14

theorem ObjectType.flag_lt (t : ObjectType) : t.flag < 32 := by
  cases t <;> decide

theorem ObjectType.code_eq (t : ObjectType) : t.code = BitVec.twoPow 32 t.flag ++ 0#32 := by
  cases t <;> decide

theorem individualId_eq : AclRule.individualId = BitVec.twoPow 32 0 ++ 0#32 := by decide

theorem groupId_eq : AclRule.groupId = BitVec.twoPow 32 1 ++ 0#32 := by decide

theorem allId_eq : AclRule.allId = BitVec.twoPow 32 2 ++ 0#32 := by decide

theorem clusterId_eq : AclRule.clusterId = BitVec.twoPow 32 3 ++ 0#32 := by decide

/-- An id that is not negative is extended with zeros. -/
theorem signExtend_of_nonneg {id : BitVec 32} (nonneg : id.msb = false) :
    id.signExtend 64 = 0#32 ++ id := by
  rw [BitVec.signExtend_eq_setWidth_of_msb_false nonneg]
  exact (BitVec.setWidth_eq_append (by decide)).trans rfl

/-- A negative id is extended with ones, and so sets every selector bit. -/
theorem signExtend_of_neg {id : BitVec 32} (neg : id.msb = true) :
    id.signExtend 64 = BitVec.allOnes 32 ++ id := by
  rw [BitVec.signExtend_eq_not_setWidth_not_of_msb_true neg]
  rw [show (~~~id).setWidth 64 = 0#32 ++ ~~~id from
    (BitVec.setWidth_eq_append (by decide)).trans rfl, BitVec.not_append]
  simp

/-- A flag of a packed word is set when the word meets its mask. -/
theorem and_flag_ne_zero_iff {x : BitVec 64} {i : Nat} (small : i < 32) :
    x &&& (BitVec.twoPow 32 i ++ 0#32) ≠ 0 ↔ (flags x).getLsbD i = true := by
  have zero : (0 : BitVec 64) = 0#32 ++ 0#32 := by decide
  rw [ne_eq, zero, and_append_zero_eq_iff]
  have absent := and_twoPow_eq_zero_iff (x := flags x) small
  rw [← Bool.not_eq_false, not_iff_not]
  exact absent

/-- A rule contains the bit of an operation when it meets it. -/
theorem and_code_eq_iff {x : BitVec 64} (op : Operation) :
    x &&& op.code = op.code ↔ x &&& op.code ≠ 0 := by
  have single : ∃ i, i < 64 ∧ op.code = BitVec.twoPow 64 i := by
    cases op with
    | use => exact ⟨0, by decide, by decide⟩
    | manage => exact ⟨1, by decide, by decide⟩
    | admin => exact ⟨2, by decide, by decide⟩
    | create => exact ⟨3, by decide, by decide⟩
  obtain ⟨i, small, code⟩ := single
  rw [code, and_twoPow_eq_iff small, ne_eq, and_twoPow_eq_zero_iff small, Bool.not_eq_false]

/-! ## Well-formed rules -/

section WellFormed

variable {r : AclRule}

/-- What the checks say about the user word: one selector, and an id that is not negative,
0 for everyone. -/
theorem AclRule.user_of_wellFormed (wellFormed : r.malformed = false) :
    r.userId.msb = false ∧
    ((flags r.user).getLsbD 0 = true ∧ (flags r.user).getLsbD 1 = false ∧
        (flags r.user).getLsbD 2 = false ∨
      (flags r.user).getLsbD 0 = false ∧ (flags r.user).getLsbD 1 = true ∧
        (flags r.user).getLsbD 2 = false ∨
      (flags r.user).getLsbD 0 = false ∧ (flags r.user).getLsbD 1 = false ∧
        (flags r.user).getLsbD 2 = true ∧ r.userId = 0) := by
  have passed := List.any_eq_false.mp wellFormed
  simp only [checks, List.mem_cons, List.not_mem_nil, or_false, forall_eq_or_imp, forall_eq,
    individualId_eq, groupId_eq, allId_eq, Bool.and_eq_true, decide_eq_true_eq,
    and_flag_ne_zero_iff (show 0 < 32 by decide), and_flag_ne_zero_iff (show 1 < 32 by decide),
    and_flag_ne_zero_iff (show 2 < 32 by decide)] at passed
  obtain ⟨notIndGroup, notIndAll, notGroupAll, present, nonneg, allZero, -⟩ := passed
  have some_bit : ¬ ((flags r.user).getLsbD 0 = false ∧ (flags r.user).getLsbD 1 = false ∧
      (flags r.user).getLsbD 2 = false) := by
    rintro ⟨ind, group, all⟩
    refine present ?_
    rw [show (0x700000000#64) = (BitVec.twoPow 32 0 ||| BitVec.twoPow 32 1 |||
        BitVec.twoPow 32 2) ++ 0#32 by decide, show (0 : BitVec 64) = 0#32 ++ 0#32 by decide,
      and_append_zero_eq_iff, BitVec.and_or_distrib_left, BitVec.and_or_distrib_left,
      (and_twoPow_eq_zero_iff (by decide)).mpr ind, (and_twoPow_eq_zero_iff (by decide)).mpr group,
      (and_twoPow_eq_zero_iff (by decide)).mpr all]
    decide
  refine ⟨eq_false_of_ne_true nonneg, ?_⟩
  have zero : (flags r.user).getLsbD 2 = true → r.userId = 0 := fun all => by
    by_contra nonzero
    exact allZero ⟨all, nonzero⟩
  revert notIndGroup notIndAll notGroupAll some_bit zero
  cases (flags r.user).getLsbD 0 <;> cases (flags r.user).getLsbD 1 <;>
    cases (flags r.user).getLsbD 2 <;> simp

/-- A selector that comes alone leaves every other selector bit clear. -/
theorem AclRule.selector_alone {i j : Nat} (small : i < 4) (small' : j < 4) (apart : j ≠ i)
    (alone : r.exclusive (BitVec.twoPow 32 i ++ 0#32) = false)
    (set : (flags r.resource).getLsbD i = true) : (flags r.resource).getLsbD j = false := by
  have meets := (and_flag_ne_zero_iff (x := r.resource) (show i < 32 by omega)).mpr set
  have same : r.resource &&& 0xF00000000#64 = BitVec.twoPow 32 i ++ 0#32 := by
    by_contra differs
    simp only [exclusive, meets, differs, ne_eq, not_false_eq_true, decide_true, Bool.and_self,
      Bool.true_eq_false] at alone
  rw [show (0xF00000000#64) = 0xF#32 ++ 0#32 by decide, and_append_zero_eq_iff] at same
  have bit := congrArg (fun x => BitVec.getLsbD x j) same
  have inMask : (0xF#32).getLsbD j = true := by
    interval_cases j <;> decide
  rw [BitVec.getLsbD_and, inMask, Bool.and_true, BitVec.getLsbD_twoPow] at bit
  rw [bit, decide_eq_false (Ne.symm apart), Bool.and_false]

/-- What the checks say about the resource word: one selector, and an id that is not
negative. -/
theorem AclRule.resource_of_wellFormed (wellFormed : r.malformed = false) :
    r.resourceId.msb = false ∧
    ((flags r.resource).getLsbD 0 = true ∧ (flags r.resource).getLsbD 1 = false ∧
        (flags r.resource).getLsbD 2 = false ∧ (flags r.resource).getLsbD 3 = false ∨
      (flags r.resource).getLsbD 0 = false ∧ (flags r.resource).getLsbD 1 = true ∧
        (flags r.resource).getLsbD 2 = false ∧ (flags r.resource).getLsbD 3 = false ∨
      (flags r.resource).getLsbD 0 = false ∧ (flags r.resource).getLsbD 1 = false ∧
        (flags r.resource).getLsbD 2 = true ∧ (flags r.resource).getLsbD 3 = false ∨
      (flags r.resource).getLsbD 0 = false ∧ (flags r.resource).getLsbD 1 = false ∧
        (flags r.resource).getLsbD 2 = false ∧ (flags r.resource).getLsbD 3 = true) := by
  have passed := List.any_eq_false.mp wellFormed
  simp only [checks, List.mem_cons, List.not_mem_nil, or_false, forall_eq_or_imp, forall_eq,
    Bool.not_eq_true, Bool.or_eq_false_iff, individualId_eq, groupId_eq, allId_eq,
    clusterId_eq, decide_eq_false_iff_not] at passed
  obtain ⟨-, -, -, -, -, -, ⟨⟨⟨ind, group⟩, cluster⟩, all⟩, -, present, nonneg, -⟩ := passed
  refine ⟨nonneg, ?_⟩
  have some_bit : ¬ ((flags r.resource).getLsbD 0 = false ∧ (flags r.resource).getLsbD 1 = false ∧
      (flags r.resource).getLsbD 2 = false ∧ (flags r.resource).getLsbD 3 = false) := by
    rintro ⟨clear₀, clear₁, clear₂, clear₃⟩
    refine present ?_
    rw [show (0xF00000000#64) = (BitVec.twoPow 32 0 ||| BitVec.twoPow 32 1 |||
        BitVec.twoPow 32 2 ||| BitVec.twoPow 32 3) ++ 0#32 by decide,
      show (0 : BitVec 64) = 0#32 ++ 0#32 by decide, and_append_zero_eq_iff,
      BitVec.and_or_distrib_left, BitVec.and_or_distrib_left, BitVec.and_or_distrib_left,
      (and_twoPow_eq_zero_iff (by decide)).mpr clear₀,
      (and_twoPow_eq_zero_iff (by decide)).mpr clear₁,
      (and_twoPow_eq_zero_iff (by decide)).mpr clear₂,
      (and_twoPow_eq_zero_iff (by decide)).mpr clear₃]
    decide
  cases set₀ : (flags r.resource).getLsbD 0 with
  | true =>
    exact Or.inl ⟨rfl, selector_alone (by decide) (by decide) (by decide) ind set₀,
      selector_alone (by decide) (by decide) (by decide) ind set₀,
      selector_alone (by decide) (by decide) (by decide) ind set₀⟩
  | false =>
    cases set₁ : (flags r.resource).getLsbD 1 with
    | true =>
      exact Or.inr (Or.inl ⟨rfl, rfl,
        selector_alone (by decide) (by decide) (by decide) group set₁,
        selector_alone (by decide) (by decide) (by decide) group set₁⟩)
    | false =>
      cases set₂ : (flags r.resource).getLsbD 2 with
      | true =>
        exact Or.inr (Or.inr (Or.inl ⟨rfl, rfl, rfl,
          selector_alone (by decide) (by decide) (by decide) all set₂⟩))
      | false =>
        refine Or.inr (Or.inr (Or.inr ⟨rfl, rfl, rfl, ?_⟩))
        by_contra clear₃
        exact some_bit ⟨set₀, set₁, set₂, eq_false_of_ne_true clear₃⟩

end WellFormed

/-! ## One rule -/

section Rule

variable {r : AclRule} {obj : PoolObjectAuth} {op : Operation} {uid gid : Oid}

/-- The comparison with one selector of the object looks at the type bit, the selector bit
and the id; an object without that id is never matched. -/
theorem and_resourceMask_eq_iff {selector : BitVec 64} {i : Nat} {id : BitVec 32}
    (isSelector : selector = BitVec.twoPow 32 i ++ 0#32) (small : i < 4) :
    r.resource &&& AclRequest.resourceMask obj selector = AclRequest.resourceReq obj selector id ↔
      id.msb = false ∧ (flags r.resource).getLsbD obj.objType.flag = true ∧
        (flags r.resource).getLsbD i = true ∧ r.resourceId = id := by
  have mask : AclRequest.resourceMask obj selector =
      (BitVec.twoPow 32 obj.objType.flag ||| BitVec.twoPow 32 i) ++ BitVec.allOnes 32 := by
    rw [AclRequest.resourceMask, isSelector, obj.objType.code_eq,
      show (0x00000000FFFFFFFF#64) = 0#32 ++ BitVec.allOnes 32 by decide, BitVec.or_append,
      BitVec.or_append]
    simp
  rw [mask]
  cases neg : id.msb with
  | false =>
    have req : AclRequest.resourceReq obj selector id =
        (BitVec.twoPow 32 obj.objType.flag ||| BitVec.twoPow 32 i) ++ id := by
      rw [AclRequest.resourceReq, neg, isSelector, obj.objType.code_eq, signExtend_of_nonneg neg,
        if_neg Bool.false_ne_true, BitVec.or_append, BitVec.or_append]
      simp
    rw [req, and_append_eq_iff, and_or_eq_iff, and_twoPow_eq_iff obj.objType.flag_lt,
      and_twoPow_eq_iff (by omega), and_assoc]
    simp only [true_and]
    rfl
  | true =>
    have req : AclRequest.resourceReq obj selector id = BitVec.twoPow 32 28 ++ 0#32 := by
      rw [AclRequest.resourceReq, neg, if_pos rfl]
      decide
    rw [req, and_append_eq_iff]
    simp only [Bool.true_eq_false, false_and, iff_false, not_and]
    intro same
    have bit := congrArg (fun x => BitVec.getLsbD x 28) same
    have type : obj.objType.flag ≠ 28 := by cases obj.objType <;> decide
    have other : i ≠ 28 := by omega
    simp only [BitVec.getLsbD_and, BitVec.getLsbD_or, BitVec.getLsbD_twoPow, type, other,
      decide_false, Bool.and_false, Bool.or_false, decide_true, Bool.and_true] at bit
    exact absurd bit (by decide)

/-- The comparison with everything of the object's type. -/
theorem and_resourceAll_eq_iff :
    r.resource &&& (obj.objType.code ||| AclRule.allId) = obj.objType.code ||| AclRule.allId ↔
      (flags r.resource).getLsbD obj.objType.flag = true ∧
        (flags r.resource).getLsbD 2 = true := by
  have req : obj.objType.code ||| AclRule.allId =
      (BitVec.twoPow 32 obj.objType.flag ||| BitVec.twoPow 32 2) ++ 0#32 := by
    rw [obj.objType.code_eq, allId_eq, BitVec.or_append]
    simp
  rw [req, and_append_zero_eq_iff, and_or_eq_iff, and_twoPow_eq_iff obj.objType.flag_lt,
    and_twoPow_eq_iff (by decide)]

/-- For a rule whose id is not negative, the comparison with one selector of the object
looks at the type bit, the selector bit and the id. -/
theorem and_resourceMask_eq_iff_of_nonneg {selector : BitVec 64} {i : Nat} {id : BitVec 32}
    (nonneg : r.resourceId.msb = false) (isSelector : selector = BitVec.twoPow 32 i ++ 0#32)
    (small : i < 4) :
    r.resource &&& AclRequest.resourceMask obj selector = AclRequest.resourceReq obj selector id ↔
      (flags r.resource).getLsbD obj.objType.flag = true ∧
        (flags r.resource).getLsbD i = true ∧ r.resourceId = id := by
  rw [and_resourceMask_eq_iff isSelector small]
  exact ⟨And.right, fun matched => ⟨matched.2.2 ▸ nonneg, matched⟩⟩

/-- The test of the evaluator, on the bits of the resource word. -/
theorem matchRule_bits_iff (wellFormed : r.malformed = false) :
    (AclRequest.of obj op).matchRule r = true ↔ r.rights &&& op.code = op.code ∧
      (flags r.resource).getLsbD obj.objType.flag = true ∧
      ((flags r.resource).getLsbD 2 = true ∨
        ((flags r.resource).getLsbD 1 = true ∧ r.resourceId = obj.gid) ∨
        ((flags r.resource).getLsbD 0 = true ∧ r.resourceId = obj.oid) ∨
        ((flags r.resource).getLsbD 3 = true ∧ r.resourceId = obj.cid)) := by
  obtain ⟨nonneg, -⟩ := AclRule.resource_of_wellFormed wellFormed
  simp only [AclRequest.matchRule, Bool.and_eq_true, Bool.or_eq_true, decide_eq_true_eq]
  simp only [AclRequest.of, and_resourceAll_eq_iff,
    and_resourceMask_eq_iff_of_nonneg nonneg groupId_eq (show 1 < 4 by decide),
    and_resourceMask_eq_iff_of_nonneg nonneg individualId_eq (show 0 < 4 by decide),
    and_resourceMask_eq_iff_of_nonneg nonneg clusterId_eq (show 3 < 4 by decide),
    ← and_or_left, or_assoc]

/-- The test of the evaluator is the resource and rights part of a rule's meaning. -/
theorem matchRule_iff (wellFormed : r.malformed = false) :
    (AclRequest.of obj op).matchRule r = true ↔
      r.meaning.types obj.objType = true ∧ r.meaning.resource.Covers obj ∧
        r.meaning.rights op = true := by
  obtain ⟨-, selectors⟩ := AclRule.resource_of_wellFormed wellFormed
  have types : r.meaning.types obj.objType = true ↔
      (flags r.resource).getLsbD obj.objType.flag = true := by
    rw [AclRule.meaning, decide_eq_true_eq, obj.objType.code_eq]
    exact and_flag_ne_zero_iff obj.objType.flag_lt
  have rights : r.meaning.rights op = true ↔ r.rights &&& op.code = op.code := by
    rw [AclRule.meaning, decide_eq_true_eq]
    exact (and_code_eq_iff op).symm
  have covers : r.meaning.resource.Covers obj ↔
      ((flags r.resource).getLsbD 2 = true ∨
        ((flags r.resource).getLsbD 1 = true ∧ r.resourceId = obj.gid) ∨
        ((flags r.resource).getLsbD 0 = true ∧ r.resourceId = obj.oid) ∨
        ((flags r.resource).getLsbD 3 = true ∧ r.resourceId = obj.cid)) := by
    simp only [AclRule.meaning, individualId_eq, groupId_eq, clusterId_eq,
      and_flag_ne_zero_iff (show 0 < 32 by decide), and_flag_ne_zero_iff (show 1 < 32 by decide),
      and_flag_ne_zero_iff (show 3 < 32 by decide)]
    revert selectors
    generalize (flags r.resource).getLsbD 0 = s₀
    generalize (flags r.resource).getLsbD 1 = s₁
    generalize (flags r.resource).getLsbD 2 = s₂
    generalize (flags r.resource).getLsbD 3 = s₃
    rintro (⟨rfl, rfl, rfl, rfl⟩ | ⟨rfl, rfl, rfl, rfl⟩ | ⟨rfl, rfl, rfl, rfl⟩ |
      ⟨rfl, rfl, rfl, rfl⟩) <;> simp [ResourceSelector.Covers]
  rw [matchRule_bits_iff wellFormed, types, rights, covers]
  exact and_rotate

/-- The user words a rule is looked up under for a caller. -/
def userReqs (uid gid : Oid) : List (BitVec 64) :=
  [AclRule.allId, AclRule.individualId ||| uid.val.signExtend 64,
    AclRule.groupId ||| gid.val.signExtend 64]

theorem userReqs_eq : userReqs uid gid =
    [BitVec.twoPow 32 2 ++ 0#32, BitVec.twoPow 32 0 ++ uid.val,
      BitVec.twoPow 32 1 ++ gid.val] := by
  rw [userReqs, allId_eq, individualId_eq, groupId_eq, signExtend_of_nonneg uid.property,
    signExtend_of_nonneg gid.property, BitVec.or_append, BitVec.or_append]
  simp

/-- A user word without bits above the selectors is given by its selector bits. -/
theorem cleanUser_iff : r.CleanUser ↔ flags r.user &&& ~~~(7#32) = 0 := by
  rw [AclRule.CleanUser, show (~~~0x7FFFFFFFF#64) = ~~~(7#32) ++ 0#32 by decide,
    show (0 : BitVec 64) = 0#32 ++ 0#32 by decide, and_append_zero_eq_iff]
  rfl

/-- A clean flags word with exactly one selector is that selector. -/
theorem flags_eq_iff {x : BitVec 32} {i : Nat} (small : i < 3) :
    x = BitVec.twoPow 32 i ↔ x &&& ~~~(7#32) = 0 ∧ ∀ j < 3, x.getLsbD j = decide (i = j) := by
  constructor
  · rintro rfl
    interval_cases i <;> decide
  · rintro ⟨clean, bits⟩
    ext j bound
    by_cases low : j < 3
    · rw [← BitVec.getLsbD_eq_getElem, bits j low, ← BitVec.getLsbD_eq_getElem,
        BitVec.getLsbD_twoPow]
      simp only [show i < 32 by omega, decide_true, Bool.true_and]
    · have bit := congrArg (fun y => BitVec.getLsbD y j) clean
      have outside : (~~~(7#32)).getLsbD j = true := by
        have high : 3 ≤ j := not_lt.mp low
        interval_cases j <;> decide
      rw [BitVec.getLsbD_and, outside, Bool.and_true] at bit
      rw [← BitVec.getLsbD_eq_getElem, bit, ← BitVec.getLsbD_eq_getElem, BitVec.getLsbD_twoPow]
      simp [show ¬ i = j by omega]

/-- A clean user word with one selector is that selector and its id. -/
theorem AclRule.user_eq_iff (wellFormed : r.malformed = false) {i : Nat} (small : i < 3)
    (id : BitVec 32) :
    r.user = BitVec.twoPow 32 i ++ id ↔
      r.CleanUser ∧ (flags r.user).getLsbD i = true ∧ r.userId = id := by
  obtain ⟨-, selectors⟩ := AclRule.user_of_wellFormed wellFormed
  have bits : (∀ j < 3, (flags r.user).getLsbD j = decide (i = j)) ↔
      (flags r.user).getLsbD i = true := by
    constructor
    · intro all
      rw [all i small, decide_eq_true rfl]
    · intro set j bound
      revert selectors set
      interval_cases i <;> interval_cases j <;>
        · rintro (⟨set₀, set₁, set₂⟩ | ⟨set₀, set₁, set₂⟩ | ⟨set₀, set₁, set₂, -⟩) set
          all_goals simp_all
  rw [eq_append_iff, flags_eq_iff small, cleanUser_iff, bits, and_assoc]
  rfl

/-- A stored rule is looked up for a caller exactly when its selector covers the caller and
its user word is clean. -/
theorem mem_userReqs_iff (wellFormed : r.malformed = false) :
    r.user ∈ userReqs uid gid ↔ r.CleanUser ∧ r.meaning.user.Covers uid gid := by
  obtain ⟨-, selectors⟩ := AclRule.user_of_wellFormed wellFormed
  have split : ∀ P : Nat → Prop, (∀ j < 3, P j) ↔ P 0 ∧ P 1 ∧ P 2 := fun P =>
    ⟨fun h => ⟨h 0 (by decide), h 1 (by decide), h 2 (by decide)⟩, fun h j small => by
      interval_cases j
      exacts [h.1, h.2.1, h.2.2]⟩
  rw [userReqs_eq, cleanUser_iff]
  simp only [List.mem_cons, List.not_mem_nil, or_false, eq_append_iff, flags_eq_iff, split,
    show 0 < 3 by decide, show 1 < 3 by decide, show 2 < 3 by decide, AclRule.meaning,
    individualId_eq, groupId_eq, and_flag_ne_zero_iff (show 0 < 32 by decide),
    and_flag_ne_zero_iff (show 1 < 32 by decide)]
  change _ ∧ r.userId = _ ∨ _ ∧ r.userId = _ ∨ _ ∧ r.userId = _ ↔ _
  revert selectors
  generalize (flags r.user).getLsbD 0 = u₀
  generalize (flags r.user).getLsbD 1 = u₁
  generalize (flags r.user).getLsbD 2 = u₂
  rintro (⟨rfl, rfl, rfl⟩ | ⟨rfl, rfl, rfl⟩ | ⟨rfl, rfl, rfl, zero⟩)
  · simp [UserSelector.Covers]
  · simp [UserSelector.Covers]
  · simp [UserSelector.Covers, zero]

end Rule

/-! ## The object's own permissions -/

section Own

variable {obj : PoolObjectAuth} {op : Operation} {uid gid : Oid}

/-- The three permission bits as a rights word include exactly their operations. -/
theorem permRights_and_eq_iff {u m a : Bool} :
    PoolObjectAuth.permRights u m a &&& op.code = op.code ↔
      PoolObjectAuth.permOperations u m a op = true := by
  cases u <;> cases m <;> cases a <;> cases op <;> decide

/-- The resource word of the object's own rules passes the resource test. An object without
an id has all bits set there and is matched as if the rule were about everything. -/
theorem own_resource_matches {r : AclRule}
    (own : r.resource = obj.objType.code ||| AclRule.individualId ||| obj.oid.signExtend 64) :
    r.resource &&& (obj.objType.code ||| AclRule.allId) = obj.objType.code ||| AclRule.allId ∨
      r.resource &&& AclRequest.resourceMask obj AclRule.individualId =
        AclRequest.resourceReq obj AclRule.individualId obj.oid := by
  cases neg : obj.oid.msb with
  | false =>
    right
    have word : r.resource =
        (BitVec.twoPow 32 obj.objType.flag ||| BitVec.twoPow 32 0) ++ obj.oid := by
      rw [own, obj.objType.code_eq, individualId_eq, signExtend_of_nonneg neg, BitVec.or_append,
        BitVec.or_append]
      simp
    have upper : flags r.resource = BitVec.twoPow 32 obj.objType.flag ||| BitVec.twoPow 32 0 :=
      (eq_append_iff.mp word).1
    refine (and_resourceMask_eq_iff individualId_eq (by decide)).mpr
      ⟨neg, ?_, ?_, (eq_append_iff.mp word).2⟩
    · rw [upper, BitVec.getLsbD_or, BitVec.getLsbD_twoPow]
      simp [obj.objType.flag_lt]
    · rw [upper, BitVec.getLsbD_or, BitVec.getLsbD_twoPow, BitVec.getLsbD_twoPow]
      simp
  | true =>
    left
    have word : r.resource = BitVec.allOnes 32 ++ obj.oid := by
      rw [own, obj.objType.code_eq, individualId_eq, signExtend_of_neg neg, BitVec.or_append,
        BitVec.or_append, BitVec.or_allOnes, BitVec.zero_or, BitVec.zero_or]
    have upper : flags r.resource = BitVec.allOnes 32 := (eq_append_iff.mp word).1
    rw [and_resourceAll_eq_iff, upper, BitVec.getLsbD_allOnes, BitVec.getLsbD_allOnes]
    exact ⟨decide_eq_true obj.objType.flag_lt, rfl⟩

/-- The test of the evaluator for one of the object's own rules looks at its rights only. -/
theorem matchRule_own_iff {user rights : BitVec 64} :
    (AclRequest.of obj op).matchRule ⟨0, user,
        obj.objType.code ||| AclRule.individualId ||| obj.oid.signExtend 64, rights⟩ = true ↔
      rights &&& op.code = op.code := by
  have resource := own_resource_matches (r := ⟨0, user,
    obj.objType.code ||| AclRule.individualId ||| obj.oid.signExtend 64, rights⟩) rfl
  simp only [AclRequest.matchRule, Bool.and_eq_true, Bool.or_eq_true, decide_eq_true_eq]
  refine ⟨And.left, fun right => ⟨right, ?_⟩⟩
  rcases resource with all | individual
  · exact Or.inl (Or.inl (Or.inl all))
  · exact Or.inl (Or.inr individual)

/-- The user word of an own rule for an id is looked up for the callers with that id. -/
theorem own_user_mem_iff (uid gid : Oid) {i : Nat} (id : BitVec 32) (small : i < 2) :
    (BitVec.twoPow 32 i ++ 0#32) ||| id.signExtend 64 ∈ userReqs uid gid ↔
      i = 0 ∧ id = uid.val ∨ i = 1 ∧ id = gid.val := by
  rw [userReqs_eq]
  simp only [List.mem_cons, List.not_mem_nil, or_false]
  cases neg : id.msb with
  | false =>
    rw [signExtend_of_nonneg neg, BitVec.or_append, append_inj_iff, append_inj_iff,
      append_inj_iff, BitVec.or_zero, BitVec.zero_or, twoPow_inj_iff (by omega),
      twoPow_inj_iff (by omega), twoPow_inj_iff (by omega)]
    exact or_iff_right fun all => absurd all.1 (by omega)
  | true =>
    have notUid : id ≠ uid.val := fun same => by simp [same, uid.property] at neg
    have notGid : id ≠ gid.val := fun same => by simp [same, gid.property] at neg
    have ones : BitVec.allOnes 32 ≠ BitVec.twoPow 32 2 := by decide
    rw [signExtend_of_neg neg, BitVec.or_append, append_inj_iff, append_inj_iff,
      append_inj_iff, BitVec.or_allOnes, BitVec.zero_or]
    simp only [ones, notUid, notGid, and_false, false_and, or_self]

/-- The evaluator grants a request through the object's own rules exactly when one of the
object's permissions does. -/
theorem own_rules_iff :
    (∃ r ∈ obj.getAclRules, r.user ∈ userReqs uid gid ∧
        (AclRequest.of obj op).matchRule r = true) ↔
      ∃ p ∈ obj.permissions, p.Grants uid gid obj op := by
  have everyone : AclRule.allId ∈ userReqs uid gid := List.mem_cons_self
  have owner := own_user_mem_iff uid gid obj.uid (show 0 < 2 by decide)
  have group := own_user_mem_iff uid gid obj.gid (show 1 < 2 by decide)
  rw [← individualId_eq] at owner
  rw [← groupId_eq] at group
  have grants : ∀ (user : UserSelector) (rights : Operation → Bool),
      AclPermission.Grants ⟨user, fun t => t = obj.objType, .individual obj.oid, rights⟩ uid gid
        obj op ↔ user.Covers uid gid ∧ rights op = true := fun user rights =>
    ⟨fun g => ⟨g.user, g.right⟩, fun h => ⟨h.1, decide_eq_true rfl, rfl, h.2⟩⟩
  simp only [PoolObjectAuth.getAclRules, PoolObjectAuth.permissions, List.mem_cons,
    List.not_mem_nil, or_false, exists_eq_or_imp, exists_eq_left, matchRule_own_iff,
    permRights_and_eq_iff, owner, group, everyone, grants, UserSelector.Covers]
  simp

end Own

/-! ## The evaluator -/

namespace AclManager

theorem matchRules_eq_true_iff {userReq : BitVec 64} {req : AclRequest} {rules : List AclRule} :
    matchRules userReq req rules = true ↔
      ∃ r ∈ rules, r.user = userReq ∧ req.matchRule r = true := by
  simp only [matchRules, List.any_eq_true, List.mem_filter, decide_eq_true_eq, and_assoc]

/-- `authorize` looks up the own and the stored rules under the user words of the caller. -/
theorem authorize_eq_true_iff {m : AclManager} {uid gid : Oid} {obj : PoolObjectAuth}
    {op : Operation} :
    m.authorize uid gid obj op = true ↔
      (∃ r ∈ obj.getAclRules, r.user ∈ userReqs uid gid ∧
        (AclRequest.of obj op).matchRule r = true) ∨
      ∃ r ∈ m.aclRules, r.user ∈ userReqs uid gid ∧
        (AclRequest.of obj op).matchRule r = true := by
  simp only [authorize, matchRulesWrapper, Bool.or_eq_true, matchRules_eq_true_iff, userReqs,
    List.mem_cons, List.not_mem_nil, or_false, or_and_right, and_or_left, exists_or]
  exact Iff.of_eq (by ac_rfl)

/-- The evaluator grants a request exactly when a permission of the object grants it, or a
stored rule with a clean user word does. -/
theorem authorize_iff_clean {m : AclManager} {uid gid : Oid} {obj : PoolObjectAuth}
    {op : Operation} :
    m.authorize uid gid obj op = true ↔
      (∃ p ∈ obj.permissions, p.Grants uid gid obj op) ∨
      ∃ r ∈ m.aclRules, r.CleanUser ∧ r.meaning.Grants uid gid obj op := by
  rw [authorize_eq_true_iff, own_rules_iff]
  refine or_congr_right (exists_congr fun r => and_congr_right fun mem => ?_)
  have wellFormed := m.wellFormed r mem
  rw [mem_userReqs_iff wellFormed, matchRule_iff wellFormed]
  constructor
  · rintro ⟨⟨clean, user⟩, type, resource, right⟩
    exact ⟨clean, user, type, resource, right⟩
  · rintro ⟨clean, user, type, resource, right⟩
    exact ⟨⟨clean, user⟩, type, resource, right⟩

/-- The evaluator never grants more than the rules mean, whatever bits they have. -/
theorem authorized_of_authorize {m : AclManager} {uid gid : Oid} {obj : PoolObjectAuth}
    {op : Operation} (granted : m.authorize uid gid obj op = true) :
    m.Authorized uid gid obj op := by
  rcases authorize_iff_clean.mp granted with own | ⟨r, mem, -, grants⟩
  · exact Or.inl own
  · exact Or.inr ⟨r, mem, grants⟩

/-- The evaluator agrees with the meaning of the rules exactly when the request is not left
to rules with stray bits in their user word. -/
theorem authorize_iff (m : AclManager) (uid gid : Oid) (obj : PoolObjectAuth) (op : Operation) :
    (m.authorize uid gid obj op = true ↔ m.Authorized uid gid obj op) ↔
      (m.Authorized uid gid obj op →
        (∃ p ∈ obj.permissions, p.Grants uid gid obj op) ∨
        ∃ r ∈ m.aclRules, r.CleanUser ∧ r.meaning.Grants uid gid obj op) := by
  rw [← authorize_iff_clean]
  exact ⟨Iff.mpr, fun complete => ⟨authorized_of_authorize, complete⟩⟩

/-- A rule for user 5 with bit 35 set in its user word is not malformed and is stored, and
yet user 5 is refused what it allows. -/
theorem authorize_misses_stray_bit :
    ¬ ∀ (m : AclManager) (uid gid : Oid) (obj : PoolObjectAuth) (op : Operation),
      m.authorize uid gid obj op = true ↔ m.Authorized uid gid obj op := by
  let rule : AclRule := ⟨0, 0x900000005#64, 0x1400000000#64, 0x1#64⟩
  let m : AclManager := ⟨[rule], by decide⟩
  let obj : PoolObjectAuth := { objType := .vm, oid := 3, uid := 9, gid := 9 }
  intro agrees
  have covered : m.Authorized ⟨5, rfl⟩ ⟨6, rfl⟩ obj .use :=
    Or.inr ⟨rule, List.mem_singleton.mpr rfl, by decide, by decide, by decide, by decide⟩
  have granted := (agrees m ⟨5, rfl⟩ ⟨6, rfl⟩ obj .use).mpr covered
  exact absurd granted (by decide)

end AclManager

end Ezilla
