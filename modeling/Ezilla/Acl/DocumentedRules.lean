import Ezilla.Acl.AclMeaning

/-!
# Documented access control rules

A rule names a user, a group or everyone; some object types and which objects of them; and
some operations. `DocumentedRule` is such a rule with the words it is packed into, and
`AclRule.Documented` says that the words of a stored rule are those of one.

`AclRule.malformed_iff_documented_iff` compares this with the checks of `malformed`. They
pass every documented rule. They pass others too: nothing looks at the bits above the
selectors of the user word, the mask of the type bits has one bit more than there are types,
and the rights are compared as a signed number.
-/

namespace Ezilla

open PackedWord

/-! ## Rules as documented -/

/-- The bit of a selector in a user word. -/
def UserSelector.code : UserSelector → BitVec 64
  | .individual _ => AclRule.individualId
  | .group _ => AclRule.groupId
  | .all => AclRule.allId

/-- The id a selector names, 0 for everyone. -/
def UserSelector.oid : UserSelector → BitVec 32
  | .individual uid => uid
  | .group gid => gid
  | .all => 0

/-- The bit of a selector in a resource word. -/
def ResourceSelector.code : ResourceSelector → BitVec 64
  | .individual _ => AclRule.individualId
  | .group _ => AclRule.groupId
  | .cluster _ => AclRule.clusterId
  | .all => AclRule.allId

/-- The id a selector names, 0 for all objects. -/
def ResourceSelector.oid : ResourceSelector → BitVec 32
  | .individual oid => oid
  | .group gid => gid
  | .cluster cid => cid
  | .all => 0

/-- The types the cluster selector can be used with. -/
def ObjectType.clustered : List ObjectType := [.datastore, .host, .net]

/-- All types. -/
def ObjectType.all : List ObjectType :=
  [.vm, .host, .net, .image, .user, .template, .group, .acl, .datastore, .cluster, .document]

/-- A rule as it is documented. -/
structure DocumentedRule where
  user : UserSelector
  user_nonneg : user.oid.msb = false
  types : List ObjectType
  types_ne_nil : types ≠ []
  resource : ResourceSelector
  resource_nonneg : resource.oid.msb = false
  clustered : resource.code = AclRule.clusterId → ∀ t ∈ types, t ∈ ObjectType.clustered
  rights : List Operation
  rights_ne_nil : rights ≠ []

namespace DocumentedRule

def userWord (d : DocumentedRule) : BitVec 64 := d.user.code ||| d.user.oid.setWidth 64

def resourceWord (d : DocumentedRule) : BitVec 64 :=
  orAll (d.types.map ObjectType.code) ||| d.resource.code ||| d.resource.oid.setWidth 64

def rightsWord (d : DocumentedRule) : BitVec 64 := orAll (d.rights.map Operation.code)

end DocumentedRule

namespace AclRule

/-- The words of the rule are those of a documented one. -/
def Documented (r : AclRule) : Prop :=
  ∃ d : DocumentedRule,
    r.user = d.userWord ∧ r.resource = d.resourceWord ∧ r.rights = d.rightsWord

/-- The bit above those of the types. -/
def unknownType : BitVec 64 := 0x0000800000000000#64

/-- Some bit of the rule is one that no documented rule has, and that the checks do not find:
a bit above the selectors of the user word, the one above the types of the resource word, or
the sign of the rights. -/
def Stray (r : AclRule) : Prop :=
  ¬ r.CleanUser ∨ r.resource &&& unknownType ≠ 0 ∨ r.rights.msb = true

/-- The rule with an allowed bit in place of each stray one: no bits above the selectors, the
type of hosts instead of the unknown one, and the use right instead of negative rights. -/
def tidied (r : AclRule) : AclRule where
  oid := r.oid
  user := r.user &&& 0x7FFFFFFFF#64
  resource :=
    if r.resource &&& unknownType ≠ 0 then
      r.resource &&& ~~~unknownType ||| ObjectType.host.code
    else r.resource
  rights := if r.rights.msb then Operation.use.code else r.rights

end AclRule

/-! ## The packed words -/

/-- The place of a selector among the flags of a user word. -/
def UserSelector.flag : UserSelector → Nat
  | .individual _ => 0
  | .group _ => 1
  | .all => 2

/-- The place of a selector among the flags of a resource word. -/
def ResourceSelector.flag : ResourceSelector → Nat
  | .individual _ => 0
  | .group _ => 1
  | .all => 2
  | .cluster _ => 3

theorem UserSelector.code_eq (u : UserSelector) : u.code = BitVec.twoPow 32 u.flag ++ 0#32 := by
  cases u with
  | individual => exact individualId_eq
  | group => exact groupId_eq
  | all => exact allId_eq

theorem ResourceSelector.code_eq (s : ResourceSelector) :
    s.code = BitVec.twoPow 32 s.flag ++ 0#32 := by
  cases s with
  | individual => exact individualId_eq
  | group => exact groupId_eq
  | cluster => exact clusterId_eq
  | all => exact allId_eq

theorem UserSelector.flag_lt (u : UserSelector) : u.flag < 3 := by
  cases u <;> simp [flag]

theorem ResourceSelector.flag_lt (s : ResourceSelector) : s.flag < 4 := by
  cases s <;> simp [flag]

theorem ResourceSelector.code_eq_clusterId_iff (s : ResourceSelector) :
    s.code = AclRule.clusterId ↔ s.flag = 3 := by
  have small := s.flag_lt
  rw [s.code_eq, clusterId_eq, append_inj_iff, twoPow_inj_iff (by omega), and_iff_left rfl]

/-- The types lie between the selectors and the unknown type. -/
theorem ObjectType.flag_bounds (t : ObjectType) : 4 ≤ t.flag ∧ t.flag < 15 := by
  cases t <;> decide

theorem ObjectType.flag_injective {t t' : ObjectType} (same : t.flag = t'.flag) : t = t' := by
  revert same
  cases t <;> cases t' <;> decide

/-- An id alone has no flags. -/
theorem setWidth_ident (id : BitVec 32) : id.setWidth 64 = 0#32 ++ id :=
  (BitVec.setWidth_eq_append (by decide)).trans rfl

namespace DocumentedRule

variable {d : DocumentedRule}

theorem userWord_eq : d.userWord = BitVec.twoPow 32 d.user.flag ++ d.user.oid := by
  rw [userWord, d.user.code_eq, setWidth_ident, BitVec.or_append]
  simp

theorem resourceWord_eq : d.resourceWord =
    (orAll (d.types.map fun t => BitVec.twoPow 32 t.flag) ||| BitVec.twoPow 32 d.resource.flag) ++
      d.resource.oid := by
  have codes : d.types.map ObjectType.code =
      d.types.map fun t => BitVec.twoPow 32 t.flag ++ 0#32 :=
    List.map_congr_left fun t _ => t.code_eq
  rw [resourceWord, codes, orAll_map_append, d.resource.code_eq, setWidth_ident, BitVec.or_append,
    BitVec.or_append]
  simp

end DocumentedRule

/-! ## The checks -/

/-- The bits below `n` are those of one selector. -/
def OneOf (n : Nat) (x : BitVec 32) (i : Nat) : Prop := ∀ j < n, x.getLsbD j = decide (i = j)

/-- Some selector is set, and any one that is comes alone. -/
theorem exists_oneOf_iff {n : Nat} {x : BitVec 32} :
    (∃ i < n, OneOf n x i) ↔
      (∃ i < n, x.getLsbD i = true) ∧ ∀ i < n, x.getLsbD i = true → OneOf n x i := by
  constructor
  · rintro ⟨i, small, one⟩
    refine ⟨⟨i, small, by rw [one i small, decide_eq_true rfl]⟩, fun j small' set => ?_⟩
    rw [one j small', decide_eq_true_eq] at set
    exact set ▸ one
  · rintro ⟨⟨i, small, set⟩, alone⟩
    exact ⟨i, small, alone i small set⟩

/-- A flags word without the bits of a mask. -/
theorem and_flags_eq_zero_iff {y : BitVec 64} {mask : BitVec 32} :
    y &&& (mask ++ 0#32) = 0 ↔ ∀ i, mask.getLsbD i = true → (flags y).getLsbD i = false := by
  rw [show (0 : BitVec 64) = 0#32 ++ 0#32 by decide, and_append_zero_eq_iff]
  exact and_eq_zero_iff

/-- The bits of a mask, given on its width. -/
theorem getLsbD_iff_of_lt {mask : BitVec 32} {p : Nat → Prop} (bounded : ∀ i, p i → i < 32)
    (bits : ∀ i < 32, mask.getLsbD i = true ↔ p i) (i : Nat) : mask.getLsbD i = true ↔ p i := by
  by_cases small : i < 32
  · exact bits i small
  · rw [BitVec.getLsbD_of_ge _ _ (not_lt.mp small)]
    exact ⟨fun h => absurd h Bool.false_ne_true, fun h => absurd (bounded i h) small⟩

namespace AclRule

variable {r : AclRule}

/-- What the checks of the user word say. -/
structure UserChecked (r : AclRule) (i : Nat) : Prop where
  small : i < 3
  one : OneOf 3 (flags r.user) i
  nonneg : r.userId.msb = false
  all : i = 2 → r.userId = 0

/-- What the checks of the resource word say. -/
structure ResourceChecked (r : AclRule) (i : Nat) : Prop where
  small : i < 4
  one : OneOf 4 (flags r.resource) i
  cluster : i = 3 → ∀ t : ObjectType, (flags r.resource).getLsbD t.flag = true →
    t ∈ ObjectType.clustered
  nonneg : r.resourceId.msb = false
  all : i = 2 → r.resourceId = 0
  typed : ∃ k, 4 ≤ k ∧ k < 16 ∧ (flags r.resource).getLsbD k = true
  known : ∀ k, 16 ≤ k → (flags r.resource).getLsbD k = false

/-- What the checks of the rights say. -/
def RightsChecked (r : AclRule) : Prop := r.rights ≠ 0 ∧ BitVec.slt 0xF#64 r.rights = false

/-- A word without three bits, in terms of the pairs that exclude each other. -/
theorem pairs_iff {x : BitVec 32} :
    (∀ i < 3, x.getLsbD i = true → OneOf 3 x i) ↔
      ¬ (x.getLsbD 0 = true ∧ x.getLsbD 1 = true) ∧
      ¬ (x.getLsbD 0 = true ∧ x.getLsbD 2 = true) ∧
      ¬ (x.getLsbD 1 = true ∧ x.getLsbD 2 = true) := by
  have three : ∀ P : Nat → Prop, (∀ j < 3, P j) ↔ P 0 ∧ P 1 ∧ P 2 := fun P =>
    ⟨fun h => ⟨h 0 (by decide), h 1 (by decide), h 2 (by decide)⟩, fun h j small => by
      interval_cases j
      exacts [h.1, h.2.1, h.2.2]⟩
  simp only [OneOf, three]
  generalize x.getLsbD 0 = b₀
  generalize x.getLsbD 1 = b₁
  generalize x.getLsbD 2 = b₂
  revert b₀ b₁ b₂
  decide

theorem userChecks_iff : (r.checks.take 6).any Prod.fst = false ↔ ∃ i, r.UserChecked i := by
  have masked : r.user &&& 0x700000000#64 = 0 ↔ ∀ i < 3, (flags r.user).getLsbD i = false := by
    rw [show (0x700000000#64) = 7#32 ++ 0#32 by decide, and_flags_eq_zero_iff]
    exact forall_congr' fun i =>
      imp_congr_left (getLsbD_iff_of_lt (p := fun i => i < 3) (by omega) (by decide) i)
  have present : ¬ r.user &&& 0x700000000#64 = 0 ↔ ∃ i < 3, (flags r.user).getLsbD i = true := by
    rw [masked]
    push Not
    simp
  have checked : (r.checks.take 6).any Prod.fst = false ↔
      (∃ i < 3, OneOf 3 (flags r.user) i) ∧ r.userId.msb = false ∧
        ((flags r.user).getLsbD 2 = true → r.userId = 0) := by
    rw [exists_oneOf_iff, pairs_iff, ← present]
    simp only [checks, List.take_succ_cons, List.take_zero, List.any_cons, List.any_nil,
      Bool.or_false, Bool.or_eq_false_iff, ← Bool.not_eq_true (_ && _), Bool.and_eq_true,
      decide_eq_true_eq, individualId_eq, groupId_eq, allId_eq,
      and_flag_ne_zero_iff (show 0 < 32 by decide), and_flag_ne_zero_iff (show 1 < 32 by decide),
      and_flag_ne_zero_iff (show 2 < 32 by decide), decide_eq_false_iff_not, not_and, not_not]
    tauto
  rw [checked]
  constructor
  · rintro ⟨⟨i, small, one⟩, nonneg, all⟩
    exact ⟨i, small, one, nonneg, fun is => all (by rw [one 2 (by decide), is, decide_eq_true rfl])⟩
  · rintro ⟨i, small, one, nonneg, all⟩
    refine ⟨⟨i, small, one⟩, nonneg, fun set => all ?_⟩
    rwa [one 2 (by decide), decide_eq_true_eq] at set

/-- A selector comes alone when the mask of the selectors shows it only. -/
theorem and_selectors_eq_iff {x : BitVec 32} {i : Nat} (small : i < 4) :
    x &&& 0xF#32 = BitVec.twoPow 32 i ↔ OneOf 4 x i := by
  have mask := @getLsbD_iff_of_lt 0xF#32 (fun j => j < 4) (by omega) (by decide)
  constructor
  · intro same j low
    have bit := congrArg (fun y => BitVec.getLsbD y j) same
    rw [BitVec.getLsbD_and, (mask j).mpr low, Bool.and_true, BitVec.getLsbD_twoPow] at bit
    rw [bit, decide_eq_true (show i < 32 by omega), Bool.true_and]
  · intro one
    ext j bound
    rw [← BitVec.getLsbD_eq_getElem, ← BitVec.getLsbD_eq_getElem, BitVec.getLsbD_and,
      BitVec.getLsbD_twoPow, decide_eq_true (show i < 32 by omega), Bool.true_and]
    by_cases low : j < 4
    · rw [(mask j).mpr low, Bool.and_true, one j low]
    · rw [eq_false_of_ne_true ((mask j).not.mpr low), Bool.and_false,
        decide_eq_false (show i ≠ j by omega)]

theorem exclusive_eq_false_iff {i : Nat} (small : i < 4) :
    r.exclusive (BitVec.twoPow 32 i ++ 0#32) = false ↔
      ((flags r.resource).getLsbD i = true → OneOf 4 (flags r.resource) i) := by
  rw [exclusive, ← Bool.not_eq_true, Bool.and_eq_true, decide_eq_true_eq, decide_eq_true_eq,
    and_flag_ne_zero_iff (show i < 32 by omega), not_and, ne_eq, not_not,
    show (0xF00000000#64) = 0xF#32 ++ 0#32 by decide, and_append_zero_eq_iff,
    and_selectors_eq_iff small]

/-- The types that the cluster selector cannot be used with, as the check masks them. -/
theorem cluster_mask_iff :
    r.resourceCode &&& 0xFFFFFFF000000000#64 &&& invalidClusterObjects = 0 ↔
      ∀ t : ObjectType, (flags r.resource).getLsbD t.flag = true → t ∈ ObjectType.clustered := by
  have bits := @getLsbD_iff_of_lt 0x6F90#32 (fun i => i ∈ [4, 7, 8, 9, 10, 11, 13, 14])
    (by decide) (by decide)
  rw [resourceCode, BitVec.and_assoc, BitVec.and_assoc,
    show (0xFFFFFFFF00000000#64 &&& (0xFFFFFFF000000000#64 &&& invalidClusterObjects)) =
      0x6F90#32 ++ 0#32 by decide, and_flags_eq_zero_iff]
  constructor
  · intro clear t set
    by_contra other
    have masked : t.flag ∈ [4, 7, 8, 9, 10, 11, 13, 14] := by
      revert other
      cases t <;> decide
    rw [clear t.flag ((bits t.flag).mpr masked)] at set
    cases set
  · intro clustered i masked
    have named : ∃ t : ObjectType, t.flag = i ∧ t ∉ ObjectType.clustered := by
      have found : ∀ i ∈ [4, 7, 8, 9, 10, 11, 13, 14],
          ∃ t ∈ ObjectType.all, t.flag = i ∧ t ∉ ObjectType.clustered := by decide
      obtain ⟨t, -, named⟩ := found i ((bits i).mp masked)
      exact ⟨t, named⟩
    obtain ⟨t, rfl, other⟩ := named
    exact eq_false_of_ne_true fun set => other (clustered t set)

theorem resourceChecks_iff :
    ((r.checks.drop 6).take 7).any Prod.fst = false ↔ ∃ i, r.ResourceChecked i := by
  have present : ¬ r.resource &&& 0xF00000000#64 = 0 ↔
      ∃ i < 4, (flags r.resource).getLsbD i = true := by
    have mask := @getLsbD_iff_of_lt 0xF#32 (fun j => j < 4) (by omega) (by decide)
    rw [show (0xF00000000#64) = 0xF#32 ++ 0#32 by decide, and_flags_eq_zero_iff]
    simp only [mask]
    push Not
    simp
  have typed : ¬ r.resource &&& 0xFFF000000000#64 = 0 ↔
      ∃ k, 4 ≤ k ∧ k < 16 ∧ (flags r.resource).getLsbD k = true := by
    have mask := @getLsbD_iff_of_lt 0xFFF0#32 (fun k => 4 ≤ k ∧ k < 16) (by omega) (by decide)
    rw [show (0xFFF000000000#64) = 0xFFF0#32 ++ 0#32 by decide, and_flags_eq_zero_iff]
    simp only [mask]
    push Not
    simp [and_assoc]
  have known : r.resource &&& 0xFFFF000000000000#64 = 0 ↔
      ∀ k, 16 ≤ k → (flags r.resource).getLsbD k = false := by
    have mask := @getLsbD_iff_of_lt 0xFFFF0000#32 (fun k => 16 ≤ k ∧ k < 32) (by omega) (by decide)
    rw [show (0xFFFF000000000000#64) = 0xFFFF0000#32 ++ 0#32 by decide, and_flags_eq_zero_iff]
    simp only [mask]
    refine forall_congr' fun k => ⟨fun clear high => ?_, fun clear both => clear both.1⟩
    by_cases small : k < 32
    · exact clear ⟨high, small⟩
    · exact BitVec.getLsbD_of_ge _ _ (not_lt.mp small)
  have four : ∀ P : Nat → Prop, (∀ j < 4, P j) ↔ P 0 ∧ P 1 ∧ P 2 ∧ P 3 := fun P =>
    ⟨fun h => ⟨h 0 (by decide), h 1 (by decide), h 2 (by decide), h 3 (by decide)⟩,
      fun h j small => by
        interval_cases j
        exacts [h.1, h.2.1, h.2.2.1, h.2.2.2]⟩
  have checked : ((r.checks.drop 6).take 7).any Prod.fst = false ↔
      (∃ i < 4, OneOf 4 (flags r.resource) i) ∧
      ((flags r.resource).getLsbD 3 = true → ∀ t : ObjectType,
        (flags r.resource).getLsbD t.flag = true → t ∈ ObjectType.clustered) ∧
      r.resourceId.msb = false ∧ ((flags r.resource).getLsbD 2 = true → r.resourceId = 0) ∧
      (∃ k, 4 ≤ k ∧ k < 16 ∧ (flags r.resource).getLsbD k = true) ∧
      ∀ k, 16 ≤ k → (flags r.resource).getLsbD k = false := by
    rw [exists_oneOf_iff, four fun i => (flags r.resource).getLsbD i = true →
        OneOf 4 (flags r.resource) i, ← exclusive_eq_false_iff (by decide),
      ← exclusive_eq_false_iff (by decide), ← exclusive_eq_false_iff (by decide),
      ← exclusive_eq_false_iff (by decide), ← present, ← typed, ← known, ← cluster_mask_iff]
    simp only [checks, List.drop_succ_cons, List.drop_zero, List.take_succ_cons, List.take_zero,
      List.any_cons, List.any_nil,
      Bool.or_false, Bool.or_eq_false_iff, ← Bool.not_eq_true (_ && _), Bool.and_eq_true,
      decide_eq_true_eq, individualId_eq, groupId_eq, allId_eq, clusterId_eq,
      and_flag_ne_zero_iff (show 3 < 32 by decide),
      and_flag_ne_zero_iff (show 2 < 32 by decide), decide_eq_false_iff_not, not_and, not_not]
    tauto
  rw [checked]
  constructor
  · rintro ⟨⟨i, small, one⟩, cluster, nonneg, all, typed, known⟩
    exact ⟨i, small, one, fun is => cluster (by rw [one 3 (by decide), is, decide_eq_true rfl]),
      nonneg, fun is => all (by rw [one 2 (by decide), is, decide_eq_true rfl]), typed, known⟩
  · rintro ⟨i, small, one, cluster, nonneg, all, typed, known⟩
    refine ⟨⟨i, small, one⟩, fun set => cluster ?_, nonneg, fun set => all ?_, typed, known⟩
    · rwa [one 3 (by decide), decide_eq_true_eq] at set
    · rwa [one 2 (by decide), decide_eq_true_eq] at set

/-- What the checks say together. -/
theorem malformed_eq_false_iff : r.malformed = false ↔
    (∃ i, r.UserChecked i) ∧ (∃ i, r.ResourceChecked i) ∧ r.RightsChecked := by
  have rights : (r.checks.drop 13).any Prod.fst = false ↔ r.RightsChecked := by
    simp [checks, RightsChecked]
  have parts : r.checks =
      r.checks.take 6 ++ ((r.checks.drop 6).take 7 ++ r.checks.drop 13) := rfl
  have all := congrArg (fun checks => checks.any Prod.fst) parts
  rw [List.any_append, List.any_append] at all
  rw [← userChecks_iff, ← resourceChecks_iff, ← rights, ← Bool.or_eq_false_iff,
    ← Bool.or_eq_false_iff, ← all, malformed]

end AclRule

/-! ## Documented words -/

namespace AclRule

variable {r : AclRule}

/-- A documented user word passes the checks and has no bits above the selectors. -/
theorem exists_user_iff : (∃ u : UserSelector, u.oid.msb = false ∧
      r.user = BitVec.twoPow 32 u.flag ++ u.oid) ↔
    r.CleanUser ∧ ∃ i, r.UserChecked i := by
  rw [cleanUser_iff]
  constructor
  · rintro ⟨u, nonneg, word⟩
    obtain ⟨upper, lower⟩ := eq_append_iff.mp word
    obtain ⟨clean, one⟩ := (flags_eq_iff u.flag_lt).mp upper
    refine ⟨clean, u.flag, u.flag_lt, one, ?_, fun all => ?_⟩
    · exact (congrArg BitVec.msb lower).trans nonneg
    · refine lower.trans ?_
      cases u with
      | individual => cases all
      | group => cases all
      | all => rfl
  · rintro ⟨clean, i, small, one, nonneg, all⟩
    have upper : flags r.user = BitVec.twoPow 32 i := (flags_eq_iff small).mpr ⟨clean, one⟩
    interval_cases i
    · exact ⟨.individual r.userId, nonneg, eq_append_iff.mpr ⟨upper, rfl⟩⟩
    · exact ⟨.group r.userId, nonneg, eq_append_iff.mpr ⟨upper, rfl⟩⟩
    · exact ⟨.all, rfl, eq_append_iff.mpr ⟨upper, all rfl⟩⟩

/-- The unknown type is the bit above those of the types. -/
theorem unknownType_iff :
    r.resource &&& unknownType ≠ 0 ↔ (flags r.resource).getLsbD 15 = true := by
  rw [show unknownType = BitVec.twoPow 32 15 ++ 0#32 by decide]
  exact and_flag_ne_zero_iff (by decide)

/-- The flags of some types and a selector. -/
theorem getLsbD_flags_iff {types : List ObjectType} {i k : Nat} (small : i < 4) :
    (orAll (types.map fun t => BitVec.twoPow 32 t.flag) ||| BitVec.twoPow 32 i).getLsbD k = true ↔
      (∃ t ∈ types, t.flag = k) ∨ i = k := by
  have single : ∀ i < 32, (BitVec.twoPow 32 i).getLsbD k = true ↔ i = k := by
    intro i bound
    rw [BitVec.getLsbD_twoPow, decide_eq_true bound, Bool.true_and, decide_eq_true_eq]
  rw [BitVec.getLsbD_or, Bool.or_eq_true, getLsbD_orAll, single i (by omega)]
  simp only [List.mem_map, exists_exists_and_eq_and]
  exact or_congr_left (exists_congr fun t => and_congr_right fun _ => single _ t.flag_lt)

/-- The types that are set in a resource word. -/
def typesOf (r : AclRule) : List ObjectType :=
  ObjectType.all.filter fun t => (flags r.resource).getLsbD t.flag

theorem mem_typesOf {t : ObjectType} :
    t ∈ r.typesOf ↔ (flags r.resource).getLsbD t.flag = true := by
  have all : t ∈ ObjectType.all := by cases t <;> decide
  rw [typesOf, List.mem_filter, and_iff_right all]

/-- A checked resource word without the unknown type has the flags of its types and of its
selector. -/
theorem ResourceChecked.flags_eq {i : Nat} (checked : r.ResourceChecked i)
    (known : (flags r.resource).getLsbD 15 = false) :
    flags r.resource =
      orAll (r.typesOf.map fun t => BitVec.twoPow 32 t.flag) ||| BitVec.twoPow 32 i := by
  have small := checked.small
  refine BitVec.eq_of_getLsbD_eq fun k _ => Bool.eq_iff_iff.mpr ?_
  rw [getLsbD_flags_iff small]
  by_cases selector : k < 4
  · have bit := checked.one k selector
    rw [bit, decide_eq_true_eq]
    refine ⟨Or.inr, fun either => either.resolve_left ?_⟩
    rintro ⟨t, -, at_k⟩
    have bounds := t.flag_bounds
    omega
  · have apart : ¬ i = k := by omega
    rw [or_iff_left apart]
    constructor
    · intro set
      have typed : k < 15 := by
        by_contra high
        by_cases unknown : k = 15
        · rw [unknown, known] at set
          cases set
        · rw [checked.known k (by omega)] at set
          cases set
      have named : ∀ k < 15, 4 ≤ k → ∃ t ∈ ObjectType.all, t.flag = k := by decide
      obtain ⟨t, -, rfl⟩ := named k typed (not_lt.mp selector)
      exact ⟨t, mem_typesOf.mpr set, rfl⟩
    · rintro ⟨t, mem, rfl⟩
      exact mem_typesOf.mp mem

/-- A documented resource word passes the checks and has no unknown type. -/
theorem exists_resource_iff : (∃ (types : List ObjectType) (s : ResourceSelector),
      types ≠ [] ∧ s.oid.msb = false ∧ (s.flag = 3 → ∀ t ∈ types, t ∈ ObjectType.clustered) ∧
      r.resource = (orAll (types.map fun t => BitVec.twoPow 32 t.flag) |||
        BitVec.twoPow 32 s.flag) ++ s.oid) ↔
    (flags r.resource).getLsbD 15 = false ∧ ∃ i, r.ResourceChecked i := by
  constructor
  · rintro ⟨types, s, some, nonneg, clustered, word⟩
    obtain ⟨upper, lower⟩ := eq_append_iff.mp word
    have small := s.flag_lt
    have bit : ∀ k, (flags r.resource).getLsbD k = true ↔
        (∃ t ∈ types, t.flag = k) ∨ s.flag = k := fun k => by
      rw [upper, getLsbD_flags_iff small]
    have clear : ∀ k, 15 ≤ k → (flags r.resource).getLsbD k = false := fun k high => by
      refine eq_false_of_ne_true fun set => ?_
      rcases (bit k).mp set with ⟨t, -, at_k⟩ | at_k
      · have bounds := t.flag_bounds
        omega
      · omega
    refine ⟨clear 15 le_rfl, s.flag, small, fun j low => ?_, fun cluster t set => ?_,
      (congrArg BitVec.msb lower).trans nonneg, fun all => lower.trans ?_, ?_,
      fun k high => clear k (by omega)⟩
    · refine Bool.eq_iff_iff.mpr ?_
      rw [bit, decide_eq_true_eq, or_iff_right]
      rintro ⟨t, -, at_j⟩
      have bounds := t.flag_bounds
      omega
    · have bounds := t.flag_bounds
      rcases (bit t.flag).mp set with ⟨t', mem, same⟩ | at_t
      · rw [← ObjectType.flag_injective same]
        exact clustered cluster t' mem
      · omega
    · cases s with
      | individual => cases all
      | group => cases all
      | cluster => cases all
      | all => rfl
    · obtain ⟨t, mem⟩ := List.exists_mem_of_ne_nil types some
      have bounds := t.flag_bounds
      exact ⟨t.flag, bounds.1, by omega, (bit t.flag).mpr (Or.inl ⟨t, mem, rfl⟩)⟩
  · rintro ⟨known, i, checked⟩
    have upper := checked.flags_eq known
    have some : r.typesOf ≠ [] := by
      obtain ⟨k, low, high, set⟩ := checked.typed
      rw [upper, getLsbD_flags_iff checked.small] at set
      rcases set with ⟨t, mem, -⟩ | at_k
      · exact List.ne_nil_of_mem mem
      · have small := checked.small
        omega
    have clustered : i = 3 → ∀ t ∈ r.typesOf, t ∈ ObjectType.clustered := fun cluster t mem =>
      checked.cluster cluster t (mem_typesOf.mp mem)
    obtain ⟨s, flag, oid⟩ : ∃ s : ResourceSelector, s.flag = i ∧ s.oid = r.resourceId := by
      have small := checked.small
      have all := checked.all
      interval_cases i
      · exact ⟨.individual r.resourceId, rfl, rfl⟩
      · exact ⟨.group r.resourceId, rfl, rfl⟩
      · exact ⟨.all, rfl, (all rfl).symm⟩
      · exact ⟨.cluster r.resourceId, rfl, rfl⟩
    refine ⟨r.typesOf, s, some, oid ▸ checked.nonneg, fun cluster => clustered (flag ▸ cluster), ?_⟩
    exact eq_append_iff.mpr ⟨flag ▸ upper, oid.symm⟩

/-- Rights that are no negative number and not above those of all operations. -/
theorem rightsChecked_iff (nonneg : r.rights.msb = false) :
    r.RightsChecked ↔ r.rights ≠ 0 ∧ r.rights.toNat < 16 := by
  have value : r.rights.toInt = r.rights.toNat := BitVec.toInt_eq_toNat_of_msb nonneg
  refine and_congr_right fun _ => ?_
  rw [← Bool.not_eq_true, BitVec.slt_iff_toInt_lt, value, show (0xF#64).toInt = 15 by decide]
  omega

/-- Documented rights pass the checks and are not negative. -/
theorem exists_rights_iff : (∃ rights : List Operation,
      rights ≠ [] ∧ r.rights = orAll (rights.map Operation.code)) ↔
    r.rights.msb = false ∧ r.RightsChecked := by
  constructor
  · rintro ⟨rights, some, word⟩
    have masked : ∀ rights : List Operation,
        orAll (rights.map Operation.code) &&& 0xF#64 = orAll (rights.map Operation.code) := by
      intro rights
      induction rights with
      | nil => decide
      | cons op rights ih =>
        have single : op.code &&& 0xF#64 = op.code := by cases op <;> decide
        rw [List.map_cons, orAll_cons, BitVec.and_comm, BitVec.and_or_distrib_left,
          BitVec.and_comm, single, BitVec.and_comm, ih]
    have small : r.rights.toNat < 16 := by
      have below := congrArg BitVec.toNat (word ▸ masked rights : r.rights &&& 0xF#64 = r.rights)
      rw [BitVec.toNat_and] at below
      rw [← below]
      exact Nat.lt_succ_of_le Nat.and_le_right
    have nonneg : r.rights.msb = false := by
      rw [BitVec.msb_eq_decide, decide_eq_false_iff_not]
      omega
    refine ⟨nonneg, (rightsChecked_iff nonneg).mpr ⟨fun zero => ?_, small⟩⟩
    cases rights with
    | nil => exact some rfl
    | cons op rights =>
      rw [zero, List.map_cons, orAll_cons] at word
      have none := (BitVec.or_eq_zero_iff.mp word.symm).1
      cases op <;> exact absurd none (by decide)
  · rintro ⟨nonneg, checked⟩
    obtain ⟨nonzero, small⟩ := (rightsChecked_iff nonneg).mp checked
    have composed : ∀ n < 16, BitVec.ofNat 64 n ≠ 0 →
        ([.use, .manage, .admin, .create] : List Operation).filter
            (fun op => BitVec.ofNat 64 n &&& op.code ≠ 0) ≠ [] ∧
          BitVec.ofNat 64 n = orAll ((([.use, .manage, .admin, .create] : List Operation).filter
            fun op => BitVec.ofNat 64 n &&& op.code ≠ 0).map Operation.code) := by
      decide
    have word : BitVec.ofNat 64 r.rights.toNat = r.rights := by simp
    have parts := composed r.rights.toNat small
    rw [word] at parts
    exact ⟨_, parts nonzero⟩

/-- The documented rules are the ones that pass the checks and have no stray bit. -/
theorem documented_iff : r.Documented ↔ r.malformed = false ∧ ¬ r.Stray := by
  have user := exists_user_iff (r := r)
  have resource := exists_resource_iff (r := r)
  have rights := exists_rights_iff (r := r)
  rw [malformed_eq_false_iff, Stray, unknownType_iff]
  simp only [not_or, not_not, Bool.not_eq_true]
  constructor
  · rintro ⟨d, userWord, resourceWord, rightsWord⟩
    obtain ⟨clean, userChecked⟩ := user.mp ⟨d.user, d.user_nonneg, userWord.trans d.userWord_eq⟩
    obtain ⟨known, resourceChecked⟩ := resource.mp ⟨d.types, d.resource, d.types_ne_nil,
      d.resource_nonneg, fun flag => d.clustered (d.resource.code_eq_clusterId_iff.mpr flag),
      resourceWord.trans d.resourceWord_eq⟩
    obtain ⟨nonneg, rightsChecked⟩ := rights.mp ⟨d.rights, d.rights_ne_nil, rightsWord⟩
    exact ⟨⟨userChecked, resourceChecked, rightsChecked⟩, clean, known, nonneg⟩
  · rintro ⟨⟨userChecked, resourceChecked, rightsChecked⟩, clean, known, nonneg⟩
    obtain ⟨u, userNonneg, userWord⟩ := user.mpr ⟨clean, userChecked⟩
    obtain ⟨types, s, typed, resourceNonneg, clustered, resourceWord⟩ :=
      resource.mpr ⟨known, resourceChecked⟩
    obtain ⟨ops, allowed, rightsWord⟩ := rights.mpr ⟨nonneg, rightsChecked⟩
    refine ⟨⟨u, userNonneg, types, typed, s, resourceNonneg,
      fun code => clustered (s.code_eq_clusterId_iff.mp code), ops, allowed⟩, ?_, ?_, rightsWord⟩
    · exact userWord.trans (DocumentedRule.userWord_eq (d := ⟨u, _, _, _, _, _, _, _, _⟩)).symm
    · exact resourceWord.trans
        (DocumentedRule.resourceWord_eq (d := ⟨_, _, _, _, s, _, _, _, _⟩)).symm

/-! ## Stray bits -/

theorem flags_tidied_user : flags r.tidied.user = flags r.user &&& 7#32 ∧
    r.tidied.userId = r.userId := by
  refine eq_append_iff.mp ?_
  rw [tidied, show (0x7FFFFFFFF#64) = 7#32 ++ BitVec.allOnes 32 by decide]
  exact and_append_eq_iff.mpr ⟨rfl, rfl⟩

/-- The checks of the user word do not look above the selectors. -/
theorem userChecked_tidied_iff {i : Nat} : r.tidied.UserChecked i ↔ r.UserChecked i := by
  obtain ⟨upper, lower⟩ := flags_tidied_user (r := r)
  have one : OneOf 3 (flags r.tidied.user) i ↔ OneOf 3 (flags r.user) i := by
    refine forall₂_congr fun j small => ?_
    have inMask : (7#32).getLsbD j = true := by
      interval_cases j <;> decide
    rw [upper, BitVec.getLsbD_and, inMask, Bool.and_true]
  constructor
  · rintro ⟨small, alone, nonneg, all⟩
    exact ⟨small, one.mp alone, lower ▸ nonneg, lower ▸ all⟩
  · rintro ⟨small, alone, nonneg, all⟩
    exact ⟨small, one.mpr alone, lower ▸ nonneg, lower ▸ all⟩

/-- The unknown type is replaced by the type of hosts. -/
theorem flags_tidied_resource : flags r.tidied.resource =
      (if (flags r.resource).getLsbD 15 then
        flags r.resource &&& ~~~(BitVec.twoPow 32 15) ||| BitVec.twoPow 32 5
      else flags r.resource) ∧
    r.tidied.resourceId = r.resourceId := by
  refine eq_append_iff.mp ?_
  rw [tidied]
  dsimp only
  by_cases unknown : (flags r.resource).getLsbD 15 = true
  · rw [if_pos (unknownType_iff.mpr unknown), if_pos unknown]
    have cleared : r.resource &&& ~~~unknownType =
        (flags r.resource &&& ~~~(BitVec.twoPow 32 15)) ++ r.resourceId := by
      rw [show ~~~unknownType = ~~~(BitVec.twoPow 32 15) ++ BitVec.allOnes 32 by decide]
      exact and_append_eq_iff.mpr ⟨rfl, rfl⟩
    rw [cleared, ObjectType.code_eq, BitVec.or_append, BitVec.or_zero]
    rfl
  · rw [if_neg fun set => unknown (unknownType_iff.mp set), if_neg unknown]
    exact (append_flags_ident r.resource).symm

theorem getLsbD_tidied_resource {k : Nat} : (flags r.tidied.resource).getLsbD k = true ↔
    k ≠ 15 ∧ (flags r.resource).getLsbD k = true ∨
      k = 5 ∧ (flags r.resource).getLsbD 15 = true := by
  have bounded : (flags r.resource).getLsbD k = true → k < 32 := BitVec.lt_of_getLsbD
  rw [flags_tidied_resource.1]
  cases unknown : (flags r.resource).getLsbD 15 with
  | true =>
    rw [if_pos rfl, BitVec.getLsbD_or, BitVec.getLsbD_and, BitVec.getLsbD_not,
      BitVec.getLsbD_twoPow, BitVec.getLsbD_twoPow]
    generalize (flags r.resource).getLsbD k = set at bounded ⊢
    simp only [show 15 < 32 by decide, show 5 < 32 by decide, decide_true, Bool.true_and,
      Bool.or_eq_true, Bool.and_eq_true, Bool.not_eq_true', decide_eq_true_eq,
      decide_eq_false_iff_not, and_true, eq_comm (b := k)]
    tauto
  | false =>
    rw [if_neg Bool.false_ne_true, or_iff_left fun host => Bool.false_ne_true host.2,
      and_iff_right_of_imp]
    rintro set rfl
    exact Bool.false_ne_true (unknown.symm.trans set)

/-- The checks of the resource word take the unknown type for one like that of hosts. -/
theorem resourceChecked_tidied_iff {i : Nat} :
    r.tidied.ResourceChecked i ↔ r.ResourceChecked i := by
  obtain ⟨-, lower⟩ := flags_tidied_resource (r := r)
  have bit := fun k => getLsbD_tidied_resource (r := r) (k := k)
  have same : ∀ k, k ≠ 5 → k ≠ 15 →
      (flags r.tidied.resource).getLsbD k = (flags r.resource).getLsbD k := by
    intro k notHost notUnknown
    refine Bool.eq_iff_iff.mpr ?_
    rw [bit, and_iff_right notUnknown, or_iff_left fun host => notHost host.1]
  have one : OneOf 4 (flags r.tidied.resource) i ↔ OneOf 4 (flags r.resource) i :=
    forall₂_congr fun j small => by rw [same j (by omega) (by omega)]
  have cluster : (∀ t : ObjectType, (flags r.tidied.resource).getLsbD t.flag = true →
        t ∈ ObjectType.clustered) ↔
      ∀ t : ObjectType, (flags r.resource).getLsbD t.flag = true → t ∈ ObjectType.clustered := by
    refine forall_congr' fun t => ?_
    have bounds := t.flag_bounds
    by_cases host : t.flag = 5
    · have clustered : t ∈ ObjectType.clustered := by
        rw [@ObjectType.flag_injective t .host host]
        decide
      simp only [clustered, implies_true]
    · rw [same t.flag host (by omega)]
  have typed : (∃ k, 4 ≤ k ∧ k < 16 ∧ (flags r.tidied.resource).getLsbD k = true) ↔
      ∃ k, 4 ≤ k ∧ k < 16 ∧ (flags r.resource).getLsbD k = true := by
    constructor
    · rintro ⟨k, low, high, set⟩
      rcases (bit k).mp set with ⟨-, set⟩ | ⟨-, unknown⟩
      · exact ⟨k, low, high, set⟩
      · exact ⟨15, by decide, by decide, unknown⟩
    · rintro ⟨k, low, high, set⟩
      by_cases unknown : k = 15
      · exact ⟨5, by decide, by decide, (bit 5).mpr (Or.inr ⟨rfl, unknown ▸ set⟩)⟩
      · exact ⟨k, low, high, (bit k).mpr (Or.inl ⟨unknown, set⟩)⟩
  have known : (∀ k, 16 ≤ k → (flags r.tidied.resource).getLsbD k = false) ↔
      ∀ k, 16 ≤ k → (flags r.resource).getLsbD k = false :=
    forall₂_congr fun k high => by rw [same k (by omega) (by omega)]
  constructor
  · rintro ⟨small, alone, clustered, nonneg, all, some, high⟩
    exact ⟨small, one.mp alone, fun is => cluster.mp (clustered is), lower ▸ nonneg, lower ▸ all,
      typed.mp some, known.mp high⟩
  · rintro ⟨small, alone, clustered, nonneg, all, some, high⟩
    exact ⟨small, one.mpr alone, fun is => cluster.mpr (clustered is), lower ▸ nonneg, lower ▸ all,
      typed.mpr some, known.mpr high⟩

/-- The checks of the rights take a negative number for a small one. -/
theorem rightsChecked_tidied_iff : r.tidied.RightsChecked ↔ r.RightsChecked := by
  rw [RightsChecked, RightsChecked, tidied]
  dsimp only
  cases negative : r.rights.msb with
  | false => rw [if_neg Bool.false_ne_true]
  | true =>
    rw [if_pos rfl]
    have below : BitVec.slt 0xF#64 r.rights = false := by
      rw [BitVec.slt_eq_decide, decide_eq_false_iff_not, show (0xF#64).toInt = 15 by decide]
      rw [BitVec.msb_eq_toInt, decide_eq_true_eq] at negative
      omega
    have nonzero : r.rights ≠ 0 := fun zero => by
      rw [zero] at negative
      cases negative
    exact iff_of_true ⟨by decide, by decide⟩ ⟨nonzero, below⟩

/-- The checks find no stray bit. -/
theorem malformed_tidied : r.tidied.malformed = false ↔ r.malformed = false := by
  rw [malformed_eq_false_iff, malformed_eq_false_iff]
  simp only [userChecked_tidied_iff, resourceChecked_tidied_iff, rightsChecked_tidied_iff]

theorem not_stray_tidied : ¬ r.tidied.Stray := by
  rw [Stray, unknownType_iff, getLsbD_tidied_resource, cleanUser_iff, flags_tidied_user.1]
  have clean : flags r.user &&& 7#32 &&& ~~~(7#32) = 0 := by
    rw [BitVec.and_assoc, show 7#32 &&& ~~~(7#32) = 0#32 by decide]
    exact BitVec.and_zero
  have positive : r.tidied.rights.msb = false := by
    rw [tidied]
    dsimp only
    split
    · decide
    · rename_i nonneg
      exact eq_false_of_ne_true nonneg
  rw [clean, positive]
  simp

/-- Validation accepts exactly the documented rules among the rules without a stray bit and
those that would not be documented without theirs either. -/
theorem malformed_iff_documented_iff (r : AclRule) :
    (r.malformed = false ↔ r.Documented) ↔ (¬ r.Stray ∨ ¬ r.tidied.Documented) := by
  rw [documented_iff, documented_iff, malformed_tidied]
  have clean := not_stray_tidied (r := r)
  tauto

/-- A rule for user 1 that has the cluster bit in its user word passes validation. -/
theorem malformed_accepts_cluster_user :
    ¬ ∀ r : AclRule, r.malformed = false ↔ r.Documented := by
  intro exact_
  have documented := (exact_ ⟨0, 0x900000001#64, 0x1400000000#64, 0x1#64⟩).mp (by decide)
  exact (documented_iff.mp documented).2 (Or.inl (by decide))

end AclRule

end Ezilla
