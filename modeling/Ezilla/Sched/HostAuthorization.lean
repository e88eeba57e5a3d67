import Ezilla.Acl.AclMeaning

/-!
# Authorization of hosts in the scheduler

Before it matches a pending VM with a host, `Scheduler::match` asks the access control
evaluator whether the owner of the VM may MANAGE the host. The daemon asks the same
question in `AuthRequest::add_auth`, with the permissions `Host::get_permissions` fills
in; the scheduler fills in the id and the type by hand and leaves everything else as the
constructor of `PoolObjectAuth` does. Its rules are those the daemon writes in answer to
`one.acl.info`, in hexadecimal, read back into signed words: a rights word with the sign bit
set is stored and written, and comes back as the largest word, which has every right.

* `fromXml_toXml`: what a rule is for the scheduler;
* `match_authorized_iff`: the scheduler needs a rule for all hosts or for this id;
* `add_auth_iff`: the daemon also takes one for the cluster or for the group of the host, but
  none without MANAGE;
* `match_agrees_iff`: when the two answers are the same.
-/

namespace Ezilla

open PackedWord

/-- The ids rules address a host by; `clusterId` is -1 for a host in no cluster. -/
structure HostIds where
  oid : Oid
  clusterId : BitVec 32

/-- `Host::get_permissions`, with the owner and group `Host::from_xml` sets. -/
def HostIds.getPermissions (h : HostIds) : PoolObjectAuth where
  objType := .host
  oid := h.oid
  uid := oneadminId.val
  gid := oneadminId.val
  cid := h.clusterId

/-- The description `Scheduler::match` builds. -/
def HostIds.hostPerms (h : HostIds) : PoolObjectAuth where
  objType := .host
  oid := h.oid

/-! ## The rules of the scheduler -/

/-- The elements of an ACL element that become numbers. The id is written and read in
decimal. -/
structure AclXmlNode where
  id : Int
  user : List Char
  resource : List Char
  rights : List Char
  deriving DecidableEq

/-- `oss << hex << word`: the digits of the word without its sign. -/
def hexText (word : BitVec 64) : List Char := Nat.toDigits 16 word.toNat

/-- The value of a hexadecimal digit. -/
def hexDigit (c : Char) : Nat := if c.isDigit then c.toNat - 48 else c.toNat - 87

/-- `iss >> hex >> word`, on digits: more than a signed word holds is its largest value. -/
def readHex (text : List Char) : BitVec 64 :=
  let value := text.foldl (fun sofar c => 16 * sofar + hexDigit c) 0
  if value < 2 ^ 63 then BitVec.ofNat 64 value else BitVec.intMax 64

namespace AclRule

/-- `AclRule::to_xml`. -/
def toXml (r : AclRule) : AclXmlNode :=
  ⟨r.oid, hexText r.user, hexText r.resource, hexText r.rights⟩

/-- `AclRule::from_xml`. -/
def fromXml (node : AclXmlNode) : AclRule :=
  ⟨node.id, readHex node.user, readHex node.resource, readHex node.rights⟩

end AclRule

/-- `AclManager::dump`. -/
def AclManager.dump (m : AclManager) : List AclXmlNode := m.aclRules.map AclRule.toXml

/-- `AclXML`: the evaluator of the scheduler, with rules that nothing checks. -/
structure AclXML where
  aclRules : List AclRule

namespace AclXML

/-- `AclXML::load_rules`. -/
def loadRules (nodes : List AclXmlNode) : AclXML := ⟨nodes.map AclRule.fromXml⟩

/-- `AclManager::match_rules_wrapper`. -/
def matchRulesWrapper (acls : AclXML) (userReq : BitVec 64) (req : AclRequest)
    (tmpRules : List AclRule) : Bool :=
  AclManager.matchRules userReq req tmpRules || AclManager.matchRules userReq req acls.aclRules

/-- `AclManager::authorize`, which `AclXML` inherits. -/
def authorize (acls : AclXML) (uid gid : Oid) (obj : PoolObjectAuth) (op : Operation) : Bool :=
  let req := AclRequest.of obj op
  let tmpRules := obj.getAclRules
  acls.matchRulesWrapper AclRule.allId req tmpRules ||
    acls.matchRulesWrapper (AclRule.individualId ||| uid.val.signExtend 64) req tmpRules ||
    acls.matchRulesWrapper (AclRule.groupId ||| gid.val.signExtend 64) req tmpRules

/-- The authorization step of `Scheduler::match`, for the owner of the VM and one host. -/
def matchAuthorized (acls : AclXML) (uid gid : Oid) (host : HostIds) : Bool :=
  if uid = oneadminId ∨ gid = oneadminId then true
  else acls.authorize uid gid host.hostPerms .manage

end AclXML

/-! ## What a rule becomes -/

theorem foldl_toDigits (n : Nat) :
    (Nat.toDigits 16 n).foldl (fun sofar c => 16 * sofar + hexDigit c) 0 = n := by
  have digit : ∀ d, d < 16 → hexDigit (Nat.digitChar d) = d := by decide
  induction n using Nat.strongRecOn with
  | ind n ih =>
    rcases Nat.lt_or_ge n 16 with small | large
    · rw [Nat.toDigits_of_lt_base small]
      simp [digit n small]
    · rw [Nat.toDigits_of_base_le (by decide) large, List.foldl_append,
        ih (n / 16) (Nat.div_lt_self (by omega) (by decide))]
      simp only [List.foldl_cons, List.foldl_nil, digit (n % 16) (Nat.mod_lt n (by decide))]
      omega

/-- A word without the sign bit is read back; one with it is the largest word. -/
theorem readHex_hexText (word : BitVec 64) :
    readHex (hexText word) = if word.msb then BitVec.intMax 64 else word := by
  rw [readHex, hexText, foldl_toDigits]
  simp only [BitVec.msb_eq_decide, BitVec.ofNat_toNat, BitVec.setWidth_eq]
  have width : 2 ^ (64 - 1) = 2 ^ 63 := rfl
  by_cases small : word.toNat < 2 ^ 63
  · rw [if_pos small, if_neg (by simpa using small)]
  · rw [if_neg small, if_pos (by simpa using small)]

namespace AclRule

variable {r : AclRule}

/-- A rule as the scheduler has it. -/
theorem fromXml_toXml : fromXml r.toXml =
    ⟨r.oid, if r.user.msb then BitVec.intMax 64 else r.user,
      if r.resource.msb then BitVec.intMax 64 else r.resource,
      if r.rights.msb then BitVec.intMax 64 else r.rights⟩ := by
  simp only [fromXml, toXml, readHex_hexText]

/-- The rule that lets do what the rule of the scheduler does. -/
def read (r : AclRule) : AclRule := { r with rights := if r.rights.msb then 0xF#64 else r.rights }

/-- The bits above the types are clear in a rule that was let in. -/
theorem resource_msb (wellFormed : r.malformed = false) : r.resource.msb = false := by
  have passed := List.any_eq_false.mp wellFormed
  simp only [checks, List.mem_cons, List.not_mem_nil, or_false, forall_eq_or_imp, forall_eq,
    decide_eq_true_eq, not_not] at passed
  obtain ⟨-, -, -, -, -, -, -, -, -, -, -, -, high, -⟩ := passed
  have bit := congrArg (fun x => BitVec.getLsbD x 63) high
  simp only [BitVec.getLsbD_and] at bit
  rw [BitVec.msb_eq_getLsbD_last]
  simpa using bit

theorem read_wellFormed (wellFormed : r.malformed = false) : r.read.malformed = false := by
  unfold read
  split
  · have passed := List.any_eq_false.mp wellFormed
    refine List.any_eq_false.mpr ?_
    simp only [checks, List.mem_cons, List.not_mem_nil, or_false, forall_eq_or_imp,
      forall_eq] at passed ⊢
    obtain ⟨c₁, c₂, c₃, c₄, c₅, c₆, c₇, c₈, c₉, c₁₀, c₁₁, c₁₂, c₁₃, -⟩ := passed
    refine ⟨c₁, c₂, c₃, c₄, c₅, c₆, c₇, c₈, c₉, c₁₀, c₁₁, c₁₂, c₁₃, ?_, ?_⟩ <;> simp
  · exact wellFormed

/-- A rule passes the test of the scheduler exactly when its reading passes that of the
daemon: an operation is one of the four lowest bits. -/
theorem matchRule_fromXml {obj : PoolObjectAuth} {op : Operation}
    (wellFormed : r.malformed = false) :
    (AclRequest.of obj op).matchRule (fromXml r.toXml) =
      (AclRequest.of obj op).matchRule r.read := by
  rw [fromXml_toXml, resource_msb wellFormed, if_neg Bool.false_ne_true, read]
  unfold AclRequest.matchRule
  cases r.rights.msb with
  | false => rfl
  | true =>
    have all : (BitVec.intMax 64 &&& op.code = op.code) = (0xF#64 &&& op.code = op.code) := by
      cases op <;> decide
    simp only [AclRequest.of, if_true, all]

end AclRule

/-- The rules of a user word without the sign bit are found under the same word. -/
theorem user_fromXml_iff {r : AclRule} {userReq : BitVec 64} (nonneg : userReq.msb = false)
    (notMax : userReq ≠ BitVec.intMax 64) :
    (AclRule.fromXml r.toXml).user = userReq ↔ r.user = userReq := by
  rw [AclRule.fromXml_toXml]
  simp only
  split_ifs with signed
  · refine ⟨fun same => absurd same.symm notMax, fun same => ?_⟩
    rw [same, nonneg] at signed
    cases signed
  · rfl

/-- The daemon's evaluator over the rules as the scheduler reads them. -/
def AclManager.read (m : AclManager) : AclManager where
  aclRules := m.aclRules.map AclRule.read
  wellFormed r mem := by
    obtain ⟨before, there, rfl⟩ := List.mem_map.mp mem
    exact AclRule.read_wellFormed (m.wellFormed before there)

theorem matchRules_loadRules {m : AclManager} {userReq : BitVec 64} {obj : PoolObjectAuth}
    {op : Operation} (nonneg : userReq.msb = false) (notMax : userReq ≠ BitVec.intMax 64) :
    AclManager.matchRules userReq (AclRequest.of obj op) (AclXML.loadRules m.dump).aclRules =
      AclManager.matchRules userReq (AclRequest.of obj op) m.read.aclRules := by
  rw [AclManager.matchRules, AclManager.matchRules, Bool.eq_iff_iff]
  simp only [AclXML.loadRules, AclManager.dump, AclManager.read, List.map_map, List.any_filter,
    List.any_map, List.any_eq_true, Function.comp_apply, Bool.and_eq_true, decide_eq_true_eq]
  refine exists_congr fun r => and_congr_right fun mem => ?_
  rw [user_fromXml_iff nonneg notMax, AclRule.matchRule_fromXml (m.wellFormed r mem)]
  rfl

/-- The scheduler answers as the daemon would over the rules as they were read. -/
theorem authorize_loadRules {m : AclManager} {uid gid : Oid} {obj : PoolObjectAuth}
    {op : Operation} : (AclXML.loadRules m.dump).authorize uid gid obj op =
      m.read.authorize uid gid obj op := by
  have apart : ∀ (high : BitVec 32) (id : BitVec 32), high.msb = false →
      high ≠ flags (BitVec.intMax 64) →
      (high ++ id).msb = false ∧ high ++ id ≠ BitVec.intMax 64 := by
    intro high id nonneg notMax
    exact ⟨by rw [BitVec.msb_append]; exact nonneg,
      fun same => notMax (eq_append_iff.mp same.symm).1.symm⟩
  have words : ∀ userReq ∈ userReqs uid gid, userReq.msb = false ∧
      userReq ≠ BitVec.intMax 64 := by
    rw [userReqs_eq]
    intro userReq mem
    simp only [List.mem_cons, List.not_mem_nil, or_false] at mem
    rcases mem with rfl | rfl | rfl
    · exact apart _ 0 (by decide) (by decide)
    · exact apart _ uid.val (by decide) (by decide)
    · exact apart _ gid.val (by decide) (by decide)
  have same : ∀ userReq ∈ userReqs uid gid,
      AclManager.matchRules userReq (AclRequest.of obj op) (AclXML.loadRules m.dump).aclRules =
        AclManager.matchRules userReq (AclRequest.of obj op) m.read.aclRules :=
    fun userReq mem => matchRules_loadRules (words userReq mem).1 (words userReq mem).2
  simp only [AclXML.authorize, AclManager.authorize, AclXML.matchRulesWrapper,
    AclManager.matchRulesWrapper, same _ (show AclRule.allId ∈ _ by simp [userReqs]),
    same _ (show AclRule.individualId ||| uid.val.signExtend 64 ∈ _ by simp [userReqs]),
    same _ (show AclRule.groupId ||| gid.val.signExtend 64 ∈ _ by simp [userReqs])]

/-! ## The two answers -/

/-- A rule the evaluator looks up for the caller, that lets the caller MANAGE hosts. -/
structure AclRule.ManagesHosts (r : AclRule) (uid gid : Oid) : Prop where
  clean : r.CleanUser
  user : r.meaning.user.Covers uid gid
  type : r.meaning.types .host = true
  right : r.meaning.rights .manage = true

/-- A stored rule lets the caller MANAGE hosts through one of the selectors. -/
def AclManager.ManagesThrough (m : AclManager) (uid gid : Oid)
    (selectors : List ResourceSelector) : Prop :=
  ∃ r ∈ m.aclRules, r.ManagesHosts uid gid ∧ r.meaning.resource ∈ selectors

/-- A rule the evaluator looks up for the caller, about hosts, with the sign bit set in its
rights word. -/
structure AclRule.SignedHosts (r : AclRule) (uid gid : Oid) : Prop where
  clean : r.CleanUser
  user : r.meaning.user.Covers uid gid
  type : r.meaning.types .host = true
  signed : r.rights.msb = true

/-- A stored rule about hosts has the sign bit set in its rights word, under one of the
selectors. -/
def AclManager.SignedThrough (m : AclManager) (uid gid : Oid)
    (selectors : List ResourceSelector) : Prop :=
  ∃ r ∈ m.aclRules, r.SignedHosts uid gid ∧ r.meaning.resource ∈ selectors

section

variable {m : AclManager} {uid gid : Oid} {host : HostIds}

/-- The id a well-formed rule selects its resources by is not negative. -/
theorem AclRule.resource_nonneg {r : AclRule} (wellFormed : r.malformed = false) :
    r.meaning.resource ≠ .group (-1) ∧ r.meaning.resource ≠ .cluster (-1) := by
  have nonneg := (AclRule.resource_of_wellFormed wellFormed).1
  have minus : r.resourceId ≠ -1 := by
    intro same
    rw [same] at nonneg
    exact absurd nonneg (by decide)
  simp only [AclRule.meaning]
  split_ifs
  · exact ⟨ResourceSelector.noConfusion, ResourceSelector.noConfusion⟩
  · exact ⟨fun same => minus (ResourceSelector.group.inj same), ResourceSelector.noConfusion⟩
  · exact ⟨ResourceSelector.noConfusion, fun same => minus (ResourceSelector.cluster.inj same)⟩
  · exact ⟨ResourceSelector.noConfusion, ResourceSelector.noConfusion⟩

/-- A rule grants MANAGE on a host when it manages hosts and its selector covers this one. -/
theorem grants_host_iff {r : AclRule} {obj : PoolObjectAuth} (type : obj.objType = .host) :
    r.CleanUser ∧ r.meaning.Grants uid gid obj .manage ↔
      r.ManagesHosts uid gid ∧ r.meaning.resource.Covers obj := by
  constructor
  · rintro ⟨clean, grants⟩
    exact ⟨⟨clean, grants.user, type ▸ grants.type, grants.right⟩, grants.resource⟩
  · rintro ⟨manages, covers⟩
    exact ⟨manages.clean, manages.user, type.symm ▸ manages.type, covers, manages.right⟩

/-- The owner's permission of an object grants nobody else MANAGE when the group and the
others have no rights. -/
theorem own_manage_iff {obj : PoolObjectAuth} (ownerM : obj.ownerM = true)
    (groupM : obj.groupM = false) (otherM : obj.otherM = false) :
    (∃ p ∈ obj.permissions, p.Grants uid gid obj .manage) ↔ obj.uid = uid.val := by
  constructor
  · rintro ⟨p, mem, grants⟩
    simp only [PoolObjectAuth.permissions, List.mem_cons, List.not_mem_nil, or_false] at mem
    rcases mem with rfl | rfl | rfl
    · exact grants.user
    · exact absurd grants.right (by simp [PoolObjectAuth.permOperations, groupM])
    · exact absurd grants.right (by simp [PoolObjectAuth.permOperations, otherM])
  · intro owner
    refine ⟨_, List.mem_cons_self, owner, decide_eq_true rfl, rfl, ?_⟩
    simp [PoolObjectAuth.permOperations, ownerM]

/-- What the evaluator answers about a host whose owner alone may MANAGE it. -/
theorem authorize_host_iff {obj : PoolObjectAuth} (type : obj.objType = .host)
    (ownerM : obj.ownerM = true) (groupM : obj.groupM = false) (otherM : obj.otherM = false) :
    m.authorize uid gid obj .manage = true ↔
      obj.uid = uid.val ∨
        ∃ r ∈ m.aclRules, r.ManagesHosts uid gid ∧ r.meaning.resource.Covers obj := by
  rw [AclManager.authorize_iff_clean, own_manage_iff ownerM groupM otherM]
  apply or_congr_right
  apply exists_congr
  intro r
  rw [grants_host_iff type]

/-- The rules that let the caller MANAGE hosts after they were read. -/
theorem managesHosts_read_iff {r : AclRule} : r.read.ManagesHosts uid gid ↔
    r.ManagesHosts uid gid ∨ r.SignedHosts uid gid := by
  have right : r.read.meaning.rights .manage = true ↔
      r.meaning.rights .manage = true ∨ r.rights.msb = true := by
    have rights : r.read.meaning.rights .manage =
        decide (r.read.rights &&& Operation.manage.code ≠ 0) := rfl
    rw [rights, AclRule.read]
    cases r.rights.msb with
    | false => exact (or_iff_left Bool.false_ne_true).symm
    | true =>
      have every : decide (0xF#64 &&& Operation.manage.code ≠ 0) = true := by decide
      exact iff_of_true every (.inr rfl)
  have same : r.read.meaning = { r.meaning with rights := r.read.meaning.rights } := rfl
  constructor
  · rintro ⟨clean, user, type, allowed⟩
    rw [same] at user type
    exact (right.mp allowed).imp (fun manage => ⟨clean, user, type, manage⟩) fun signed =>
      ⟨clean, user, type, signed⟩
  · intro either
    have allowed := right.mpr (either.imp (fun manages => manages.right) fun signed =>
      signed.signed)
    obtain ⟨clean, user, type⟩ : r.CleanUser ∧ r.meaning.user.Covers uid gid ∧
        r.meaning.types .host = true := by
      rcases either with manages | signed
      · exact ⟨manages.clean, manages.user, manages.type⟩
      · exact ⟨signed.clean, signed.user, signed.type⟩
    exact ⟨clean, same ▸ user, same ▸ type, allowed⟩

theorem managesThrough_read_iff {selectors : List ResourceSelector} :
    m.read.ManagesThrough uid gid selectors ↔
      m.ManagesThrough uid gid selectors ∨ m.SignedThrough uid gid selectors := by
  unfold AclManager.ManagesThrough AclManager.SignedThrough AclManager.read
  simp only [List.mem_map, exists_exists_and_eq_and, managesHosts_read_iff, or_and_right,
    and_or_left, exists_or]
  rfl

/-- The scheduler takes the rules for all hosts and for the id of the host, also those that
have the sign bit for MANAGE. -/
theorem match_authorized_iff :
    (AclXML.loadRules m.dump).matchAuthorized uid gid host = true ↔
      uid = oneadminId ∨ gid = oneadminId ∨
        m.ManagesThrough uid gid [.all, .individual host.oid] ∨
        m.SignedThrough uid gid [.all, .individual host.oid] := by
  rw [AclXML.matchAuthorized, ← managesThrough_read_iff]
  split_ifs with oneadmin
  · simp [← or_assoc, oneadmin]
  · rw [← or_assoc, or_iff_right oneadmin, authorize_loadRules,
      authorize_host_iff rfl rfl rfl rfl]
    have noOwner : ¬ (HostIds.hostPerms host).uid = uid.val := by
      intro same
      have nonneg := uid.property
      rw [← same] at nonneg
      change (-1 : BitVec 32).msb = false at nonneg
      exact absurd nonneg (by decide)
    rw [or_iff_right noOwner]
    apply exists_congr
    intro r
    apply and_congr_right
    intro mem
    apply and_congr_right
    intro _
    obtain ⟨noGroup, noCluster⟩ := AclRule.resource_nonneg (m.read.wellFormed r mem)
    cases selector : r.meaning.resource with
    | individual id => simp [ResourceSelector.Covers, HostIds.hostPerms]
    | group id =>
      have : id ≠ -1 := fun same => noGroup (by rw [selector, same])
      simpa [ResourceSelector.Covers, HostIds.hostPerms] using this
    | cluster id =>
      have : id ≠ -1 := fun same => noCluster (by rw [selector, same])
      simpa [ResourceSelector.Covers, HostIds.hostPerms] using this
    | all => simp [ResourceSelector.Covers]

/-- The daemon takes those, and the rules for the cluster and for the group of the host. -/
theorem add_auth_iff :
    m.addAuth uid gid host.getPermissions .manage = true ↔
      uid = oneadminId ∨ gid = oneadminId ∨
        m.ManagesThrough uid gid [.all, .individual host.oid] ∨
        m.ManagesThrough uid gid [.cluster host.clusterId, .group oneadminId.val] := by
  rw [AclManager.addAuth]
  split_ifs with oneadmin
  · simp [← or_assoc, oneadmin]
  · rw [← or_assoc, or_iff_right oneadmin, authorize_host_iff rfl rfl rfl rfl]
    have noOwner : ¬ (HostIds.getPermissions host).uid = uid.val := fun same =>
      oneadmin (Or.inl (Subtype.ext same.symm))
    rw [or_iff_right noOwner, AclManager.ManagesThrough, AclManager.ManagesThrough,
      ← exists_or]
    apply exists_congr
    intro r
    rw [← and_or_left, ← and_or_left]
    apply and_congr_right
    intro mem
    apply and_congr_right
    intro _
    cases r.meaning.resource <;> simp [ResourceSelector.Covers, HostIds.getPermissions]

end

/-- The scheduler considers a host authorized exactly when the daemon does, if and only if
the VM belongs to oneadmin or to its group, or the owner may MANAGE all hosts or this one, or
neither evaluator takes a rule that the other one leaves: none for the cluster or for the group
of the host, and none with the sign bit in its rights, or both. -/
theorem match_agrees_iff (m : AclManager) (uid gid : Oid) (host : HostIds) :
    ((AclXML.loadRules m.dump).matchAuthorized uid gid host = true ↔
        m.addAuth uid gid host.getPermissions .manage = true) ↔
      uid = oneadminId ∨ gid = oneadminId ∨
        m.ManagesThrough uid gid [.all, .individual host.oid] ∨
        (m.ManagesThrough uid gid [.cluster host.clusterId, .group oneadminId.val] ↔
          m.SignedThrough uid gid [.all, .individual host.oid]) := by
  rw [match_authorized_iff, add_auth_iff]
  tauto

/-- User 5 may manage the hosts of cluster 7, and the scheduler still filters them out. -/
theorem match_misses_cluster :
    ¬ ∀ (m : AclManager) (uid gid : Oid) (host : HostIds),
      (AclXML.loadRules m.dump).matchAuthorized uid gid host = true ↔
        m.addAuth uid gid host.getPermissions .manage = true := by
  let rule : AclRule := ⟨1, 0x100000005#64, 0x2800000007#64, 0x2#64⟩
  let m : AclManager := ⟨[rule], by decide⟩
  intro agrees
  have granted : m.addAuth ⟨5, rfl⟩ ⟨1, rfl⟩ (HostIds.getPermissions ⟨⟨3, rfl⟩, 7⟩) .manage =
      true := by
    decide
  have refused : (AclXML.loadRules m.dump).matchAuthorized ⟨5, rfl⟩ ⟨1, rfl⟩ ⟨⟨3, rfl⟩, 7⟩ =
      false := by
    decide
  rw [← agrees m ⟨5, rfl⟩ ⟨1, rfl⟩ ⟨⟨3, rfl⟩, 7⟩, refused] at granted
  exact Bool.false_ne_true granted

end Ezilla
