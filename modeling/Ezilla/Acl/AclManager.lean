import Ezilla.Acl.AclRule

/-!
# The access control evaluator

`AclManager::authorize` looks up the rules whose user word is exactly the one of the
caller, of the caller's group, or of everyone, and compares the packed resource and
rights words of each of them with those of the request.
-/

namespace Ezilla

/-- An id of a user or group that exists: an int that is not negative. -/
abbrev Oid := { n : BitVec 32 // n.msb = false }

/-- The words and masks a request is compared with. -/
structure AclRequest where
  resourceOidReq : BitVec 64
  resourceGidReq : BitVec 64
  resourceCidReq : BitVec 64
  resourceAllReq : BitVec 64
  rightsReq : BitVec 64
  resourceOidMask : BitVec 64
  resourceGidMask : BitVec 64
  resourceCidMask : BitVec 64

namespace AclRequest

/-- The resource word of one selector of the object, or the word that never matches where
the object has no such id. -/
def resourceReq (obj : PoolObjectAuth) (selector : BitVec 64) (id : BitVec 32) : BitVec 64 :=
  if id.msb then AclRule.noneId else obj.objType.code ||| selector ||| id.signExtend 64

/-- The mask of one selector: the type, the selector and the whole id. -/
def resourceMask (obj : PoolObjectAuth) (selector : BitVec 64) : BitVec 64 :=
  obj.objType.code ||| selector ||| 0x00000000FFFFFFFF#64

/-- The masks `AclManager::authorize` builds for a request. -/
def of (obj : PoolObjectAuth) (op : Operation) : AclRequest where
  resourceOidReq := resourceReq obj AclRule.individualId obj.oid
  resourceGidReq := resourceReq obj AclRule.groupId obj.gid
  resourceCidReq := resourceReq obj AclRule.clusterId obj.cid
  resourceAllReq := obj.objType.code ||| AclRule.allId
  rightsReq := op.code
  resourceOidMask := resourceMask obj AclRule.individualId
  resourceGidMask := resourceMask obj AclRule.groupId
  resourceCidMask := resourceMask obj AclRule.clusterId

/-- The test `AclManager::match_rules` makes for one rule. -/
def matchRule (req : AclRequest) (r : AclRule) : Bool :=
  r.rights &&& req.rightsReq = req.rightsReq &&
    (r.resource &&& req.resourceAllReq = req.resourceAllReq ||
      r.resource &&& req.resourceGidMask = req.resourceGidReq ||
      r.resource &&& req.resourceOidMask = req.resourceOidReq ||
      r.resource &&& req.resourceCidMask = req.resourceCidReq)

end AclRequest

/-- The stored rules in the order they were inserted in. Only rules that are not malformed
are ever stored (`AclManager::add_rule`). -/
structure AclManager where
  aclRules : List AclRule
  wellFormed : ∀ r ∈ aclRules, r.malformed = false

namespace AclManager

theorem wellFormed_nil : ∀ r ∈ ([] : List AclRule), r.malformed = false := nofun

/-- The errors of `AclManager::add_rule`, with its return code. -/
inductive AddError where
  /-- -1, Rule r already exists -/
  | duplicated (r : AclRule)
  /-- -2, Rule r is malformed: error -/
  | malformed (r : AclRule) (error : String)
  deriving DecidableEq

/-- `AclManager::add_rule`, for an oid the manager chose and a database that stores it. -/
def addRule (m : AclManager) (r : AclRule) : Except AddError AclManager :=
  if m.aclRules.any fun s => s.user = r.user ∧ s.resource = r.resource ∧ s.rights = r.rights then
    .error (.duplicated r)
  else if h : r.malformed = true then
    .error (.malformed r r.errorStr)
  else
    .ok
      { aclRules := m.aclRules ++ [r]
        wellFormed := by
          intro s mem
          rcases List.mem_append.mp mem with old | new
          · exact m.wellFormed s old
          · rw [List.mem_singleton.mp new]
            exact Bool.eq_false_iff.mpr h }

/-- `AclManager::match_rules`: some rule under that user word passes the test. -/
def matchRules (userReq : BitVec 64) (req : AclRequest) (rules : List AclRule) : Bool :=
  (rules.filter fun r => r.user = userReq).any req.matchRule

/-- `AclManager::match_rules_wrapper`: the object's own rules, then the stored ones. -/
def matchRulesWrapper (m : AclManager) (userReq : BitVec 64) (req : AclRequest)
    (tmpRules : List AclRule) : Bool :=
  matchRules userReq req tmpRules || matchRules userReq req m.aclRules

/-- `AclManager::authorize`. -/
def authorize (m : AclManager) (uid gid : Oid) (obj : PoolObjectAuth) (op : Operation) : Bool :=
  let req := AclRequest.of obj op
  let tmpRules := obj.getAclRules
  m.matchRulesWrapper AclRule.allId req tmpRules ||
    m.matchRulesWrapper (AclRule.individualId ||| uid.val.signExtend 64) req tmpRules ||
    m.matchRulesWrapper (AclRule.groupId ||| gid.val.signExtend 64) req tmpRules

end AclManager

/-- `UserPool::ONEADMIN_ID` and `GroupPool::ONEADMIN_ID`. -/
def oneadminId : Oid := ⟨0, rfl⟩

/-- The answer `AuthRequest::add_auth` stores. -/
def AclManager.addAuth (aclm : AclManager) (uid gid : Oid) (obPerms : PoolObjectAuth)
    (op : Operation) : Bool :=
  if uid = oneadminId ∨ gid = oneadminId then true else aclm.authorize uid gid obPerms op

end Ezilla
