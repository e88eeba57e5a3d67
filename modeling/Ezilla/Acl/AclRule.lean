import Mathlib.Data.BitVec

/-!
# Access control rules

A rule is three 64-bit words: who it is for (`user`), what it is about (`resource`) and
which operations it allows (`rights`). The first two keep selector bits, and the
resource also its type bits, in the upper half and an id in the lower half.

* `AclRule.malformed`: the checks a rule has to pass before it is stored;
* `PoolObjectAuth.getAclRules`: the rules made of an object's own permissions.
-/

namespace Ezilla

/-- `PoolObjectSQL::ObjectType`. -/
inductive ObjectType where
  | vm
  | host
  | net
  | image
  | user
  | template
  | group
  | acl
  | datastore
  | cluster
  | document
  deriving DecidableEq, Repr

/-- The bit of a type in a resource word. -/
def ObjectType.code : ObjectType → BitVec 64
  | .vm => 0x0000001000000000#64
  | .host => 0x0000002000000000#64
  | .net => 0x0000004000000000#64
  | .image => 0x0000008000000000#64
  | .user => 0x0000010000000000#64
  | .template => 0x0000020000000000#64
  | .group => 0x0000040000000000#64
  | .acl => 0x0000080000000000#64
  | .datastore => 0x0000100000000000#64
  | .cluster => 0x0000200000000000#64
  | .document => 0x0000400000000000#64

/-- `AuthRequest::Operation`. -/
inductive Operation where
  | use
  | manage
  | admin
  | create
  deriving DecidableEq, Repr

/-- The bit of an operation in a rights word. -/
def Operation.code : Operation → BitVec 64
  | .use => 0x1#64
  | .manage => 0x2#64
  | .admin => 0x4#64
  | .create => 0x8#64

/-- `AclRule`, without its text for the log. -/
structure AclRule where
  oid : Int
  user : BitVec 64
  resource : BitVec 64
  rights : BitVec 64
  deriving DecidableEq, Repr

namespace AclRule

def individualId : BitVec 64 := 0x0000000100000000#64
def groupId : BitVec 64 := 0x0000000200000000#64
def allId : BitVec 64 := 0x0000000400000000#64
def clusterId : BitVec 64 := 0x0000000800000000#64

/-- A word that is in no rule, for masks that must never match. -/
def noneId : BitVec 64 := 0x1000000000000000#64

/-- The types the cluster selector cannot be used with. -/
def invalidClusterObjects : BitVec 64 :=
  ObjectType.vm.code ||| ObjectType.image.code ||| ObjectType.user.code |||
    ObjectType.template.code ||| ObjectType.group.code ||| ObjectType.acl.code |||
    ObjectType.cluster.code ||| ObjectType.document.code

/-- `AclRule::user_id`: the lower half of the user word, a signed int. -/
def userId (r : AclRule) : BitVec 32 := r.user.setWidth 32

/-- `AclRule::resource_id`. -/
def resourceId (r : AclRule) : BitVec 32 := r.resource.setWidth 32

/-- `AclRule::resource_code`: the resource word without its id. -/
def resourceCode (r : AclRule) : BitVec 64 := r.resource &&& 0xFFFFFFFF00000000#64

/-- A selector bit comes with no other one in a resource word. -/
def exclusive (r : AclRule) (selector : BitVec 64) : Bool :=
  r.resource &&& selector ≠ 0 && r.resource &&& 0xF00000000#64 ≠ selector

/-- The checks of `AclRule::malformed`, each with the text it reports when it fails. -/
def checks (r : AclRule) : List (Bool × String) :=
  [(r.user &&& individualId ≠ 0 && r.user &&& groupId ≠ 0,
      "[user] INDIVIDUAL (#) and GROUP (@) bits are exclusive"),
   (r.user &&& individualId ≠ 0 && r.user &&& allId ≠ 0,
      "[user] INDIVIDUAL (#) and ALL (*) bits are exclusive"),
   (r.user &&& groupId ≠ 0 && r.user &&& allId ≠ 0,
      "[user] GROUP (@) and ALL (*) bits are exclusive"),
   (r.user &&& 0x700000000#64 = 0,
      "[user] is missing one of the INDIVIDUAL, GROUP or ALL bits"),
   (r.userId.msb, "[user] ID cannot be negative"),
   (r.user &&& allId ≠ 0 && r.userId ≠ 0, "when using the ALL bit, [user] ID must be 0"),
   (r.exclusive individualId || r.exclusive groupId || r.exclusive clusterId ||
        r.exclusive allId,
      "[resource] INDIVIDUAL (#), GROUP (@), CLUSTER (%) and ALL (*) bits are exclusive"),
   (r.resource &&& clusterId ≠ 0 &&
        r.resourceCode &&& 0xFFFFFFF000000000#64 &&& invalidClusterObjects ≠ 0,
      "[resource] CLUSTER(%) selector can be applied only to DATASTORE, HOST and NET types"),
   (r.resource &&& 0xF00000000#64 = 0,
      "[resource] is missing one of the INDIVIDUAL, GROUP, CLUSTER or ALL bits"),
   (r.resourceId.msb, "[resource] ID cannot be negative"),
   (r.resource &&& allId ≠ 0 && r.resourceId ≠ 0,
      "when using the ALL bit, [resource] ID must be 0"),
   (r.resource &&& 0xFFF000000000#64 = 0, "[resource] type is missing"),
   (r.resource &&& 0xFFFF000000000000#64 ≠ 0, "wrong [resource] type"),
   (r.rights = 0, "wrong [rights], it cannot be 0"),
   (BitVec.slt 0xF#64 r.rights, "wrong [rights], it cannot be bigger than 0xF")]

/-- `AclRule::malformed`. -/
def malformed (r : AclRule) : Bool := r.checks.any Prod.fst

/-- The error text `malformed` leaves for a malformed rule. -/
def errorStr (r : AclRule) : String :=
  String.intercalate "; " ((r.checks.filter Prod.fst).map Prod.snd)

end AclRule

/-- `PoolObjectAuth`: the permissions of an object. Ids that an object does not have
are -1; a permission bit is set when it equals 1. -/
structure PoolObjectAuth where
  objType : ObjectType
  oid : BitVec 32 := -1
  uid : BitVec 32 := -1
  gid : BitVec 32 := -1
  cid : BitVec 32 := -1
  ownerU : Bool := true
  ownerM : Bool := true
  ownerA : Bool := false
  groupU : Bool := false
  groupM : Bool := false
  groupA : Bool := false
  otherU : Bool := false
  otherM : Bool := false
  otherA : Bool := false

namespace PoolObjectAuth

/-- The rights word of three permission bits. -/
def permRights (u m a : Bool) : BitVec 64 :=
  (if u then Operation.use.code else 0) ||| (if m then Operation.manage.code else 0) |||
    (if a then Operation.admin.code else 0)

/-- `PoolObjectAuth::get_acl_rules`: the owner, group and other rules of the object. -/
def getAclRules (obj : PoolObjectAuth) : List AclRule :=
  let permResource := obj.objType.code ||| AclRule.individualId ||| obj.oid.signExtend 64
  [⟨0, AclRule.individualId ||| obj.uid.signExtend 64, permResource,
      permRights obj.ownerU obj.ownerM obj.ownerA⟩,
   ⟨0, AclRule.groupId ||| obj.gid.signExtend 64, permResource,
      permRights obj.groupU obj.groupM obj.groupA⟩,
   ⟨0, AclRule.allId, permResource, permRights obj.otherU obj.otherM obj.otherA⟩]

end PoolObjectAuth

end Ezilla
