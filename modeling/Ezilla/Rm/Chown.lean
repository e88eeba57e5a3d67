import Ezilla.Um.UsageLedger

/-!
# Changing the owner of a VM or an image

`RequestManagerChown` reads the object under its lock, charges the new user and
group, takes the charge from the old ones, and locks the object again to set its
owner. Each user and group has its own lock. Deleting an object takes its charge
from the owner of the moment, one lock after the other.

* `OwnedObject`, `OwnerTask`: the objects, and the requests in progress;
* `OwnershipSystem.next`: the sections of the requests, one lock each.

A request remembers how its object was charged when it began; nothing in the code
reads that.
-/

namespace Ezilla

open Transition

/-- The owner of an object. A VM in `DONE` and an image that a request has deleted are not
live. -/
structure OwnedObject where
  uid : Int
  gid : Int
  live : Bool
  deriving DecidableEq, Repr

/-- The ids that `get_and_quota` works with: the old ones are -1 where the new ones are. -/
structure ChownIds where
  newUid : Int
  newGid : Int
  oldUid : Int
  oldGid : Int
  deriving DecidableEq, Repr

namespace ChownIds

def of (newUid newGid : Int) (obj : OwnedObject) : ChownIds :=
  ⟨newUid, newGid, if newUid = -1 then -1 else obj.uid, if newGid = -1 then -1 else obj.gid⟩

/-- The users and groups of `att_new` and of `att_old`. -/
def new (ids : ChownIds) : List Principal := quotaPrincipals ids.newUid ids.newGid

def old (ids : ChownIds) : List Principal := quotaPrincipals ids.oldUid ids.oldGid

/-- `set_user` and `set_group`. -/
def setOwner (ids : ChownIds) (obj : OwnedObject) : OwnedObject :=
  { obj with
    uid := if ids.newUid = -1 then obj.uid else ids.newUid
    gid := if ids.newGid = -1 then obj.gid else ids.newGid }

end ChownIds

/-- How far a chown has come, with the users and groups that are left. -/
inductive ChownPhase where
  /-- the new ones are charged, or the old ones `again`; `done` are those charged so far -/
  | charging (again : Bool) (todo done : List Principal)
  /-- one has refused the charge -/
  | undoing (todo : List Principal)
  /-- the old ones are given their charge back -/
  | releasing (todo : List Principal)
  /-- the object is locked again -/
  | settling
  /-- the object is gone, the new ones are given their charge back -/
  | returning (todo : List Principal)
  deriving DecidableEq

/-- A request in progress. -/
inductive OwnerTask where
  | chown (x : OwnedRef) (ids : ChownIds) (phase : ChownPhase) (before : Principal → Int)
  | delete (x : OwnedRef) (todo : List Principal)

def OwnerTask.object : OwnerTask → OwnedRef
  | .chown x _ _ _ => x
  | .delete x _ => x

/-- The pools, and the requests in progress. -/
structure OwnershipSystem where
  objects : OwnedRef → Option OwnedObject
  ledger : Ledger
  tasks : Nat → Option OwnerTask

/-- The sections of the requests, by the thread. `allowed` is the outcome of what comes
before the object is read; the default quotas are those at the time of the section. -/
inductive OwnerStep where
  | chown (thread : Nat) (x : OwnedRef) (newUid newGid : Int) (allowed : Bool)
  | delete (thread : Nat) (x : OwnedRef) (allowed : Bool)
  | work (thread : Nat) (defaultQuotas : Quotas)
  | drop (oid : Nat)

def OwnerStep.thread? : OwnerStep → Option Nat
  | .chown thread _ _ _ _ => some thread
  | .delete thread _ _ => some thread
  | .work thread _ => some thread
  | .drop _ => none

namespace OwnershipSystem

def setTask (s : OwnershipSystem) (thread : Nat) (task : Option OwnerTask) : OwnershipSystem :=
  { s with tasks := Function.update s.tasks thread task }

def setObject (s : OwnershipSystem) (x : OwnedRef) (obj : Option OwnedObject) : OwnershipSystem :=
  { s with objects := Function.update s.objects x obj }

/-- The first section of `get_and_quota`. -/
def chown (s : OwnershipSystem) (thread : Nat) (x : OwnedRef) (newUid newGid : Int)
    (allowed : Bool) : Option (Answer × OwnershipSystem) :=
  if (s.tasks thread).isSome then none
  else
    match allowed, s.objects x with
    | true, some obj =>
      let ids := ChownIds.of newUid newGid obj
      some (.pending, s.setTask thread
        (some (.chown x ids (.charging false ids.new []) (s.ledger.charged x))))
    | _, _ => some (.failure, s)

/-- `finalize_cleanup`, `done_action` and `delete_image`: a VM that is `DONE` is left
alone, an image is not. -/
def delete (s : OwnershipSystem) (thread : Nat) (x : OwnedRef) (allowed : Bool) :
    Option (Answer × OwnershipSystem) :=
  if (s.tasks thread).isSome then none
  else
    match allowed, s.objects x with
    | true, some obj =>
      match x, obj.live with
      | .vm _, false => some (.success, s)
      | _, _ =>
        some (.pending, (s.setObject x (some { obj with live := false })).setTask thread
          (some (.delete x (delPrincipals obj.uid obj.gid))))
    | _, _ => some (.failure, s)

/-- The sections of a chown after the first: `quota_authorization`, `quota_rollback`, and
the owner that is set in `request_execute`. -/
def workChown (u : OwnedUsage) (s : OwnershipSystem) (thread : Nat) (ds : Quotas) (x : OwnedRef)
    (ids : ChownIds) (before : Principal → Int) : ChownPhase → Answer × OwnershipSystem :=
  let goOn (phase : ChownPhase) (ledger : Ledger) : Answer × OwnershipSystem :=
    (.pending, { s with ledger }.setTask thread (some (.chown x ids phase before)))
  let rollback := s.ledger.quotaRollback u x
  fun
  | .charging again (p :: todo) done =>
    match s.ledger.quotaAuthorization u x p ds with
    | (true, ledger) => goOn (.charging again todo (p :: done)) ledger
    | (false, ledger) => goOn (.undoing done) ledger
  | .charging false [] _ => goOn (.releasing ids.old) s.ledger
  | .charging true [] _ => (.failure, s.setTask thread none)
  | .undoing (p :: todo) => goOn (.undoing todo) (rollback p)
  | .undoing [] => (.failure, s.setTask thread none)
  | .releasing (p :: todo) => goOn (.releasing todo) (rollback p)
  | .releasing [] => goOn .settling s.ledger
  | .settling =>
    match s.objects x with
    | none => goOn (.returning ids.new) s.ledger
    | some obj => (.success, (s.setObject x (some (ids.setOwner obj))).setTask thread none)
  | .returning (p :: todo) => goOn (.returning todo) (rollback p)
  | .returning [] => goOn (.charging true ids.old []) s.ledger

/-- One more section of a request in progress. -/
def work (u : OwnedUsage) (s : OwnershipSystem) (thread : Nat) (ds : Quotas) :
    Option (Answer × OwnershipSystem) :=
  match s.tasks thread with
  | some (.chown x ids phase before) => some (s.workChown u thread ds x ids before phase)
  | some (.delete x (p :: todo)) =>
    some (.pending, { s with ledger := s.ledger.quotaRollback u x p }.setTask thread
      (some (.delete x todo)))
  | some (.delete _ []) => some (.success, s.setTask thread none)
  | none => none

/-- An image that is deleted is dropped from the pool, at once or when the driver answers, or
stays where the database does not drop it. -/
def drop (s : OwnershipSystem) (oid : Nat) : Option (Answer × OwnershipSystem) :=
  match s.objects (.image oid) with
  | some ⟨_, _, false⟩ => some (.success, s.setObject (.image oid) none)
  | _ => none

def next (u : OwnedUsage) (s : OwnershipSystem) : OwnerStep → Option (Answer × OwnershipSystem)
  | .chown thread x newUid newGid allowed => s.chown thread x newUid newGid allowed
  | .delete thread x allowed => s.delete thread x allowed
  | .work thread ds => s.work u thread ds
  | .drop oid => s.drop oid

def Step (u : OwnedUsage) (s : OwnershipSystem) (l : OwnerStep) (s' : OwnershipSystem) : Prop :=
  ∃ answer, s.next u l = some (answer, s')

end OwnershipSystem

end Ezilla
