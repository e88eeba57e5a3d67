import Ezilla.Lib.Transition
import Mathlib.Data.Finset.Basic
import Mathlib.Data.Finset.Insert
import Mathlib.Data.Finset.Erase

/-!
# Clusters and the requests about their members

A host, a datastore or a network keeps the id of its cluster, and the cluster
keeps the ids of its objects. The two sides are updated under different locks:
a request locks the object, then the clusters, one at a time.

* `Cluster.addObject`, `Cluster.delObject`, `Cluster.checkDrop`: one cluster;
* `ClusterSystem`: the pools, with the requests that are in progress;
* `ClusterSystem.next`: the sections of the requests, one lock each.

A request that has changed something remembers what its object looked like
before (`MemberView`); nothing in the code reads that.
-/

namespace Ezilla

open Transition

/-- The objects that can be in a cluster. -/
inductive ClusterableType where
  | host
  | datastore
  | vnet
  deriving DecidableEq, Repr

/-- An object by its type and its id. -/
abbrev ObjectId := ClusterableType × Nat

/-- The cluster of an object, `none` for `NONE_CLUSTER_ID`, and whether the type of a
datastore is `SYSTEM_DS`. -/
structure Clusterable where
  clusterId : Option Nat
  isSystem : Bool
  deriving DecidableEq, Repr

/-- `get_ds_type` is `SYSTEM_DS`: `FILE_DS` stands for the objects of other types. -/
def Clusterable.isSystemDs (obj : Clusterable) (o : ObjectId) : Bool :=
  o.1 = .datastore && obj.isSystem

/-- `DatastorePool::SYSTEM_DS_ID`, which also stands for no datastore in a cluster. -/
def systemDsId : Nat := 0

/-- The three collections of a cluster as one set, and its system datastore. -/
structure Cluster where
  members : Finset ObjectId
  systemDs : Nat
  deriving DecidableEq

namespace Cluster

/-- `add_host`, `add_vnet` and `add_datastore`. -/
def addObject (cl : Cluster) (o : ObjectId) (isSystem : Bool) : Option Cluster :=
  if o = (.datastore, systemDsId) then none
  else if isSystem = true ∧ cl.systemDs ≠ systemDsId then none
  else if o ∈ cl.members then none
  else some ⟨insert o cl.members, if isSystem = true then o.2 else cl.systemDs⟩

/-- `del_host`, `del_vnet` and `del_datastore`. -/
def delObject (cl : Cluster) (o : ObjectId) : Option Cluster :=
  if o ∈ cl.members then
    some ⟨cl.members.erase o, if o = (.datastore, cl.systemDs) then systemDsId else cl.systemDs⟩
  else none

/-- `Cluster::check_drop`. -/
def checkDrop (cl : Cluster) : Bool := cl.members = ∅

end Cluster

/-- An object with the clusters that list it, and those that have it as their system
datastore. -/
structure MemberView where
  object : Option Clusterable
  memberOf : Nat → Bool
  systemOf : Nat → Bool

/-- How far a request has come that has changed its object. -/
inductive Phase where
  /-- `add_generic` has set the cluster, the old one is kept -/
  | set (cluster : Nat) (isSystem : Bool) (old : Option Nat)
  /-- the cluster is gone or refuses the object -/
  | back (old : Option Nat)
  /-- the object is in its new cluster and is still in the old one -/
  | entered (old : Nat)
  /-- the pool has allocated the object -/
  | created (cluster : Nat)
  /-- the type of the datastore is read -/
  | typed (cluster : Nat) (isSystem : Bool)
  /-- the cluster refuses the new object -/
  | undo
  /-- the pool has dropped the object -/
  | dropped (cluster : Nat)
  deriving DecidableEq

/-- A request in progress. -/
inductive ClusterTask where
  | adding (o : ObjectId) (cluster : Option Nat)
  | allocating (type : ClusterableType) (isSystem : Bool) (cluster : Option Nat)
  | working (o : ObjectId) (phase : Phase) (before : MemberView)

/-- The pools, and the requests in progress. -/
structure ClusterSystem where
  objects : ObjectId → Option Clusterable
  clusters : Nat → Option Cluster
  lastOid : ClusterableType → Nat
  tasks : Nat → Option ClusterTask

/-- The sections of the requests, by the thread where a request has several. `answer` is
what a pool answers for reasons that are not modelled. -/
inductive ClusterStep where
  | allocateCluster (cluster : Nat)
  | deleteCluster (cluster : Nat) (answer : Bool)
  | add (thread : Nat) (o : ObjectId) (cluster : Option Nat)
  | setCluster (thread : Nat)
  | enter (thread : Nat)
  | rollback (thread : Nat)
  | exit (thread : Nat)
  | allocate (thread : Nat) (type : ClusterableType) (isSystem : Bool) (cluster : Option Nat)
  | create (thread : Nat) (answer : Bool)
  | readType (thread : Nat)
  | join (thread : Nat)
  | undo (thread : Nat) (answer : Bool)
  | delete (thread : Nat) (o : ObjectId) (answer : Bool)
  | leave (thread : Nat)

/-- The thread of a section, where the request is more than one. -/
def ClusterStep.thread? : ClusterStep → Option Nat
  | .allocateCluster _ => none
  | .deleteCluster _ _ => none
  | .add thread _ _ => some thread
  | .setCluster thread => some thread
  | .enter thread => some thread
  | .rollback thread => some thread
  | .exit thread => some thread
  | .allocate thread _ _ _ => some thread
  | .create thread _ => some thread
  | .readType thread => some thread
  | .join thread => some thread
  | .undo thread _ => some thread
  | .delete thread _ _ => some thread
  | .leave thread => some thread

namespace ClusterSystem

def memberOf (s : ClusterSystem) (o : ObjectId) (c : Nat) : Bool :=
  (s.clusters c).any fun cl => o ∈ cl.members

def systemOf (s : ClusterSystem) (o : ObjectId) (c : Nat) : Bool :=
  (s.clusters c).any fun cl => cl.systemDs ≠ systemDsId && o = (.datastore, cl.systemDs)

def view (s : ClusterSystem) (o : ObjectId) : MemberView :=
  ⟨s.objects o, s.memberOf o, s.systemOf o⟩

def setObject (s : ClusterSystem) (o : ObjectId) (obj : Option Clusterable) : ClusterSystem :=
  { s with objects := Function.update s.objects o obj }

def putCluster (s : ClusterSystem) (c : Nat) (cl : Option Cluster) : ClusterSystem :=
  { s with clusters := Function.update s.clusters c cl }

def setTask (s : ClusterSystem) (thread : Nat) (task : Option ClusterTask) : ClusterSystem :=
  { s with tasks := Function.update s.tasks thread task }

/-- The request is answered. -/
def finish (s : ClusterSystem) (thread : Nat) : ClusterSystem := s.setTask thread none

/-! ## `RequestManagerCluster::add_generic` -/

/-- The cluster and the object are looked up; `none` removes the object from its cluster. -/
def add (s : ClusterSystem) (thread : Nat) (o : ObjectId) (cluster : Option Nat) :
    Option (Answer × ClusterSystem) :=
  if (s.tasks thread).isSome then none
  else if (cluster.all fun c => (s.clusters c).isSome) && (s.objects o).isSome then
    some (.pending, s.setTask thread (some (.adding o cluster)))
  else some (.failure, s)

/-- The object gets its new cluster. -/
def setCluster (s : ClusterSystem) (thread : Nat) : Option (Answer × ClusterSystem) :=
  match s.tasks thread with
  | some (.adding o cluster) =>
    match s.objects o with
    | none => some (.failure, s.finish thread)
    | some obj =>
      if obj.clusterId = cluster then some (.success, s.finish thread)
      else
        let s' := s.setObject o (some { obj with clusterId := cluster })
        match cluster, obj.clusterId with
        | some c, old =>
          some (.pending,
            s'.setTask thread (some (.working o (.set c (obj.isSystemDs o) old) (s.view o))))
        | none, some old =>
          some (.pending, s'.setTask thread (some (.working o (.entered old) (s.view o))))
        | none, none => some (.success, s'.finish thread)
  | _ => none

/-- The object is added to the new cluster. -/
def enter (s : ClusterSystem) (thread : Nat) : Option (Answer × ClusterSystem) :=
  match s.tasks thread with
  | some (.working o (.set c isSystem old) before) =>
    match (s.clusters c).bind fun cl => cl.addObject o isSystem with
    | none => some (.pending, s.setTask thread (some (.working o (.back old) before)))
    | some cl =>
      match old with
      | none => some (.success, (s.putCluster c (some cl)).finish thread)
      | some old =>
        some (.pending,
          (s.putCluster c (some cl)).setTask thread (some (.working o (.entered old) before)))
  | _ => none

/-- The object gets its old cluster back. -/
def rollback (s : ClusterSystem) (thread : Nat) : Option (Answer × ClusterSystem) :=
  match s.tasks thread with
  | some (.working o (.back old) _) =>
    match s.objects o with
    | none => some (.failure, s.finish thread)
    | some obj => some (.failure, (s.setObject o (some { obj with clusterId := old })).finish thread)
  | _ => none

/-- The object is removed from the old cluster. -/
def exit (s : ClusterSystem) (thread : Nat) : Option (Answer × ClusterSystem) :=
  match s.tasks thread with
  | some (.working o (.entered old) _) =>
    match s.clusters old with
    | none => some (.success, s.finish thread)
    | some cl =>
      match cl.delObject o with
      | none => some (.failure, s.finish thread)
      | some cl' => some (.success, (s.putCluster old (some cl')).finish thread)
  | _ => none

/-! ## `RequestManagerAllocate::request_execute` -/

/-- The cluster is looked up. -/
def allocate (s : ClusterSystem) (thread : Nat) (type : ClusterableType) (isSystem : Bool)
    (cluster : Option Nat) : Option (Answer × ClusterSystem) :=
  if (s.tasks thread).isSome then none
  else if cluster.all fun c => (s.clusters c).isSome then
    some (.pending, s.setTask thread (some (.allocating type isSystem cluster)))
  else some (.failure, s)

/-- `pool_allocate`. -/
def create (s : ClusterSystem) (thread : Nat) (answer : Bool) : Option (Answer × ClusterSystem) :=
  match s.tasks thread with
  | some (.allocating type isSystem cluster) =>
    if answer then
      let o := (type, s.lastOid type + 1)
      let s' := { s.setObject o (some ⟨cluster, isSystem⟩) with
        lastOid := Function.update s.lastOid type (s.lastOid type + 1) }
      match cluster with
      | none => some (.success, s'.finish thread)
      | some c => some (.pending, s'.setTask thread (some (.working o (.created c) (s.view o))))
    else some (.failure, s.finish thread)
  | _ => none

/-- `get_ds_type` of the new object. -/
def readType (s : ClusterSystem) (thread : Nat) : Option (Answer × ClusterSystem) :=
  match s.tasks thread with
  | some (.working o (.created c) before) =>
    let isSystem := (s.objects o).any fun obj => obj.isSystemDs o
    some (.pending, s.setTask thread (some (.working o (.typed c isSystem) before)))
  | _ => none

/-- `add_to_cluster`. -/
def join (s : ClusterSystem) (thread : Nat) : Option (Answer × ClusterSystem) :=
  match s.tasks thread with
  | some (.working o (.typed c isSystem) before) =>
    match s.clusters c with
    | none => some (.failure, s.finish thread)
    | some cl =>
      match cl.addObject o isSystem with
      | none => some (.pending, s.setTask thread (some (.working o .undo before)))
      | some cl' => some (.success, (s.putCluster c (some cl')).finish thread)
  | _ => none

/-- The new object is dropped again. The answer of `pool->drop` is not looked at. -/
def undo (s : ClusterSystem) (thread : Nat) (answer : Bool) : Option (Answer × ClusterSystem) :=
  match s.tasks thread with
  | some (.working o .undo _) =>
    some (.failure, (if answer then s.setObject o none else s).finish thread)
  | _ => none

/-! ## `RequestManagerDelete::drop` -/

/-- The pool drops the object. -/
def delete (s : ClusterSystem) (thread : Nat) (o : ObjectId) (answer : Bool) :
    Option (Answer × ClusterSystem) :=
  if (s.tasks thread).isSome then none
  else
    match s.objects o with
    | none => some (.failure, s)
    | some obj =>
      if answer then
        match obj.clusterId with
        | none => some (.success, s.setObject o none)
        | some c =>
          some (.pending,
            (s.setObject o none).setTask thread (some (.working o (.dropped c) (s.view o))))
      else some (.failure, s)

/-- `del_from_cluster`. -/
def leave (s : ClusterSystem) (thread : Nat) : Option (Answer × ClusterSystem) :=
  match s.tasks thread with
  | some (.working o (.dropped c) _) =>
    match s.clusters c with
    | none => some (.success, s.finish thread)
    | some cl =>
      match cl.delObject o with
      | none => some (.failure, s.finish thread)
      | some cl' => some (.success, (s.putCluster c (some cl')).finish thread)
  | _ => none

/-- `ClusterPool::drop`. -/
def deleteCluster (s : ClusterSystem) (c : Nat) (answer : Bool) :
    Option (Answer × ClusterSystem) :=
  match s.clusters c with
  | none => some (.failure, s)
  | some cl =>
    if answer && cl.checkDrop then some (.success, s.putCluster c none) else some (.failure, s)

def next (s : ClusterSystem) : ClusterStep → Option (Answer × ClusterSystem)
  | .allocateCluster c =>
    if (s.clusters c).isSome then none else some (.success, s.putCluster c (some ⟨∅, systemDsId⟩))
  | .deleteCluster c answer => s.deleteCluster c answer
  | .add thread o cluster => s.add thread o cluster
  | .setCluster thread => s.setCluster thread
  | .enter thread => s.enter thread
  | .rollback thread => s.rollback thread
  | .exit thread => s.exit thread
  | .allocate thread type isSystem cluster => s.allocate thread type isSystem cluster
  | .create thread answer => s.create thread answer
  | .readType thread => s.readType thread
  | .join thread => s.join thread
  | .undo thread answer => s.undo thread answer
  | .delete thread o answer => s.delete thread o answer
  | .leave thread => s.leave thread

def Step (s : ClusterSystem) (l : ClusterStep) (s' : ClusterSystem) : Prop :=
  ∃ answer, s.next l = some (answer, s')

end ClusterSystem

end Ezilla
