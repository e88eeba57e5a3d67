import Ezilla.Cluster.Cluster

/-!
# Both sides of the cluster membership

What the requests about clusters promise, and the invariant of their runs.

* `ClusterSystem.TwoSided`: an object has a cluster if and only if that cluster
  lists the object;
* `ClusterSystem.Recorded`: the system datastore of a cluster is recorded, and it
  is the only one;
* `ClusterSystem.Law`: a request that fails has changed nothing;
* `Phase.Fits`: how an object and its clusters stand while a request works on it;
* `ClusterSystem.Inv.step`: a thread that works on one object keeps the invariant.
-/

namespace Ezilla

open Transition

namespace MemberView

/-- The cluster that the object has is the one that lists it. -/
def Balanced (v : MemberView) : Prop :=
  ∀ c, v.object.bind Clusterable.clusterId = some c ↔ v.memberOf c = true

/-- The clusters have the object as before. -/
def SameClusters (v before : MemberView) : Prop :=
  before.memberOf = v.memberOf ∧ before.systemOf = v.systemOf

end MemberView

/-- How an object and the clusters stand in a phase of a request about the object. -/
def Phase.Fits (o : ObjectId) (v before : MemberView) : Phase → Prop
  | .set c isSystem old => ∃ obj, v.object = some obj ∧ obj.clusterId = some c ∧
      obj.isSystemDs o = isSystem ∧ before.object = some { obj with clusterId := old } ∧
      old ≠ some c ∧ (∀ c', v.memberOf c' = true ↔ old = some c') ∧ v.SameClusters before
  | .back old => ∃ obj, v.object = some obj ∧ before.object = some { obj with clusterId := old } ∧
      (∀ c', v.memberOf c' = true ↔ old = some c') ∧ v.SameClusters before
  | .entered old => ∃ obj, v.object = some obj ∧ obj.clusterId ≠ some old ∧
      ∀ c', v.memberOf c' = true ↔ obj.clusterId = some c' ∨ c' = old
  | .created c => ∃ obj, v.object = some obj ∧ obj.clusterId = some c ∧ before.object = none ∧
      (∀ c', v.memberOf c' = false) ∧ v.SameClusters before
  | .typed c isSystem => ∃ obj, v.object = some obj ∧ obj.clusterId = some c ∧
      obj.isSystemDs o = isSystem ∧ before.object = none ∧
      (∀ c', v.memberOf c' = false) ∧ v.SameClusters before
  | .undo => before.object = none ∧ (∀ c', v.memberOf c' = false) ∧ v.SameClusters before
  | .dropped c => v.object = none ∧ ∀ c', v.memberOf c' = true ↔ c' = c

namespace ClusterSystem

/-- A request in progress has changed the object. -/
def Busy (s : ClusterSystem) (o : ObjectId) : Prop :=
  ∃ thread phase before, s.tasks thread = some (.working o phase before)

/-- No request is in progress. -/
def Quiet (s : ClusterSystem) : Prop := ∀ thread, s.tasks thread = none

/-- The cluster of an object is `c` if and only if `c` exists and lists the object. -/
def TwoSided (s : ClusterSystem) : Prop :=
  ∀ o c, (∃ obj, s.objects o = some obj ∧ obj.clusterId = some c) ↔
    ∃ cl, s.clusters c = some cl ∧ o ∈ cl.members

/-- The cluster lists the datastore, which is a system datastore. -/
def SystemMember (s : ClusterSystem) (cl : Cluster) (id : Nat) : Prop :=
  (.datastore, id) ∈ cl.members ∧ ∃ obj, s.objects (.datastore, id) = some obj ∧ obj.isSystem = true

/-- The system datastore of a cluster is none or a system datastore in the cluster, and
there is no other one. -/
def Recorded (s : ClusterSystem) : Prop :=
  ∀ c cl, s.clusters c = some cl →
    (cl.systemDs = systemDsId ∨ s.SystemMember cl cl.systemDs) ∧
      ∀ id, s.SystemMember cl id → id = cl.systemDs

/-- Nothing has changed since the request began. -/
def Unchanged (s : ClusterSystem) (l : ClusterStep) (s' : ClusterSystem) : Prop :=
  match l.thread?.bind s.tasks with
  | some (.working o _ before) => s'.view o = before
  | _ => s'.objects = s.objects ∧ s'.clusters = s.clusters

/-- A request that is answered with failure has changed nothing. -/
def Law (s : ClusterSystem) (l : ClusterStep) : Prop :=
  ∀ s', s.next l = some (.failure, s') → s.Unchanged l s'

/-- An object is changed or dropped while no other request works on it, a new object is
added to a cluster that still exists, and the drop of a refused one is carried out. -/
def Meets (s : ClusterSystem) : ClusterStep → Prop
  | .setCluster thread => ∀ o cluster obj, s.tasks thread = some (.adding o cluster) →
      s.objects o = some obj → obj.clusterId ≠ cluster → ¬ s.Busy o
  | .delete _ o answer => answer = true → s.objects o ≠ none → ¬ s.Busy o
  | .join thread => ∀ o c isSystem before,
      s.tasks thread = some (.working o (.typed c isSystem) before) → s.clusters c ≠ none
  | .undo thread answer => ∀ o before,
      s.tasks thread = some (.working o .undo before) → answer = true
  | _ => True

/-! ## The invariant -/

/-- The system datastores while requests are in progress: the one of a cluster is listed,
and a listed object is a system datastore if and only if it is that one. -/
def SystemOk (s : ClusterSystem) : Prop :=
  ∀ c cl, s.clusters c = some cl →
    (cl.systemDs ≠ systemDsId → (.datastore, cl.systemDs) ∈ cl.members) ∧
      ∀ o ∈ cl.members, o ≠ (.datastore, systemDsId) ∧
        ∀ obj, s.objects o = some obj → (obj.isSystemDs o = true ↔ o = (.datastore, cl.systemDs))

/-- An id that is not allocated yet. -/
def Unused (s : ClusterSystem) (o : ObjectId) : Prop :=
  ¬ s.Busy o ∧ s.objects o = none ∧ ∀ c, s.memberOf o c = false

structure Inv (s : ClusterSystem) : Prop where
  fits : ∀ thread o phase before, s.tasks thread = some (.working o phase before) →
    phase.Fits o (s.view o) before
  apart : ∀ thread thread' o phase before phase' before',
    s.tasks thread = some (.working o phase before) →
    s.tasks thread' = some (.working o phase' before') → thread = thread'
  balanced : ∀ o, ¬ s.Busy o → (s.view o).Balanced
  system : s.SystemOk
  fresh : ∀ o : ObjectId, s.lastOid o.1 < o.2 → s.Unused o

/-- What the daemon loads: the sides agree, and no id of a new object is in use. -/
structure Started (s : ClusterSystem) : Prop where
  quiet : s.Quiet
  twoSided : s.TwoSided
  system : s.SystemOk
  fresh : ∀ o : ObjectId, s.lastOid o.1 < o.2 → s.objects o = none

theorem memberOf_iff {s : ClusterSystem} {o : ObjectId} {c : Nat} :
    s.memberOf o c = true ↔ ∃ cl, s.clusters c = some cl ∧ o ∈ cl.members := by
  simp [memberOf, Option.any_eq_true]

theorem twoSided_iff {s : ClusterSystem} : s.TwoSided ↔ ∀ o, (s.view o).Balanced := by
  simp only [TwoSided, MemberView.Balanced, view, memberOf_iff, Option.bind_eq_some_iff]

theorem Quiet.not_busy {s : ClusterSystem} (quiet : s.Quiet) (o : ObjectId) : ¬ s.Busy o := by
  intro ⟨thread, phase, before, is⟩
  rw [quiet thread] at is
  cases is

theorem Started.inv {s : ClusterSystem} (started : s.Started) : s.Inv := by
  have balanced := twoSided_iff.mp started.twoSided
  refine ⟨fun thread o phase before is => ?_, fun thread _ o phase before _ _ is => ?_,
    fun o _ => balanced o, started.system, fun o unused => ?_⟩
  · rw [started.quiet thread] at is
    cases is
  · rw [started.quiet thread] at is
    cases is
  · have absent := started.fresh o unused
    refine ⟨started.quiet.not_busy o, absent, fun c => ?_⟩
    have sides := balanced o c
    simp only [view, absent, Option.bind_none, reduceCtorEq, false_iff] at sides
    exact Bool.eq_false_iff.mpr sides

/-- What holds when no request is in progress. -/
theorem Inv.quiet {s : ClusterSystem} (inv : s.Inv) (quiet : s.Quiet) :
    s.TwoSided ∧ s.Recorded := by
  have twoSided := twoSided_iff.mpr fun o => inv.balanced o (quiet.not_busy o)
  refine ⟨twoSided, fun c cl found => ?_⟩
  obtain ⟨listed, members⟩ := inv.system c cl found
  refine ⟨?_, fun id ⟨mem, obj, is, isSystem⟩ => ?_⟩
  · by_cases recorded : cl.systemDs = systemDsId
    · exact Or.inl recorded
    · have mem := listed recorded
      obtain ⟨obj, is, -⟩ := (twoSided _ c).mpr ⟨cl, found, mem⟩
      have isSystem := ((members _ mem).2 obj is).mpr rfl
      simp only [Clusterable.isSystemDs, decide_true, Bool.true_and] at isSystem
      exact Or.inr ⟨mem, obj, is, isSystem⟩
  · have here := ((members _ mem).2 obj is).mp (by simp [Clusterable.isSystemDs, isSystem])
    exact congrArg Prod.snd here

section Steps

variable {s s' : ClusterSystem} {o o' : ObjectId} {c c' thread : Nat} {cl cl' : Cluster}
  {obj : Clusterable} {isSystem : Bool}

/-! ## One object at a time -/

/-- A step of one thread on one object keeps the invariant, if the object fits the new
phase, or both of its sides agree. -/
theorem Inv.step (inv : s.Inv) (o : ObjectId) (thread : Nat) (task : Option ClusterTask)
    (tasks : s'.tasks = Function.update s.tasks thread task)
    (others : ∀ o', o' ≠ o → s'.view o' = s.view o')
    (mine : ∀ o' phase before, s.tasks thread = some (.working o' phase before) → o' = o)
    (alone : ∀ thread' phase before, s.tasks thread' = some (.working o phase before) →
      thread' = thread)
    (working : ∀ o' phase before, task = some (.working o' phase before) →
      o' = o ∧ phase.Fits o (s'.view o) before)
    (done : (∀ phase before, task ≠ some (.working o phase before)) → (s'.view o).Balanced)
    (lastOid : ∀ type, s.lastOid type ≤ s'.lastOid type) (used : o.2 ≤ s'.lastOid o.1)
    (system : s'.SystemOk) : s'.Inv := by
  -- who works on another object is another thread, and did so before
  have before_of {t : Nat} {o' : ObjectId} {phase before} (ne : o' ≠ o)
      (is : s'.tasks t = some (.working o' phase before)) :
      s.tasks t = some (.working o' phase before) := by
    rw [tasks] at is
    rcases update_eq_some is with ⟨-, new⟩ | ⟨-, old⟩
    · exact absurd (working _ _ _ new).1 ne
    · exact old
  have mine_of {t : Nat} {phase before} (is : s'.tasks t = some (.working o phase before)) :
      t = thread := by
    rw [tasks] at is
    rcases update_eq_some is with ⟨same, -⟩ | ⟨-, old⟩
    · exact same
    · exact alone t phase before old
  refine ⟨fun t o' phase before is => ?_, fun t t' o' phase before phase' before' is is' => ?_,
    fun o' idle => ?_, system, fun o' unused => ?_⟩
  · by_cases same : o' = o
    · subst same
      obtain rfl := mine_of is
      rw [tasks, Function.update_self] at is
      exact (working _ _ _ is).2
    · rw [others o' same]
      exact inv.fits t o' phase before (before_of same is)
  · by_cases same : o' = o
    · subst same
      rw [mine_of is, mine_of is']
    · exact inv.apart t t' o' phase before phase' before' (before_of same is) (before_of same is')
  · by_cases same : o' = o
    · subst same
      refine done fun phase before is => idle ⟨thread, phase, before, ?_⟩
      rw [tasks, Function.update_self, is]
    · rw [others o' same]
      refine inv.balanced o' fun busy => ?_
      obtain ⟨t, phase, before, is⟩ := busy
      refine idle ⟨t, phase, before, ?_⟩
      rw [tasks, Function.update_of_ne]
      · exact is
      · rintro rfl
        exact same (mine _ _ _ is)
  · have same : o' ≠ o := by
      rintro rfl
      omega
    obtain ⟨idle, absent, nowhere⟩ := inv.fresh o' (Nat.lt_of_le_of_lt (lastOid o'.1) unused)
    have view := others o' same
    refine ⟨fun busy => ?_, ?_, fun c => ?_⟩
    · obtain ⟨t, phase, before, is⟩ := busy
      exact idle ⟨t, phase, before, before_of same is⟩
    · exact (congrArg MemberView.object view).trans absent
    · exact (congrFun (congrArg MemberView.memberOf view) c).trans (nowhere c)

/-- A step that works on no object. -/
theorem Inv.idle (inv : s.Inv) {task : Option ClusterTask}
    (was : ∀ o phase before, s.tasks thread ≠ some (.working o phase before))
    (now : ∀ o phase before, task ≠ some (.working o phase before)) :
    (s.setTask thread task).Inv := by
  have same {t : Nat} {o phase before} :
      (s.setTask thread task).tasks t = some (.working o phase before) ↔
        s.tasks t = some (.working o phase before) := by
    by_cases here : t = thread
    · subst here
      simp only [setTask, Function.update_self, now, was]
    · simp only [setTask, Function.update_of_ne here]
  have busy (o : ObjectId) : (s.setTask thread task).Busy o ↔ s.Busy o := by
    simp only [Busy, same]
  refine ⟨fun t o phase before is => inv.fits t o phase before (same.mp is),
    fun t t' o phase before phase' before' is is' =>
      inv.apart t t' o phase before phase' before' (same.mp is) (same.mp is'),
    fun o idle => inv.balanced o fun b => idle ((busy o).mpr b), inv.system, fun o unused => ?_⟩
  obtain ⟨idle, rest⟩ := inv.fresh o unused
  exact ⟨fun b => idle ((busy o).mp b), rest⟩

/-! ## The views after a change -/

theorem view_setObject_ne {obj? : Option Clusterable} (ne : o' ≠ o) :
    (s.setObject o obj?).view o' = s.view o' := by
  simp only [view, setObject, Function.update_of_ne ne]
  rfl

theorem view_setObject {obj? : Option Clusterable} :
    (s.setObject o obj?).view o = { s.view o with object := obj? } := by
  simp only [view, setObject, Function.update_self]
  rfl

/-- An object that is what it was before, in the clusters that it was in, has its old view. -/
theorem view_setObject_eq {obj? : Option Clusterable} {before : MemberView}
    (object : before.object = obj?) (clusters : (s.view o).SameClusters before) :
    (s.setObject o obj?).view o = before := by
  obtain ⟨members, system⟩ := clusters
  rw [view_setObject, ← object]
  cases before
  cases members
  cases system
  rfl

theorem memberOf_putCluster {cl? : Option Cluster} :
    (s.putCluster c cl?).memberOf o c' =
      if c' = c then cl?.any (fun cl => o ∈ cl.members) else s.memberOf o c' := by
  by_cases here : c' = c
  · subst here
    simp [memberOf, putCluster]
  · simp [memberOf, putCluster, here]

theorem systemOf_putCluster {cl? : Option Cluster} :
    (s.putCluster c cl?).systemOf o c' =
      if c' = c then cl?.any (fun cl => cl.systemDs ≠ systemDsId && o = (.datastore, cl.systemDs))
      else s.systemOf o c' := by
  by_cases here : c' = c
  · subst here
    simp [systemOf, putCluster]
  · simp [systemOf, putCluster, here]

theorem addObject_eq_some (added : cl.addObject o isSystem = some cl') :
    o ≠ (.datastore, systemDsId) ∧ (isSystem = true → cl.systemDs = systemDsId) ∧ o ∉ cl.members ∧
      cl' = ⟨insert o cl.members, if isSystem = true then o.2 else cl.systemDs⟩ := by
  unfold Cluster.addObject at added
  split at added
  · cases added
  · rename_i named
    split at added
    · cases added
    · rename_i free
      split at added
      · cases added
      · rename_i outside
        cases added
        refine ⟨named, fun isSystem => ?_, outside, rfl⟩
        exact Decidable.not_not.mp fun taken => free ⟨isSystem, taken⟩

theorem delObject_eq_some (deleted : cl.delObject o = some cl') :
    o ∈ cl.members ∧ cl' = ⟨cl.members.erase o,
      if o = (.datastore, cl.systemDs) then systemDsId else cl.systemDs⟩ := by
  unfold Cluster.delObject at deleted
  split at deleted
  · rename_i inside
    cases deleted
    exact ⟨inside, rfl⟩
  · cases deleted

theorem type_of_isSystemDs (isSystem : obj.isSystemDs o = true) : o.1 = .datastore := by
  simp only [Clusterable.isSystemDs, Bool.and_eq_true, decide_eq_true_eq] at isSystem
  exact isSystem.1

/-- Where a cluster is changed, the views of the objects that it lists as before are the same. -/
theorem view_putCluster_ne (found : s.clusters c = some cl)
    (members : o' ∈ cl'.members ↔ o' ∈ cl.members)
    (system : cl'.systemDs ≠ systemDsId ∧ o' = (.datastore, cl'.systemDs) ↔
      cl.systemDs ≠ systemDsId ∧ o' = (.datastore, cl.systemDs)) :
    (s.putCluster c (some cl')).view o' = s.view o' := by
  have memberOf : (s.putCluster c (some cl')).memberOf o' = s.memberOf o' := by
    funext c'
    rw [memberOf_putCluster]
    split
    · rename_i here
      simp [ClusterSystem.memberOf, here, found, members]
    · rfl
  have systemOf : (s.putCluster c (some cl')).systemOf o' = s.systemOf o' := by
    funext c'
    rw [systemOf_putCluster]
    split
    · rename_i here
      simp only [ClusterSystem.systemOf, here, found, Option.any_some]
      rw [← Bool.decide_and, ← Bool.decide_and]
      exact decide_eq_decide.mpr system
    · rfl
  rw [view, view, memberOf, systemOf]
  rfl

/-- Adding an object to a cluster changes no other object. -/
theorem view_addObject_ne (found : s.clusters c = some cl)
    (typed : isSystem = true → o.1 = .datastore) (added : cl.addObject o isSystem = some cl')
    (ne : o' ≠ o) : (s.putCluster c (some cl')).view o' = s.view o' := by
  obtain ⟨-, free, -, rfl⟩ := addObject_eq_some added
  refine view_putCluster_ne found (by simp [ne]) ?_
  cases isSystem with
  | false => exact Iff.rfl
  | true =>
    have other : o' ≠ (.datastore, o.2) := fun same => ne (by rw [same, ← typed rfl])
    simp [free rfl, other]

theorem memberOf_addObject (added : cl.addObject o isSystem = some cl') :
    (s.putCluster c (some cl')).memberOf o c' = true ↔ s.memberOf o c' = true ∨ c' = c := by
  obtain ⟨-, -, -, rfl⟩ := addObject_eq_some added
  rw [memberOf_putCluster]
  by_cases here : c' = c <;> simp [here]

/-- Deleting an object from a cluster changes no other object. -/
theorem view_delObject_ne (found : s.clusters c = some cl) (deleted : cl.delObject o = some cl')
    (ne : o' ≠ o) : (s.putCluster c (some cl')).view o' = s.view o' := by
  obtain ⟨-, rfl⟩ := delObject_eq_some deleted
  refine view_putCluster_ne found (by simp [ne]) ?_
  dsimp only
  split
  · rename_i same
    simp [← same, ne]
  · exact Iff.rfl

theorem memberOf_delObject (deleted : cl.delObject o = some cl') :
    (s.putCluster c (some cl')).memberOf o c' = true ↔ s.memberOf o c' = true ∧ c' ≠ c := by
  obtain ⟨-, rfl⟩ := delObject_eq_some deleted
  rw [memberOf_putCluster]
  by_cases here : c' = c <;> simp [here]

/-! ## The system datastores after a change -/

/-- A change of an object that keeps its type, and dropping an object. -/
theorem SystemOk.setObject (ok : s.SystemOk) {obj? : Option Clusterable}
    (kept : ∀ obj', obj? = some obj' → ∃ obj, s.objects o = some obj ∧
      obj'.isSystemDs o = obj.isSystemDs o) : (s.setObject o obj?).SystemOk := by
  intro c cl found
  obtain ⟨listed, members⟩ := ok c cl found
  refine ⟨listed, fun o' mem => ⟨(members o' mem).1, fun obj' is => ?_⟩⟩
  rcases update_eq_some is with ⟨rfl, new⟩ | ⟨-, old⟩
  · obtain ⟨obj, before, same⟩ := kept obj' new
    rw [same]
    exact (members o' mem).2 obj before
  · exact (members o' mem).2 obj' old

/-- A new object, which no cluster lists. -/
theorem SystemOk.setObject_of_unlisted (ok : s.SystemOk) {obj? : Option Clusterable}
    (unlisted : ∀ c, s.memberOf o c = false) : (s.setObject o obj?).SystemOk := by
  intro c cl found
  obtain ⟨listed, members⟩ := ok c cl found
  refine ⟨listed, fun o' mem => ⟨(members o' mem).1, fun obj' is => ?_⟩⟩
  rcases update_eq_some is with ⟨rfl, -⟩ | ⟨-, old⟩
  · have inside : s.memberOf o' c = true := memberOf_iff.mpr ⟨cl, found, mem⟩
    rw [unlisted c] at inside
    cases inside
  · exact (members o' mem).2 obj' old

theorem SystemOk.addObject (ok : s.SystemOk) (found : s.clusters c = some cl)
    (is : s.objects o = some obj) (added : cl.addObject o (obj.isSystemDs o) = some cl') :
    (s.putCluster c (some cl')).SystemOk := by
  obtain ⟨named, free, outside, rfl⟩ := addObject_eq_some added
  obtain ⟨listed, members⟩ := ok c cl found
  have typed : obj.isSystemDs o = true → o = (.datastore, o.2) := fun isSystem => by
    rw [← type_of_isSystemDs isSystem]
  intro c' cl'' found'
  rcases update_eq_some found' with ⟨-, new⟩ | ⟨-, old⟩
  · cases new
    cases isSystem : obj.isSystemDs o with
    | true =>
      have same := typed isSystem
      refine ⟨fun _ => ?_, fun o' mem => ?_⟩
      · simp only [if_true]
        rw [← same]
        exact Finset.mem_insert_self _ _
      · rcases Finset.mem_insert.mp mem with rfl | old
        · refine ⟨named, fun obj' is' => ?_⟩
          rw [show obj' = obj from Option.some.inj (is'.symm.trans is), isSystem]
          exact iff_of_true rfl same
        · refine ⟨(members o' old).1, fun obj' is' => ?_⟩
          have before := (members o' old).2 obj' is'
          rw [free isSystem] at before
          have other : o' ≠ (.datastore, o.2) := fun here => outside (same ▸ here ▸ old)
          exact before.trans (iff_of_false (members o' old).1 other)
    | false =>
      refine ⟨fun recorded => Finset.mem_insert_of_mem (listed recorded), fun o' mem => ?_⟩
      rcases Finset.mem_insert.mp mem with rfl | old
      · refine ⟨named, fun obj' is' => ?_⟩
        rw [show obj' = obj from Option.some.inj (is'.symm.trans is), isSystem]
        refine iff_of_false Bool.false_ne_true fun here => outside ?_
        have recorded : cl.systemDs ≠ systemDsId := fun none_ => named (none_ ▸ here)
        exact here ▸ listed recorded
      · exact members o' old
  · exact ok c' cl'' old

theorem SystemOk.delObject (ok : s.SystemOk) (found : s.clusters c = some cl)
    (deleted : cl.delObject o = some cl') : (s.putCluster c (some cl')).SystemOk := by
  obtain ⟨-, rfl⟩ := delObject_eq_some deleted
  obtain ⟨listed, members⟩ := ok c cl found
  intro c' cl'' found'
  rcases update_eq_some found' with ⟨-, new⟩ | ⟨-, old⟩
  · cases new
    by_cases same : o = (.datastore, cl.systemDs)
    · simp only [if_pos same]
      refine ⟨fun impossible => absurd rfl impossible, fun o' mem => ?_⟩
      obtain ⟨ne, old⟩ := Finset.mem_erase.mp mem
      refine ⟨(members o' old).1, fun obj is => ?_⟩
      refine ((members o' old).2 obj is).trans (iff_of_false ?_ (members o' old).1)
      exact fun here => ne (here.trans same.symm)
    · simp only [if_neg same]
      refine ⟨fun recorded => Finset.mem_erase.mpr ⟨fun here => same here.symm, listed recorded⟩,
        fun o' mem => members o' (Finset.mem_of_mem_erase mem)⟩
  · exact ok c' cl'' old

/-- A cluster without members, or none. -/
theorem SystemOk.putCluster (ok : s.SystemOk) {cl? : Option Cluster}
    (empty : ∀ cl, cl? = some cl → cl = ⟨∅, systemDsId⟩) : (s.putCluster c cl?).SystemOk := by
  intro c' cl found
  rcases update_eq_some found with ⟨-, new⟩ | ⟨-, old⟩
  · obtain rfl := empty cl new
    exact ⟨fun impossible => absurd rfl impossible, fun o mem => absurd mem (Finset.notMem_empty o)⟩
  · exact ok c' cl old

end Steps

end ClusterSystem

end Ezilla
