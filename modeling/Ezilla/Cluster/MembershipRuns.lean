import Ezilla.Cluster.Membership

/-!
# Runs of the requests about clusters

Each section of a request keeps the invariant, where it meets `Meets`.

* `ClusterSystem.law_of_reached`: the runs in which both sides agree and a request
  that fails has changed nothing;
* `ClusterSystem.allocated_in_dropped_cluster`: a run that leaves a host in a
  cluster that does not exist.
-/

namespace Ezilla

open Transition

namespace ClusterSystem

section Sections

variable {s s' : ClusterSystem} {o o' : ObjectId} {c c' thread : Nat} {cl cl' : Cluster}
  {obj : Clusterable} {isSystem : Bool}

/-! ## The sections -/

theorem idle_of_free (free : ¬ (s.tasks thread).isSome) (o : ObjectId) (phase : Phase)
    (before : MemberView) : s.tasks thread ≠ some (.working o phase before) :=
  fun is => free (by rw [is]; rfl)

/-- Nothing that the invariant looks at has changed. -/
theorem Inv.of_view (inv : s.Inv) (tasks : s'.tasks = s.tasks) (lastOid : s'.lastOid = s.lastOid)
    (views : ∀ o, s'.view o = s.view o) (system : s'.SystemOk) : s'.Inv := by
  have busy (o : ObjectId) : s'.Busy o ↔ s.Busy o := by simp only [Busy, tasks]
  refine ⟨fun t o phase before is => ?_, fun t t' o phase before phase' before' is is' => ?_,
    fun o idle => ?_, system, fun o unused => ?_⟩
  · rw [views]
    exact inv.fits t o phase before (tasks ▸ is)
  · exact inv.apart t t' o phase before phase' before' (tasks ▸ is) (tasks ▸ is')
  · rw [views]
    exact inv.balanced o fun b => idle ((busy o).mpr b)
  · obtain ⟨idle, absent, nowhere⟩ := inv.fresh o (lastOid ▸ unused)
    refine ⟨fun b => idle ((busy o).mp b), ?_, fun c => ?_⟩
    · exact (congrArg MemberView.object (views o)).trans absent
    · exact (congrFun (congrArg MemberView.memberOf (views o)) c).trans (nowhere c)

theorem Inv.used_of_object (inv : s.Inv) (is : s.objects o = some obj) : o.2 ≤ s.lastOid o.1 := by
  refine Nat.le_of_not_lt fun unused => ?_
  rw [(inv.fresh o unused).2.1] at is
  cases is

theorem Inv.used_of_busy (inv : s.Inv) (busy : s.Busy o) : o.2 ≤ s.lastOid o.1 :=
  Nat.le_of_not_lt fun unused => (inv.fresh o unused).1 busy

/-- A thread that works on an object goes on, or is done. -/
theorem Inv.proceed {phase : Phase} {before : MemberView} (inv : s.Inv)
    (is : s.tasks thread = some (.working o phase before)) (task : Option ClusterTask)
    (tasks : s'.tasks = Function.update s.tasks thread task) (lastOid : s'.lastOid = s.lastOid)
    (others : ∀ o', o' ≠ o → s'.view o' = s.view o')
    (working : ∀ o' phase before, task = some (.working o' phase before) →
      o' = o ∧ phase.Fits o (s'.view o) before)
    (done : (∀ phase before, task ≠ some (.working o phase before)) → (s'.view o).Balanced)
    (system : s'.SystemOk) : s'.Inv := by
  refine inv.step o thread task tasks others (fun o' phase' before' is' => ?_)
    (fun t phase' before' is' => inv.apart t thread o phase' before' phase before is' is)
    working done (fun type => by rw [lastOid]) ?_ system
  · rw [is] at is'
    cases is'
    rfl
  · rw [lastOid]
    exact inv.used_of_busy ⟨thread, phase, before, is⟩

/-- A thread that works on no object begins to work on one that no other works on. -/
theorem Inv.start (inv : s.Inv) (task : Option ClusterTask)
    (was : ∀ o phase before, s.tasks thread ≠ some (.working o phase before))
    (idle : ¬ s.Busy o) (tasks : s'.tasks = Function.update s.tasks thread task)
    (lastOid : ∀ type, s.lastOid type ≤ s'.lastOid type) (used : o.2 ≤ s'.lastOid o.1)
    (others : ∀ o', o' ≠ o → s'.view o' = s.view o')
    (working : ∀ o' phase before, task = some (.working o' phase before) →
      o' = o ∧ phase.Fits o (s'.view o) before)
    (done : (∀ phase before, task ≠ some (.working o phase before)) → (s'.view o).Balanced)
    (system : s'.SystemOk) : s'.Inv :=
  inv.step o thread task tasks others (fun o' phase before is => absurd is (was o' phase before))
    (fun t phase before is => absurd ⟨t, phase, before, is⟩ idle) working done lastOid used system

theorem Inv.setCluster {answer : Answer} (inv : s.Inv) (meets : s.Meets (.setCluster thread))
    (taken : s.setCluster thread = some (answer, s')) : s'.Inv := by
  unfold ClusterSystem.setCluster at taken
  split at taken
  · rename_i o cluster adding
    have was : ∀ o phase before, s.tasks thread ≠ some (.working o phase before) := by
      intro o phase before is
      rw [adding] at is
      cases is
    have finished : (s.finish thread).Inv := inv.idle was fun _ _ _ is => by cases is
    split at taken
    · cases taken
      exact finished
    · rename_i obj is
      split at taken
      · cases taken
        exact finished
      · rename_i other
        have idle : ¬ s.Busy o := meets o cluster obj adding is other
        have balanced := inv.balanced o idle
        have used := inv.used_of_object is
        have kept : (s.setObject o (some { obj with clusterId := cluster })).SystemOk :=
          inv.system.setObject fun obj' new => ⟨obj, is, by cases new; rfl⟩
        have here : (s.view o).object = some obj := is
        simp only [MemberView.Balanced, here, Option.bind_some] at balanced
        split at taken
        · rename_i c
          cases taken
          refine inv.start (o := o) _ was idle rfl (fun _ => Nat.le_refl _) used
            (fun o' ne => view_setObject_ne ne) (fun o' phase before new => ?_)
            (fun impossible => absurd rfl (impossible _ _)) kept
          cases new
          refine ⟨rfl, ?_⟩
          change Phase.Fits o ((s.setObject o _).view o) _ _
          rw [view_setObject]
          exact ⟨_, rfl, rfl, rfl, here, other,
            fun c' => (balanced c').symm, rfl, rfl⟩
        · rename_i old had
          cases taken
          refine inv.start (o := o) _ was idle rfl (fun _ => Nat.le_refl _) used
            (fun o' ne => view_setObject_ne ne) (fun o' phase before new => ?_)
            (fun impossible => absurd rfl (impossible _ _)) kept
          cases new
          refine ⟨rfl, ?_⟩
          change Phase.Fits o ((s.setObject o _).view o) _ _
          rw [view_setObject]
          refine ⟨_, rfl, (Option.some_ne_none old).symm, fun c' => ?_⟩
          rw [← balanced c', had]
          simp [eq_comm]
        · rename_i had
          exact absurd had other
  · cases taken

theorem Inv.enter {answer : Answer} (inv : s.Inv)
    (taken : s.enter thread = some (answer, s')) : s'.Inv := by
  unfold ClusterSystem.enter at taken
  split at taken
  · rename_i o c isSystem old before is
    obtain ⟨obj, here, has, rfl, kept, other, listed, same⟩ := inv.fits _ _ _ _ is
    split at taken
    · cases taken
      refine inv.proceed is _ rfl rfl (fun _ _ => rfl) (fun o' phase before' new => ?_)
        (fun impossible => absurd rfl (impossible _ _)) inv.system
      cases new
      exact ⟨rfl, obj, here, kept, listed, same⟩
    · rename_i cl' put
      obtain ⟨cl, found, added⟩ := Option.bind_eq_some_iff.mp put
      have others : ∀ o', o' ≠ o → (s.putCluster c (some cl')).view o' = s.view o' :=
        fun o' ne => view_addObject_ne found type_of_isSystemDs added ne
      have system : (s.putCluster c (some cl')).SystemOk := inv.system.addObject found here added
      split at taken
      · cases taken
        refine inv.proceed is _ rfl rfl others (fun _ _ _ new => by cases new) (fun _ c' => ?_) system
        change s.objects o = some obj at here
        change (s.objects o).bind Clusterable.clusterId = some c' ↔
          (s.putCluster c (some cl')).memberOf o c' = true
        rw [memberOf_addObject added, here, Option.bind_some, has]
        have nowhere := listed c'
        simp only [reduceCtorEq, iff_false] at nowhere
        change ¬ s.memberOf o c' = true at nowhere
        simp [nowhere, eq_comm]
      · rename_i old
        cases taken
        refine inv.proceed is _ rfl rfl others (fun o' phase before' new => ?_)
          (fun impossible => absurd rfl (impossible _ _)) system
        cases new
        refine ⟨rfl, obj, here, ?_, fun c' => ?_⟩
        · rw [has]
          exact other.symm
        · change (s.putCluster c (some cl')).memberOf o c' = true ↔ _
          have at_old : s.memberOf o c' = true ↔ some old = some c' := listed c'
          rw [memberOf_addObject added, has, at_old]
          simp only [Option.some.injEq, eq_comm (a := c'), or_comm]
  · cases taken

theorem Inv.rollback {answer : Answer} (inv : s.Inv)
    (taken : s.rollback thread = some (answer, s')) : s'.Inv := by
  unfold ClusterSystem.rollback at taken
  split at taken
  · rename_i o old before is
    obtain ⟨obj, here, -, listed, -⟩ := inv.fits _ _ _ _ is
    change s.objects o = some obj at here
    rw [here] at taken
    cases taken
    refine inv.proceed is _ rfl rfl (fun o' ne => view_setObject_ne ne)
      (fun _ _ _ new => by cases new) (fun _ c' => ?_)
      (inv.system.setObject fun obj' new => ⟨obj, here, by cases new; rfl⟩)
    change ((s.setObject o _).view o).object.bind _ = _ ↔ ((s.setObject o _).view o).memberOf c' = _
    rw [view_setObject]
    exact (listed c').symm
  · cases taken

/-- An object that leaves a cluster which lists it. -/
theorem Inv.leaves (inv : s.Inv) {phase : Phase} {before : MemberView}
    (is : s.tasks thread = some (.working o phase before)) (found : s.clusters c = some cl)
    (deleted : cl.delObject o = some cl')
    (left : ∀ c', (s.view o).object.bind Clusterable.clusterId = some c' ↔
      s.memberOf o c' = true ∧ c' ≠ c) :
    ((s.putCluster c (some cl')).finish thread).Inv := by
  refine inv.proceed is none rfl rfl (fun o' ne => view_delObject_ne found deleted ne)
    (fun _ _ _ new => by cases new) (fun _ c' => ?_) (inv.system.delObject found deleted)
  change _ ↔ (s.putCluster c (some cl')).memberOf o c' = true
  rw [memberOf_delObject deleted]
  exact left c'

theorem delObject_of_memberOf (listed : s.memberOf o c = true) :
    ∃ cl cl', s.clusters c = some cl ∧ cl.delObject o = some cl' := by
  obtain ⟨cl, found, mem⟩ := memberOf_iff.mp listed
  exact ⟨cl, _, found, if_pos mem⟩

theorem Inv.exit {answer : Answer} (inv : s.Inv)
    (taken : s.exit thread = some (answer, s')) : answer = .success ∧ s'.Inv := by
  unfold ClusterSystem.exit at taken
  split at taken
  · rename_i o old before is
    obtain ⟨obj, here, other, listed⟩ := inv.fits _ _ _ _ is
    obtain ⟨cl, cl', found, deleted⟩ := delObject_of_memberOf ((listed old).mpr (Or.inr rfl))
    simp only [found, deleted] at taken
    cases taken
    refine ⟨rfl, inv.leaves is found deleted fun c' => ?_⟩
    have at_c : s.memberOf o c' = true ↔ obj.clusterId = some c' ∨ c' = old := listed c'
    rw [here, Option.bind_some, at_c]
    constructor
    · exact fun has => ⟨Or.inl has, fun same => other (same ▸ has)⟩
    · exact fun ⟨either, ne⟩ => either.resolve_right ne
  · cases taken

theorem Inv.leave {answer : Answer} (inv : s.Inv)
    (taken : s.leave thread = some (answer, s')) : answer = .success ∧ s'.Inv := by
  unfold ClusterSystem.leave at taken
  split at taken
  · rename_i o c before is
    obtain ⟨absent, listed⟩ := inv.fits _ _ _ _ is
    obtain ⟨cl, cl', found, deleted⟩ := delObject_of_memberOf ((listed c).mpr rfl)
    simp only [found, deleted] at taken
    cases taken
    refine ⟨rfl, inv.leaves is found deleted fun c' => ?_⟩
    have at_c : s.memberOf o c' = true ↔ c' = c := listed c'
    rw [absent, Option.bind_none, at_c]
    exact iff_of_false nofun fun both => both.2 both.1
  · cases taken

theorem Inv.create {answer : Answer} {b : Bool} (inv : s.Inv)
    (taken : s.create thread b = some (answer, s')) : s'.Inv := by
  unfold ClusterSystem.create at taken
  split at taken
  · rename_i type isSystem cluster allocating
    have was : ∀ o phase before, s.tasks thread ≠ some (.working o phase before) := by
      intro o phase before is
      rw [allocating] at is
      cases is
    split at taken
    · obtain ⟨idle, -, nowhere⟩ := inv.fresh (type, s.lastOid type + 1) (Nat.lt_succ_self _)
      have system : (s.setObject (type, s.lastOid type + 1) (some ⟨cluster, isSystem⟩)).SystemOk :=
        inv.system.setObject_of_unlisted nowhere
      have lastOid : ∀ type', s.lastOid type' ≤
          Function.update s.lastOid type (s.lastOid type + 1) type' := by
        intro type'
        by_cases same : type' = type
        · subst same
          rw [Function.update_self]
          exact Nat.le_succ _
        · rw [Function.update_of_ne same]
      have used : s.lastOid type + 1 ≤ Function.update s.lastOid type (s.lastOid type + 1) type := by
        rw [Function.update_self]
      split at taken
      · cases taken
        refine inv.start (o := (type, s.lastOid type + 1)) none was idle rfl lastOid used
          (fun o' ne => view_setObject_ne ne) (fun _ _ _ new => by cases new) (fun _ c' => ?_) system
        change ((s.setObject _ _).view _).object.bind _ = _ ↔ _
        rw [view_setObject]
        exact iff_of_false nofun (Bool.eq_false_iff.mp (nowhere c'))
      · rename_i c
        cases taken
        refine inv.start (o := (type, s.lastOid type + 1)) _ was idle rfl lastOid used
          (fun o' ne => view_setObject_ne ne) (fun o' phase before new => ?_)
          (fun impossible => absurd rfl (impossible _ _)) system
        cases new
        refine ⟨rfl, ?_⟩
        change Phase.Fits _ ((s.setObject _ _).view _) _ _
        rw [view_setObject]
        exact ⟨_, rfl, rfl, (inv.fresh _ (Nat.lt_succ_self _)).2.1, nowhere, rfl, rfl⟩
    · cases taken
      exact inv.idle was fun _ _ _ is => by cases is
  · cases taken

theorem Inv.readType {answer : Answer} (inv : s.Inv)
    (taken : s.readType thread = some (answer, s')) : s'.Inv := by
  unfold ClusterSystem.readType at taken
  split at taken
  · rename_i o c before is
    obtain ⟨obj, here, has, absent, nowhere, same⟩ := inv.fits _ _ _ _ is
    cases taken
    refine inv.proceed is _ rfl rfl (fun _ _ => rfl) (fun o' phase before' new => ?_)
      (fun impossible => absurd rfl (impossible _ _)) inv.system
    cases new
    refine ⟨rfl, obj, here, has, ?_, absent, nowhere, same⟩
    change s.objects o = some obj at here
    rw [here, Option.any_some]
  · cases taken

theorem Inv.join {answer : Answer} (inv : s.Inv) (meets : s.Meets (.join thread))
    (taken : s.join thread = some (answer, s')) : answer ≠ .failure ∧ s'.Inv := by
  unfold ClusterSystem.join at taken
  split at taken
  · rename_i o c isSystem before is
    obtain ⟨obj, here, has, rfl, absent, nowhere, same⟩ := inv.fits _ _ _ _ is
    split at taken
    · rename_i gone
      exact absurd gone (meets _ _ _ _ is)
    · rename_i cl found
      split at taken
      · cases taken
        refine ⟨nofun, inv.proceed is _ rfl rfl (fun _ _ => rfl) (fun o' phase before' new => ?_)
          (fun impossible => absurd rfl (impossible _ _)) inv.system⟩
        cases new
        exact ⟨rfl, absent, nowhere, same⟩
      · rename_i cl' added
        cases taken
        refine ⟨nofun, inv.proceed is none rfl rfl
          (fun o' ne => view_addObject_ne found type_of_isSystemDs added ne)
          (fun _ _ _ new => by cases new) (fun _ c' => ?_) (inv.system.addObject found here added)⟩
        change s.objects o = some obj at here
        change (s.objects o).bind Clusterable.clusterId = some c' ↔
          (s.putCluster c (some cl')).memberOf o c' = true
        have outside : ¬ s.memberOf o c' = true := Bool.eq_false_iff.mp (nowhere c')
        rw [memberOf_addObject added, here, Option.bind_some, has]
        simp [outside, eq_comm]
  · cases taken

theorem Inv.undo {answer : Answer} {b : Bool} (inv : s.Inv) (meets : s.Meets (.undo thread b))
    (taken : s.undo thread b = some (answer, s')) : s'.Inv := by
  unfold ClusterSystem.undo at taken
  split at taken
  · rename_i o before is
    obtain ⟨-, nowhere, -⟩ := inv.fits _ _ _ _ is
    rw [meets o before is, if_pos rfl] at taken
    cases taken
    refine inv.proceed is none rfl rfl (fun o' ne => view_setObject_ne ne)
      (fun _ _ _ new => by cases new) (fun _ c' => ?_)
      (inv.system.setObject fun _ impossible => by cases impossible)
    change ((s.setObject o none).view o).object.bind _ = _ ↔ _
    rw [view_setObject]
    exact iff_of_false nofun (Bool.eq_false_iff.mp (nowhere c'))
  · cases taken

theorem Inv.delete {answer : Answer} {b : Bool} (inv : s.Inv)
    (meets : s.Meets (.delete thread o b)) (taken : s.delete thread o b = some (answer, s')) :
    s'.Inv := by
  unfold ClusterSystem.delete at taken
  split at taken
  · cases taken
  · rename_i free
    split at taken
    · cases taken
      exact inv
    · rename_i obj is
      split at taken
      · rename_i answered
        have idle : ¬ s.Busy o := meets answered (by rw [is]; exact Option.some_ne_none obj)
        have was := idle_of_free free
        have balanced := inv.balanced o idle
        have here : (s.view o).object = some obj := is
        simp only [MemberView.Balanced, here, Option.bind_some] at balanced
        have used := inv.used_of_object is
        have system : (s.setObject o none).SystemOk :=
          inv.system.setObject fun _ impossible => by cases impossible
        split at taken
        · rename_i alone
          cases taken
          refine inv.start (o := o) none was idle ?_ (fun _ => Nat.le_refl _) used
            (fun o' ne => view_setObject_ne ne) (fun _ _ _ new => by cases new) (fun _ c' => ?_)
            system
          · rw [← Option.not_isSome_iff_eq_none.mp free, Function.update_eq_self]
            rfl
          · rw [view_setObject]
            have outside := balanced c'
            rw [alone] at outside
            exact iff_of_false (fun impossible => by cases impossible)
              fun listed => by cases outside.mpr listed
        · rename_i c has
          cases taken
          refine inv.start (o := o) _ was idle rfl (fun _ => Nat.le_refl _) used
            (fun o' ne => view_setObject_ne ne) (fun o' phase before new => ?_)
            (fun impossible => absurd rfl (impossible _ _)) system
          cases new
          refine ⟨rfl, ?_⟩
          change Phase.Fits o ((s.setObject o none).view o) _ _
          rw [view_setObject]
          refine ⟨rfl, fun c' => ?_⟩
          have at_c := balanced c'
          rw [has, Option.some.injEq] at at_c
          exact at_c.symm.trans eq_comm
      · cases taken
        exact inv

/-- A cluster without members can come and go. -/
theorem view_putCluster_of_empty {cl? : Option Cluster}
    (before : ∀ cl, s.clusters c = some cl → cl = ⟨∅, systemDsId⟩)
    (after : ∀ cl, cl? = some cl → cl = ⟨∅, systemDsId⟩) :
    (s.putCluster c cl?).view o = s.view o := by
  have nothing {cl? : Option Cluster} (empty : ∀ cl, cl? = some cl → cl = ⟨∅, systemDsId⟩) :
      cl?.any (fun cl => o ∈ cl.members) = false ∧
        cl?.any (fun cl => cl.systemDs ≠ systemDsId && o = (.datastore, cl.systemDs)) = false := by
    cases cl? with
    | none => exact ⟨rfl, rfl⟩
    | some cl =>
      obtain rfl := empty cl rfl
      exact ⟨rfl, rfl⟩
  have members : (s.putCluster c cl?).memberOf o = s.memberOf o := by
    funext c'
    rw [memberOf_putCluster]
    split
    · rename_i here
      rw [(nothing after).1, memberOf, here, (nothing before).1]
    · rfl
  have system : (s.putCluster c cl?).systemOf o = s.systemOf o := by
    funext c'
    rw [systemOf_putCluster]
    split
    · rename_i here
      rw [(nothing after).2, systemOf, here, (nothing before).2]
    · rfl
  rw [view, view, members, system]
  rfl

theorem Inv.putCluster_of_empty (inv : s.Inv) {cl? : Option Cluster}
    (before : ∀ cl, s.clusters c = some cl → cl = ⟨∅, systemDsId⟩)
    (after : ∀ cl, cl? = some cl → cl = ⟨∅, systemDsId⟩) : (s.putCluster c cl?).Inv :=
  inv.of_view rfl rfl (fun _ => view_putCluster_of_empty before after)
    (inv.system.putCluster after)

theorem Inv.deleteCluster {answer : Answer} {b : Bool} (inv : s.Inv)
    (taken : s.deleteCluster c b = some (answer, s')) : s'.Inv := by
  unfold ClusterSystem.deleteCluster at taken
  split at taken
  · cases taken
    exact inv
  · rename_i cl found
    split at taken
    · rename_i empty
      cases taken
      simp only [Cluster.checkDrop, Bool.and_eq_true, decide_eq_true_eq] at empty
      refine inv.putCluster_of_empty (fun cl' found' => ?_) fun _ impossible => by cases impossible
      rw [found] at found'
      cases found'
      have unrecorded : cl.systemDs = systemDsId := by
        refine Decidable.byContradiction fun recorded => ?_
        have listed := (inv.system c cl found).1 recorded
        rw [empty.2] at listed
        exact Finset.notMem_empty _ listed
      cases cl
      cases empty.2
      cases unrecorded
      rfl
    · cases taken
      exact inv

/-- A request that only looks objects up. -/
theorem Inv.lookUp (inv : s.Inv) (free : ¬ (s.tasks thread).isSome) {task : ClusterTask}
    (looks : ∀ o phase before, task ≠ .working o phase before) :
    (s.setTask thread (some task)).Inv := by
  exact inv.idle (idle_of_free free) fun o phase before is =>
    looks o phase before (Option.some.inj is)

/-- One section keeps the invariant. -/
theorem Inv.next {l : ClusterStep} {answer : Answer} (inv : s.Inv) (meets : s.Meets l)
    (taken : s.next l = some (answer, s')) : s'.Inv := by
  cases l with
  | allocateCluster c =>
    simp only [ClusterSystem.next] at taken
    split at taken
    · cases taken
    · rename_i free
      cases taken
      refine inv.putCluster_of_empty (fun cl found => ?_) fun cl new => (Option.some.inj new).symm
      rw [found] at free
      exact absurd rfl free
  | deleteCluster c b => exact inv.deleteCluster taken
  | add thread o cluster =>
    simp only [ClusterSystem.next, ClusterSystem.add] at taken
    split at taken
    · cases taken
    · rename_i free
      split at taken
      · cases taken
        exact inv.lookUp free nofun
      · cases taken
        exact inv
  | setCluster thread => exact inv.setCluster meets taken
  | enter thread => exact inv.enter taken
  | rollback thread => exact inv.rollback taken
  | exit thread => exact (inv.exit taken).2
  | allocate thread type isSystem cluster =>
    simp only [ClusterSystem.next, ClusterSystem.allocate] at taken
    split at taken
    · cases taken
    · rename_i free
      split at taken
      · cases taken
        exact inv.lookUp free nofun
      · cases taken
        exact inv
  | create thread b => exact inv.create taken
  | readType thread => exact inv.readType taken
  | join thread => exact (inv.join meets taken).2
  | undo thread b => exact inv.undo meets taken
  | delete thread o b => exact inv.delete meets taken
  | leave thread => exact (inv.leave taken).2

theorem unchanged_of_working {l : ClusterStep} {phase : Phase} {before : MemberView}
    (of : l.thread? = some thread) (is : s.tasks thread = some (.working o phase before))
    (view : s'.view o = before) : s.Unchanged l s' := by
  rw [Unchanged, of, Option.bind_some, is]
  exact view

theorem unchanged_of_idle {l : ClusterStep}
    (idle : ∀ o phase before, l.thread?.bind s.tasks ≠ some (.working o phase before))
    (objects : s'.objects = s.objects) (clusters : s'.clusters = s.clusters) :
    s.Unchanged l s' := by
  unfold Unchanged
  split
  · rename_i o phase before is
    exact absurd is (idle o phase before)
  · exact ⟨objects, clusters⟩

/-- The old cluster is back after a rollback. -/
theorem Inv.law_rollback (inv : s.Inv) : s.Law (.rollback thread) := by
  intro s' taken
  simp only [ClusterSystem.next, ClusterSystem.rollback] at taken
  split at taken
  · rename_i o old before is
    obtain ⟨obj, here, was, -, clusters⟩ := inv.fits _ _ _ _ is
    change s.objects o = some obj at here
    rw [here] at taken
    cases taken
    exact unchanged_of_working rfl is (view_setObject_eq was clusters)
  · cases taken

/-- A new object is gone again. -/
theorem Inv.law_undo {b : Bool} (inv : s.Inv) (meets : s.Meets (.undo thread b)) :
    s.Law (.undo thread b) := by
  intro s' taken
  simp only [ClusterSystem.next, ClusterSystem.undo] at taken
  split at taken
  · rename_i o before is
    obtain ⟨was, -, clusters⟩ := inv.fits _ _ _ _ is
    rw [meets o before is, if_pos rfl] at taken
    cases taken
    exact unchanged_of_working rfl is (view_setObject_eq was clusters)
  · cases taken

/-- A request that fails where the invariant holds has changed nothing. -/
theorem Inv.law {l : ClusterStep} (inv : s.Inv) (meets : s.Meets l) : s.Law l := by
  cases l with
  | allocateCluster c =>
    intro s' taken
    simp only [ClusterSystem.next] at taken
    split at taken <;> cases taken
  | deleteCluster c b =>
    intro s' taken
    simp only [ClusterSystem.next, ClusterSystem.deleteCluster] at taken
    split at taken
    · cases taken
      exact ⟨rfl, rfl⟩
    · split at taken
      · cases taken
      · cases taken
        exact ⟨rfl, rfl⟩
  | add thread o cluster =>
    intro s' taken
    simp only [ClusterSystem.next, ClusterSystem.add] at taken
    split at taken
    · cases taken
    · rename_i free
      split at taken <;> cases taken
      exact unchanged_of_idle (idle_of_free free) rfl rfl
  | allocate thread type isSystem cluster =>
    intro s' taken
    simp only [ClusterSystem.next, ClusterSystem.allocate] at taken
    split at taken
    · cases taken
    · rename_i free
      split at taken <;> cases taken
      exact unchanged_of_idle (idle_of_free free) rfl rfl
  | delete thread o b =>
    intro s' taken
    simp only [ClusterSystem.next, ClusterSystem.delete] at taken
    split at taken
    · cases taken
    · rename_i free
      split at taken
      · cases taken
        exact unchanged_of_idle (idle_of_free free) rfl rfl
      · split at taken
        · split at taken <;> cases taken
        · cases taken
          exact unchanged_of_idle (idle_of_free free) rfl rfl
  | setCluster thread =>
    intro s' taken
    simp only [ClusterSystem.next, ClusterSystem.setCluster] at taken
    split at taken
    · rename_i o cluster adding
      split at taken
      · cases taken
        refine unchanged_of_idle (fun o phase before is => ?_) rfl rfl
        rw [show s.tasks thread = _ from is] at adding
        cases adding
      · split at taken
        · cases taken
        · split at taken <;> cases taken
    · cases taken
  | enter thread =>
    intro s' taken
    simp only [ClusterSystem.next, ClusterSystem.enter] at taken
    split at taken
    · split at taken
      · cases taken
      · split at taken <;> cases taken
    · cases taken
  | rollback thread => exact inv.law_rollback
  | exit thread =>
    intro s' taken
    cases (inv.exit taken).1
  | create thread b =>
    intro s' taken
    simp only [ClusterSystem.next, ClusterSystem.create] at taken
    split at taken
    · rename_i type isSystem cluster allocating
      split at taken
      · split at taken <;> cases taken
      · cases taken
        refine unchanged_of_idle (fun o phase before is => ?_) rfl rfl
        rw [show s.tasks thread = _ from is] at allocating
        cases allocating
    · cases taken
  | readType thread =>
    intro s' taken
    simp only [ClusterSystem.next, ClusterSystem.readType] at taken
    split at taken <;> cases taken
  | join thread =>
    intro s' taken
    exact absurd rfl (inv.join meets taken).1
  | undo thread b => exact inv.law_undo meets
  | leave thread =>
    intro s' taken
    cases (inv.leave taken).1

end Sections

/-- After a run whose sections meet the condition: when no request is in progress both
sides agree and the system datastores are recorded; and a further section that meets
it answers failure only when the request has changed nothing. -/
theorem law_of_reached {s : ClusterSystem} (reached : Reachable Started (Guarded Meets Step) s) :
    (s.Quiet → s.TwoSided ∧ s.Recorded) ∧ ∀ l, s.Meets l → s.Law l := by
  have inv : s.Inv := reached.invariant (fun _ => Started.inv) fun _ _ _ before taken => by
    obtain ⟨meets, answer, next⟩ := taken
    exact before.next meets next
  exact ⟨inv.quiet, fun l meets => inv.law meets⟩

/-! ## A cluster that is deleted during an allocation -/

/-- One cluster, no objects. -/
def oneCluster : ClusterSystem where
  objects _ := none
  clusters c := if c = 100 then some ⟨∅, systemDsId⟩ else none
  lastOid _ := 0
  tasks _ := none

theorem started_oneCluster : oneCluster.Started := by
  have empty : ∀ c cl, oneCluster.clusters c = some cl → cl = ⟨∅, systemDsId⟩ := by
    intro c cl found
    simp only [oneCluster] at found
    split at found
    · cases found
      rfl
    · cases found
  refine ⟨fun _ => rfl, fun o c => iff_of_false (fun ⟨_, impossible, _⟩ => by cases impossible) ?_,
    fun c cl found => ?_, fun _ _ => rfl⟩
  · intro ⟨cl, found, mem⟩
    cases empty c cl found
    exact absurd mem (Finset.notMem_empty o)
  · cases empty c cl found
    exact ⟨fun impossible => absurd rfl impossible, fun o mem => absurd mem (Finset.notMem_empty o)⟩

/-- A host is allocated in cluster 100, which is deleted before the host is added to it. -/
def allocateDuringDelete : List ClusterStep :=
  [.allocate 0 .host false (some 100), .deleteCluster 100 true, .create 0 true, .readType 0]

/-- The state after the sections. -/
def after (labels : List ClusterStep) : Option ClusterSystem :=
  labels.foldlM (fun s l => (s.next l).map Prod.snd) oneCluster

theorem reachable_of_after {labels : List ClusterStep} {s : ClusterSystem}
    (run : after labels = some s) : Reachable Started Step s := by
  refine Reachable.foldlM _ labels (fun s l s' taken => ?_) (.init started_oneCluster) run
  obtain ⟨⟨answer, s'⟩, next, rfl⟩ := Option.map_eq_some_iff.mp taken
  exact ⟨answer, next⟩

/-- The object that a request in progress works on, and what it was before. -/
def workOf (s : ClusterSystem) (thread : Nat) : Option (ObjectId × Option Clusterable) :=
  match s.tasks thread with
  | some (.working o _ before) => some (o, before.object)
  | _ => none

/-- The request fails, and its new host stays in the cluster that is gone. -/
theorem host_kept :
    (after allocateDuringDelete).map (fun s => (s.workOf 0,
      (s.next (.join 0)).map fun r => (r.1, r.2.objects (.host, 1)))) =
      some (some ((.host, 1), none), some (.failure, some ⟨some 100, false⟩)) := by
  decide +kernel

/-- An allocation that fails leaves an object in a cluster that does not exist. -/
theorem allocated_in_dropped_cluster :
    ¬ ∀ s : ClusterSystem, Reachable Started Step s →
      (s.Quiet → s.TwoSided ∧ s.Recorded) ∧ ∀ l, s.Law l := by
  intro always
  obtain ⟨s, run, facts⟩ := Option.map_eq_some_iff.mp host_kept
  obtain ⟨work, joined⟩ := Prod.mk.injEq .. ▸ facts
  obtain ⟨⟨answer, s'⟩, taken, kept⟩ := Option.map_eq_some_iff.mp joined
  obtain ⟨rfl, kept⟩ : answer = .failure ∧ s'.objects (.host, 1) = some ⟨some 100, false⟩ := by
    simpa only [Prod.mk.injEq] using kept
  have unchanged := (always s (reachable_of_after run)).2 (.join 0) s' taken
  unfold workOf at work
  split at work
  · rename_i o phase before is
    obtain ⟨rfl, absent⟩ : o = (.host, 1) ∧ before.object = none := by
      simpa only [Option.some.injEq, Prod.mk.injEq] using work
    simp only [Unchanged, ClusterStep.thread?, Option.bind_some, is] at unchanged
    rw [← unchanged] at absent
    rw [show s'.objects _ = none from absent] at kept
    cases kept
  · cases work

/-- A host is allocated while its cluster stays. -/
def allocated : List ClusterStep :=
  [.allocate 0 .host false (some 100), .create 0 true, .readType 0, .join 0]

/-- When the host is added, no request is in progress. -/
theorem law_of_reached_allocated :
    ∃ s, after allocated = some s ∧ s.memberOf (.host, 1) 100 = true ∧ s.TwoSided ∧ s.Recorded ∧
      ∀ l, s.Meets l → s.Law l := by
  refine ⟨_, rfl, by decide +kernel, ?_⟩
  rw [← and_assoc]
  have law := law_of_reached (.step (l := .join 0) (.step (l := .readType 0)
    (.step (l := .create 0 true) (.step (l := .allocate 0 .host false (some 100))
      (.init started_oneCluster) ⟨trivial, .pending, rfl⟩) ⟨trivial, .pending, rfl⟩)
    ⟨trivial, .pending, rfl⟩) ⟨fun o c isSystem before is => ?_, .success, rfl⟩)
  · refine ⟨law.1 fun thread => ?_, law.2⟩
    simp [ClusterSystem.finish, ClusterSystem.setTask, oneCluster, putCluster, setObject]
  · cases is
    exact Option.some_ne_none _

end ClusterSystem

end Ezilla
