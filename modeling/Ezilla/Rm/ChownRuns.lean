import Ezilla.Rm.Chown

/-!
# What a change of owner moves

Runs of chowns and deletions over the quotas of all users and groups.

* `OwnershipSystem.OwnedTotals`: every counter is the total over the objects owned;
* `OwnershipSystem.Moved`: what an answered request has done to the charge;
* `ChownPhase.Fits`: how an object is charged while it is chowned;
* `OwnershipSystem.moved_of_reached`: the runs in which both hold;
* `OwnershipSystem.done_vm_charged`: the chown of a VM that is `DONE`.
-/

namespace Ezilla

open Transition

/-- How often a live object is charged to each user and group when no request works on it. -/
def owed : Option OwnedObject → Principal → Int
  | some obj => if obj.live then tally (quotaPrincipals obj.uid obj.gid) else 0
  | none => 0

/-- How an object is charged in a phase of a chown; no live object is dropped. -/
def ChownPhase.Fits (ids : ChownIds) (charged before : Principal → Int) : ChownPhase → Prop
  | .charging again todo done =>
    again = false ∧ charged = before + tally done ∧ tally ids.new = tally done + tally todo
  | .undoing todo => charged = before + tally todo
  | .releasing todo => charged = before + tally ids.new - tally ids.old + tally todo
  | .settling => charged = before + tally ids.new - tally ids.old
  | .returning _ => False

/-- How an object stands while a request works on it. -/
def OwnerTask.Fits (obj? : Option OwnedObject) (charged : Principal → Int) : OwnerTask → Prop
  | .chown _ ids phase before => ∃ obj, obj? = some obj ∧ obj.live = true ∧
      before = tally (quotaPrincipals obj.uid obj.gid) ∧
      ids = ChownIds.of ids.newUid ids.newGid obj ∧ phase.Fits ids charged before
  | .delete _ todo => (∀ obj, obj? = some obj → obj.live = false) ∧ charged = tally todo

/-- The user or group that the next section of a request charges. -/
def OwnerTask.charges? : OwnerTask → Option Principal
  | .chown _ _ (.charging _ (p :: _) _) _ => some p
  | _ => none

/-- The user or group that the next section gives its charge back. -/
def OwnerTask.returns? : OwnerTask → Option Principal
  | .chown _ _ (.undoing (p :: _)) _ => some p
  | .chown _ _ (.releasing (p :: _)) _ => some p
  | .chown _ _ (.returning (p :: _)) _ => some p
  | .delete _ (p :: _) => some p
  | _ => none

namespace OwnershipSystem

/-- A request works on the object. -/
def Busy (s : OwnershipSystem) (x : OwnedRef) : Prop :=
  ∃ thread task, s.tasks thread = some task ∧ task.object = x

/-- No request is in progress. -/
def Quiet (s : OwnershipSystem) : Prop := ∀ thread, s.tasks thread = none

/-- The user owns the object, or the group does, and is charged for it. -/
def owns (s : OwnershipSystem) (p : Principal) (x : OwnedRef) : Bool :=
  (s.objects x).any fun obj => obj.live && p ∈ quotaPrincipals obj.uid obj.gid

/-- Every counter is the total over the objects owned. -/
def OwnedTotals (u : OwnedUsage) (s : OwnershipSystem) : Prop :=
  ∀ p qs, s.ledger.quotas p = some qs → ∀ kind id, ∀ m ∈ kind.metrics,
    qs.used kind id m = ∑ x ∈ u.ids with s.owns p x = true, u.amount x kind id m

/-- A chown that succeeds has moved the charge from the owner and group that it found to
those that it was given; a request that fails has left it. -/
def Moved (s : OwnershipSystem) (l : OwnerStep) (answer : Answer) (s' : OwnershipSystem) : Prop :=
  match l.thread?.bind s.tasks, answer with
  | some (.chown x ids _ before), .success => ∃ obj, s.objects x = some obj ∧
      s'.objects x = some (ids.setOwner obj) ∧
      before = tally (quotaPrincipals obj.uid obj.gid) ∧
      s'.ledger.charged x =
        tally (quotaPrincipals (ids.setOwner obj).uid (ids.setOwner obj).gid)
  | some (.chown x _ _ before), .failure => s'.ledger.charged x = before
  | some (.delete x _), .success => s'.ledger.charged x = 0
  | none, .failure => s'.ledger = s.ledger
  | _, _ => True

def Law (u : OwnedUsage) (s : OwnershipSystem) (l : OwnerStep) : Prop :=
  ∀ answer s', s.next u l = some (answer, s') → s.Moved l answer s'

/-- An object is chowned or deleted while it is live and no other request works on it, no
quota that refuses the object has charged a part of it, and no sum of a counter is rounded. -/
def Meets (u : OwnedUsage) (s : OwnershipSystem) : OwnerStep → Prop
  | .chown _ x _ _ allowed => allowed = true → ∀ obj, s.objects x = some obj →
      obj.live = true ∧ ¬ s.Busy x
  | .delete _ x allowed => allowed = true → ∀ obj, s.objects x = some obj →
      obj.live = true ∧ ¬ s.Busy x ∨ ∃ oid, x = .vm oid ∧ obj.live = false
  | .work thread ds => ∀ task, s.tasks thread = some task → ∀ p qs, s.ledger.quotas p = some qs →
      (task.charges? = some p →
        qs.WholeOrNone ds (u.usage task.object) task.object.quotaType .float ∧
        qs.ExactAbove task.object.quotaType (u.usage task.object) .float) ∧
      (task.returns? = some p →
        qs.ExactBelow task.object.quotaType (u.usage task.object) .float)
  | .drop _ => True

/-! ## The invariant -/

structure Inv (u : OwnedUsage) (s : OwnershipSystem) : Prop where
  fits : ∀ thread task, s.tasks thread = some task →
    task.object ∈ u.ids ∧ task.Fits (s.objects task.object) (s.ledger.charged task.object)
  apart : ∀ thread thread' task task', s.tasks thread = some task → s.tasks thread' = some task' →
    task.object = task'.object → thread = thread'
  idle : ∀ x, ¬ s.Busy x → s.ledger.charged x = owed (s.objects x)
  known : ∀ x obj, s.objects x = some obj → x ∈ u.ids ∧ obj.uid ≠ -1 ∧ obj.gid ≠ -1
  accounted : s.ledger.Accounted u

/-- No request is in progress, every object has an owner and a group, and the quotas are
charged for the live objects. -/
structure Started (u : OwnedUsage) (s : OwnershipSystem) : Prop where
  quiet : s.Quiet
  charged : ∀ x, s.ledger.charged x = owed (s.objects x)
  known : ∀ x obj, s.objects x = some obj → x ∈ u.ids ∧ obj.uid ≠ -1 ∧ obj.gid ≠ -1
  totals : s.OwnedTotals u
  sound : ∀ p qs, s.ledger.quotas p = some qs → qs.Sound

section Steps

variable {u : OwnedUsage} {s s' : OwnershipSystem} {x : OwnedRef} {p : Principal} {thread : Nat}
  {task : OwnerTask} {obj : OwnedObject}

theorem count_quotaPrincipals_le (uid gid : Int) (p : Principal) :
    (quotaPrincipals uid gid).count p ≤ 1 := by
  refine List.nodup_iff_count_le_one.mp ?_ p
  unfold quotaPrincipals
  split <;> split <;> simp

theorem owed_eq_owns (s : OwnershipSystem) (x : OwnedRef) (p : Principal) :
    owed (s.objects x) p = if s.owns p x = true then 1 else 0 := by
  cases found : s.objects x with
  | none => simp [owed, owns, found]
  | some obj =>
    by_cases live : obj.live = true
    · by_cases mem : p ∈ quotaPrincipals obj.uid obj.gid
      · have once := count_quotaPrincipals_le obj.uid obj.gid p
        have positive := List.count_pos_iff.mpr mem
        have one : (quotaPrincipals obj.uid obj.gid).count p = 1 := by omega
        simp [owed, owns, found, live, mem, tally, one]
      · simp [owed, owns, found, live, mem, tally, List.count_eq_zero_of_not_mem mem]
    · simp [owed, owns, found, live]

/-- When each object is charged as it is owned, the totals are those of the objects owned. -/
theorem total_of_owed (charged : ∀ x, s.ledger.charged x = owed (s.objects x)) (p : Principal)
    (kind : QuotaKind) (id : String) (m : Metric) :
    s.ledger.total u p kind id m = ∑ x ∈ u.ids with s.owns p x = true, u.amount x kind id m := by
  rw [Ledger.total, Finset.sum_filter]
  refine Finset.sum_congr rfl fun x _ => ?_
  rw [charged x, owed_eq_owns]
  split
  · rw [Int.cast_one, one_mul]
  · rw [Int.cast_zero, zero_mul]

theorem Quiet.not_busy (quiet : s.Quiet) (x : OwnedRef) : ¬ s.Busy x := by
  intro busy
  obtain ⟨thread, task, is, -⟩ := busy
  rw [quiet thread] at is
  cases is

theorem Started.inv (started : s.Started u) : s.Inv u := by
  refine ⟨fun thread task is => ?_, fun thread _ task _ is => ?_, fun x _ => started.charged x,
    started.known, fun x p => ?_, started.sound, fun p qs found kind id m metric => ?_⟩
  · rw [started.quiet thread] at is
    cases is
  · rw [started.quiet thread] at is
    cases is
  · rw [started.charged x, owed_eq_owns]
    split
    · exact zero_le_one
    · exact le_refl 0
  · rw [total_of_owed started.charged]
    exact started.totals p qs found kind id m metric

theorem Inv.ownedTotals (inv : s.Inv u) (quiet : s.Quiet) : s.OwnedTotals u := by
  intro p qs found kind id m metric
  rw [← total_of_owed fun x => inv.idle x (quiet.not_busy x)]
  exact inv.accounted.used p qs found kind id m metric

/-- A step of one thread on one object. -/
theorem Inv.step (inv : s.Inv u) (x : OwnedRef) (thread : Nat) (task? : Option OwnerTask)
    (tasks : s'.tasks = Function.update s.tasks thread task?)
    (others : ∀ x', x' ≠ x → s'.objects x' = s.objects x' ∧
      s'.ledger.charged x' = s.ledger.charged x')
    (mine : ∀ task, s.tasks thread = some task → task.object = x)
    (alone : ∀ thread' task, s.tasks thread' = some task → task.object = x → thread' = thread)
    (working : ∀ task, task? = some task → task.object = x ∧ x ∈ u.ids ∧
      task.Fits (s'.objects x) (s'.ledger.charged x))
    (done : task? = none → s'.ledger.charged x = owed (s'.objects x))
    (known : ∀ obj, s'.objects x = some obj → x ∈ u.ids ∧ obj.uid ≠ -1 ∧ obj.gid ≠ -1)
    (accounted : s'.ledger.Accounted u) : s'.Inv u := by
  -- a thread that works on another object did so before
  have cases_of {t : Nat} {task : OwnerTask} (is : s'.tasks t = some task) :
      t = thread ∧ task? = some task ∧ task.object = x ∨
        t ≠ thread ∧ s.tasks t = some task ∧ task.object ≠ x := by
    rw [tasks] at is
    rcases update_eq_some is with ⟨same, new⟩ | ⟨other, old⟩
    · exact Or.inl ⟨same, new, (working task new).1⟩
    · exact Or.inr ⟨other, old, fun here => other (alone t task old here)⟩
  refine ⟨fun t task is => ?_, fun t t' task task' is is' same => ?_, fun x' free => ?_,
    fun x' obj found => ?_, accounted⟩
  · rcases cases_of is with ⟨-, new, here⟩ | ⟨-, old, there⟩
    · rw [here]
      exact (working task new).2
    · rw [(others _ there).1, (others _ there).2]
      exact inv.fits t task old
  · rcases cases_of is with ⟨here, -, mine⟩ | ⟨-, old, there⟩
    · rcases cases_of is' with ⟨here', -⟩ | ⟨-, -, there'⟩
      · rw [here, here']
      · exact absurd (same.symm.trans mine) there'
    · rcases cases_of is' with ⟨-, -, mine'⟩ | ⟨-, old', -⟩
      · exact absurd (same.trans mine') there
      · exact inv.apart t t' task task' old old' same
  · by_cases same : x' = x
    · subst same
      refine done ?_
      cases now : task? with
      | none => rfl
      | some task =>
        refine absurd ⟨thread, task, ?_, (working task now).1⟩ free
        rw [tasks, Function.update_self, now]
    · rw [(others x' same).1, (others x' same).2]
      refine inv.idle x' fun busy => ?_
      obtain ⟨t, task, is, object⟩ := busy
      refine free ⟨t, task, ?_, object⟩
      rw [tasks, Function.update_of_ne]
      · exact is
      · rintro rfl
        exact same (object.symm.trans (mine task is))
  · by_cases same : x' = x
    · subst same
      exact known obj found
    · rw [(others x' same).1] at found
      exact inv.known x' obj found

/-! ## The users and groups of a request -/

theorem tally_quotaPrincipals (uid gid : Int) :
    tally (quotaPrincipals uid gid) =
      tally (quotaPrincipals uid (-1)) + tally (quotaPrincipals (-1) gid) := by
  funext p
  simp [tally, quotaPrincipals]

/-- Charging the new and releasing the old ones moves the charge to the owner that is set. -/
theorem tally_setOwner (newUid newGid : Int) (obj : OwnedObject) :
    let ids := ChownIds.of newUid newGid obj
    tally (quotaPrincipals (ids.setOwner obj).uid (ids.setOwner obj).gid) =
      tally (quotaPrincipals obj.uid obj.gid) + tally ids.new - tally ids.old := by
  simp only [ChownIds.of, ChownIds.setOwner, ChownIds.new, ChownIds.old]
  rw [tally_quotaPrincipals, tally_quotaPrincipals obj.uid, tally_quotaPrincipals newUid,
    tally_quotaPrincipals (if newUid = -1 then -1 else obj.uid)]
  by_cases keepUser : newUid = -1 <;> by_cases keepGroup : newGid = -1
  · simp only [keepUser, keepGroup, if_true]
    abel
  · simp only [keepUser, keepGroup, if_true, if_false]
    abel
  · simp only [keepUser, keepGroup, if_true, if_false]
    abel
  · simp only [keepUser, keepGroup, if_false]
    abel

/-- What is released was charged to the owner or the group. -/
theorem tally_old_le (newUid newGid : Int) (obj : OwnedObject) (p : Principal) :
    tally (ChownIds.of newUid newGid obj).old p ≤ tally (quotaPrincipals obj.uid obj.gid) p := by
  simp only [ChownIds.of, ChownIds.old]
  rw [tally_quotaPrincipals, tally_quotaPrincipals obj.uid, Pi.add_apply, Pi.add_apply]
  refine add_le_add ?_ ?_
  · split
    · exact tally_nonneg _ p
    · exact le_refl _
  · split
    · exact tally_nonneg _ p
    · exact le_refl _

theorem delPrincipals_eq (user : obj.uid ≠ -1) (group : obj.gid ≠ -1) :
    delPrincipals obj.uid obj.gid = quotaPrincipals obj.uid obj.gid := by
  simp only [delPrincipals, quotaPrincipals, user, group, ne_eq, not_false_eq_true, and_true]

/-! ## The sections of a chown -/

variable {ids : ChownIds} {phase phase' : ChownPhase} {before : Principal → Int} {ledger : Ledger}

/-- The object of a chown. -/
theorem Inv.chowned (inv : s.Inv u) (is : s.tasks thread = some (.chown x ids phase before)) :
    x ∈ u.ids ∧ ∃ obj, s.objects x = some obj ∧ obj.live = true ∧
      before = tally (quotaPrincipals obj.uid obj.gid) ∧
      ids = ChownIds.of ids.newUid ids.newGid obj ∧
      phase.Fits ids (s.ledger.charged x) before :=
  inv.fits thread _ is

/-- A section of a chown that goes on. -/
theorem Inv.goOn (inv : s.Inv u) (is : s.tasks thread = some (.chown x ids phase before))
    (accounted : ledger.Accounted u)
    (others : ∀ x', x' ≠ x → ledger.charged x' = s.ledger.charged x')
    (fits : phase'.Fits ids (ledger.charged x) before) :
    ({ s with ledger }.setTask thread (some (.chown x ids phase' before))).Inv u := by
  obtain ⟨mem, obj, found, live, charged, from_, -⟩ := inv.chowned is
  refine inv.step x thread (some (.chown x ids phase' before)) rfl
    (fun x' other => ⟨rfl, others x' other⟩) (fun task this => ?_) (fun t task other object => ?_)
    (fun task new => ?_) (fun impossible => by cases impossible) (inv.known x) accounted
  · rw [is] at this
    cases this
    rfl
  · exact inv.apart t thread task _ other is object
  · cases new
    exact ⟨rfl, mem, obj, found, live, charged, from_, fits⟩

/-- The last section of a request. -/
theorem Inv.finish (inv : s.Inv u) (is : s.tasks thread = some task) (object : task.object = x)
    {obj? : Option OwnedObject} (charged : s.ledger.charged x = owed obj?)
    (known : ∀ obj, obj? = some obj → obj.uid ≠ -1 ∧ obj.gid ≠ -1) :
    ((s.setObject x obj?).setTask thread none).Inv u := by
  have here : ((s.setObject x obj?).setTask thread none).objects x = obj? :=
    Function.update_self ..
  refine inv.step x thread none rfl (fun x' other => ⟨Function.update_of_ne other _ _, rfl⟩)
    (fun task' this => ?_) (fun t task' other object' => ?_) (fun task new => by cases new)
    (fun _ => here.symm ▸ charged) (fun obj found => ⟨?_, known obj (here ▸ found)⟩) inv.accounted
  · rw [is] at this
    cases this
    exact object
  · exact inv.apart t thread task' task other is (object'.trans object.symm)
  · exact object ▸ (inv.fits thread task is).1

theorem setObject_self : s.setObject x (s.objects x) = s := by
  simp only [setObject, Function.update_eq_self]

/-- A section that gives back one charge. -/
theorem Inv.rollback (inv : s.Inv u) (is : s.tasks thread = some task) (object : task.object = x)
    (exact : ∀ qs, s.ledger.quotas p = some qs →
      qs.ExactBelow x.quotaType (u.usage x) .float)
    (charged : 0 < s.ledger.charged x p) :
    (s.ledger.quotaRollback u x p).Accounted u ∧
      (∀ x', x' ≠ x → (s.ledger.quotaRollback u x p).charged x' = s.ledger.charged x') ∧
      (s.ledger.quotaRollback u x p).charged x = s.ledger.charged x - tally [p] := by
  have mem : x ∈ u.ids := object ▸ (inv.fits thread task is).1
  exact ⟨inv.accounted.rollback mem exact charged, fun x' other => Ledger.charged_addCharge_ne other,
    Ledger.charged_quotaRollback⟩

/-- A charge that is given back brings a phase to the next. -/
theorem Inv.rollbackChown (inv : s.Inv u)
    (is : s.tasks thread = some (.chown x ids phase before))
    (exact : ∀ qs, s.ledger.quotas p = some qs → qs.ExactBelow x.quotaType (u.usage x) .float)
    (rest : Principal → Int) (charged : s.ledger.charged x = rest + tally [p]) (nonneg : 0 ≤ rest p)
    (fits : phase'.Fits ids rest before) :
    ({ s with ledger := s.ledger.quotaRollback u x p }.setTask thread
      (some (.chown x ids phase' before))).Inv u := by
  have positive : 0 < s.ledger.charged x p := by
    have once : tally [p] p = 1 := by simp [tally]
    rw [charged, Pi.add_apply, once]
    omega
  obtain ⟨accounted, others, mine⟩ := inv.rollback (x := x) is rfl exact positive
  refine inv.goOn is accounted others ?_
  rw [mine, charged, add_sub_cancel_right]
  exact fits

/-- A section of a chown keeps the invariant, and an answer tells what was moved. -/
theorem Inv.workChown (inv : s.Inv u) {ds : Quotas}
    (is : s.tasks thread = some (.chown x ids phase before))
    (meets : s.Meets u (.work thread ds)) {answer : Answer}
    (taken : s.workChown u thread ds x ids before phase = (answer, s')) :
    s'.Inv u ∧ s.Moved (.work thread ds) answer s' := by
  have task : (OwnerStep.work thread ds).thread?.bind s.tasks =
      some (.chown x ids phase before) := is
  have exact_ (p : Principal) (qs : Quotas) (there : s.ledger.quotas p = some qs) :=
    meets _ is p qs there
  obtain ⟨mem, obj, found, live, charged, from_, fits⟩ := inv.chowned is
  obtain ⟨-, user, group⟩ := inv.known x obj found
  have nonneg (p : Principal) : 0 ≤ before p := charged ▸ tally_nonneg _ p
  have failed (kept : s.ledger.charged x = before) :
      (s.setTask thread none).Inv u ∧
        s.Moved (.work thread ds) .failure (s.setTask thread none) := by
    refine ⟨setObject_self (s := s) (x := x) ▸ inv.finish (x := x) is rfl ?_ fun _ same => ?_, ?_⟩
    · rw [kept, found, charged, owed, if_pos live]
    · cases found.symm.trans same
      exact ⟨user, group⟩
    · simp only [Moved, task]
      exact kept
  have goesOn (phase' : ChownPhase) (ledger : Ledger)
      (inv' : ({ s with ledger }.setTask thread (some (.chown x ids phase' before))).Inv u) :
      ({ s with ledger }.setTask thread (some (.chown x ids phase' before))).Inv u ∧
        s.Moved (.work thread ds) .pending
          ({ s with ledger }.setTask thread (some (.chown x ids phase' before))) := by
    refine ⟨inv', ?_⟩
    simp only [Moved, task]
  cases phase with
  | charging again todo done =>
    obtain ⟨rfl, now, new⟩ := fits
    cases todo with
    | cons p todo =>
      simp only [OwnershipSystem.workChown] at taken
      rcases Ledger.authorization_cases inv.accounted mem
          (fun qs there => ((exact_ p qs there).1 rfl).2)
          (fun qs there => ((exact_ p qs there).1 rfl).1) with
        ⟨ledger, run, accounted, mine, others⟩ | ⟨ledger, run, accounted, same⟩
      · rw [run] at taken
        cases taken
        refine goesOn _ ledger (inv.goOn is accounted others ⟨rfl, ?_, ?_⟩)
        · rw [mine, now, tally_cons p done]
          abel
        · rw [new, tally_cons p todo, tally_cons p done]
          abel
      · rw [run] at taken
        cases taken
        refine goesOn _ ledger (inv.goOn is accounted (fun x' _ => by rw [same]) ?_)
        rw [same]
        exact now
    | nil =>
      cases taken
      refine goesOn _ s.ledger (inv.goOn is inv.accounted (fun _ _ => rfl) ?_)
      have nothing : tally [] = 0 := rfl
      rw [ChownPhase.Fits, now, new, nothing]
      abel
  | undoing todo =>
    cases todo with
    | cons p todo =>
      cases taken
      refine goesOn _ _ (inv.rollbackChown is (fun qs there => (exact_ p qs there).2 rfl)
        (before + tally todo) ?_ ?_ rfl)
      · rw [show s.ledger.charged x = _ from fits, tally_cons]
        abel
      · exact add_nonneg (nonneg p) (tally_nonneg todo p)
    | nil =>
      cases taken
      exact failed (fits.trans (add_zero before))
  | releasing todo =>
    cases todo with
    | cons p todo =>
      cases taken
      refine goesOn _ _ (inv.rollbackChown is (fun qs there => (exact_ p qs there).2 rfl)
        (before + tally ids.new - tally ids.old + tally todo) ?_ ?_ rfl)
      · rw [show s.ledger.charged x = _ from fits, tally_cons]
        abel
      · have less := tally_old_le ids.newUid ids.newGid obj p
        rw [← from_, ← charged] at less
        have new := tally_nonneg ids.new p
        have rest := tally_nonneg todo p
        simp only [Pi.add_apply, Pi.sub_apply]
        omega
    | nil =>
      cases taken
      exact goesOn _ s.ledger (inv.goOn is inv.accounted (fun _ _ => rfl)
        (fits.trans (add_zero _)))
  | settling =>
    simp only [OwnershipSystem.workChown, found] at taken
    cases taken
    have moved : s.ledger.charged x =
        tally (quotaPrincipals (ids.setOwner obj).uid (ids.setOwner obj).gid) := by
      have owner := tally_setOwner ids.newUid ids.newGid obj
      simp only [← from_] at owner
      rw [owner, ← charged]
      exact fits
    refine ⟨inv.finish (x := x) is rfl ?_ fun _ same => ?_, ?_⟩
    · rw [moved, owed, if_pos (show (ids.setOwner obj).live = true from live)]
    · cases same
      refine ⟨?_, ?_⟩
      · simp only [ChownIds.setOwner]
        split
        · exact user
        · assumption
      · simp only [ChownIds.setOwner]
        split
        · exact group
        · assumption
    · simp only [Moved, task]
      exact ⟨obj, found, Function.update_self .., charged, moved⟩
  | returning todo => exact fits.elim

/-- A section of a deletion. -/
theorem Inv.workDelete (inv : s.Inv u) {todo : List Principal} {ds : Quotas}
    (is : s.tasks thread = some (.delete x (p :: todo))) (meets : s.Meets u (.work thread ds)) :
    ({ s with ledger := s.ledger.quotaRollback u x p }.setTask thread
      (some (.delete x todo))).Inv u := by
  obtain ⟨mem, gone, charged⟩ := inv.fits thread _ is
  rw [tally_cons, add_comm] at charged
  have positive : 0 < s.ledger.charged x p := by
    have once : tally [p] p = 1 := by simp [tally]
    have rest := tally_nonneg todo p
    rw [show s.ledger.charged x = _ from charged, Pi.add_apply, once]
    omega
  obtain ⟨accounted, others, mine⟩ := inv.rollback is rfl
    (fun qs there => (meets _ is p qs there).2 rfl) positive
  refine inv.step x thread (some (.delete x todo)) rfl (fun x' other => ⟨rfl, others x' other⟩)
    (fun task this => ?_) (fun t task other object => ?_) (fun task new => ?_)
    (fun impossible => by cases impossible) (inv.known x) accounted
  · rw [is] at this
    cases this
    rfl
  · exact inv.apart t thread task _ other is object
  · cases new
    refine ⟨rfl, mem, gone, ?_⟩
    exact mine.trans (sub_eq_of_eq_add charged)

/-! ## The first section of a request -/

/-- A request begins on an object that no other request works on. -/
theorem Inv.begin (inv : s.Inv u) (task : OwnerTask) (free : s.tasks thread = none) (idle : ¬ s.Busy x)
    (object : task.object = x) {obj' : OwnedObject} (found : s.objects x = some obj)
    (uid : obj'.uid = obj.uid) (gid : obj'.gid = obj.gid)
    (fits : task.Fits (some obj') (s.ledger.charged x)) :
    ((s.setObject x (some obj')).setTask thread (some task)).Inv u := by
  have here : ((s.setObject x (some obj')).setTask thread (some task)).objects x = some obj' :=
    Function.update_self ..
  obtain ⟨mem, user, group⟩ := inv.known x obj found
  refine inv.step x thread (some task) rfl (fun x' other => ⟨Function.update_of_ne other _ _, rfl⟩)
    (fun task' this => ?_) (fun t task' other object' => absurd ⟨t, task', other, object'⟩ idle)
    (fun task' new => ?_) (fun impossible => by cases impossible) (fun obj' found' => ?_)
    inv.accounted
  · rw [free] at this
    cases this
  · cases new
    exact ⟨object, mem, here.symm ▸ fits⟩
  · cases here.symm.trans found'
    exact ⟨mem, uid ▸ user, gid ▸ group⟩

theorem Inv.chown (inv : s.Inv u) {newUid newGid : Int} {allowed : Bool} {answer : Answer}
    (meets : s.Meets u (.chown thread x newUid newGid allowed))
    (taken : s.chown thread x newUid newGid allowed = some (answer, s')) :
    s'.Inv u ∧ s.Moved (.chown thread x newUid newGid allowed) answer s' := by
  unfold OwnershipSystem.chown at taken
  split at taken
  · cases taken
  · rename_i free
    have free : s.tasks thread = none := Option.not_isSome_iff_eq_none.mp free
    have task : (OwnerStep.chown thread x newUid newGid allowed).thread?.bind s.tasks = none := free
    split at taken
    · rename_i obj found
      cases taken
      obtain ⟨live, idle⟩ := meets rfl obj found
      refine ⟨?_, ?_⟩
      · have same : s.setObject x (some obj) = s := found ▸ setObject_self
        have begun := inv.begin (.chown x (.of newUid newGid obj)
          (.charging false (ChownIds.of newUid newGid obj).new []) (s.ledger.charged x))
          free idle rfl found rfl rfl
          ⟨obj, rfl, live, ?_, rfl, rfl, (add_zero _).symm, (zero_add _).symm⟩
        · rw [same] at begun
          exact begun
        · rw [inv.idle x idle, found, owed, if_pos live]
      · simp only [Moved, task]
    · cases taken
      refine ⟨inv, ?_⟩
      simp only [Moved, task]

theorem Inv.delete (inv : s.Inv u) {allowed : Bool} {answer : Answer}
    (meets : s.Meets u (.delete thread x allowed))
    (taken : s.delete thread x allowed = some (answer, s')) :
    s'.Inv u ∧ s.Moved (.delete thread x allowed) answer s' := by
  unfold OwnershipSystem.delete at taken
  split at taken
  · cases taken
  · rename_i free
    have free : s.tasks thread = none := Option.not_isSome_iff_eq_none.mp free
    have task : (OwnerStep.delete thread x allowed).thread?.bind s.tasks = none := free
    split at taken
    · rename_i obj found
      split at taken
      · cases taken
        refine ⟨inv, ?_⟩
        simp only [Moved, task]
      · rename_i notDone
        cases taken
        rcases meets rfl obj found with ⟨live, idle⟩ | ⟨oid, rfl, done⟩
        · obtain ⟨mem, user, group⟩ := inv.known _ obj found
          refine ⟨inv.begin _ free idle rfl found rfl rfl ⟨fun obj' same => ?_, ?_⟩, ?_⟩
          · cases same
            rfl
          · rw [inv.idle _ idle, found, owed, if_pos live, delPrincipals_eq user group]
          · simp only [Moved, task]
        · exact absurd done (notDone oid rfl)
    · cases taken
      refine ⟨inv, ?_⟩
      simp only [Moved, task]

/-! ## One section -/

theorem Inv.work (inv : s.Inv u) {ds : Quotas} {answer : Answer}
    (meets : s.Meets u (.work thread ds)) (taken : s.work u thread ds = some (answer, s')) :
    s'.Inv u ∧ s.Moved (.work thread ds) answer s' := by
  unfold OwnershipSystem.work at taken
  split at taken
  · rename_i x ids phase before is
    exact inv.workChown is meets (Option.some.inj taken)
  · rename_i x p todo is
    cases taken
    refine ⟨inv.workDelete is meets, ?_⟩
    simp only [Moved, OwnerStep.thread?, Option.bind_some, is]
  · rename_i x is
    cases taken
    obtain ⟨mem, gone, charged⟩ : x ∈ u.ids ∧ _ := inv.fits thread _ is
    have nothing : owed (s.objects x) = 0 := by
      cases found : s.objects x with
      | none => rfl
      | some obj =>
        have dead := gone obj found
        simp only [owed, dead, Bool.false_eq_true, if_false]
    refine ⟨setObject_self (s := s) (x := x) ▸ inv.finish (x := x) is rfl ?_ fun obj found => ?_, ?_⟩
    · rw [nothing]
      exact charged
    · exact (inv.known x obj found).2
    · simp only [Moved, OwnerStep.thread?, Option.bind_some, is]
      exact charged
  · cases taken

theorem Inv.drop (inv : s.Inv u) {oid : Nat} {answer : Answer}
    (taken : s.drop oid = some (answer, s')) : s'.Inv u := by
  unfold OwnershipSystem.drop at taken
  split at taken
  · rename_i uid gid found
    cases taken
    have other {x : OwnedRef} (ne : x ≠ .image oid) :
        (s.setObject (.image oid) none).objects x = s.objects x := Function.update_of_ne ne ..
    have here : (s.setObject (.image oid) none).objects (.image oid) = none :=
      Function.update_self ..
    refine ⟨fun thread task is => ?_, inv.apart, fun x idle => ?_, fun x obj there => ?_,
      inv.accounted⟩
    · obtain ⟨mem, fits⟩ := inv.fits thread task is
      refine ⟨mem, ?_⟩
      by_cases same : task.object = .image oid
      · rw [same, found] at fits
        rw [same, here]
        cases task with
        | chown x ids phase before =>
          obtain ⟨obj, this, live, -⟩ := fits
          cases this
          cases live
        | delete x todo => exact ⟨fun _ impossible => (by cases impossible), fits.2⟩
      · rw [other same]
        exact fits
    · by_cases same : x = .image oid
      · subst same
        rw [here, show (s.setObject _ none).ledger = s.ledger from rfl, inv.idle _ idle, found]
        rfl
      · rw [other same]
        exact inv.idle x idle
    · by_cases same : x = .image oid
      · subst same
        rw [here] at there
        cases there
      · rw [other same] at there
        exact inv.known x obj there
  · cases taken

/-- One section keeps the invariant, and an answer tells what was moved. -/
theorem Inv.next (inv : s.Inv u) {l : OwnerStep} {answer : Answer} (meets : s.Meets u l)
    (taken : s.next u l = some (answer, s')) : s'.Inv u ∧ s.Moved l answer s' := by
  cases l with
  | chown thread x newUid newGid allowed => exact inv.chown meets taken
  | delete thread x allowed => exact inv.delete meets taken
  | work thread ds => exact inv.work meets taken
  | drop oid =>
    refine ⟨inv.drop taken, ?_⟩
    simp only [OwnershipSystem.next, OwnershipSystem.drop] at taken
    split at taken
    · cases taken
      trivial
    · cases taken

end Steps

/-- After a run whose sections meet the condition every counter is the sum over what is
charged, and over the objects owned when no request is in progress; and a further section
that meets it moves the charge as it answers. -/
theorem moved_of_reached {u : OwnedUsage} {s : OwnershipSystem}
    (reached : Reachable (Started u) (Guarded (Meets u) (Step u)) s) :
    s.ledger.Accounted u ∧ (s.Quiet → s.OwnedTotals u) ∧ ∀ l, s.Meets u l → s.Law u l := by
  have inv : s.Inv u := reached.invariant (fun _ => Started.inv) fun _ _ _ before taken => by
    obtain ⟨meets, answer, next⟩ := taken
    exact (before.next meets next).1
  exact ⟨inv.accounted, inv.ownedTotals, fun l meets answer s' taken => (inv.next meets taken).2⟩

/-! ## The chown of a VM that is `DONE` -/

def vmTemplate : Template := [.single "MEMORY" "64", .single "CPU" "1"]

/-- One VM. -/
def oneVm : OwnedUsage where
  ids := {.vm 0}
  usage _ := vmTemplate
  nonneg x mem := by
    cases Finset.mem_singleton.mp mem
    have accepted : ((QuotaSystem.noQuotas false).quotaCheck .virtualMachine vmTemplate
        (QuotaSystem.noQuotas true)).1 = .ok () := by decide +kernel
    exact Quotas.amounts_nonneg accepted

/-- Users without limits, and a VM of oneadmin, which is charged to nobody. -/
def vmOfOneadmin (live : Bool) : OwnershipSystem where
  objects x := if x = .vm 0 then some ⟨Principal.oneadminId, Principal.oneadminId, live⟩ else none
  ledger := ⟨fun _ => some (QuotaSystem.noQuotas false), fun _ _ => 0⟩
  tasks _ := none

theorem started_vmOfOneadmin (live : Bool) : (vmOfOneadmin live).Started oneVm := by
  have nobody (x : OwnedRef) : owed ((vmOfOneadmin live).objects x) = 0 := by
    simp only [vmOfOneadmin]
    split
    · cases live <;> rfl
    · rfl
  refine ⟨fun _ => rfl, fun x => (nobody x).symm, fun x obj found => ?_,
    fun p qs found kind id m metric => ?_, fun p qs found kind => ?_⟩
  · simp only [vmOfOneadmin] at found
    split at found
    · rename_i this
      cases found
      have other : Principal.oneadminId ≠ -1 := by decide
      exact ⟨Finset.mem_singleton.mpr this, other, other⟩
    · cases found
  · cases found
    rw [← total_of_owed fun x => (nobody x).symm]
    have zero : (vmOfOneadmin live).ledger.total oneVm p kind id m = 0 :=
      Finset.sum_eq_zero fun x _ => zero_mul _
    rw [zero]
    cases kind <;> rfl
  · cases found
    refine ⟨fun id m metric => ?_, fun id m metric used => ?_⟩
    · cases kind <;> exact le_refl 0
    · cases kind <;> exact absurd rfl used

/-- The VM is given to user 3. -/
def chownVm : List OwnerStep :=
  .chown 0 (.vm 0) 3 (-1) true :: List.replicate 4 (.work 0 (QuotaSystem.noQuotas true))

/-- The state after the sections. -/
def after (live : Bool) (labels : List OwnerStep) : Option OwnershipSystem :=
  labels.foldlM (fun s l => (s.next oneVm l).map Prod.snd) (vmOfOneadmin live)

theorem reachable_of_after {live : Bool} {labels : List OwnerStep} {s : OwnershipSystem}
    (run : after live labels = some s) : Reachable (Started oneVm) (Step oneVm) s := by
  refine Reachable.foldlM _ labels (fun s l s' taken => ?_) (.init (started_vmOfOneadmin live)) run
  obtain ⟨⟨answer, s'⟩, next, rfl⟩ := Option.map_eq_some_iff.mp taken
  exact ⟨answer, next⟩

/-- A section of one thread leaves the requests of the others. -/
theorem tasks_next {u : OwnedUsage} {s s' : OwnershipSystem} {l : OwnerStep} {answer : Answer}
    {thread other : Nat} (of : l.thread? = some thread) (ne : other ≠ thread)
    (taken : s.next u l = some (answer, s')) : s'.tasks other = s.tasks other := by
  have set {s₀ : OwnershipSystem} {task : Option OwnerTask} (same : s₀.tasks = s.tasks) :
      (s₀.setTask thread task).tasks other = s.tasks other := by
    rw [← same]
    exact Function.update_of_ne ne ..
  cases l with
  | chown t x newUid newGid allowed =>
    cases of
    simp only [OwnershipSystem.next, OwnershipSystem.chown] at taken
    split at taken
    · cases taken
    · split at taken <;> cases taken
      · exact set rfl
      · rfl
  | delete t x allowed =>
    cases of
    simp only [OwnershipSystem.next, OwnershipSystem.delete] at taken
    split at taken
    · cases taken
    · split at taken
      · split at taken <;> cases taken
        · rfl
        · exact set rfl
      · cases taken
        rfl
  | work t ds =>
    cases of
    simp only [OwnershipSystem.next, OwnershipSystem.work] at taken
    split at taken
    · rename_i x ids phase before is
      have taken := Option.some.inj taken
      unfold OwnershipSystem.workChown at taken
      split at taken <;> (try split at taken) <;> cases taken <;> exact set rfl
    · cases taken
      exact set rfl
    · cases taken
      exact set rfl
    · cases taken
  | drop oid => cases of

/-- Sections of thread 0 leave no request when its own is answered. -/
theorem quiet_of_after {live : Bool} {labels : List OwnerStep} {s : OwnershipSystem}
    (alone : ∀ l ∈ labels, l.thread? = some 0) (run : after live labels = some s)
    (done : s.tasks 0 = none) : s.Quiet := by
  have others : ∀ s₀ : OwnershipSystem, (∀ t, t ≠ 0 → s₀.tasks t = none) →
      labels.foldlM (fun s l => (s.next oneVm l).map Prod.snd) s₀ = some s →
      ∀ t, t ≠ 0 → s.tasks t = none := by
    clear run
    induction labels with
    | nil =>
      intro s₀ none run
      cases run
      exact none
    | cons l labels ih =>
      intro s₀ none run
      rw [List.foldlM_cons] at run
      obtain ⟨s₁, first, rest⟩ := Option.bind_eq_some_iff.mp run
      obtain ⟨⟨answer, s₁⟩, next, rfl⟩ := Option.map_eq_some_iff.mp first
      refine ih (fun l mem => alone l (List.mem_cons_of_mem _ mem)) s₁ (fun t ne => ?_) rest
      rw [tasks_next (alone l List.mem_cons_self) ne next]
      exact none t ne
  intro t
  by_cases zero : t = 0
  · exact zero ▸ done
  · exact others _ (fun _ _ => rfl) run t zero

/-- What user 3 is charged for, and whether the VM is counted. -/
def userThree (s : OwnershipSystem) : Option ℚ × Bool :=
  ((s.ledger.quotas (.user 3)).map fun qs => qs.used .vm "" .vms, s.owns (.user 3) (.vm 0))

/-- User 3 is charged for a VM that is `DONE`. -/
theorem charged_done : (after false chownVm).map (fun s => ((s.tasks 0).isNone, s.userThree)) =
    some (true, some 1, false) := by
  decide +kernel

/-- The chown succeeds, and the counter is not what user 3 owns. -/
theorem done_vm_charged :
    ¬ ∀ (u : OwnedUsage) (s : OwnershipSystem), Reachable (Started u) (Step u) s →
      s.ledger.Accounted u ∧ (s.Quiet → s.OwnedTotals u) ∧ ∀ l, s.Law u l := by
  intro always
  obtain ⟨s, run, facts⟩ := Option.map_eq_some_iff.mp charged_done
  simp only [userThree, Prod.mk.injEq, Option.isNone_iff_eq_none, Option.map_eq_some_iff] at facts
  obtain ⟨done, ⟨qs, found, one⟩, notOwned⟩ := facts
  have quiet : s.Quiet := quiet_of_after (by decide) run done
  have total := (always oneVm s (reachable_of_after run)).2.1 quiet (.user 3) qs found .vm "" .vms
    (by decide)
  have empty : ∀ x ∈ oneVm.ids, ¬ s.owns (.user 3) x = true := by
    intro x mem
    cases Finset.mem_singleton.mp mem
    rw [notOwned]
    exact Bool.false_ne_true
  rw [one, Finset.filter_false_of_mem empty, Finset.sum_empty] at total
  exact absurd total one_ne_zero

/-- The chown of a live VM before user 3 is charged. -/
def chownBegun : OwnershipSystem :=
  (vmOfOneadmin true).setTask 0 (some (.chown (.vm 0) ⟨3, -1, Principal.oneadminId, -1⟩
    (.charging false [.user 3] []) fun _ => 0))

/-- User 3 is charged for a live VM. -/
theorem moved_of_reached_charged :
    ∃ s, (chownBegun.next oneVm (.work 0 (QuotaSystem.noQuotas true))).map Prod.snd = some s ∧
      s.ledger.Accounted oneVm ∧ (s.Quiet → s.OwnedTotals oneVm) ∧
      ∀ l, s.Meets oneVm l → s.Law oneVm l := by
  have begun : Reachable (Started oneVm) (Guarded (Meets oneVm) (Step oneVm)) chownBegun :=
    .step (l := .chown 0 (.vm 0) 3 (-1) true) (.init (started_vmOfOneadmin true))
      ⟨fun _ obj found => by
        cases found
        exact ⟨rfl, Quiet.not_busy (fun _ => rfl) _⟩, .pending, rfl⟩
  have meets : chownBegun.Meets oneVm (.work 0 (QuotaSystem.noQuotas true)) := by
    intro task is p qs found
    cases is
    cases found
    refine ⟨fun _ => ⟨⟨Or.inl (Quota.admitted_of_check (by decide +kernel)), fun _ =>
      ⟨Or.inl (Quota.admitted_of_check (by decide +kernel)), fun _ =>
        Or.inl (Quota.admitted_of_check (by decide +kernel))⟩⟩,
      Quotas.exactAbove_of_plain (by decide +kernel)⟩, fun none_ => by cases none_⟩
  cases run : chownBegun.next oneVm (.work 0 (QuotaSystem.noQuotas true)) with
  | none => cases run
  | some r => exact ⟨r.2, rfl, moved_of_reached (.step begun ⟨meets, r.1, run⟩)⟩

end OwnershipSystem

end Ezilla
