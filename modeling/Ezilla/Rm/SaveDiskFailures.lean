import Ezilla.Rm.SaveDisk

/-!
# What a failed save-as leaves behind

Every exit of the request but one gives the save-as up: the VM goes back to the state it had,
without the marks of the request, and what was charged is given back. An image that the driver
cannot make stays in ERROR, and it stays charged.

The counters of the quotas are texts with two decimals, so what is charged is given back where
no sum is rounded.

* `SavingVm.clearSaveasState_setSaveasState`: the marks and the states are undone;
* `QuotaPool.authorize_cases`, `QuotaPool.rollback_charged`: so are the charges;
* `SaveDiskRequest.requestExecute_ends`: the exits of the request;
* `SaveDiskRequest.saveDisk_leaves`: the request and the answer of the driver.
-/

namespace Ezilla

/-! ## States and marks -/

section Marks

variable {α : Type} {marked : α → Bool} {f g : α → α}

theorem clearFirst_clearFirst (keeps : ∀ x, marked (f x) = marked x) (xs : List α) :
    clearFirst marked g (clearFirst marked f xs) = clearFirst marked (fun x => g (f x)) xs := by
  induction xs with
  | nil => rfl
  | cons x xs ih =>
    by_cases first : marked x = true
    · have same := keeps x
      rw [first] at same
      simp only [clearFirst, if_pos first, if_pos same]
    · simp only [clearFirst, if_neg first, ih]

theorem clearFirst_eq_self {xs : List α} (same : ∀ x ∈ xs, marked x = true → f x = x) :
    clearFirst marked f xs = xs := by
  induction xs with
  | nil => rfl
  | cons x xs ih =>
    rw [clearFirst]
    split
    · rename_i first
      rw [same x List.mem_cons_self first]
    · rw [ih fun y member => same y (List.mem_cons_of_mem x member)]

end Marks

namespace Attribute

variable {values : List (String × String)} {name value : String}

theorem remove_replace : remove (replace values name value) name = remove values name := by
  unfold remove replace
  rw [List.filter_cons_of_neg (by simp), List.filter_filter]
  simp only [Bool.and_self]

theorem remove_eq_self (absent : name ∉ values.map Prod.fst) : remove values name = values := by
  refine List.filter_eq_self.mpr fun v member => decide_eq_true fun same => absent ?_
  exact List.mem_map.mpr ⟨v, member, same⟩

end Attribute

/-- What was marked and is unmarked has no marks. -/
theorem unmarkValues_markValues (hot : Bool) (values : List (String × String)) :
    unmarkValues hot (markValues hot values) = unmarkValues hot values := by
  unfold unmarkValues markValues saveMarks
  cases hot with
  | false =>
    simp only [Bool.false_eq_true, if_false, List.foldl_cons, List.foldl_nil,
      Attribute.remove_replace]
  | true => simp only [if_true, List.foldl_cons, List.foldl_nil, Attribute.remove_replace]

namespace SavingVm

variable {vm saving : SavingVm} {diskId : Int} {hot : Bool}

/-- The states in which a VM can be asked to save a disk. -/
def AtRest (vm : SavingVm) : Prop :=
  vm.state = .active ∧ vm.lcmState = .running ∨
    (vm.state = .poweroff ∨ vm.state = .suspended) ∧ vm.lcmState = .lcmInit

/-- The VM without the marks of a save-as on one disk. -/
def withoutMarks (vm : SavingVm) (diskId : Int) (hot : Bool) : SavingVm :=
  vm.changeDisk diskId (unmarkValues hot)

/-- The disk has no marks of a save-as. -/
def Unmarked (vm : SavingVm) (diskId : Int) (hot : Bool) : Prop :=
  ∀ disk ∈ vm.disks, disk.diskId = diskId → ∀ name ∈ saveMarks hot, name ∉ disk.values.map Prod.fst

theorem unmarkValues_eq_self {values : List (String × String)}
    (unmarked : ∀ name ∈ saveMarks hot, name ∉ values.map Prod.fst) :
    unmarkValues hot values = values := by
  have removes : ∀ names : List String, (∀ name ∈ names, name ∉ values.map Prod.fst) →
      names.foldl Attribute.remove values = values := by
    intro names
    induction names with
    | nil => exact fun _ => rfl
    | cons name names ih =>
      intro absent
      rw [List.foldl_cons, Attribute.remove_eq_self (absent name List.mem_cons_self),
        ih fun other member => absent other (List.mem_cons_of_mem name member)]
  exact removes _ unmarked

theorem withoutMarks_eq_self (unmarked : vm.Unmarked diskId hot) :
    vm.withoutMarks diskId hot = vm := by
  have same : clearFirst (fun disk => decide (disk.diskId = diskId))
      (fun disk => { disk with values := unmarkValues hot disk.values }) vm.disks = vm.disks := by
    refine clearFirst_eq_self fun disk member is => ?_
    rw [unmarkValues_eq_self (unmarked disk member (of_decide_eq_true is))]
  unfold withoutMarks changeDisk
  rw [same]

theorem changeDisk_changeDisk {f g : List (String × String) → List (String × String)} :
    (vm.changeDisk diskId f).changeDisk diskId g =
      vm.changeDisk diskId fun values => g (f values) := by
  have keeps : ∀ disk : DiskAttribute,
      decide (({ disk with values := f disk.values } : DiskAttribute).diskId = diskId) =
        decide (disk.diskId = diskId) := fun _ => rfl
  exact congrArg (SavingVm.mk vm.state vm.lcmState) (clearFirst_clearFirst keeps vm.disks)

theorem leaveSaveas_enterSaveas (rest : vm.AtRest) (entered : vm.enterSaveas = some saving) :
    saving.leaveSaveas = vm := by
  obtain ⟨state, lcmState, disks⟩ := vm
  unfold AtRest at rest
  rcases rest with ⟨rfl, rfl⟩ | ⟨rfl | rfl, rfl⟩
  · cases entered
    rfl
  · cases entered
    rfl
  · cases entered
    rfl

/-- A VM at rest that was marked goes back to the state it had, and has no marks. -/
theorem clearSaveasState_setSaveasState (rest : vm.AtRest)
    (marked : vm.setSaveasState diskId hot = some saving) :
    saving.clearSaveasState diskId hot = vm.withoutMarks diskId hot := by
  obtain ⟨entered, enter, rfl⟩ := Option.map_eq_some_iff.mp marked
  have back := leaveSaveas_enterSaveas rest enter
  have apart : ∀ change, (entered.changeDisk diskId change).leaveSaveas =
      entered.leaveSaveas.changeDisk diskId change := by
    intro change
    obtain ⟨state, lcmState, disks⟩ := entered
    cases lcmState <;> rfl
  unfold clearSaveasState
  rw [changeDisk_changeDisk, apart, back]
  unfold withoutMarks
  simp only [unmarkValues_markValues]

/-- Where a VM is at rest the request can mark it. -/
theorem setSaveasState_isSome (rest : vm.AtRest) :
    ∃ saving, vm.setSaveasState diskId hot = some saving := by
  obtain ⟨state, lcmState, disks⟩ := vm
  unfold AtRest at rest
  rcases rest with ⟨rfl, rfl⟩ | ⟨rfl | rfl, rfl⟩ <;> exact ⟨_, rfl⟩

end SavingVm

/-! ## Charges -/

namespace QuotaPool

variable {defaults : Principal → Quotas} {tmpl : Template} {pool pool' pool'' : QuotaPool}
  {p : Principal} {ps : List Principal} {qs qs' : Quotas}

/-- The usage counters of a user or group; one that does not exist uses nothing. -/
def usage (pool : QuotaPool) (p : Principal) (kind : QuotaKind) (id : String) (m : Metric) : ℚ :=
  match pool p with
  | none => 0
  | some qs => qs.used kind id m

/-- No counter of the one is different in the other. -/
def SameUsage (pool pool' : QuotaPool) : Prop :=
  ∀ p, ∀ kind : QuotaKind, ∀ id, ∀ m ∈ kind.metrics,
    pool'.usage p kind id m = pool.usage p kind id m

/-- The users and groups in the list are charged for an image, the others are not. -/
def Charged (defaults : Principal → Quotas) (tmpl : Template) (ps : List Principal)
    (pool pool' : QuotaPool) : Prop :=
  ∀ p, if p ∈ ps then
      ∃ qs qs', pool p = some qs ∧ pool' p = some qs' ∧
        qs.quotaCheck .datastore tmpl (defaults p) .float = (.ok (), qs')
    else pool' p = pool p

/-- No sum is rounded when the users and groups in the list are charged for an image. -/
def Unrounded (tmpl : Template) (ps : List Principal) (pool : QuotaPool) : Prop :=
  ∀ p ∈ ps, ∀ qs, pool p = some qs → qs.ExactAbove .datastore tmpl .float

theorem SameUsage.refl (pool : QuotaPool) : pool.SameUsage pool := fun _ _ _ _ _ => rfl

theorem SameUsage.trans (first : pool.SameUsage pool') (second : pool'.SameUsage pool'') :
    pool.SameUsage pool'' := fun p kind id m mem =>
  (second p kind id m mem).trans (first p kind id m mem)

theorem sameUsage_update (found : pool p = some qs) (same : qs.SameUsage qs') :
    pool.SameUsage (Function.update pool p (some qs')) := by
  intro p' kind id m mem
  by_cases here : p' = p
  · subst here
    simp only [usage, Function.update_self, found]
    exact same kind id m mem
  · simp only [usage, Function.update_of_ne here]

theorem sameUsage_of_restored (exact : qs.ExactAbove .datastore tmpl .float)
    (accepted : qs.quotaCheck .datastore tmpl (defaults p) .float = (.ok (), qs')) :
    qs.SameUsage (qs'.quotaDel .datastore tmpl .float) := by
  rw [Quotas.quotaCheck_single (rfl : QuotaType.datastore.kinds = [.datastore])] at accepted
  obtain ⟨charged, rfl⟩ := Prod.mk.inj accepted
  intro kind id m mem
  cases kind with
  | datastore =>
    exact Quota.restored_of_check (Prod.ext charged rfl) Quotas.returns_datastore_length
      (exact .datastore (by decide)) id m mem
  | _ => rfl

theorem sameUsage_of_refused {err : QuotaError}
    (refused : qs.quotaCheck .datastore tmpl (defaults p) .float = (.error err, qs')) :
    qs.SameUsage qs' := by
  rw [Quotas.quotaCheck_single (rfl : QuotaType.datastore.kinds = [.datastore])] at refused
  obtain ⟨answer, rfl⟩ := Prod.mk.inj refused
  intro kind id m mem
  cases kind with
  | datastore =>
    have kept : qs.WholeOrNone (defaults p) tmpl .datastore .float := Quotas.wholeOrNone_datastore
    exact Quota.used_of_refused kept (Prod.ext answer rfl)
  | _ => rfl

/-- One user or group is charged, or refuses and keeps its counters. -/
theorem authorizeOne_cases :
    (∃ qs qs', pool p = some qs ∧
        qs.quotaCheck .datastore tmpl (defaults p) .float = (.ok (), qs') ∧
        pool.authorizeOne defaults tmpl p = (true, Function.update pool p (some qs'))) ∨
      ∃ pool', pool.authorizeOne defaults tmpl p = (false, pool') ∧ pool.SameUsage pool' ∧
        ∀ p', p' ≠ p → pool' p' = pool p' := by
  unfold authorizeOne
  cases found : pool p with
  | none => exact Or.inr ⟨pool, rfl, .refl pool, fun _ _ => rfl⟩
  | some qs =>
    dsimp only
    cases run : qs.quotaCheck .datastore tmpl (defaults p) .float with
    | mk result qs' =>
      cases result with
      | ok done => exact Or.inl ⟨qs, qs', rfl, run, rfl⟩
      | error err =>
        refine Or.inr ⟨_, rfl, sameUsage_update found (sameUsage_of_refused run), ?_⟩
        exact fun p' other => Function.update_of_ne other _ _

/-- The user and the group are charged, or no counter changes. -/
theorem authorize_cases (unequal : ps.Nodup) :
    (∃ pool', pool.authorize defaults tmpl ps = (true, pool') ∧ Charged defaults tmpl ps pool pool') ∨
      ∃ pool', pool.authorize defaults tmpl ps = (false, pool') ∧
        (pool.Unrounded tmpl ps → pool.SameUsage pool') ∧ ∀ p, p ∉ ps → pool' p = pool p := by
  induction ps generalizing pool with
  | nil =>
    refine Or.inl ⟨pool, rfl, fun p => ?_⟩
    rw [if_neg List.not_mem_nil]
  | cons p ps ih =>
    obtain ⟨other, unequal'⟩ := List.nodup_cons.mp unequal
    unfold authorize
    rcases @authorizeOne_cases defaults tmpl pool p with
      ⟨qs, qs', found, run, first⟩ | ⟨pool', first, same, kept⟩
    · rw [first]
      dsimp only
      rcases @ih (Function.update pool p (some qs')) unequal' with
        ⟨pool'', rest, charged⟩ | ⟨pool'', rest, same, kept⟩
      · rw [rest]
        refine Or.inl ⟨pool'', rfl, fun p' => ?_⟩
        have there := charged p'
        by_cases here : p' = p
        · subst here
          rw [if_neg other, Function.update_self] at there
          rw [if_pos List.mem_cons_self]
          exact ⟨qs, qs', found, there, run⟩
        · rw [Function.update_of_ne here] at there
          simpa [here] using there
      · rw [rest]
        have at_p : pool'' p = some qs' := by rw [kept p other, Function.update_self]
        refine Or.inr ⟨_, rfl, fun exact p' kind id m mem => ?_, fun p' out => ?_⟩
        · by_cases here : p' = p
          · subst here
            simp only [rollbackOne, at_p, usage, Function.update_self, found]
            exact sameUsage_of_restored (exact p' List.mem_cons_self qs found) run kind id m mem
          · have others : Unrounded tmpl ps (Function.update pool p (some qs')) := by
              intro q mem qs there
              have apart : q ≠ p := fun is => other (is ▸ mem)
              rw [Function.update_of_ne apart] at there
              exact exact q (List.mem_cons_of_mem p mem) qs there
            have later := same others p' kind id m mem
            simpa only [rollbackOne, at_p, usage, Function.update_of_ne here] using later
        · have here : p' ≠ p := fun is => out (is ▸ List.mem_cons_self)
          have later := kept p' fun within => out (List.mem_cons_of_mem p within)
          simpa only [rollbackOne, at_p, Function.update_of_ne here] using later
    · rw [first]
      refine Or.inr ⟨pool', rfl, fun _ => same, fun p' out => ?_⟩
      exact kept p' fun is => out (is ▸ List.mem_cons_self)

theorem rollback_apply (unequal : ps.Nodup) (p : Principal) :
    pool.rollback tmpl ps p =
      if p ∈ ps then (pool p).map fun qs => qs.quotaDel .datastore tmpl .float else pool p := by
  unfold rollback
  induction ps generalizing pool with
  | nil => rw [List.foldl_nil, if_neg List.not_mem_nil]
  | cons q ps ih =>
    obtain ⟨other, unequal'⟩ := List.nodup_cons.mp unequal
    rw [List.foldl_cons, ih unequal']
    have first : pool.rollbackOne tmpl q =
        Function.update pool q ((pool q).map fun qs => qs.quotaDel .datastore tmpl .float) := by
      unfold rollbackOne
      cases found : pool q with
      | none => exact (Function.update_eq_self_iff.mpr found.symm).symm
      | some qs => rfl
    rw [first]
    by_cases here : p = q
    · subst here
      simp [other]
    · simp [here]

/-- What was charged is given back. -/
theorem rollback_charged (unequal : ps.Nodup) (charged : Charged defaults tmpl ps pool pool')
    (exact : pool.Unrounded tmpl ps) : pool.SameUsage (pool'.rollback tmpl ps) := by
  intro p kind id m mem
  have at_p := charged p
  simp only [usage, rollback_apply unequal]
  split at at_p
  · rename_i within
    obtain ⟨qs, qs', found, stored, run⟩ := at_p
    simp only [if_pos within, found, stored, Option.map_some]
    exact sameUsage_of_restored (exact p within qs found) run kind id m mem
  · rename_i out
    simp only [if_neg out, at_p]

/-- The counters of those that are charged are larger by what an image is charged for. -/
theorem usage_charged (charged : Charged defaults tmpl ps pool pool')
    (exact : pool.Unrounded tmpl ps) (p : Principal) (kind : QuotaKind) (id : String) (m : Metric)
    (mem : m ∈ kind.metrics) :
    pool'.usage p kind id m = pool.usage p kind id m +
      if p ∈ ps then QuotaType.datastore.amounts tmpl kind id m else 0 := by
  have at_p := charged p
  split at at_p
  · rename_i within
    obtain ⟨qs, qs', found, stored, run⟩ := at_p
    simp only [usage, if_pos within, found, stored]
    rcases Quotas.quotaCheck_added_of_single (rfl : QuotaType.datastore.kinds = [.datastore])
      (exact p within qs found) (defaults p) with ⟨_, again, added, -⟩ | ⟨_, _, refused, -⟩
    · rw [run] at again
      cases again
      have more := (added kind).used id m mem
      rwa [Quotas.used_quota, Quotas.used_quota] at more
    · rw [run] at refused
      cases refused
  · rename_i out
    simp only [usage, if_neg out, at_p, add_zero]

end QuotaPool

/-! ## The request -/

theorem fromPool_update {α : Type} {pool : Nat → Option α} {oid : Int} {a b : α}
    (found : fromPool pool oid = some a) :
    fromPool (Function.update pool oid.toNat (some b)) oid = some b := by
  unfold fromPool at found ⊢
  split at found
  · cases found
  · rename_i valid
    rw [if_neg valid, Function.update_self]

theorem nonneg_of_fromPool {α : Type} {pool : Nat → Option α} {oid : Int} {a : α}
    (found : fromPool pool oid = some a) : 0 ≤ oid := by
  unfold fromPool at found
  split at found
  · cases found
  · omega

namespace SaveWorld

variable {w : SaveWorld} {x : ObjectRef} {vm : SavingVm} {oid diskId : Int} {hot : Bool}

theorem held_unlock_lock : (w.lock x).held.erase x = w.held :=
  List.erase_cons_head x w.held

theorem unlock_lock : (w.lock x).unlock x = w := by
  unfold unlock
  rw [held_unlock_lock]
  rfl

theorem vm?_setVm {vm' : SavingVm} (found : w.vm? oid = some vm') :
    (w.setVm oid vm).vm? oid = some vm :=
  fromPool_update found

/-- What giving a save-as up does to the VM, and that it does nothing else. -/
theorem clearSaveas_eq (found : w.vm? oid = some vm) :
    (w.clearSaveas oid diskId hot).vm? oid = some (vm.clearSaveasState diskId hot) ∧
      (w.clearSaveas oid diskId hot).held = w.held ∧
      (w.clearSaveas oid diskId hot).quotas = w.quotas ∧
      (w.clearSaveas oid diskId hot).images = w.images := by
  unfold clearSaveas
  rw [found]
  exact ⟨vm?_setVm found, held_unlock_lock, rfl, rfl⟩

theorem image?_setImage {img : ImageObject} (valid : 0 ≤ oid) :
    (w.setImage oid img).image? oid = some img := by
  unfold image? fromPool setImage
  rw [if_neg (by omega)]
  exact List.lookup_cons_self

end SaveWorld

namespace SaveDiskRequest

variable {r : SaveDiskRequest} {s : SaveSurroundings} {w w' : SaveWorld} {vm : SavingVm}
  {img : ImageObject} {iid : Int}

/-- The other threads leave the VM and the quotas alone, and images that are not filled yet. -/
structure Calm (r : SaveDiskRequest) (s : SaveSurroundings) : Prop where
  vm : ∀ p w, (s.pause p w).vm? r.vmId = w.vm? r.vmId
  quotas : ∀ p w, (s.pause p w).quotas = w.quotas
  held : ∀ p w, (s.pause p w).held = w.held
  images : ∀ p w oid img, w.image? oid = some img → img.state = .locked →
    (s.pause p w).image? oid = some img

/-- The VM and the disk are marked. -/
structure Marked (r : SaveDiskRequest) (vm : SavingVm) (w w' : SaveWorld) : Prop where
  vm : ∃ saving, vm.setSaveasState r.diskId r.isHot = some saving ∧ w'.vm? r.vmId = some saving
  held : w'.held = w.held

/-- The VM is in the state it had, without the marks, and no lock is kept. -/
structure Restored (r : SaveDiskRequest) (vm : SavingVm) (w w' : SaveWorld) : Prop where
  vm : w'.vm? r.vmId = some (vm.withoutMarks r.diskId r.isHot)
  held : w'.held = w.held

theorem Marked.pause (marked : r.Marked vm w w') (calm : r.Calm s) (p : SavePause) :
    r.Marked vm w (s.pause p w') := by
  obtain ⟨saving, is, found⟩ := marked.vm
  exact ⟨⟨saving, is, (calm.vm p w').trans found⟩, (calm.held p w').trans marked.held⟩

theorem Marked.clearSaveas (marked : r.Marked vm w w') (rest : vm.AtRest) :
    r.Restored vm w (w'.clearSaveas r.vmId r.diskId r.isHot) := by
  obtain ⟨saving, is, found⟩ := marked.vm
  obtain ⟨cleared, held, -, -⟩ := @SaveWorld.clearSaveas_eq w' saving r.vmId r.diskId r.isHot found
  rw [SavingVm.clearSaveasState_setSaveasState rest is] at cleared
  exact ⟨cleared, held.trans marked.held⟩

theorem Marked.quotas_giveUp (marked : r.Marked vm w w') : (r.giveUp w').quotas = w'.quotas := by
  obtain ⟨saving, -, found⟩ := marked.vm
  exact (SaveWorld.clearSaveas_eq found).2.2.1

theorem principals_nodup : r.principals.Nodup := by
  unfold principals quotaPrincipals
  split <;> split <;> simp

/-- The VM is marked, or the disk cannot be used and the VM is as it was. -/
theorem checkVm_cases (rest : vm.AtRest) (found : w.vm? r.vmId = some vm) :
    (∃ e w', r.checkVm w = (.error (.cannotUseDisk e), w') ∧ r.Restored vm w w' ∧
        w'.quotas = w.quotas) ∨
      ∃ iid w', r.checkVm w = (.ok iid, w') ∧ r.Marked vm w w' ∧ w'.quotas = w.quotas := by
  obtain ⟨saving, is⟩ := @SavingVm.setSaveasState_isSome vm r.diskId r.isHot rest
  have restored : r.Restored vm w (((w.lock (.vm r.vmId)).setVm r.vmId
      (saving.clearSaveasState r.diskId r.isHot)).unlock (.vm r.vmId)) := by
    rw [SavingVm.clearSaveasState_setSaveasState rest is]
    exact ⟨SaveWorld.vm?_setVm found, SaveWorld.held_unlock_lock⟩
  unfold checkVm
  rw [found]
  dsimp only
  rw [is]
  dsimp only
  cases saving.getImageFromDisk r.diskId r.isHot with
  | error e => exact Or.inl ⟨some e, _, rfl, restored, rfl⟩
  | ok iid =>
    dsimp only
    split
    · exact Or.inl ⟨none, _, rfl, restored, rfl⟩
    · exact Or.inr ⟨iid, _, rfl, ⟨⟨saving, is, SaveWorld.vm?_setVm found⟩,
        SaveWorld.held_unlock_lock⟩, rfl⟩

theorem readImage_cases :
    r.readImage w iid = (.error (.noImage iid), r.giveUp w) ∨
      ∃ img, w.image? iid = some img ∧ r.readImage w iid = (.ok img, w) := by
  unfold readImage
  cases w.image? iid with
  | none => exact Or.inl rfl
  | some img => exact Or.inr ⟨img, rfl, by rw [SaveWorld.unlock_lock]⟩

/-- The datastore is missing, or the image can be saved, or the return for the other types. -/
theorem readDatastore_cases :
    r.readDatastore w img = (.error (.noDatastore img.dsId), r.giveUp w) ∨
      r.readDatastore w img = (.ok (), w) ∨
      r.readDatastore w img = (.error (.cannotSave img.type), w.lock (.datastore img.dsId)) ∧
        img.type.isDisk = false := by
  unfold readDatastore
  cases fromPool w.datastores img.dsId with
  | none => exact Or.inl rfl
  | some images =>
    dsimp only
    split
    · exact Or.inr (Or.inl (by rw [SaveWorld.unlock_lock]))
    · rename_i file
      exact Or.inr (Or.inr ⟨rfl, Bool.eq_false_of_not_eq_true file⟩)

/-- No sum is rounded when the owner and the group are charged for the image. -/
def Unrounded (r : SaveDiskRequest) (s : SaveSurroundings) (w : SaveWorld) : Prop :=
  ∀ img, r.diskImage s w = some img → w.quotas.Unrounded (imgUsage img) r.principals

/-- A failure that is not the one of the types that cannot be saved. -/
def Undone : SaveFailure → Prop
  | .cannotSave _ => False
  | _ => True

/-- The owner and the group are charged for the image, or the save-as is given up. -/
theorem authorize_cases {w₀ : SaveWorld} (calm : r.Calm s) (rest : vm.AtRest)
    (marked : r.Marked vm w₀ w) :
    (∃ e w', r.authorize s w img = (.error e, w') ∧ Undone e ∧ r.Restored vm w₀ w' ∧
        (w.quotas.Unrounded (imgUsage img) r.principals → w.quotas.SameUsage w'.quotas)) ∨
      ∃ w', r.authorize s w img = (.ok (), w') ∧ r.Marked vm w₀ w' ∧
        QuotaPool.Charged s.defaults (imgUsage img) r.principals w.quotas w'.quotas := by
  unfold authorize
  split
  · refine Or.inl ⟨_, _, rfl, trivial, marked.clearSaveas rest, ?_⟩
    rw [marked.quotas_giveUp]
    exact fun _ => .refl _
  · dsimp only
    have later := marked.pause calm .quota
    have same := calm.quotas .quota w
    rcases @QuotaPool.authorize_cases s.defaults (imgUsage img) (s.pause .quota w).quotas
      r.principals principals_nodup with ⟨quotas, run, charged⟩ | ⟨quotas, run, kept, -⟩
    · rw [run]
      rw [same] at charged
      exact Or.inr ⟨_, rfl, ⟨later.vm, later.held⟩, charged⟩
    · rw [run]
      rw [same] at kept
      have stored : r.Marked vm w₀ ((s.pause .quota w).setQuotas quotas) := ⟨later.vm, later.held⟩
      refine Or.inl ⟨_, _, rfl, trivial, stored.clearSaveas rest, ?_⟩
      rw [stored.quotas_giveUp]
      exact kept

/-- What is known of a new image that waits for the driver. -/
structure Waiting (r : SaveDiskRequest) (img new : ImageObject) : Prop where
  state : new.state = .locked
  template : ∃ iid, new.template = r.newTemplate iid img
  usage : imgUsage new = imgUsage img

/-- The image is allocated, or nothing that matters here has changed. -/
theorem allocate_cases {w₀ : SaveWorld} (calm : r.Calm s) (marked : r.Marked vm w₀ w) (iid : Int) :
    (∃ e w', r.allocate s w (r.newTemplate iid img) img = (.error e, w') ∧ r.Marked vm w₀ w' ∧
        w'.quotas = w.quotas) ∨
      ∃ oid w' new, r.allocate s w (r.newTemplate iid img) img = (.ok oid, w') ∧
        r.Marked vm w₀ w' ∧ w'.quotas = w.quotas ∧ w'.image? oid = some new ∧
        r.Waiting img new := by
  unfold allocate
  dsimp only
  split
  · exact Or.inl ⟨_, _, rfl, marked, rfl⟩
  split
  · exact Or.inl ⟨_, _, rfl, marked, rfl⟩
  split
  · exact Or.inl ⟨_, _, rfl, marked, rfl⟩
  split
  · exact Or.inl ⟨_, _, rfl, marked, rfl⟩
  · rename_i type _
    split
    · exact Or.inl ⟨_, _, rfl, marked, rfl⟩
    · have inserted : ∀ new, r.Marked vm w₀
          ({ w with nextOid := w.nextOid + 1 }.setImage (w.nextOid : Int) new) := fun new =>
        ⟨marked.vm, marked.held⟩
      have there : ∀ new, new.state = .locked → (s.pause .registration
          ({ w with nextOid := w.nextOid + 1 }.setImage (w.nextOid : Int) new)).image?
            (w.nextOid : Int) = some new := fun new locked =>
        calm.images _ _ _ _ (SaveWorld.image?_setImage (Int.natCast_nonneg _)) locked
      split
      · refine Or.inr ⟨_, _, _, rfl, (inserted _).pause calm _, calm.quotas _ _, there _ rfl, ?_⟩
        exact ⟨rfl, ⟨iid, rfl⟩, rfl⟩
      · have paused := (inserted ⟨r.imgName, r.uid, type, .locked, "", img.size, img.dsId,
          r.newTemplate iid img⟩).pause calm .registration
        exact Or.inl ⟨_, _, rfl, ⟨paused.vm, paused.held⟩, calm.quotas _ _⟩

theorem collect_eq (dsId oid : Int) :
    (collect w dsId oid).vms = w.vms ∧ (collect w dsId oid).held = w.held ∧
      (collect w dsId oid).quotas = w.quotas ∧ (collect w dsId oid).images = w.images := by
  unfold collect
  split
  · exact ⟨rfl, rfl, rfl, rfl⟩
  · exact ⟨rfl, SaveWorld.held_unlock_lock, rfl, rfl⟩

/-- How a request ends whose VM was at rest. -/
inductive Ends (r : SaveDiskRequest) (s : SaveSurroundings) (vm : SavingVm) (w : SaveWorld) :
    Except SaveFailure Int → SaveWorld → Prop where
  /-- nothing was done -/
  | untouched : Ends r s vm w (.error .noUser) w
  /-- the save-as was given up -/
  | givenUp {e : SaveFailure} {w' : SaveWorld} (undone : Undone e) (restored : r.Restored vm w w')
      (quotas : r.Unrounded s w → w.quotas.SameUsage w'.quotas) : Ends r s vm w (.error e) w'
  /-- the return for types that cannot be saved -/
  | stuck {dsId : Int} {type : ImageType} {w' : SaveWorld} (file : type.isDisk = false)
      (marked : r.Marked vm w w') : Ends r s vm w (.error (.cannotSave type))
        (w'.lock (.datastore dsId))
  /-- the new image waits for the driver -/
  | waits {oid : Int} {img new : ImageObject} {w' : SaveWorld} (marked : r.Marked vm w w')
      (read : r.diskImage s w = some img) (there : w'.image? oid = some new) (new_is : r.Waiting img new)
      (quotas : QuotaPool.Charged s.defaults (imgUsage img) r.principals w.quotas w'.quotas) :
      Ends r s vm w (.ok oid) w'

theorem Marked.gives_up {w₀ : SaveWorld} (marked : r.Marked vm w₀ w) (rest : vm.AtRest)
    {e : SaveFailure} (undone : Undone e)
    (quotas : r.Unrounded s w₀ → w₀.quotas.SameUsage w.quotas) :
    Ends r s vm w₀ (.error e) (r.giveUp w) := by
  refine .givenUp undone (marked.clearSaveas rest) ?_
  rw [marked.quotas_giveUp]
  exact quotas

theorem createImage_ends {w₀ : SaveWorld} (calm : r.Calm s) (rest : vm.AtRest)
    (marked : r.Marked vm w₀ w) (iid : Int) (read : r.diskImage s w₀ = some img)
    (charged : QuotaPool.Charged s.defaults (imgUsage img) r.principals w₀.quotas w.quotas) :
    Ends r s vm w₀ (r.createImage s w iid img).1 (r.createImage s w iid img).2 := by
  unfold createImage
  rcases allocate_cases calm marked iid with
    ⟨e, w', run, marked', same⟩ | ⟨oid, w', new, run, marked', same, there, waiting⟩
  · rw [run]
    dsimp only
    have back : r.Marked vm w₀ (w'.setQuotas (w'.quotas.rollback (imgUsage img) r.principals)) :=
      ⟨marked'.vm, marked'.held⟩
    refine back.gives_up rest trivial fun exact => ?_
    have given := QuotaPool.rollback_charged principals_nodup charged (exact img read)
    rw [← same] at given
    exact given
  · rw [run]
    dsimp only
    have paused := marked'.pause calm .collection
    obtain ⟨vms, held, quotas, images⟩ := @collect_eq (s.pause .collection w') img.dsId oid
    refine .waits ⟨?_, held.trans paused.held⟩ read ?_ waiting ?_
    · unfold SaveWorld.vm?
      rw [vms]
      exact paused.vm
    · unfold SaveWorld.image?
      rw [images]
      exact calm.images _ _ _ _ there waiting.state
    · rw [quotas, calm.quotas, same]
      exact charged

/-- The exits of the request. -/
theorem requestExecute_ends (calm : r.Calm s) (rest : vm.AtRest) (found : w.vm? r.vmId = some vm) :
    Ends r s vm w (r.requestExecute s w).1 (r.requestExecute s w).2 := by
  unfold requestExecute
  split
  · exact .untouched
  rw [SaveWorld.unlock_lock]
  rcases checkVm_cases rest found with ⟨e, w₁, run, restored, same⟩ | ⟨iid, w₁, run, marked, same⟩
  · rw [run]
    refine .givenUp trivial restored fun _ => ?_
    rw [same]
    exact .refl _
  have read (img : ImageObject) : (s.pause .image w₁).image? iid = some img →
      r.diskImage s w = some img := by
    rw [diskImage, run]
    exact id
  rw [run]
  dsimp only
  have before : w.quotas.SameUsage w₁.quotas := by
    rw [same]
    exact .refl _
  have atImage := marked.pause calm .image
  rcases @readImage_cases r (s.pause .image w₁) iid with run | ⟨img, found, run⟩
  · rw [run]
    refine atImage.gives_up rest trivial fun _ => ?_
    rw [calm.quotas]
    exact before
  rw [run]
  dsimp only
  have atDatastore := atImage.pause calm .datastore
  rcases @readDatastore_cases r (s.pause .datastore (s.pause .image w₁)) img with
    run | run | ⟨run, file⟩
  · rw [run]
    refine atDatastore.gives_up rest trivial fun _ => ?_
    rw [calm.quotas, calm.quotas]
    exact before
  · rw [run]
    dsimp only
    have atAuthorization := atDatastore.pause calm .authorization
    have kept : (s.pause .authorization (s.pause .datastore (s.pause .image w₁))).quotas =
        w.quotas := by
      rw [calm.quotas, calm.quotas, calm.quotas, same]
    rcases @authorize_cases r s _ vm img w calm rest atAuthorization with
      ⟨e, w₂, run, undone, restored, quotas⟩ | ⟨w₂, run, marked', charged⟩
    · rw [run]
      rw [kept] at quotas
      exact .givenUp undone restored fun exact => quotas (exact img (read img found))
    · rw [run]
      dsimp only
      rw [kept, ← calm.quotas .allocation w₂] at charged
      exact createImage_ends calm rest (marked'.pause calm .allocation) iid (read img found) charged
  · rw [run]
    exact .stuck file atDatastore

end SaveDiskRequest

/-! ## The answer of the driver -/

namespace Template

variable {name name' value : String} {tmpl : Template}

theorem getString_cons :
    getString (.single name' value :: tmpl) name =
      if name' = name then value else getString tmpl name := by
  unfold getString
  by_cases same : name' = name
  · have kept : get (.single name' value :: tmpl) name = .single name' value :: get tmpl name :=
      List.filter_cons_of_pos (decide_eq_true same)
    rw [if_pos same, kept]
  · have kept : get (.single name' value :: tmpl) name = get tmpl name :=
      List.filter_cons_of_neg fun is => same (of_decide_eq_true is)
    rw [if_neg same, kept]

theorem getString_of_absent (absent : name ∉ tmpl.map Attribute.name) :
    getString tmpl name = "" := by
  have none : tmpl.get name = [] := by
    refine List.filter_eq_nil_iff.mpr fun a member same => absent ?_
    exact List.mem_map.mpr ⟨a, member, of_decide_eq_true same⟩
  unfold getString
  rw [none]

end Template

namespace SaveDiskRequest

variable {r : SaveDiskRequest} {s : SaveSurroundings} {w w' : SaveWorld} {vm : SavingVm}
  {img new : ImageObject} {iid : Int}

theorem getInt_of_getString {tmpl : Template} {name : String} {i : Int}
    (range : -2 ^ 31 ≤ i ∧ i < 2 ^ 31) (is : tmpl.getString name = toString i) :
    tmpl.getInt name = some i := by
  unfold Template.getInt
  rw [is]
  dsimp only
  rw [if_neg (toString_int_ne_empty _)]
  exact parseInt_toString_int range.1 range.2

/-- The new image says which disk of which VM it is for. -/
theorem Waiting.saved (waiting : r.Waiting img new) :
    new.isSaving = true ∧ new.isHot = r.isHot ∧ new.template.getInt "SAVED_VM_ID" = some r.vmId ∧
      new.template.getInt "SAVED_DISK_ID" = some r.diskId := by
  obtain ⟨iid, is⟩ := waiting.template
  have vmId : new.template.getString "SAVED_VM_ID" = toString r.vmId := by
    rw [is]
    simp [newTemplate, Template.getString_cons]
  have diskId : new.template.getString "SAVED_DISK_ID" = toString r.diskId := by
    rw [is]
    simp [newTemplate, Template.getString_cons]
  have saving : new.template.getString "SAVE_AS" = "YES" := by
    rw [is]
    simp [newTemplate, Template.getString_cons]
  have hot : new.template.getString "SAVE_AS_HOT" = if r.isHot then "YES" else "" := by
    rw [is]
    cases hot : r.isHot with
    | true => simp [newTemplate, hot, Template.getString_cons]
    | false =>
      refine Template.getString_of_absent ?_
      unfold newTemplate
      rw [hot]
      simp only [Bool.false_eq_true, if_false, List.map_append, List.mem_append]
      split <;> split <;> split <;> simp [Attribute.name]
  refine ⟨?_, ?_, getInt_of_getString r.vmId_range vmId, getInt_of_getString r.diskId_range diskId⟩
  · unfold ImageObject.isSaving
    rw [saving]
    rfl
  · unfold ImageObject.isHot
    rw [hot]
    cases r.isHot <;> rfl

/-- An image that the driver cannot make is left in ERROR, and the save-as is given up. -/
theorem mkfsAction_failed {w₀ : SaveWorld} {oid : Int} (rest : vm.AtRest)
    (marked : r.Marked vm w₀ w) (there : w.image? oid = some new) (waiting : r.Waiting img new) :
    r.Restored vm w₀ (ImageManagerDriver.mkfsAction s w oid none) ∧
      (ImageManagerDriver.mkfsAction s w oid none).quotas = w.quotas ∧
      ∃ img', (ImageManagerDriver.mkfsAction s w oid none).image? oid = some img' ∧
        img'.state = .error ∧ imgUsage img' = imgUsage img := by
  obtain ⟨saving, hot, vmId, diskId⟩ := waiting.saved
  obtain ⟨marking, is, found⟩ := marked.vm
  have valid : r.vmId ≠ -1 := by
    have nonneg := nonneg_of_fromPool found
    omega
  have oid_valid := nonneg_of_fromPool there
  have result : ImageManagerDriver.mkfsAction s w oid none =
      (((w.lock (.image oid)).setImage oid { new with state := .error }).unlock
        (.image oid)).clearSaveas r.vmId r.diskId r.isHot := by
    unfold ImageManagerDriver.mkfsAction ImageManagerDriver.mkfsError
    rw [there]
    simp [saving, hot, vmId, diskId, valid]
  have marked' : r.Marked vm w₀ (((w.lock (.image oid)).setImage oid
      { new with state := .error }).unlock (.image oid)) :=
    ⟨⟨marking, is, found⟩, (SaveWorld.held_unlock_lock (w := w)).trans marked.held⟩
  obtain ⟨-, -, quotas, images⟩ := @SaveWorld.clearSaveas_eq (((w.lock (.image oid)).setImage oid
    { new with state := .error }).unlock (.image oid)) marking r.vmId r.diskId r.isHot found
  rw [result]
  refine ⟨marked'.clearSaveas rest, quotas, { new with state := .error }, ?_, rfl, waiting.usage⟩
  unfold SaveWorld.image?
  rw [images]
  exact SaveWorld.image?_setImage oid_valid

/-- The VM is in the state it had and no lock is kept; its disks are as they were, or the one of
the request has lost the marks of a save-as. -/
structure AsBefore (r : SaveDiskRequest) (vm : SavingVm) (w w' : SaveWorld) : Prop where
  back : ∃ vm', w'.vm? r.vmId = some vm' ∧ vm'.state = vm.state ∧ vm'.lcmState = vm.lcmState ∧
    (vm' = vm ∨ vm' = vm.withoutMarks r.diskId r.isHot)
  unmarked : vm.Unmarked r.diskId r.isHot → w'.vm? r.vmId = some vm
  held : w'.held = w.held

theorem Restored.asBefore (restored : r.Restored vm w w') : r.AsBefore vm w w' := by
  refine ⟨⟨_, restored.vm, rfl, rfl, Or.inr rfl⟩, fun unmarked => ?_, restored.held⟩
  rw [restored.vm, SavingVm.withoutMarks_eq_self unmarked]

/-- What a failure leaves behind: the VM and the locks as they were, and where no counter is
rounded the quotas too, unless it is the driver that failed; then the new image is in ERROR and
stays charged. -/
def Leaves (r : SaveDiskRequest) (s : SaveSurroundings) (vm : SavingVm) (w : SaveWorld) :
    SaveOutcome → SaveWorld → Prop
  | .failed e, w' => Undone e →
      r.AsBefore vm w w' ∧ (r.Unrounded s w → w.quotas.SameUsage w'.quotas)
  | .driverFailed iid, w' => r.AsBefore vm w w' ∧
      ∃ img, w'.image? iid = some img ∧ img.state = .error ∧
        (r.Unrounded s w → ∀ p, ∀ kind : QuotaKind, ∀ id, ∀ m ∈ kind.metrics,
          w'.quotas.usage p kind id m = w.quotas.usage p kind id m +
            if p ∈ r.principals then QuotaType.datastore.amounts (imgUsage img) kind id m else 0)
  | .created _, _ => True

/-- A failed save-as leaves the VM as it was, whatever it was that failed but the type of the
image, and whatever the other threads did to the images and datastores in between. -/
theorem saveDisk_leaves (calm : r.Calm s) (rest : vm.AtRest) (found : w.vm? r.vmId = some vm)
    (answer : Option String) :
    r.Leaves s vm w (r.saveDisk s answer w).1 (r.saveDisk s answer w).2 := by
  have ends := requestExecute_ends calm rest found
  unfold saveDisk
  cases run : r.requestExecute s w with
  | mk result w' =>
    rw [run] at ends
    cases ends with
    | untouched =>
      exact fun _ => ⟨⟨⟨vm, found, rfl, rfl, Or.inl rfl⟩, fun _ => found, rfl⟩, fun _ => .refl _⟩
    | givenUp undone restored quotas => exact fun _ => ⟨restored.asBefore, quotas⟩
    | stuck file marked => exact fun undone => undone.elim
    | waits marked read there waiting charged =>
      cases answer with
      | some source => trivial
      | none =>
        obtain ⟨restored, quotas, img', last, state, usage⟩ :=
          mkfsAction_failed (s := s) rest (marked.pause calm .driver)
            (calm.images .driver _ _ _ there waiting.state) waiting
        refine ⟨restored.asBefore, img', last, state, fun exact p kind id m mem => ?_⟩
        have same : (ImageManagerDriver.mkfsAction s (s.pause .driver w') _ none).quotas =
            w'.quotas := quotas.trans (calm.quotas .driver w')
        dsimp only
        rw [same, usage]
        exact QuotaPool.usage_charged charged (exact _ read) p kind id m mem

/-- Quotas without an entry, which limit nothing. -/
def unlimited : Quotas := ⟨⟨∅, false⟩, ⟨∅, false⟩, ⟨∅, false⟩, ⟨∅, false⟩⟩

/-- A running VM with one disk, the image 7 of a type in the datastore 1, and a user without
limits. -/
def oneDisk (type : ImageType) : SaveWorld where
  users uid := uid = 2
  vms oid := if oid = 3 then some ⟨.active, .running, [⟨0, [("IMAGE_ID", "7")]⟩]⟩ else none
  images := [(7, ⟨"base", 2, type, .used, "/var/7", 10, 1, []⟩)]
  datastores oid := if oid = 1 then some [7] else none
  quotas p := if p = .user 2 then some unlimited else none
  nextOid := 8
  held := []

/-- The user 2 saves a disk of the VM 3. -/
def saveOne (diskId : Int) (range : -2 ^ 31 ≤ diskId ∧ diskId < 2 ^ 31) : SaveDiskRequest where
  uid := 2
  gid := 0
  vmId := 3
  diskId
  imgName := "copy"
  imgType := ""
  isHot := true
  vmId_range := by decide
  diskId_range := range

/-- Nobody else does anything. -/
def undisturbed : SaveSurroundings where
  pause _ w := w
  authorized := true
  defaults _ := unlimited
  defaultType := .os
  inserted := true
  driver := true

theorem saveDisk_leaves_missing :
    (saveOne 1 (by decide)).Leaves undisturbed
      ⟨.active, .running, [⟨0, [("IMAGE_ID", "7")]⟩]⟩ (oneDisk .os)
      ((saveOne 1 (by decide)).saveDisk undisturbed none (oneDisk .os)).1
      ((saveOne 1 (by decide)).saveDisk undisturbed none (oneDisk .os)).2 :=
  saveDisk_leaves ⟨fun _ _ => rfl, fun _ _ => rfl, fun _ _ => rfl, fun _ _ _ _ found _ => found⟩
    (Or.inl ⟨rfl, rfl⟩) rfl none

/-- The driver cannot make the image, and the user is charged for it; an image of the type
KERNEL keeps the VM in the state of the save-as and the datastore locked. -/
theorem failure_keeps_charge :
    ((saveOne 0 (by decide)).saveDisk undisturbed none (oneDisk .os)).1 = .driverFailed 8 ∧
      ((saveOne 0 (by decide)).saveDisk undisturbed none (oneDisk .os)).2.quotas.usage
        (.user 2) .datastore "1" .images = 1 ∧
      (oneDisk .os).quotas.usage (.user 2) .datastore "1" .images = 0 ∧
    ((saveOne 0 (by decide)).saveDisk undisturbed none (oneDisk .kernel)).1 =
        .failed (.cannotSave .kernel) ∧
      (((saveOne 0 (by decide)).saveDisk undisturbed none (oneDisk .kernel)).2.vm? 3).map
        SavingVm.lcmState = some .hotplugSaveas ∧
      ((saveOne 0 (by decide)).saveDisk undisturbed none (oneDisk .kernel)).2.held =
        [.datastore 1] := by
  decide +kernel

end SaveDiskRequest

end Ezilla
