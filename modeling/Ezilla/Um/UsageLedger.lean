import Ezilla.Um.QuotaTexts
import Mathlib.Algebra.BigOperators.Group.Finset.Basic
import Mathlib.Algebra.Order.BigOperators.Group.Finset

/-!
# The quotas of all users and groups, and what they are charged for

A VM or an image is charged to its owner and to its group. The ledger keeps the
quotas of every user and group beside the number of times that each object is
charged to each of them; the code has only the quotas.

* `Ledger.quotaAuthorization`, `Ledger.quotaRollback`: one user or group;
* `Ledger.Accounted`: every counter is the sum over what is charged;
* `Ledger.authorization_cases`, `Ledger.Accounted.rollback`: both keep it.
-/

namespace Ezilla

open Transition

/-- What a check accepts is not negative. -/
theorem Quotas.amounts_nonneg {qs ds : Quotas} {type : QuotaType} {tmpl : Template}
    (accepted : (qs.quotaCheck type tmpl ds).1 = .ok ()) (kind : QuotaKind) (id : String)
    (m : Metric) : 0 ≤ type.amounts tmpl kind id m := by
  rcases quotaCheck_cases qs ds type tmpl with ⟨qs', -, -, nonneg⟩ | ⟨err, qs', run, -⟩
  · exact nonneg kind id m
  · rw [run] at accepted
    cases accepted

/-- A user or a group by its id. -/
inductive Principal where
  | user (uid : Int)
  | group (gid : Int)
  deriving DecidableEq

/-- An object that is charged to its owner and its group. -/
inductive OwnedRef where
  | vm (oid : Nat)
  | image (oid : Nat)
  deriving DecidableEq

/-- The quotas that are charged for the object. -/
def OwnedRef.quotaType : OwnedRef → QuotaType
  | .vm _ => .virtualMachine
  | .image _ => .datastore

/-- The ids in use, and the template that is charged for each object. -/
structure OwnedUsage where
  ids : Finset OwnedRef
  usage : OwnedRef → Template
  nonneg : ∀ x ∈ ids, ∀ kind id m, 0 ≤ x.quotaType.amounts (usage x) kind id m

/-- What the object is charged for. -/
def OwnedUsage.amount (u : OwnedUsage) (x : OwnedRef) : QuotaKind → Amount :=
  x.quotaType.amounts (u.usage x)

/-- `UserPool::ONEADMIN_ID` and `GroupPool::ONEADMIN_ID`. -/
def Principal.oneadminId : Int := 0

/-- The user and the group that `quota_authorization` and `quota_rollback` go through,
where -1 means not to update. -/
def quotaPrincipals (uid gid : Int) : List Principal :=
  (if uid ≠ Principal.oneadminId ∧ uid ≠ -1 then [.user uid] else []) ++
    if gid ≠ Principal.oneadminId ∧ gid ≠ -1 then [.group gid] else []

/-- The user and the group that `Quotas::quota_del` goes through. -/
def delPrincipals (uid gid : Int) : List Principal :=
  (if uid ≠ Principal.oneadminId then [.user uid] else []) ++
    if gid ≠ Principal.oneadminId then [.group gid] else []

/-- How often each user and group is in a list. -/
def tally (ps : List Principal) (p : Principal) : Int := ps.count p

theorem tally_nonneg (ps : List Principal) (p : Principal) : 0 ≤ tally ps p :=
  Int.natCast_nonneg _

theorem tally_cons (p : Principal) (ps : List Principal) : tally (p :: ps) = tally [p] + tally ps := by
  funext p'
  simp only [tally, Pi.add_apply, List.count_cons, List.count_nil]
  omega

/-- The quotas, and how often each object is charged to each user and group. -/
structure Ledger where
  quotas : Principal → Option Quotas
  charged : OwnedRef → Principal → Int

namespace Ledger

variable {u : OwnedUsage} {l : Ledger} {x x' : OwnedRef} {p p' : Principal} {ds : Quotas}
  {kind : QuotaKind} {id : String} {m : Metric}

def setQuotas (l : Ledger) (p : Principal) (qs : Option Quotas) : Ledger :=
  { l with quotas := Function.update l.quotas p qs }

def addCharge (l : Ledger) (x : OwnedRef) (p : Principal) (n : Int) : Ledger :=
  { l with
    charged := Function.update l.charged x (Function.update (l.charged x) p (l.charged x p + n)) }

/-- `user_quota_authorization` and `group_quota_authorization`: a missing user or group
refuses. -/
def quotaAuthorization (u : OwnedUsage) (l : Ledger) (x : OwnedRef) (p : Principal)
    (defaultQuotas : Quotas) : Bool × Ledger :=
  match l.quotas p with
  | none => (false, l)
  | some qs =>
    match qs.quotaCheck x.quotaType (u.usage x) defaultQuotas .float with
    | (.ok (), qs') => (true, (l.setQuotas p (some qs')).addCharge x p 1)
    | (.error _, qs') => (false, l.setQuotas p (some qs'))

/-- `user_quota_rollback`, `group_quota_rollback`, and each half of `Quotas::quota_del`. -/
def quotaRollback (u : OwnedUsage) (l : Ledger) (x : OwnedRef) (p : Principal) : Ledger :=
  (l.setQuotas p ((l.quotas p).map fun qs =>
    qs.quotaDel x.quotaType (u.usage x) .float)).addCharge x p (-1)

/-- The sum over what is charged to a user or group. -/
def total (u : OwnedUsage) (l : Ledger) (p : Principal) (kind : QuotaKind) (id : String)
    (m : Metric) : ℚ :=
  ∑ x ∈ u.ids, (l.charged x p : ℚ) * u.amount x kind id m

/-- Every counter is the sum over what is charged, and nothing is given back that is not
charged. -/
structure Accounted (u : OwnedUsage) (l : Ledger) : Prop where
  nonneg : ∀ x p, 0 ≤ l.charged x p
  sound : ∀ p qs, l.quotas p = some qs → qs.Sound
  used : ∀ p qs, l.quotas p = some qs → ∀ kind id, ∀ m ∈ kind.metrics,
    qs.used kind id m = l.total u p kind id m

/-! ## One charge more or less -/

theorem charged_addCharge {n : Int} (p' : Principal) :
    (l.addCharge x p n).charged x p' = l.charged x p' + n * tally [p] p' := by
  by_cases same : p' = p
  · subst same
    simp [addCharge, tally]
  · have other : p ≠ p' := fun eq => same eq.symm
    simp [addCharge, tally, same, other]

theorem charged_addCharge_ne {n : Int} (ne : x' ≠ x) :
    (l.addCharge x p n).charged x' = l.charged x' :=
  Function.update_of_ne ne _ _

theorem total_addCharge {n : Int} (mem : x ∈ u.ids) :
    (l.addCharge x p n).total u p kind id m =
      l.total u p kind id m + n * u.amount x kind id m := by
  have others : ∑ y ∈ u.ids.erase x, ((l.addCharge x p n).charged y p : ℚ) * u.amount y kind id m =
      ∑ y ∈ u.ids.erase x, (l.charged y p : ℚ) * u.amount y kind id m := by
    refine Finset.sum_congr rfl fun y inside => ?_
    rw [charged_addCharge_ne (Finset.ne_of_mem_erase inside)]
  have mine : (l.addCharge x p n).charged x p = l.charged x p + n := by
    simp [charged_addCharge, tally]
  rw [total, total, ← Finset.add_sum_erase _ _ mem, ← Finset.add_sum_erase _ _ mem, others, mine]
  push_cast
  ring

theorem total_addCharge_ne {n : Int} (ne : p' ≠ p) :
    (l.addCharge x p n).total u p' kind id m = l.total u p' kind id m := by
  refine Finset.sum_congr rfl fun y _ => ?_
  by_cases same : y = x
  · subst same
    have other : p ≠ p' := fun eq => ne eq.symm
    rw [charged_addCharge]
    simp [tally, other]
  · rw [charged_addCharge_ne same]

/-- What an object is charged for is used. -/
theorem Accounted.enough (accounted : l.Accounted u) {qs : Quotas} (found : l.quotas p = some qs)
    (mem : x ∈ u.ids) (charged : 0 < l.charged x p) (kind : QuotaKind) (id : String) (m : Metric)
    (metric : m ∈ kind.metrics) : u.amount x kind id m ≤ qs.used kind id m := by
  have once : (1 : ℚ) ≤ l.charged x p := by exact_mod_cast charged
  have positive := u.nonneg x mem kind id m
  calc u.amount x kind id m
      ≤ (l.charged x p : ℚ) * u.amount x kind id m := le_mul_of_one_le_left positive once
    _ ≤ l.total u p kind id m := by
      refine Finset.single_le_sum (f := fun y => (l.charged y p : ℚ) * u.amount y kind id m)
        (fun y inside => mul_nonneg ?_ (u.nonneg y inside kind id m)) mem
      exact_mod_cast accounted.nonneg y p
    _ = qs.used kind id m := (accounted.used p qs found kind id m metric).symm

/-- Quotas that go with their charges are accounted for. -/
theorem Accounted.update (accounted : l.Accounted u) {qs? : Option Quotas} {n : Int}
    (nonneg : 0 ≤ l.charged x p + n)
    (new : ∀ qs, qs? = some qs → qs.Sound ∧ ∀ kind id, ∀ m ∈ kind.metrics,
      qs.used kind id m = l.total u p kind id m + n * u.amount x kind id m)
    (mem : x ∈ u.ids) : ((l.setQuotas p qs?).addCharge x p n).Accounted u := by
  have quotas {p' : Principal} {qs : Quotas}
      (found : ((l.setQuotas p qs?).addCharge x p n).quotas p' = some qs) :
      p' = p ∧ qs? = some qs ∨ p' ≠ p ∧ l.quotas p' = some qs := update_eq_some found
  refine ⟨fun x' p' => ?_, fun p' qs found => ?_, fun p' qs found kind id m metric => ?_⟩
  · by_cases same : x' = x
    · subst same
      by_cases this : p' = p
      · subst this
        simpa [addCharge, setQuotas] using nonneg
      · simpa [addCharge, setQuotas, this] using accounted.nonneg x' p'
    · rw [charged_addCharge_ne same]
      exact accounted.nonneg x' p'
  · rcases quotas found with ⟨-, here⟩ | ⟨-, there⟩
    · exact (new qs here).1
    · exact accounted.sound p' qs there
  · rcases quotas found with ⟨rfl, here⟩ | ⟨ne, there⟩
    · rw [total_addCharge mem]
      exact (new qs here).2 kind id m metric
    · rw [total_addCharge_ne ne]
      exact accounted.used p' qs there kind id m metric

/-! ## One user or group -/

theorem charged_quotaRollback :
    (l.quotaRollback u x p).charged x = l.charged x - tally [p] := by
  funext p'
  rw [quotaRollback, charged_addCharge, neg_one_mul, ← sub_eq_add_neg]
  rfl

/-- An authorization charges the object once more, or changes no counter. -/
theorem authorization_cases (accounted : l.Accounted u) (mem : x ∈ u.ids)
    (exact : ∀ qs, l.quotas p = some qs → qs.ExactAbove x.quotaType (u.usage x) .float)
    (whole : ∀ qs, l.quotas p = some qs → qs.WholeOrNone ds (u.usage x) x.quotaType .float) :
    (∃ l', l.quotaAuthorization u x p ds = (true, l') ∧ l'.Accounted u ∧
        l'.charged x = l.charged x + tally [p] ∧
        ∀ x', x' ≠ x → l'.charged x' = l.charged x') ∨
      ∃ l', l.quotaAuthorization u x p ds = (false, l') ∧ l'.Accounted u ∧
        l'.charged = l.charged := by
  unfold quotaAuthorization
  cases found : l.quotas p with
  | none => exact Or.inr ⟨l, rfl, accounted, rfl⟩
  | some qs =>
    have sound := accounted.sound p qs found
    rcases Quotas.quotaCheck_added sound (exact qs found) ds with
      ⟨qs', run, added, nonneg⟩ | ⟨err, qs', run, same⟩
    · simp only [run]
      refine Or.inl ⟨_, rfl, accounted.update ?_ (fun _ is => ?_) mem, funext fun p' => ?_,
        fun x' other => charged_addCharge_ne other⟩
      · have before := accounted.nonneg x p
        omega
      · cases is
        refine ⟨fun kind => (added kind).sound (sound kind) (nonneg kind),
          fun kind id m metric => ?_⟩
        have more := (added kind).used id m metric
        rw [Quotas.used_quota, Quotas.used_quota, accounted.used p qs found kind id m metric] at more
        rw [more, Int.cast_one, one_mul]
        rfl
      · rw [charged_addCharge, one_mul]
        rfl
    · simp only [run]
      have kept := same (whole qs found)
      have idle : (l.setQuotas p (some qs')).addCharge x p 0 = l.setQuotas p (some qs') := by
        simp [addCharge, setQuotas]
      refine Or.inr ⟨_, rfl, idle ▸ accounted.update ?_ (fun _ is => ?_) mem, rfl⟩
      · have before := accounted.nonneg x p
        omega
      · cases is
        refine ⟨kept.sound sound, fun kind id m metric => ?_⟩
        rw [Int.cast_zero, zero_mul, add_zero]
        exact (kept kind id m metric).trans (accounted.used p qs found kind id m metric)

/-- Giving back what is charged. -/
theorem Accounted.rollback (accounted : l.Accounted u) (mem : x ∈ u.ids)
    (exact : ∀ qs, l.quotas p = some qs → qs.ExactBelow x.quotaType (u.usage x) .float)
    (charged : 0 < l.charged x p) : (l.quotaRollback u x p).Accounted u := by
  refine accounted.update (by omega) (fun qs is => ?_) mem
  obtain ⟨before, found, rfl⟩ := Option.map_eq_some_iff.mp is
  have enough := accounted.enough found mem charged
  have returned (kind : QuotaKind) : (before.quota kind).Returned (u.amount x kind)
      ((before.quotaDel x.quotaType (u.usage x) .float).quota kind) :=
    Quotas.quotaDel_returned (accounted.sound p before found) (exact before found) enough
  refine ⟨fun kind => (returned kind).sound (accounted.sound p before found kind) ?_,
    fun kind id m metric => ?_⟩
  · intro id m metric
    rw [Quotas.used_quota]
    exact enough kind id m metric
  · have less := (returned kind).used id m metric
    rw [Quotas.used_quota, Quotas.used_quota, accounted.used p before found kind id m metric] at less
    rw [less, Int.cast_neg, Int.cast_one, neg_one_mul, ← sub_eq_add_neg]

end Ledger

end Ezilla
