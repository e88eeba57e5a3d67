import Ezilla.Um.Quota
import Mathlib.Tactic.Linarith
import Mathlib.Tactic.Ring

/-!
# What the quota operations do to one entry

One lemma for each operation of `Quota.cc`, stated on `Quota.entry`. The later
modules use these and do not unfold the operations again.
-/

namespace Ezilla

/-- No metric is exceeded when every requested one is unlimited or fits. -/
theorem QuotaEntry.exceeded_eq_none_iff {e : QuotaEntry} {metrics : List Metric}
    {req : Metric → Option ℚ} {default? : Option QuotaEntry} {arith : QuotaArithmetic} :
    e.exceeded metrics req default? arith = none ↔ ∀ m ∈ metrics, ∀ r ∈ req m,
      e.effectiveLimit default? m arith = 0 ∨
        arith.sum (e.used m) r ≤ e.effectiveLimit default? m arith := by
  unfold QuotaEntry.exceeded
  rw [List.findSome?_eq_none_iff]
  refine forall₂_congr fun m _ => ?_
  cases req m with
  | none => simp
  | some r => simp [or_iff_not_imp_left]

/-- In exact numbers a request is added. -/
theorem QuotaEntry.used_addToQuota {e : QuotaEntry} {metrics : List Metric}
    {req : Metric → Option ℚ} {m : Metric} (mem : m ∈ metrics) :
    (e.addToQuota metrics req).used m = e.used m + (req m).getD 0 := by
  simp only [addToQuota, if_pos mem]
  cases req m with
  | none => exact (add_zero _).symm
  | some r => rfl

namespace Quota

variable {kind : QuotaKind} {q q' d : Quota kind} {id id' : String} {e : QuotaEntry}
  {m : Metric} {req : Metric → Option ℚ} {arith : QuotaArithmetic}

/-! ## Storing and removing entries -/

theorem lookup_put : (q.put id e).attributes.lookup (key kind id) = some e :=
  AList.lookup_insert _

theorem lookup_put_ne (apart : key kind id' ≠ key kind id) :
    (q.put id e).attributes.lookup (key kind id') = q.attributes.lookup (key kind id') :=
  AList.lookup_insert_ne apart

theorem lookup_erase : (q.erase id).attributes.lookup (key kind id) = none :=
  AList.lookup_erase _ _

theorem lookup_erase_ne (apart : key kind id' ≠ key kind id) :
    (q.erase id).attributes.lookup (key kind id') = q.attributes.lookup (key kind id') :=
  AList.lookup_erase_ne apart

theorem entry_put :
    (q.put id e).entry id' = if key kind id' = key kind id then e else q.entry id' := by
  unfold entry
  split_ifs with same
  · rw [same, lookup_put, Option.getD_some]
  · rw [lookup_put_ne same]

theorem entry_of_lookup (found : q.attributes.lookup (key kind id) = some e) :
    q.entry id = e := by
  rw [entry, found, Option.getD_some]

theorem entry_of_lookup_none (absent : q.attributes.lookup (key kind id) = none) :
    q.entry id = .fresh := by
  rw [entry, absent, Option.getD_none]

/-- Storing the entry a section already has changes no entry. -/
theorem entry_put_self : (q.put id (q.entry id)).entry id' = q.entry id' := by
  rw [entry_put]
  split_ifs with same
  · rw [entry, entry, same]
  · rfl

@[simp] theorem isDefault_put : (q.put id e).isDefault = q.isDefault := rfl

@[simp] theorem isDefault_erase : (q.erase id).isDefault = q.isDefault := rfl

/-! ## Checking a request -/

theorem getQuota_of_valid (valid : ValidId kind id) :
    q.getQuota id = some (q.attributes.lookup (key kind id)) :=
  if_pos valid

theorem getQuota_of_not_valid (invalid : ¬ ValidId kind id) : q.getQuota id = none :=
  if_neg invalid

theorem fits_iff : q.Fits d req id arith ↔ ValidId kind id ∧
    (q.entry id).exceeded kind.metrics req (d.getQuota id).join arith = none := by
  rw [Fits, QuotaEntry.exceeded_eq_none_iff]
  rfl

/-- A request within the limits is added to the entry. -/
theorem checkQuota_of_fits (fits : q.Fits d req id arith) : q.checkQuota id req d arith =
    (.ok (), q.put id ((q.entry id).addToQuota kind.metrics req arith)) := by
  obtain ⟨valid, within⟩ := fits_iff.mp fits
  simp only [checkQuota, getQuota_of_valid valid]
  rw [← getQuota_of_valid (q := d) valid, ← entry, within]

/-- A refused request stores the entry it looked at, where its id is a valid one. -/
theorem checkQuota_of_not_fits (refused : ¬ q.Fits d req id arith) :
    ∃ err, q.checkQuota id req d arith =
      (.error err, if ValidId kind id then q.put id (q.entry id) else q) := by
  by_cases valid : ValidId kind id
  · have some_metric :
        (q.entry id).exceeded kind.metrics req (d.getQuota id).join arith ≠ none :=
      fun within => refused (fits_iff.mpr ⟨valid, within⟩)
    obtain ⟨⟨m, limit⟩, exceeds⟩ := Option.ne_none_iff_exists'.mp some_metric
    refine ⟨.limitReached limit m kind id, ?_⟩
    simp only [checkQuota, getQuota_of_valid valid, if_pos valid]
    rw [← getQuota_of_valid (q := d) valid, ← entry, exceeds]
  · exact ⟨.invalidId id, by simp only [checkQuota, getQuota_of_not_valid valid, if_neg valid]⟩

theorem admits_zero_iff : q.Admits d req id 0 ↔ q.Fits d req id := by
  simp only [Admits, Fits, Nat.cast_zero, zero_mul, add_zero, QuotaArithmetic.exact_sum]

theorem checkQuota_of_admits (admitted : q.Admits d req id 0) :
    q.checkQuota id req d = (.ok (), q.put id ((q.entry id).addToQuota kind.metrics req)) :=
  checkQuota_of_fits (admits_zero_iff.mp admitted)

/-- A refused request changes no entry. -/
theorem checkQuota_of_not_admits (refused : ¬ q.Admits d req id 0) :
    ∃ err q', q.checkQuota id req d = (.error err, q') ∧ ∀ id', q'.entry id' = q.entry id' := by
  obtain ⟨err, run⟩ := checkQuota_of_not_fits fun fits => refused (admits_zero_iff.mpr fits)
  refine ⟨err, _, run, fun id' => ?_⟩
  split_ifs
  · exact entry_put_self
  · rfl

/-! ## Giving back a request -/

/-- The entry after a request is subtracted from it. -/
def giveBack (kind : QuotaKind) (e : QuotaEntry) (req : Metric → Option ℚ)
    (arith : QuotaArithmetic := .exact) : QuotaEntry :=
  e.addToQuota kind.metrics (fun m => (req m).map (-·)) arith

/-- An entry `cleanup_quota` drops. -/
def Idle (q : Quota kind) (e : QuotaEntry) (arith : QuotaArithmetic := .exact) : Prop :=
  ∀ m ∈ kind.metrics, arith.read (e.used m) = 0 ∧ arith.read (e.limit m) = q.implicitLimit

instance (q : Quota kind) (e : QuotaEntry) (arith : QuotaArithmetic) :
    Decidable (q.Idle e arith) :=
  inferInstanceAs (Decidable (∀ _ ∈ _, _))

theorem delQuota_of_not_valid (invalid : ¬ ValidId kind id) : q.delQuota id req arith = q := by
  simp only [delQuota, getQuota_of_not_valid invalid]

theorem delQuota_of_lookup_none (absent : q.attributes.lookup (key kind id) = none) :
    q.delQuota id req arith = q := by
  by_cases valid : ValidId kind id
  · simp only [delQuota, getQuota_of_valid valid, absent]
  · exact delQuota_of_not_valid valid

/-- Subtracting from an entry stores the new counters, or drops the entry when it is
idle afterwards. -/
theorem delQuota_of_lookup (valid : ValidId kind id)
    (found : q.attributes.lookup (key kind id) = some e) :
    q.delQuota id req arith =
      if q.Idle (giveBack kind e req arith) arith then (q.put id (giveBack kind e req arith)).erase id
      else q.put id (giveBack kind e req arith) := by
  simp only [delQuota, getQuota_of_valid valid, found, cleanupQuota, lookup_put]
  rfl

theorem lookup_delQuota (valid : ValidId kind id)
    (found : q.attributes.lookup (key kind id) = some e) :
    (q.delQuota id req arith).attributes.lookup (key kind id) =
      if q.Idle (giveBack kind e req arith) arith then none
      else some (giveBack kind e req arith) := by
  rw [delQuota_of_lookup valid found]
  split_ifs
  · exact lookup_erase
  · exact lookup_put

theorem lookup_delQuota_ne (apart : key kind id' ≠ key kind id) :
    (q.delQuota id req arith).attributes.lookup (key kind id') =
      q.attributes.lookup (key kind id') := by
  by_cases valid : ValidId kind id
  · cases found : q.attributes.lookup (key kind id) with
    | none => rw [delQuota_of_lookup_none found]
    | some e =>
      rw [delQuota_of_lookup valid found]
      split_ifs
      · rw [lookup_erase_ne apart, lookup_put_ne apart]
      · rw [lookup_put_ne apart]
  · rw [delQuota_of_not_valid valid]

@[simp] theorem isDefault_delQuota : (q.delQuota id req arith).isDefault = q.isDefault := by
  by_cases valid : ValidId kind id
  · cases found : q.attributes.lookup (key kind id) with
    | none => rw [delQuota_of_lookup_none found]
    | some e =>
      rw [delQuota_of_lookup valid found]
      split_ifs <;> rfl
  · rw [delQuota_of_not_valid valid]

/-- A counter that something was subtracted from: an idle entry that is dropped uses nothing. -/
theorem used_delQuota_of_asked {r : ℚ} (valid : ValidId kind id) (mem : m ∈ kind.metrics)
    (found : q.attributes.lookup (key kind id) = some e) (asked : req m = some r) :
    (q.delQuota id req arith).used id m = arith.add (e.used m) (-r) := by
  have counter : (giveBack kind e req arith).used m = arith.add (e.used m) (-r) := by
    rw [giveBack, QuotaEntry.addToQuota]
    dsimp only
    rw [if_pos mem, asked]
    rfl
  rw [used, entry, lookup_delQuota valid found]
  split_ifs with idle
  · have zero := (idle m mem).1
    rw [counter] at zero
    exact (arith.write_eq_zero _ zero).symm
  · exact counter

/-- In exact numbers, dropping an idle entry does not change a counter: the entry used
nothing. -/
theorem used_delQuota (valid : ValidId kind id) (mem : m ∈ kind.metrics)
    (found : q.attributes.lookup (key kind id) = some e) :
    (q.delQuota id req).used id m = e.used m - (req m).getD 0 := by
  have counter : (giveBack kind e req).used m = e.used m - (req m).getD 0 := by
    rw [giveBack, QuotaEntry.used_addToQuota mem]
    cases req m with
    | none => simp
    | some r => simp [sub_eq_add_neg]
  rw [used, entry, lookup_delQuota valid found]
  split_ifs with idle
  · rw [← counter]
    exact (idle m mem).1.symm
  · exact counter

end Quota

end Ezilla
