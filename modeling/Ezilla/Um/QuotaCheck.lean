import Ezilla.Um.QuotaEntries

/-!
# Charging the sections of a VM

`Quotas::quota_check` charges a VM section by section, and inside the network and
image sections one NIC or disk at a time. This module follows the counters through
those loops, through the rollback of a section, and through the whole check.

The sections with one metric share their argument: `Quota.checkEach` either charges
every id or stops at the first refusal, and `Quota.delEach` then gives back one unit
for each id. The first keeps what it charged before a refusal; the second loses track
of a counter that passes zero on the way down, because the entry is dropped there.
-/

namespace Ezilla

namespace Quota

section Loop

variable {kind : QuotaKind} {metric : Metric} {q d : Quota kind} {id id' : String}
  {ids : List String}

/-! ## One unit -/

/-- Charge one unit of the metric to an id. -/
def charge (q : Quota kind) (metric : Metric) (id : String) : Quota kind :=
  q.put id ((q.entry id).addToQuota kind.metrics (oneOf metric))

variable (keyed : kind ≠ .vm) (single : kind.metrics = [metric])
include keyed

theorem key_eq_iff : key kind id' = key kind id ↔ id' = id := by
  simp only [key, if_neg keyed]

theorem limit_charge {m : Metric} : (q.charge metric id).limit id' m = q.limit id' m := by
  rw [limit, charge, entry_put]
  split_ifs with same
  · rw [(key_eq_iff keyed).mp same]
    rfl
  · rfl

theorem limitFor_charge {m : Metric} :
    (q.charge metric id).limitFor d id' m = q.limitFor d id' m := by
  have same : ((q.charge metric id).entry id').limit m = (q.entry id').limit m :=
    limit_charge keyed
  simp only [limitFor, QuotaEntry.effectiveLimit, same]

include single

theorem used_charge :
    (q.charge metric id).used id' metric =
      q.used id' metric + if id' = id then 1 else 0 := by
  rw [used, charge, entry_put]
  simp only [key_eq_iff keyed]
  split_ifs with same
  · subst same
    simp [QuotaEntry.addToQuota, single, oneOf, used]
  · rw [used, add_zero]

/-- Earlier units charged to the same id are counted by `Admits`. -/
theorem admits_charge {n : Nat} :
    (q.charge metric id).Admits d (oneOf metric) id' n ↔
      q.Admits d (oneOf metric) id' (n + if id' = id then 1 else 0) := by
  simp only [Admits, single, List.mem_singleton, forall_eq, limitFor_charge keyed,
    used_charge keyed single]
  refine and_congr_right fun _ => forall₂_congr fun r asked => ?_
  obtain rfl : r = 1 := by simpa [oneOf, eq_comm] using asked
  push_cast
  have counted : ∀ a b : ℚ, a + b + n * 1 + 1 = a + (n + b) * 1 + 1 := fun a b => by ring
  rw [counted]

omit keyed single

/-! ## Charging every id -/

/-- Every id of the list is admitted after the units charged before it. -/
def AdmitsAll (q d : Quota kind) (metric : Metric) (ids : List String) : Prop :=
  ∀ i (h : i < ids.length),
    q.Admits d (oneOf metric) ids[i] ((ids.take i).count ids[i])

instance (q d : Quota kind) (metric : Metric) (ids : List String) :
    Decidable (q.AdmitsAll d metric ids) :=
  inferInstanceAs (Decidable (∀ i (_ : i < ids.length), _))

/-- Charge one unit to each id. -/
def chargeAll (q : Quota kind) (metric : Metric) (ids : List String) : Quota kind :=
  ids.foldl (fun q id => q.charge metric id) q

theorem chargeAll_cons :
    q.chargeAll metric (id :: ids) = (q.charge metric id).chargeAll metric ids := rfl

@[simp] theorem isDefault_chargeAll : (q.chargeAll metric ids).isDefault = q.isDefault := by
  induction ids generalizing q with
  | nil => rfl
  | cons id ids ih => rw [chargeAll_cons, ih, charge, isDefault_put]

include keyed in
theorem limit_chargeAll {m : Metric} :
    (q.chargeAll metric ids).limit id m = q.limit id m := by
  induction ids generalizing q with
  | nil => rfl
  | cons head ids ih => rw [chargeAll_cons, ih, limit_charge keyed]

include keyed single in
theorem used_chargeAll :
    (q.chargeAll metric ids).used id metric = q.used id metric + ids.count id := by
  induction ids generalizing q with
  | nil => simp [chargeAll]
  | cons head ids ih =>
    rw [chargeAll_cons, ih, used_charge keyed single, List.count_cons]
    push_cast
    simp only [beq_iff_eq, eq_comm (a := head)]
    ring

include keyed in
/-- Every id that was charged has an entry afterwards. -/
theorem lookup_chargeAll (mem : id ∈ ids) :
    (q.chargeAll metric ids).attributes.lookup (key kind id) =
      some ((q.chargeAll metric ids).entry id) := by
  have present : ∀ (ids : List String) (q : Quota kind),
      (q.attributes.lookup (key kind id)).isSome ∨ id ∈ ids →
        ((q.chargeAll metric ids).attributes.lookup (key kind id)).isSome := by
    intro ids
    induction ids with
    | nil => exact fun q h => h.resolve_right List.not_mem_nil
    | cons head ids ih =>
      intro q h
      refine ih (q.charge metric head) ?_
      by_cases same : id = head
      · subst same
        exact Or.inl (by rw [charge, lookup_put]; rfl)
      · rw [charge, lookup_put_ne fun k => same ((key_eq_iff keyed).mp k)]
        exact h.imp_right fun mem => (List.mem_cons.mp mem).resolve_left same
  obtain ⟨e, found⟩ := Option.isSome_iff_exists.mp (present ids q (Or.inr mem))
  rw [found, entry_of_lookup found]

include keyed single in
theorem admitsAll_cons :
    q.AdmitsAll d metric (id :: ids) ↔
      q.Admits d (oneOf metric) id 0 ∧ (q.charge metric id).AdmitsAll d metric ids := by
  have shifted : ∀ i (h : i < ids.length),
      (q.charge metric id).Admits d (oneOf metric) ids[i] ((ids.take i).count ids[i]) ↔
        q.Admits d (oneOf metric) ids[i] ((id :: ids.take i).count ids[i]) := by
    intro i h
    rw [admits_charge keyed single, List.count_cons]
    simp only [beq_iff_eq, eq_comm (a := id)]
  constructor
  · intro all
    exact ⟨all 0 (Nat.succ_pos _),
      fun i h => (shifted i h).mpr (all (i + 1) (Nat.succ_lt_succ h))⟩
  · rintro ⟨first, rest⟩ i h
    cases i with
    | zero => exact first
    | succ i => exact (shifted i (Nat.lt_of_succ_lt_succ h)).mp (rest i (Nat.lt_of_succ_lt_succ h))

/-! ## The loop of a check -/

/-- Ids left empty are skipped. -/
theorem checkEach_filter :
    checkEach d (oneOf metric) q (ids.filter (· ≠ "")) = checkEach d (oneOf metric) q ids := by
  induction ids generalizing q with
  | nil => rfl
  | cons id ids ih =>
    by_cases blank : id = ""
    · simpa [blank, checkEach] using ih
    · simp only [List.filter_cons, checkEach, blank, ne_eq, not_false_eq_true, decide_true,
        if_true, if_false]
      rcases q.checkQuota id (oneOf metric) d with ⟨_ | _, q'⟩
      · rfl
      · exact ih

include keyed single in
/-- A loop whose ids are all admitted charges every one of them. -/
theorem checkEach_of_admitsAll (named : ∀ id ∈ ids, id ≠ "")
    (admitted : q.AdmitsAll d metric ids) :
    checkEach d (oneOf metric) q ids = (.ok (), q.chargeAll metric ids) := by
  induction ids generalizing q with
  | nil => rfl
  | cons id ids ih =>
    obtain ⟨first, rest⟩ := (admitsAll_cons keyed single).mp admitted
    rw [checkEach, if_neg (named id List.mem_cons_self), checkQuota_of_admits first]
    exact ih (fun x mem => named x (List.mem_cons_of_mem _ mem)) rest

/-- A loop refused at its first id changes no counter. -/
theorem checkEach_of_first_refused (named : id ≠ "")
    (refused : ¬ q.Admits d (oneOf metric) id 0) :
    ∃ err q', checkEach d (oneOf metric) q (id :: ids) = (.error err, q') ∧
      ∀ id', q'.entry id' = q.entry id' := by
  obtain ⟨err, q', run, same⟩ := checkQuota_of_not_admits refused
  exact ⟨err, q', by rw [checkEach, if_neg named, run], same⟩

include keyed single in
/-- A refused loop never lowers a counter. -/
theorem checkEach_of_not_admitsAll (named : ∀ id ∈ ids, id ≠ "")
    (refused : ¬ q.AdmitsAll d metric ids) :
    ∃ err q', checkEach d (oneOf metric) q ids = (.error err, q') ∧
      ∀ id, q.used id metric ≤ q'.used id metric := by
  induction ids generalizing q with
  | nil => exact absurd (fun _ h => absurd h (Nat.not_lt_zero _)) refused
  | cons id ids ih =>
    by_cases first : q.Admits d (oneOf metric) id 0
    · obtain ⟨err, q', run, grown⟩ := ih (fun x mem => named x (List.mem_cons_of_mem _ mem))
        fun rest => refused ((admitsAll_cons keyed single).mpr ⟨first, rest⟩)
      refine ⟨err, q', ?_, fun x => ?_⟩
      · rw [checkEach, if_neg (named id List.mem_cons_self), checkQuota_of_admits first]
        exact run
      · refine le_trans ?_ (grown x)
        rw [used_charge keyed single]
        split_ifs <;> linarith
    · obtain ⟨err, q', run, same⟩ :=
        checkEach_of_first_refused (named id List.mem_cons_self) first
      exact ⟨err, q', run, fun x => by rw [used, used, same]⟩

include keyed single in
/-- A loop refused later keeps the unit it charged to its first id. -/
theorem checkEach_of_later_refused (named : ∀ x ∈ id :: ids, x ≠ "")
    (first : q.Admits d (oneOf metric) id 0) (refused : ¬ q.AdmitsAll d metric (id :: ids)) :
    ∃ err q', checkEach d (oneOf metric) q (id :: ids) = (.error err, q') ∧
      q.used id metric < q'.used id metric := by
  obtain ⟨err, q', run, grown⟩ := checkEach_of_not_admitsAll keyed single
    (fun x mem => named x (List.mem_cons_of_mem _ mem))
    fun rest => refused ((admitsAll_cons keyed single).mpr ⟨first, rest⟩)
  refine ⟨err, q', ?_, ?_⟩
  · rw [checkEach, if_neg (named id List.mem_cons_self), checkQuota_of_admits first]
    exact run
  · refine lt_of_lt_of_le ?_ (grown id)
    rw [used_charge keyed single, if_pos rfl]
    linarith

/-! ## Giving back every id -/

theorem delEach_cons {req : Metric → Option ℚ} {arith : QuotaArithmetic} :
    delEach req q (id :: ids) arith = delEach req (q.delQuota id req arith) ids arith := rfl

/-- Nothing is subtracted for ids left empty. -/
theorem delEach_filter (keyed : kind ≠ .vm) {req : Metric → Option ℚ} {arith : QuotaArithmetic} :
    delEach req q (ids.filter (· ≠ "")) arith = delEach req q ids arith := by
  induction ids generalizing q with
  | nil => rfl
  | cons id ids ih =>
    by_cases blank : id = ""
    · have invalid : ¬ ValidId kind id := by
        rintro (h | ⟨h, -⟩)
        · exact keyed h
        · exact h blank
      rw [delEach_cons, delQuota_of_not_valid invalid, ← ih]
      simp [blank]
    · simpa [blank, delEach_cons] using ih

/-- An entry that does not exist is not created by giving back. -/
theorem lookup_delEach_none {req : Metric → Option ℚ} {arith : QuotaArithmetic}
    (absent : q.attributes.lookup (key kind id) = none) :
    (delEach req q ids arith).attributes.lookup (key kind id) = none := by
  induction ids generalizing q with
  | nil => exact absent
  | cons head ids ih =>
    rw [delEach_cons]
    refine ih ?_
    by_cases same : key kind id = key kind head
    · rwa [delQuota_of_lookup_none (same ▸ absent)]
    · rwa [lookup_delQuota_ne same]

/-- The counter reaches zero in the middle of `n` steps down, in an entry that is
dropped there. -/
def Crosses (q : Quota kind) (e : QuotaEntry) (metric : Metric) (n : Nat) : Prop :=
  e.limit metric = q.implicitLimit ∧ ∃ k, 0 < k ∧ k < n ∧ e.used metric = k

include single in
theorem idle_giveBack_iff {e : QuotaEntry} :
    q.Idle (giveBack kind e (oneOf metric)) ↔
      e.used metric = 1 ∧ e.limit metric = q.implicitLimit := by
  simp only [Idle, giveBack, QuotaEntry.addToQuota, single, List.mem_singleton, forall_eq,
    oneOf, if_true, Option.map_some, QuotaArithmetic.exact_read, QuotaArithmetic.exact_add,
    ← sub_eq_add_neg, sub_eq_zero]

include keyed single in
/-- Giving back follows the counter down one unit for each occurrence of the id, unless
the entry is dropped on the way: what is left to give back is lost then. -/
theorem used_delEach {e : QuotaEntry} (valid : ValidId kind id)
    (found : q.attributes.lookup (key kind id) = some e) :
    (¬ q.Crosses e metric (ids.count id) →
      (delEach (oneOf metric) q ids).used id metric = e.used metric - ids.count id) ∧
    (q.Crosses e metric (ids.count id) →
      (delEach (oneOf metric) q ids).used id metric = 0) := by
  induction ids generalizing q e with
  | nil =>
    refine ⟨fun _ => ?_, fun ⟨_, k, _, small, _⟩ => absurd small (Nat.not_lt_zero k)⟩
    simp [delEach, used, entry_of_lookup found]
  | cons head ids ih =>
    rw [delEach_cons]
    by_cases same : head = id
    · subst same
      have after := @lookup_delQuota _ _ _ _ (oneOf metric) .exact valid found
      rw [List.count_cons_self]
      split_ifs at after with idle
      · obtain ⟨one, implicit⟩ := (idle_giveBack_iff single).mp idle
        have gone : (delEach (oneOf metric) (q.delQuota head (oneOf metric)) ids).used head
            metric = 0 := by
          rw [used, entry_of_lookup_none (lookup_delEach_none after)]
          rfl
        refine ⟨fun straight => ?_, fun _ => gone⟩
        have last : ids.count head = 0 := by
          by_contra more
          exact straight ⟨implicit, 1, Nat.one_pos, by omega, by simpa using one⟩
        rw [gone, one, last]
        norm_num
      · have lower : (giveBack kind e (oneOf metric)).used metric = e.used metric - 1 := by
          simp [giveBack, QuotaEntry.addToQuota, single, oneOf, sub_eq_add_neg]
        have shifted : (q.delQuota head (oneOf metric)).Crosses
              (giveBack kind e (oneOf metric)) metric (ids.count head) ↔
            q.Crosses e metric (ids.count head + 1) := by
          unfold Crosses
          rw [lower, show (q.delQuota head (oneOf metric)).implicitLimit = q.implicitLimit by
            simp [implicitLimit]]
          refine and_congr_right fun implicit => ⟨?_, ?_⟩
          · rintro ⟨k, pos, small, value⟩
            exact ⟨k + 1, by omega, by omega, by push_cast; linarith⟩
          · rintro ⟨k, pos, small, value⟩
            have notOne : k ≠ 1 := by
              rintro rfl
              exact idle ((idle_giveBack_iff single).mpr ⟨by simpa using value, implicit⟩)
            refine ⟨k - 1, by omega, by omega, ?_⟩
            rw [value]
            push_cast [Nat.cast_sub pos]
            ring
        obtain ⟨straight, crossing⟩ := ih after
        rw [shifted] at straight crossing
        refine ⟨fun h => ?_, crossing⟩
        rw [straight h, lower]
        push_cast
        ring
    · have other : key kind id ≠ key kind head :=
        fun k => same ((key_eq_iff keyed).mp k).symm
      have unchanged := @lookup_delQuota_ne _ q _ _ (oneOf metric) .exact other
      rw [found] at unchanged
      have count : (head :: ids).count id = ids.count id := List.count_cons_of_ne same
      have implicit : (q.delQuota head (oneOf metric)).implicitLimit = q.implicitLimit := by
        simp [implicitLimit]
      rw [count]
      simpa only [Crosses, implicit] using ih unchanged

include keyed in
/-- Nothing is given back for an id that is not in the list. -/
theorem used_delEach_of_not_mem {req : Metric → Option ℚ} {m : Metric} (absent : id ∉ ids) :
    (delEach req q ids).used id m = q.used id m := by
  induction ids generalizing q with
  | nil => rfl
  | cons head ids ih =>
    rw [delEach_cons, ih (List.not_mem_of_not_mem_cons absent), used, used, entry, entry,
      lookup_delQuota_ne fun k => List.ne_of_not_mem_cons absent ((key_eq_iff keyed).mp k)]

/-- No counter passes through zero while the ids are given back after they were charged:
none starts at a negative whole number that the charges bring above zero, in an entry
without a limit of its own. -/
def NoCross (q : Quota kind) (metric : Metric) (ids : List String) : Prop :=
  ∀ id ∈ ids, q.limit id metric = q.implicitLimit →
    ∀ k, 0 < k → k < ids.count id → q.used id metric ≠ -k

include keyed single in
/-- Giving back what was charged restores every counter exactly when none of them
passes through zero on the way. -/
theorem delEach_chargeAll_iff (valid : ∀ id ∈ ids, ValidId kind id) :
    (∀ id, (delEach (oneOf metric) (q.chargeAll metric ids) ids).used id metric =
        q.used id metric) ↔ q.NoCross metric ids := by
  have crosses : ∀ id, (q.chargeAll metric ids).Crosses ((q.chargeAll metric ids).entry id)
        metric (ids.count id) ↔
      q.limit id metric = q.implicitLimit ∧
        ∃ k, 0 < k ∧ k < ids.count id ∧ q.used id metric = -(k : ℚ) := by
    intro id
    have limit : (q.chargeAll metric ids).limit id metric = q.limit id metric :=
      limit_chargeAll keyed
    have counter : (q.chargeAll metric ids).used id metric =
      q.used id metric + ids.count id := used_chargeAll keyed single
    rw [Quota.limit] at limit
    rw [used] at counter
    unfold Crosses
    rw [limit, counter, show (q.chargeAll metric ids).implicitLimit = q.implicitLimit by
      simp [implicitLimit]]
    refine and_congr_right fun _ => ⟨?_, ?_⟩
    · rintro ⟨k, pos, small, value⟩
      refine ⟨ids.count id - k, by omega, by omega, ?_⟩
      rw [Nat.cast_sub small.le]
      linarith
    · rintro ⟨k, pos, small, value⟩
      refine ⟨ids.count id - k, by omega, by omega, ?_⟩
      rw [Nat.cast_sub small.le]
      linarith
  constructor
  · intro same id mem implicit k pos small value
    have crossed := (used_delEach keyed single (valid id mem) (lookup_chargeAll keyed mem)).2
      ((crosses id).mpr ⟨implicit, k, pos, small, value⟩)
    rw [same id, value] at crossed
    simp only [neg_eq_zero, Nat.cast_eq_zero] at crossed
    omega
  · intro clean id
    by_cases mem : id ∈ ids
    · have straight := (used_delEach keyed single (valid id mem) (lookup_chargeAll keyed mem)).1
        fun crossing => by
          obtain ⟨implicit, k, pos, small, value⟩ := (crosses id).mp crossing
          exact clean id mem implicit k pos small value
      have counter : (q.chargeAll metric ids).used id metric =
        q.used id metric + ids.count id := used_chargeAll keyed single
      rw [straight, ← used, counter]
      ring
    · rw [used_delEach_of_not_mem keyed mem, used_chargeAll keyed single,
        List.count_eq_zero_of_not_mem mem]
      simp

theorem AdmitsAll.valid (admitted : q.AdmitsAll d metric ids) :
    ∀ id ∈ ids, ValidId kind id := by
  intro id mem
  obtain ⟨i, h, rfl⟩ := List.mem_iff_getElem.mp mem
  exact (admitted i h).1

end Loop

end Quota

/-! ## The section of the VM itself -/

namespace QuotaVirtualMachine

variable {q d : Quota .vm} {tmpl : Template}

/-- The template has a positive memory and CPU, and their request fits in the limits. -/
def Admits (q d : Quota .vm) (tmpl : Template) : Prop :=
  ∃ memory ∈ tmpl.getInt "MEMORY", 0 < memory ∧
    ∃ cpu ∈ tmpl.getFloat "CPU", 0 < cpu ∧ q.Admits d (request memory cpu) "" 0

/-- An admitted VM is charged its request, and giving it back restores every counter. -/
theorem check_of_admits (admitted : Admits q d tmpl) :
    ∃ q', check q tmpl d = (.ok (), q') ∧
      ∀ id, ∀ m ∈ QuotaKind.vm.metrics, (del q' tmpl).used id m = q.used id m := by
  obtain ⟨memory, readMemory, memoryPos, cpu, readCpu, cpuPos, fits⟩ := admitted
  rw [Option.mem_def] at readMemory readCpu
  refine ⟨q.put "" ((q.entry "").addToQuota QuotaKind.vm.metrics (request memory cpu)), ?_, ?_⟩
  · rw [check, readMemory, readCpu]
    have accepted : ¬ QuotaArithmetic.exact.read cpu ≤ 0 := not_le.mpr cpuPos
    simp only [if_neg (not_le.mpr memoryPos), if_neg accepted]
    exact Quota.checkQuota_of_admits fits
  · intro id m mem
    have emptyKey : Quota.key .vm id = Quota.key .vm "" := rfl
    have restored := @Quota.used_delQuota _ _ _ _ _ (request memory cpu) fits.1 mem
      (Quota.lookup_put (q := q)
        (e := (q.entry "").addToQuota QuotaKind.vm.metrics (request memory cpu)))
    rw [del, readMemory, readCpu]
    refine restored.trans ?_
    rw [QuotaEntry.used_addToQuota mem, add_sub_cancel_right]
    rfl

/-- A refused VM changes no counter of the section. -/
theorem check_of_not_admits (refused : ¬ Admits q d tmpl) :
    ∃ err q', check q tmpl d = (.error err, q') ∧ ∀ id, q'.entry id = q.entry id := by
  cases readMemory : tmpl.getInt "MEMORY" with
  | none => exact ⟨.badMemory, q, by simp only [check, readMemory], fun _ => rfl⟩
  | some memory =>
    by_cases memoryPos : memory ≤ 0
    · exact ⟨.badMemory, q, by simp only [check, readMemory, if_pos memoryPos], fun _ => rfl⟩
    · cases readCpu : tmpl.getFloat "CPU" with
      | none =>
        exact ⟨.badCpu, q, by simp only [check, readMemory, if_neg memoryPos, readCpu],
          fun _ => rfl⟩
      | some cpu =>
        by_cases cpuPos : cpu ≤ 0
        · exact ⟨.badCpu, q,
            by simp only [check, readMemory, if_neg memoryPos, readCpu,
              if_pos (show QuotaArithmetic.exact.read cpu ≤ 0 from cpuPos)],
            fun _ => rfl⟩
        · have exceeds : ¬ q.Admits d (request memory cpu) "" 0 := fun fits =>
            refused ⟨memory, readMemory, not_le.mp memoryPos, cpu, readCpu, not_le.mp cpuPos,
              fits⟩
          simp only [check, readMemory, if_neg memoryPos, readCpu,
            if_neg (show ¬ QuotaArithmetic.exact.read cpu ≤ 0 from cpuPos)]
          exact Quota.checkQuota_of_not_admits exceeds

end QuotaVirtualMachine

/-! ## The whole check -/

namespace Quotas

/-- The network ids of a template that are charged. -/
def networkIds (tmpl : Template) : List String := (QuotaNetwork.ids tmpl).filter (· ≠ "")

/-- The image ids of a template that are charged. -/
def imageIds (tmpl : Template) : List String := (QuotaImage.ids tmpl).filter (· ≠ "")

/-- The section is refused before it charged anything. -/
def FirstRefused {kind : QuotaKind} (q d : Quota kind) (metric : Metric)
    (ids : List String) : Prop :=
  ∃ id ∈ ids.head?, ¬ q.Admits d (oneOf metric) id 0

/-- When `quota_check` of a VM is all-or-nothing: every section admits the template, or
the network section refuses its first NIC, or a later section refuses before it charged
anything and the networks charged so far can be given back one by one. -/
def CheckIsAtomic (qs ds : Quotas) (tmpl : Template) : Prop :=
  let net := qs.networkQuota.AdmitsAll ds.networkQuota .leases (networkIds tmpl)
  let vm := QuotaVirtualMachine.Admits qs.vmQuota ds.vmQuota tmpl
  let image := qs.imageQuota.AdmitsAll ds.imageQuota .rvms (imageIds tmpl)
  net ∧ vm ∧ image ∨
    FirstRefused qs.networkQuota ds.networkQuota .leases (networkIds tmpl) ∨
    net ∧ qs.networkQuota.NoCross .leases (networkIds tmpl) ∧
      (¬ vm ∨ FirstRefused qs.imageQuota ds.imageQuota .rvms (imageIds tmpl))

section Single

variable {kind : QuotaKind} {metric : Metric} {q d : Quota kind} {ids : List String}

theorem not_admitsAll_of_firstRefused (refused : FirstRefused q d metric ids) :
    ¬ q.AdmitsAll d metric ids := by
  obtain ⟨id, first, notAdmitted⟩ := refused
  cases ids with
  | nil => cases first
  | cons head ids =>
    cases first
    exact fun all => notAdmitted (all 0 (Nat.succ_pos _))

/-- A refused loop over the ids of a template changes no counter exactly when it is
refused at the first of them. -/
theorem checkEach_refused (keyed : kind ≠ .vm) (single : kind.metrics = [metric])
    (refused : ¬ q.AdmitsAll d metric (ids.filter (· ≠ ""))) :
    ∃ err q', Quota.checkEach d (oneOf metric) q ids = (.error err, q') ∧
      ((∀ id, q'.used id metric = q.used id metric) ↔
        FirstRefused q d metric (ids.filter (· ≠ ""))) := by
  have named : ∀ id ∈ ids.filter (· ≠ ""), id ≠ "" := fun id mem => by
    simpa using (List.mem_filter.mp mem).2
  rw [← Quota.checkEach_filter]
  generalize ids.filter (· ≠ "") = ids at refused named ⊢
  cases ids with
  | nil => exact absurd (fun _ h => absurd h (Nat.not_lt_zero _)) refused
  | cons id ids =>
    by_cases first : q.Admits d (oneOf metric) id 0
    · obtain ⟨err, q', run, grown⟩ :=
        Quota.checkEach_of_later_refused keyed single named first refused
      refine ⟨err, q', run, fun same => absurd (same id) grown.ne', ?_⟩
      rintro ⟨x, ⟨⟩, notAdmitted⟩
      exact absurd first notAdmitted
    · obtain ⟨err, q', run, same⟩ :=
        Quota.checkEach_of_first_refused (named id List.mem_cons_self) first
      refine ⟨err, q', run, fun _ => ⟨id, rfl, first⟩, fun _ x => ?_⟩
      rw [Quota.used, Quota.used, same]

/-- A loop that admits every id and is taken back restores every counter exactly when
none passes through zero. -/
theorem checkEach_accepted (keyed : kind ≠ .vm) (single : kind.metrics = [metric])
    (admitted : q.AdmitsAll d metric (ids.filter (· ≠ ""))) :
    ∃ q', Quota.checkEach d (oneOf metric) q ids = (.ok (), q') ∧
      ((∀ id, (Quota.delEach (oneOf metric) q' ids).used id metric = q.used id metric) ↔
        q.NoCross metric (ids.filter (· ≠ ""))) := by
  have named : ∀ id ∈ ids.filter (· ≠ ""), id ≠ "" := fun id mem => by
    simpa using (List.mem_filter.mp mem).2
  rw [← Quota.checkEach_filter]
  refine ⟨_, Quota.checkEach_of_admitsAll keyed single named admitted, ?_⟩
  have filtered : ∀ q : Quota kind, Quota.delEach (oneOf metric) q ids =
      Quota.delEach (oneOf metric) q (ids.filter (· ≠ "")) := fun q =>
    (Quota.delEach_filter keyed).symm
  simp only [filtered]
  exact Quota.delEach_chargeAll_iff keyed single admitted.valid

end Single

/-- The counters of the sections a VM is charged in. -/
theorem sameUsage_iff (qs : Quotas) (net : Quota .network) (vm : Quota .vm)
    (image : Quota .image) :
    qs.SameUsage { qs with networkQuota := net, vmQuota := vm, imageQuota := image } ↔
      (∀ id, net.used id .leases = qs.networkQuota.used id .leases) ∧
      (∀ id, ∀ m ∈ QuotaKind.vm.metrics, vm.used id m = qs.vmQuota.used id m) ∧
      (∀ id, image.used id .rvms = qs.imageQuota.used id .rvms) := by
  constructor
  · intro same
    exact ⟨fun id => same .network id .leases (by simp [QuotaKind.metrics]),
      fun id m mem => same .vm id m mem,
      fun id => same .image id .rvms (by simp [QuotaKind.metrics])⟩
  · rintro ⟨network, machine, images⟩ kind id m mem
    cases kind with
    | datastore => rfl
    | network =>
      obtain rfl : m = .leases := by simpa [QuotaKind.metrics] using mem
      exact network id
    | image =>
      obtain rfl : m = .rvms := by simpa [QuotaKind.metrics] using mem
      exact images id
    | vm => exact machine id m mem

/-- A refused VM leaves every usage counter as it was exactly under `CheckIsAtomic`. -/
theorem quotaCheck_refused_sameUsage_iff (qs ds : Quotas) (tmpl : Template) :
    ((qs.quotaCheck .virtualMachine tmpl ds).1 ≠ .ok () →
        qs.SameUsage (qs.quotaCheck .virtualMachine tmpl ds).2) ↔
      CheckIsAtomic qs ds tmpl := by
  unfold CheckIsAtomic
  simp only [quotaCheck, QuotaNetwork.check, QuotaImage.check, QuotaNetwork.del]
  by_cases net : qs.networkQuota.AdmitsAll ds.networkQuota .leases (networkIds tmpl)
  · have notFirst := fun refused => not_admitsAll_of_firstRefused refused net
    obtain ⟨net', runNet, restoredNet⟩ := checkEach_accepted (by decide) rfl net
    rw [runNet]
    by_cases vm : QuotaVirtualMachine.Admits qs.vmQuota ds.vmQuota tmpl
    · obtain ⟨vm', runVm, restoredVm⟩ := QuotaVirtualMachine.check_of_admits vm
      rw [runVm]
      by_cases image : qs.imageQuota.AdmitsAll ds.imageQuota .rvms (imageIds tmpl)
      · obtain ⟨image', runImage, -⟩ := checkEach_accepted (by decide) rfl image
        rw [runImage]
        simp [net, vm, image]
      · obtain ⟨err, image', runImage, sameImage⟩ := checkEach_refused (by decide) rfl image
        rw [runImage]
        simp only [ne_eq, reduceCtorEq, not_false_eq_true, forall_const, sameUsage_iff]
        rw [restoredNet, sameImage]
        simp only [net, vm, image]
        tauto
    · obtain ⟨err, vm', runVm, sameVm⟩ := QuotaVirtualMachine.check_of_not_admits vm
      rw [runVm]
      have unchanged : ∀ id, ∀ m ∈ QuotaKind.vm.metrics, vm'.used id m = qs.vmQuota.used id m :=
        fun id m _ => by rw [Quota.used, Quota.used, sameVm]
      have same := sameUsage_iff qs (Quota.delEach (oneOf .leases) net' (QuotaNetwork.ids tmpl)) vm'
        qs.imageQuota
      simp only [ne_eq, reduceCtorEq, not_false_eq_true, forall_const, same]
      rw [restoredNet]
      simp only [net, vm]
      tauto
  · obtain ⟨err, net', runNet, sameNet⟩ := checkEach_refused (by decide) rfl net
    rw [runNet]
    have same := sameUsage_iff qs net' qs.vmQuota qs.imageQuota
    simp only [ne_eq, reduceCtorEq, not_false_eq_true, forall_const, same]
    rw [sameNet]
    simp only [net]
    tauto

/-- Two NICs on a network whose limit is one lease: the second is refused, the lease of
the first stays charged. -/
theorem quotaCheck_refused_keeps_lease :
    ¬ ∀ (qs ds : Quotas) (tmpl : Template),
      (qs.quotaCheck .virtualMachine tmpl ds).1 ≠ .ok () →
        qs.SameUsage (qs.quotaCheck .virtualMachine tmpl ds).2 := by
  let ds : Quotas := ⟨⟨∅, true⟩, ⟨∅, true⟩, ⟨∅, true⟩, ⟨∅, true⟩⟩
  let qs : Quotas :=
    { datastoreQuota := ⟨∅, false⟩
      networkQuota := ⟨(∅ : AList fun _ => QuotaEntry).insert "1" ⟨fun _ => 1, fun _ => 0⟩, false⟩
      imageQuota := ⟨∅, false⟩
      vmQuota := ⟨∅, false⟩ }
  let nic : Attribute := .vector "NIC" [("NETWORK_ID", "1")]
  let tmpl : Template := [nic, nic, .single "MEMORY" "1", .single "CPU" "1"]
  intro atomic
  have refused : (qs.quotaCheck .virtualMachine tmpl ds).1 ≠ .ok () := by decide +kernel
  have kept : (qs.quotaCheck .virtualMachine tmpl ds).2.used .network "1" .leases = 1 := by
    decide +kernel
  have before : qs.used .network "1" .leases = 0 := by decide +kernel
  have same := atomic qs ds tmpl refused .network "1" .leases (by decide)
  rw [kept, before] at same
  exact one_ne_zero same

end Quotas

end Ezilla
