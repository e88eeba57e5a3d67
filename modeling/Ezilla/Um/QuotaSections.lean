import Ezilla.Um.QuotaCheck

/-!
# What the sections charge for a template

The amounts that a template stands for in each section, and the effect of
`check`, `update` and `del` on the counters in terms of them. A section is
sound when no counter is negative and only valid ids are charged.
-/

namespace Ezilla

/-- An amount of each metric for each id. -/
abbrev Amount := String → Metric → ℚ

namespace Quota

variable {kind : QuotaKind} {q q' d : Quota kind} {id qid : String} {m metric : Metric}
  {req : Metric → Option ℚ} {amount : Amount} {ids : List String}

/-- No counter is negative, and only valid ids are charged. -/
structure Sound (q : Quota kind) : Prop where
  nonneg : ∀ id, ∀ m ∈ kind.metrics, 0 ≤ q.used id m
  valid : ∀ id, ∀ m ∈ kind.metrics, q.used id m ≠ 0 → ValidId kind id

/-- An accepted call adds the amount to the counters, and what it raises stays
within the limits. -/
structure Charged (q d : Quota kind) (amount : Amount) (q' : Quota kind) : Prop where
  used : ∀ id, ∀ m ∈ kind.metrics, q'.used id m = q.used id m + amount id m
  within : ∀ id, ∀ m ∈ kind.metrics, 0 < amount id m →
    q.limitFor d id m = 0 ∨ q'.used id m ≤ q.limitFor d id m
  valid : ∀ id, ∀ m ∈ kind.metrics, amount id m ≠ 0 → ValidId kind id

/-- A call takes the amount from the counters. -/
structure Returned (q : Quota kind) (amount : Amount) (q' : Quota kind) : Prop where
  used : ∀ id, ∀ m ∈ kind.metrics, q'.used id m = q.used id m - amount id m
  valid : ∀ id, ∀ m ∈ kind.metrics, amount id m ≠ 0 → ValidId kind id

theorem Charged.refl : q.Charged d (fun _ _ => 0) q :=
  ⟨fun _ _ _ => (add_zero _).symm, fun _ _ _ impossible => absurd impossible (lt_irrefl _),
    fun _ _ _ impossible => absurd rfl impossible⟩

theorem Returned.refl : q.Returned (fun _ _ => 0) q :=
  ⟨fun _ _ _ => (sub_zero _).symm, fun _ _ _ impossible => absurd rfl impossible⟩

/-- A charged section is sound where the counters stay positive. -/
theorem Charged.sound (charged : q.Charged d amount q') (sound : q.Sound)
    (enough : ∀ id, ∀ m ∈ kind.metrics, 0 ≤ q.used id m + amount id m) : q'.Sound := by
  refine ⟨fun id m mem => ?_, fun id m mem used => ?_⟩
  · rw [charged.used id m mem]
    exact enough id m mem
  · rw [charged.used id m mem] at used
    by_cases before : q.used id m = 0
    · rw [before, zero_add] at used
      exact charged.valid id m mem used
    · exact sound.valid id m mem before

/-- A section that is charged something is sound after that. -/
theorem Charged.sound_of_nonneg (charged : q.Charged d amount q') (sound : q.Sound)
    (nonneg : ∀ id, ∀ m ∈ kind.metrics, 0 ≤ amount id m) : q'.Sound :=
  charged.sound sound fun id m mem => add_nonneg (sound.nonneg id m mem) (nonneg id m mem)

/-- What was charged to a sound section can be given back. -/
theorem Charged.enough (charged : q.Charged d amount q') (sound : q.Sound) :
    ∀ id, ∀ m ∈ kind.metrics, amount id m ≤ q'.used id m := by
  intro id m mem
  have nonneg := sound.nonneg id m mem
  rw [charged.used id m mem]
  linarith

/-- Giving back what was charged restores the counters. -/
theorem Charged.restored {q'' : Quota kind} (charged : q.Charged d amount q')
    (returned : q'.Returned amount q'') (mem : m ∈ kind.metrics) :
    q''.used id m = q.used id m := by
  rw [returned.used id m mem, charged.used id m mem]
  ring

theorem Returned.sound (returned : q.Returned amount q') (sound : q.Sound)
    (enough : ∀ id, ∀ m ∈ kind.metrics, amount id m ≤ q.used id m) : q'.Sound := by
  refine ⟨fun id m mem => ?_, fun id m mem used => ?_⟩
  · have less := enough id m mem
    rw [returned.used id m mem]
    linarith
  · rw [returned.used id m mem] at used
    by_cases before : q.used id m = 0
    · rw [before, zero_sub, neg_ne_zero] at used
      exact returned.valid id m mem used
    · exact sound.valid id m mem before

/-! ## One request -/

/-- A request on one id. -/
def requestAt (kind : QuotaKind) (qid : String) (req : Metric → Option ℚ) : Amount :=
  fun id m => if key kind id = key kind qid then (req m).getD 0 else 0

/-- The VM section has one entry for every id, the others have one for each. -/
theorem eq_of_key (same : key kind id = key kind qid) : kind = .vm ∨ id = qid := by
  by_cases vm : kind = .vm
  · exact Or.inl vm
  · exact Or.inr ((key_eq_iff vm).mp same)

theorem validId_of_key (same : key kind id = key kind qid) (valid : ValidId kind qid) :
    ValidId kind id := by
  rcases eq_of_key same with vm | rfl
  · exact Or.inl vm
  · exact valid

theorem entry_of_key (same : key kind id = key kind qid) : q.entry id = q.entry qid := by
  rw [entry, entry, same]

theorem limitFor_of_key (same : key kind id = key kind qid) :
    q.limitFor d id m = q.limitFor d qid m := by
  rcases eq_of_key same with rfl | rfl
  · rfl
  · rfl

theorem charged_of_admits (admitted : q.Admits d req qid 0) :
    q.Charged d (requestAt kind qid req)
      (q.put qid ((q.entry qid).addToQuota kind.metrics req)) := by
  have counter : ∀ id, ∀ m ∈ kind.metrics,
      (q.put qid ((q.entry qid).addToQuota kind.metrics req)).used id m =
        q.used id m + requestAt kind qid req id m := by
    intro id m mem
    rw [used, used, entry_put, requestAt]
    split_ifs with same
    · rw [entry_of_key same]
      exact QuotaEntry.used_addToQuota mem
    · rw [add_zero]
  obtain ⟨valid, within⟩ := admitted
  refine ⟨counter, fun id m mem positive => ?_, fun id m mem amount => ?_⟩
  · have raised := counter id m mem
    by_cases same : key kind id = key kind qid
    · simp only [requestAt, if_pos same] at positive raised
      cases asked : req m with
      | none => simp [asked] at positive
      | some r =>
        rw [asked, Option.getD_some] at raised
        rw [limitFor_of_key same, raised, used, entry_of_key same, ← used]
        simpa using within m mem r asked
    · simp [requestAt, same] at positive
  · by_cases same : key kind id = key kind qid
    · exact validId_of_key same valid
    · simp [requestAt, same] at amount

/-- A request is given back to an entry that exists. -/
theorem returned_delQuota_of_lookup {e : QuotaEntry} (valid : ValidId kind qid)
    (found : q.attributes.lookup (key kind qid) = some e) :
    q.Returned (requestAt kind qid req) (q.delQuota qid req) := by
  refine ⟨fun id m mem => ?_, fun id m mem amount => ?_⟩
  · by_cases same : key kind id = key kind qid
    · have after : (q.delQuota qid req).used qid m = e.used m - (req m).getD 0 :=
        used_delQuota valid mem found
      rw [requestAt, if_pos same, used, used, entry_of_key same, entry_of_key same,
        entry_of_lookup found, ← after, used]
    · rw [requestAt, if_neg same, used, used, entry, entry, lookup_delQuota_ne same, sub_zero]
  · by_cases same : key kind id = key kind qid
    · exact validId_of_key same valid
    · simp [requestAt, same] at amount

/-- An entry that is in use exists. -/
theorem returned_delQuota (valid : ValidId kind qid) (inUse : q.used qid metric ≠ 0) :
    q.Returned (requestAt kind qid req) (q.delQuota qid req) := by
  cases found : q.attributes.lookup (key kind qid) with
  | none =>
    rw [used, entry_of_lookup_none found] at inUse
    exact absurd rfl inUse
  | some e => exact returned_delQuota_of_lookup valid found

/-! ## One unit for each id -/

/-- One unit of a metric for each id. -/
def unitsOf (metric : Metric) (ids : List String) : Amount :=
  fun id m => if m = metric then ids.count id else 0

/-- The ids are charged all, or the first one is refused. -/
def AllOrNothing (q d : Quota kind) (metric : Metric) (ids : List String) : Prop :=
  q.AdmitsAll d metric ids ∨ Quotas.FirstRefused q d metric ids

/-- The last place of an id in a list has all the others before it. -/
theorem exists_last (mem : id ∈ ids) :
    ∃ i, ∃ h : i < ids.length, ids[i] = id ∧ (ids.take i).count id + 1 = ids.count id := by
  induction ids with
  | nil => cases mem
  | cons head ids ih =>
    by_cases later : id ∈ ids
    · obtain ⟨i, h, here, counted⟩ := ih later
      refine ⟨i + 1, Nat.succ_lt_succ h, here, ?_⟩
      rw [List.take_succ_cons, List.count_cons, List.count_cons]
      omega
    · obtain rfl : id = head := (List.mem_cons.mp mem).resolve_right later
      refine ⟨0, Nat.succ_pos _, rfl, ?_⟩
      rw [List.count_cons_self, List.count_eq_zero_of_not_mem later]
      rfl

theorem charged_chargeAll (keyed : kind ≠ .vm) (single : kind.metrics = [metric])
    (admitted : q.AdmitsAll d metric ids) :
    q.Charged d (unitsOf metric ids) (q.chargeAll metric ids) := by
  have counter : ∀ id, (q.chargeAll metric ids).used id metric =
      q.used id metric + ids.count id := fun id => used_chargeAll keyed single
  refine ⟨fun id m mem => ?_, fun id m mem positive => ?_, fun id m mem amount => ?_⟩ <;>
    obtain rfl : m = metric := by simpa [single] using mem
  · rw [counter, unitsOf, if_pos rfl]
  · simp only [unitsOf, if_true, Nat.cast_pos, List.count_pos_iff] at positive
    obtain ⟨i, h, rfl, counted⟩ := exists_last positive
    rw [counter, ← counted]
    have fits := (admitted i h).2 m mem 1 (by simp [oneOf])
    push_cast
    rw [mul_one, add_assoc] at fits
    exact fits
  · simp only [unitsOf, if_true, ne_eq, Nat.cast_eq_zero] at amount
    exact admitted.valid id (List.count_pos_iff.mp (Nat.pos_of_ne_zero amount))

theorem returned_delEach (keyed : kind ≠ .vm) (single : kind.metrics = [metric])
    (sound : q.Sound) (enough : ∀ id, unitsOf metric ids id metric ≤ q.used id metric) :
    q.Returned (unitsOf metric ids) (delEach (oneOf metric) q ids) := by
  have mem : metric ∈ kind.metrics := single ▸ List.mem_singleton_self metric
  simp only [unitsOf, if_true] at enough
  have inUse : ∀ id ∈ ids, 0 < q.used id metric := fun id here =>
    lt_of_lt_of_le (Nat.cast_pos.mpr (List.count_pos_iff.mpr here)) (enough id)
  have valid : ∀ id ∈ ids, ValidId kind id := fun id here =>
    sound.valid id metric mem (inUse id here).ne'
  refine ⟨fun id m mem => ?_, fun id m mem amount => ?_⟩ <;>
    obtain rfl : m = metric := by simpa [single] using mem
  · rw [unitsOf, if_pos rfl]
    by_cases here : id ∈ ids
    · cases found : q.attributes.lookup (key kind id) with
      | none =>
        have unused : q.used id m = 0 := by
          rw [used, entry_of_lookup_none found]
          rfl
        exact absurd (inUse id here) (by rw [unused]; exact lt_irrefl 0)
      | some e =>
        have counter : e.used m = q.used id m := by rw [used, entry_of_lookup found]
        rw [← counter]
        refine (used_delEach keyed single (valid id here) found).1 ?_
        -- an entry is dropped only when everything in it is given back
        rintro ⟨-, k, -, small, value⟩
        have less := enough id
        rw [← counter, value, Nat.cast_le] at less
        omega
    · rw [used_delEach_of_not_mem keyed here, List.count_eq_zero_of_not_mem here]
      simp
  · simp only [unitsOf, if_true, ne_eq, Nat.cast_eq_zero] at amount
    exact valid id (List.count_pos_iff.mp (Nat.pos_of_ne_zero amount))

/-- A loop charges every id, or is refused; at its first id it changes no counter. -/
theorem checkEach_cases (keyed : kind ≠ .vm) (single : kind.metrics = [metric])
    (q d : Quota kind) (ids : List String) :
    (q.AdmitsAll d metric (ids.filter (· ≠ "")) ∧
        ∃ q', checkEach d (oneOf metric) q ids = (.ok (), q') ∧
          q.Charged d (unitsOf metric (ids.filter (· ≠ ""))) q') ∨
      ¬ q.AdmitsAll d metric (ids.filter (· ≠ "")) ∧
        ∃ err q', checkEach d (oneOf metric) q ids = (.error err, q') ∧
          (q.AllOrNothing d metric (ids.filter (· ≠ "")) →
            ∀ id, ∀ m ∈ kind.metrics, q'.used id m = q.used id m) := by
  by_cases admitted : q.AdmitsAll d metric (ids.filter (· ≠ ""))
  · have named : ∀ id ∈ ids.filter (· ≠ ""), id ≠ "" := fun id mem => by
      simpa using (List.mem_filter.mp mem).2
    refine Or.inl ⟨admitted, _, ?_, charged_chargeAll keyed single admitted⟩
    rw [← checkEach_filter]
    exact checkEach_of_admitsAll keyed single named admitted
  · obtain ⟨err, q', run, same⟩ := Quotas.checkEach_refused keyed single admitted
    refine Or.inr ⟨admitted, err, q', run, fun whole id m mem => ?_⟩
    obtain rfl : m = metric := by simpa [single] using mem
    exact same.mpr (whole.resolve_left admitted) id

theorem unitsOf_nonneg : 0 ≤ unitsOf metric ids id m := by
  rw [unitsOf]
  split
  · exact Nat.cast_nonneg _
  · exact le_refl 0

end Quota

/-! ## The sections -/

namespace QuotaNetwork

variable {q q' d : Quota .network} {tmpl : Template}

def amounts (tmpl : Template) : Amount := Quota.unitsOf .leases (Quotas.networkIds tmpl)

theorem check_cases (q d : Quota .network) (tmpl : Template) :
    (q.AdmitsAll d .leases (Quotas.networkIds tmpl) ∧
        ∃ q', check q tmpl d = (.ok (), q') ∧ q.Charged d (amounts tmpl) q') ∨
      ¬ q.AdmitsAll d .leases (Quotas.networkIds tmpl) ∧
        ∃ err q', check q tmpl d = (.error err, q') ∧
          (q.AllOrNothing d .leases (Quotas.networkIds tmpl) →
            ∀ id, ∀ m ∈ QuotaKind.network.metrics, q'.used id m = q.used id m) :=
  Quota.checkEach_cases (by decide) rfl q d (ids tmpl)

/-- What a check charged can be given back. -/
theorem returned_del (sound : q.Sound)
    (enough : ∀ id, amounts tmpl id .leases ≤ q.used id .leases) :
    q.Returned (amounts tmpl) (del q tmpl) := by
  rw [del, ← Quota.delEach_filter (by decide)]
  exact Quota.returned_delEach (by decide) rfl sound enough

end QuotaNetwork

namespace QuotaImage

variable {q q' d : Quota .image} {tmpl : Template}

def amounts (tmpl : Template) : Amount := Quota.unitsOf .rvms (Quotas.imageIds tmpl)

theorem check_cases (q d : Quota .image) (tmpl : Template) :
    (q.AdmitsAll d .rvms (Quotas.imageIds tmpl) ∧
        ∃ q', check q tmpl d = (.ok (), q') ∧ q.Charged d (amounts tmpl) q') ∨
      ¬ q.AdmitsAll d .rvms (Quotas.imageIds tmpl) ∧
        ∃ err q', check q tmpl d = (.error err, q') ∧
          (q.AllOrNothing d .rvms (Quotas.imageIds tmpl) →
            ∀ id, ∀ m ∈ QuotaKind.image.metrics, q'.used id m = q.used id m) :=
  Quota.checkEach_cases (by decide) rfl q d (ids tmpl)

/-- What a check charged can be given back. -/
theorem returned_del (sound : q.Sound)
    (enough : ∀ id, amounts tmpl id .rvms ≤ q.used id .rvms) :
    q.Returned (amounts tmpl) (del q tmpl) := by
  rw [del, ← Quota.delEach_filter (by decide)]
  exact Quota.returned_delEach (by decide) rfl sound enough

end QuotaImage

namespace QuotaVirtualMachine

variable {q q' d : Quota .vm} {tmpl : Template}

def amounts (tmpl : Template) : Amount :=
  Quota.requestAt .vm "" (request ((tmpl.getInt "MEMORY").getD 0) ((tmpl.getFloat "CPU").getD 0))

def increments (tmpl : Template) : Amount :=
  Quota.requestAt .vm "" (updateRequest (tmpl.getInt "MEMORY") (tmpl.getFloat "CPU"))

/-- An admitted VM is charged, and it needs something of each metric. -/
theorem charged_of_admits (admitted : Admits q d tmpl) :
    ∃ q', check q tmpl d = (.ok (), q') ∧ q.Charged d (amounts tmpl) q' ∧
      ∀ id m, 0 ≤ amounts tmpl id m := by
  obtain ⟨memory, readMemory, memoryPos, cpu, readCpu, cpuPos, fits⟩ := admitted
  rw [Option.mem_def] at readMemory readCpu
  refine ⟨q.put "" ((q.entry "").addToQuota QuotaKind.vm.metrics (request memory cpu)), ?_, ?_,
    fun id m => ?_⟩
  · rw [check, readMemory, readCpu]
    have accepted : ¬ QuotaArithmetic.exact.read cpu ≤ 0 := not_le.mpr cpuPos
    simp only [if_neg (not_le.mpr memoryPos), if_neg accepted]
    exact Quota.checkQuota_of_admits fits
  · rw [amounts, readMemory, readCpu]
    exact Quota.charged_of_admits fits
  · have same : Quota.key .vm id = Quota.key .vm "" := rfl
    rw [amounts, readMemory, readCpu, Quota.requestAt, if_pos same]
    cases m with
    | vms => exact zero_le_one
    | memory => exact Int.cast_nonneg memoryPos.le
    | cpu => exact cpuPos.le
    | _ => exact le_refl 0

theorem used_of_not_admits (refused : ¬ Admits q d tmpl) :
    ∃ err q', check q tmpl d = (.error err, q') ∧ ∀ id m, q'.used id m = q.used id m := by
  obtain ⟨err, q', run, same⟩ := check_of_not_admits refused
  exact ⟨err, q', run, fun id m => by rw [Quota.used, Quota.used, same]⟩

/-- An update adds its increments, or is refused and changes no counter. -/
theorem update_cases (q d : Quota .vm) (tmpl : Template) :
    (∃ q', update q tmpl d = (.ok (), q') ∧ q.Charged d (increments tmpl) q') ∨
      ∃ err q', update q tmpl d = (.error err, q') ∧ ∀ id m, q'.used id m = q.used id m := by
  by_cases admitted :
      q.Admits d (updateRequest (tmpl.getInt "MEMORY") (tmpl.getFloat "CPU")) "" 0
  · exact Or.inl ⟨_, Quota.checkQuota_of_admits admitted, Quota.charged_of_admits admitted⟩
  · obtain ⟨err, q', run, same⟩ := Quota.checkQuota_of_not_admits admitted
    exact Or.inr ⟨err, q', run, fun id m => by rw [Quota.used, Quota.used, same]⟩

/-- A VM is given back where one is charged. -/
theorem returned_del (enough : amounts tmpl "" .vms ≤ q.used "" .vms) :
    q.Returned (amounts tmpl) (del q tmpl) := by
  have inUse : q.used "" .vms ≠ 0 := by
    have one : amounts tmpl "" .vms = 1 := rfl
    rw [one] at enough
    linarith
  exact Quota.returned_delQuota (Or.inl rfl) inUse

end QuotaVirtualMachine

namespace QuotaDatastore

variable {q q' d : Quota .datastore} {tmpl : Template}

/-- What an image is charged for: nothing where its template names no datastore or
has no size. -/
def amounts (tmpl : Template) : Amount :=
  if tmpl.getString "DATASTORE" = "" then fun _ _ => 0
  else
    match tmpl.getInt "SIZE" with
    | none => fun _ _ => 0
    | some size => Quota.requestAt .datastore (tmpl.getString "DATASTORE") (request size)

/-- A check charges the image, or is refused and changes no counter. -/
theorem check_cases (q d : Quota .datastore) (tmpl : Template) :
    (∃ q', check q tmpl d = (.ok (), q') ∧ q.Charged d (amounts tmpl) q' ∧
        ∀ id m, 0 ≤ amounts tmpl id m) ∨
      ∃ err q', check q tmpl d = (.error err, q') ∧ ∀ id m, q'.used id m = q.used id m := by
  by_cases noDatastore : tmpl.getString "DATASTORE" = ""
  · exact Or.inr ⟨.noDatastore, q, by simp only [check, if_pos noDatastore], fun _ _ => rfl⟩
  · cases readSize : tmpl.getInt "SIZE" with
    | none =>
      exact Or.inr ⟨.badSize, q, by simp only [check, if_neg noDatastore, readSize],
        fun _ _ => rfl⟩
    | some size =>
      by_cases negative : size < 0
      · exact Or.inr ⟨.badSize, q,
          by simp only [check, if_neg noDatastore, readSize, if_pos negative], fun _ _ => rfl⟩
      · by_cases admitted : q.Admits d (request size) (tmpl.getString "DATASTORE") 0
        · refine Or.inl ⟨q.put (tmpl.getString "DATASTORE")
            ((q.entry (tmpl.getString "DATASTORE")).addToQuota QuotaKind.datastore.metrics
              (request size)), ?_, ?_, fun id m => ?_⟩
          · simp only [check, if_neg noDatastore, readSize, if_neg negative]
            exact Quota.checkQuota_of_admits admitted
          · simp only [amounts, if_neg noDatastore, readSize]
            exact Quota.charged_of_admits admitted
          · simp only [amounts, if_neg noDatastore, readSize, Quota.requestAt]
            split
            · cases m with
              | images => exact zero_le_one
              | size => exact Int.cast_nonneg (not_lt.mp negative)
              | _ => exact le_refl 0
            · exact le_refl 0
        · obtain ⟨err, q', run, same⟩ := Quota.checkQuota_of_not_admits admitted
          refine Or.inr ⟨err, q', ?_, fun id m => by rw [Quota.used, Quota.used, same]⟩
          simp only [check, if_neg noDatastore, readSize, if_neg negative]
          exact run

/-- What a check has charged can be given back. -/
theorem restored_of_check (run : check q tmpl d = (.ok (), q')) :
    ∀ id, ∀ m ∈ QuotaKind.datastore.metrics, (del q' tmpl).used id m = q.used id m := by
  rcases check_cases q d tmpl with ⟨_, again, charged, -⟩ | ⟨err, _, refused, -⟩
  · rw [run] at again
    cases again
    refine fun id m mem => charged.restored ?_ mem
    unfold check at run
    dsimp only at run
    split at run
    · cases run
    rename_i named
    split at run
    · cases run
    rename_i size readSize
    split at run
    · cases run
    by_cases admitted : q.Admits d (request size) (tmpl.getString "DATASTORE") 0
    · rw [Quota.checkQuota_of_admits admitted] at run
      cases run
      simp only [del, amounts, if_neg named, readSize]
      exact Quota.returned_delQuota_of_lookup admitted.1 Quota.lookup_put
    · obtain ⟨err, q'', refused, -⟩ := Quota.checkQuota_of_not_admits admitted
      rw [refused] at run
      cases run
  · rw [run] at refused
    cases refused

/-- An image is given back where one is charged. -/
theorem returned_del (sound : q.Sound)
    (enough : ∀ id, amounts tmpl id .images ≤ q.used id .images) :
    q.Returned (amounts tmpl) (del q tmpl) := by
  simp only [del]
  by_cases noDatastore : tmpl.getString "DATASTORE" = ""
  · simp only [amounts, if_pos noDatastore]
    exact Quota.Returned.refl
  · cases readSize : tmpl.getInt "SIZE" with
    | none =>
      simp only [amounts, if_neg noDatastore, readSize]
      exact Quota.Returned.refl
    | some size =>
      have one : amounts tmpl (tmpl.getString "DATASTORE") .images = 1 := by
        simp only [amounts, if_neg noDatastore, readSize, Quota.requestAt, if_true]
        rfl
      have inUse : q.used (tmpl.getString "DATASTORE") .images ≠ 0 := by
        have least := enough (tmpl.getString "DATASTORE")
        rw [one] at least
        linarith
      have valid := sound.valid _ .images (by decide) inUse
      simp only [amounts, if_neg noDatastore, readSize]
      exact Quota.returned_delQuota valid inUse

end QuotaDatastore

end Ezilla
