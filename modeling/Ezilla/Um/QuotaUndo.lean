import Ezilla.Um.QuotaCheck
import Mathlib.Logic.Function.Iterate

/-!
# Giving back after a check

Every section charges a template in the same way: `QuotaKind.charges` are the ids and the
request that its `check` hands to `check_quota` one after the other, and `del` gives the
same request back for the same ids.

`Quota.undone_iff` says when giving back undoes an accepted check entry by entry, and when a
refused one leaves the entries alone. A check that is refused has already created the entry
it looked at and charged the ids before it; an accepted one is undone unless a counter loses
something on the way up or down, or an entry is dropped on the way down because it looks
empty there.
-/

namespace Ezilla

/-! ## What a section charges -/

/-- The ids and the request that a section charges for a template, or how it refuses the
template before that. -/
def QuotaKind.charges (kind : QuotaKind) (tmpl : Template) (arith : QuotaArithmetic) :
    Except QuotaError (List String × (Metric → Option ℚ)) :=
  match kind with
  | .network => .ok (Quotas.networkIds tmpl, oneOf .leases)
  | .image => .ok (Quotas.imageIds tmpl, oneOf .rvms)
  | .vm =>
    match tmpl.getInt "MEMORY" with
    | none => .error .badMemory
    | some memory =>
      if memory ≤ 0 then .error .badMemory
      else
        match tmpl.getFloat "CPU" with
        | none => .error .badCpu
        | some cpu =>
          if arith.read cpu ≤ 0 then .error .badCpu
          else .ok ([""], QuotaVirtualMachine.request memory cpu)
  | .datastore =>
    if tmpl.getString "DATASTORE" = "" then .error .noDatastore
    else
      match tmpl.getInt "SIZE" with
      | none => .error .badSize
      | some size =>
        if size < 0 then .error .badSize
        else .ok ([tmpl.getString "DATASTORE"], QuotaDatastore.request size)

/-- A counter after a request is added `n` times. -/
def QuotaArithmetic.addTimes (arith : QuotaArithmetic) (used r : ℚ) (n : Nat) : ℚ :=
  (arith.add · r)^[n] used

theorem QuotaArithmetic.addTimes_succ (arith : QuotaArithmetic) (used r : ℚ) (n : Nat) :
    arith.addTimes used r (n + 1) = arith.add (arith.addTimes used r n) r :=
  Function.iterate_succ_apply' (arith.add · r) n used

namespace Quota

variable {kind : QuotaKind}

/-- `Quota::check`, as each section implements it. -/
def check (q : Quota kind) (tmpl : Template) (defaultQuotas : Quota kind)
    (arith : QuotaArithmetic) : Except QuotaError Unit × Quota kind :=
  match kind with
  | .datastore => QuotaDatastore.check q tmpl defaultQuotas arith
  | .network => QuotaNetwork.check q tmpl defaultQuotas arith
  | .image => QuotaImage.check q tmpl defaultQuotas arith
  | .vm => QuotaVirtualMachine.check q tmpl defaultQuotas arith

/-- `Quota::del`, as each section implements it. -/
def del (q : Quota kind) (tmpl : Template) (arith : QuotaArithmetic) : Quota kind :=
  match kind with
  | .datastore => QuotaDatastore.del q tmpl arith
  | .network => QuotaNetwork.del q tmpl arith
  | .image => QuotaImage.del q tmpl arith
  | .vm => QuotaVirtualMachine.del q tmpl arith

/-- `check_quota` for one id after the other, up to the first refusal. -/
def checkAll (defaultQuotas : Quota kind) (req : Metric → Option ℚ) (arith : QuotaArithmetic)
    (q : Quota kind) : List String → Except QuotaError Unit × Quota kind
  | [] => (.ok (), q)
  | id :: ids =>
    match q.checkQuota id req defaultQuotas arith with
    | (.ok (), q') => checkAll defaultQuotas req arith q' ids
    | (.error e, q') => (.error e, q')

/-- Both sections have the same entries, with the same limits and usage. -/
def SameEntries (q q' : Quota kind) : Prop :=
  ∀ id, q'.attributes.lookup (key kind id) = q.attributes.lookup (key kind id)

/-- No entry is without usage and without a limit of its own. -/
def NoneEmpty (q : Quota kind) (arith : QuotaArithmetic) : Prop :=
  ∀ id, ∀ e ∈ q.attributes.lookup (key kind id), ¬ q.Idle e arith

/-- Giving back undoes an accepted check, and a refused one has changed nothing. -/
def Undone (q d : Quota kind) (tmpl : Template) (arith : QuotaArithmetic) : Prop :=
  match q.check tmpl d arith with
  | (.ok (), q') => q.SameEntries (q'.del tmpl arith)
  | (.error _, q') => q.SameEntries q'

/-! ## The sections charge alike -/

variable {q q' d : Quota kind} {id id' : String} {ids : List String} {e : QuotaEntry}
  {req : Metric → Option ℚ} {tmpl : Template} {arith : QuotaArithmetic}

/-- The loops of `check` skip the ids left empty. -/
theorem checkEach_eq_checkAll :
    checkEach d req q ids arith = checkAll d req arith q (ids.filter (· ≠ "")) := by
  induction ids generalizing q with
  | nil => rfl
  | cons id ids ih =>
    by_cases blank : id = ""
    · simpa [blank, checkEach] using ih
    · have kept : (id :: ids).filter (· ≠ "") = id :: ids.filter (· ≠ "") := by simp [blank]
      rw [kept, checkEach, if_neg blank, checkAll]
      rcases q.checkQuota id req d arith with ⟨_ | _, q'⟩
      · rfl
      · exact ih

theorem checkAll_single : checkAll d req arith q [id] = q.checkQuota id req d arith := by
  rw [checkAll]
  rcases q.checkQuota id req d arith with ⟨_ | _, q'⟩ <;> rfl

/-- Each section checks what it charges. -/
theorem check_eq : q.check tmpl d arith =
    match kind.charges tmpl arith with
    | .error e => (.error e, q)
    | .ok (ids, req) => checkAll d req arith q ids := by
  cases kind with
  | network => exact checkEach_eq_checkAll
  | image => exact checkEach_eq_checkAll
  | vm =>
    rw [check, QuotaVirtualMachine.check, QuotaKind.charges]
    cases tmpl.getInt "MEMORY" with
    | none => rfl
    | some memory =>
      dsimp only
      split
      · rfl
      · cases tmpl.getFloat "CPU" with
        | none => rfl
        | some cpu =>
          dsimp only
          split
          · rfl
          · exact checkAll_single.symm
  | datastore =>
    rw [check, QuotaDatastore.check, QuotaKind.charges]
    split
    · rfl
    · cases tmpl.getInt "SIZE" with
      | none => rfl
      | some size =>
        dsimp only
        split
        · rfl
        · exact checkAll_single.symm

/-- Each section gives back what it charges. -/
theorem del_eq (charges : kind.charges tmpl arith = .ok (ids, req)) :
    q.del tmpl arith = delEach req q ids arith := by
  cases kind with
  | network =>
    cases charges
    exact (delEach_filter (by decide)).symm
  | image =>
    cases charges
    exact (delEach_filter (by decide)).symm
  | vm =>
    rw [del, QuotaVirtualMachine.del]
    rw [QuotaKind.charges] at charges
    cases memoryRead : tmpl.getInt "MEMORY" with
    | none =>
      rw [memoryRead] at charges
      cases charges
    | some memory =>
      cases cpuRead : tmpl.getFloat "CPU" with
      | none =>
        rw [memoryRead, cpuRead] at charges
        dsimp only at charges
        split at charges <;> cases charges
      | some cpu =>
        rw [memoryRead, cpuRead] at charges
        dsimp only at charges
        split at charges
        · cases charges
        · split at charges
          · cases charges
          · cases charges
            rfl
  | datastore =>
    rw [del, QuotaDatastore.del]
    rw [QuotaKind.charges] at charges
    split at charges
    · cases charges
    · rename_i named
      rw [if_neg named]
      cases sizeRead : tmpl.getInt "SIZE" with
      | none =>
        rw [sizeRead] at charges
        cases charges
      | some size =>
        rw [sizeRead] at charges
        dsimp only at charges
        split at charges
        · cases charges
        · cases charges
          rfl

end Quota

/-! ## Requests of the same size -/

namespace QuotaEntry

variable {kind : QuotaKind} {e : QuotaEntry} {req : Metric → Option ℚ} {arith : QuotaArithmetic}
  {m : Metric} {n k : Nat}

/-- The entry with the request added `n` times and then taken away `k` times. -/
def upDown (e : QuotaEntry) (kind : QuotaKind) (req : Metric → Option ℚ)
    (arith : QuotaArithmetic) (n k : Nat) : QuotaEntry :=
  (Quota.giveBack kind · req arith)^[k] ((addToQuota · kind.metrics req arith)^[n] e)

@[simp] theorem upDown_zero : e.upDown kind req arith 0 0 = e := rfl

theorem addToQuota_upDown :
    (e.upDown kind req arith n 0).addToQuota kind.metrics req arith =
      e.upDown kind req arith (n + 1) 0 :=
  (Function.iterate_succ_apply' (addToQuota · kind.metrics req arith) n e).symm

theorem giveBack_upDown : Quota.giveBack kind (e.upDown kind req arith n k) req arith =
    e.upDown kind req arith n (k + 1) :=
  (Function.iterate_succ_apply' (Quota.giveBack kind · req arith) k _).symm

@[simp] theorem limit_upDown : (e.upDown kind req arith n k).limit = e.limit := by
  induction k with
  | zero =>
    induction n with
    | zero => rfl
    | succ n ih => rw [← addToQuota_upDown, ← ih]; rfl
  | succ k ih => rw [← giveBack_upDown, ← ih]; rfl

/-- The counters go up and down by themselves. -/
theorem used_upDown (mem : m ∈ kind.metrics) : (e.upDown kind req arith n k).used m =
    match req m with
    | none => e.used m
    | some r => arith.addTimes (arith.addTimes (e.used m) r n) (-r) k := by
  induction k with
  | zero =>
    induction n with
    | zero => cases req m <;> rfl
    | succ n ih =>
      rw [← addToQuota_upDown, addToQuota]
      simp only [if_pos mem, ih]
      cases req m with
      | none => rfl
      | some r => exact (arith.addTimes_succ (e.used m) r n).symm
  | succ k ih =>
    rw [← giveBack_upDown, Quota.giveBack, addToQuota]
    simp only [if_pos mem, ih]
    cases req m with
    | none => rfl
    | some r => exact (arith.addTimes_succ _ _ _).symm

theorem used_upDown_of_not_mem (other : m ∉ kind.metrics) :
    (e.upDown kind req arith n k).used m = e.used m := by
  induction k with
  | zero =>
    induction n with
    | zero => rfl
    | succ n ih => rw [← addToQuota_upDown, addToQuota]; exact (if_neg other).trans ih
  | succ k ih => rw [← giveBack_upDown, Quota.giveBack, addToQuota]; exact (if_neg other).trans ih

/-- An entry comes back where its counters do. -/
theorem upDown_eq_iff : e.upDown kind req arith n k = e ↔ ∀ m ∈ kind.metrics, ∀ r ∈ req m,
    arith.addTimes (arith.addTimes (e.used m) r n) (-r) k = e.used m := by
  constructor
  · intro same m mem r asked
    have counter := @used_upDown kind e req arith m n k mem
    rw [same, Option.mem_def.mp asked] at counter
    exact counter.symm
  · intro counters
    ext m
    · rw [limit_upDown]
    · by_cases mem : m ∈ kind.metrics
      · rw [used_upDown mem]
        cases asked : req m with
        | none => rfl
        | some r => exact counters m mem r asked
      · exact used_upDown_of_not_mem mem

end QuotaEntry

namespace Quota

variable {kind : QuotaKind} {q q' d : Quota kind} {id id' : String} {ids : List String}
  {e : QuotaEntry} {req : Metric → Option ℚ} {tmpl : Template} {m : Metric}
  {arith : QuotaArithmetic}

/-- How often the entry of an id is charged for some ids. -/
def keyCount (kind : QuotaKind) (ids : List String) (id : String) : Nat :=
  (ids.map (key kind)).count (key kind id)

theorem keyCount_cons : keyCount kind (id' :: ids) id =
    keyCount kind ids id + if key kind id = key kind id' then 1 else 0 := by
  rw [keyCount, List.map_cons, List.count_cons, keyCount]
  simp only [beq_iff_eq, eq_comm (a := key kind id')]

theorem keyCount_pos (mem : id ∈ ids) : 0 < keyCount kind ids id :=
  List.count_pos_iff.mpr (List.mem_map_of_mem mem)

/-- Charge the request to one id. -/
def chargeOne (q : Quota kind) (req : Metric → Option ℚ) (arith : QuotaArithmetic)
    (id : String) : Quota kind :=
  q.put id ((q.entry id).addToQuota kind.metrics req arith)

/-- Charge the request to each id. -/
def chargeEach (req : Metric → Option ℚ) (arith : QuotaArithmetic) (q : Quota kind)
    (ids : List String) : Quota kind :=
  ids.foldl (fun q id => q.chargeOne req arith id) q

theorem chargeEach_cons :
    chargeEach req arith q (id :: ids) = chargeEach req arith (q.chargeOne req arith id) ids := rfl

theorem entry_chargeOne : (q.chargeOne req arith id).entry id' =
    if key kind id' = key kind id then (q.entry id').addToQuota kind.metrics req arith
    else q.entry id' := by
  rw [chargeOne, entry_put]
  split_ifs with same
  · rw [entry, entry, same]
  · rfl

@[simp] theorem isDefault_chargeEach : (chargeEach req arith q ids).isDefault = q.isDefault := by
  induction ids generalizing q with
  | nil => rfl
  | cons id ids ih => rw [chargeEach_cons, ih, chargeOne, isDefault_put]

theorem entry_chargeEach : (chargeEach req arith q ids).entry id =
    (q.entry id).upDown kind req arith (keyCount kind ids id) 0 := by
  suffices general : ∀ (e : QuotaEntry) (n : Nat), q.entry id = e.upDown kind req arith n 0 →
      (chargeEach req arith q ids).entry id =
        e.upDown kind req arith (n + keyCount kind ids id) 0 by
    simpa using general (q.entry id) 0 rfl
  intro e n start
  induction ids generalizing q n with
  | nil => exact start
  | cons head ids ih =>
    rw [chargeEach_cons, keyCount_cons]
    have after := @entry_chargeOne kind q head id req arith
    split_ifs at after ⊢ with same
    · rw [start, QuotaEntry.addToQuota_upDown] at after
      rw [ih (n + 1) after]
      congr 1
      omega
    · exact ih n (after.trans start)

/-- Every id that is charged has an entry afterwards, and no other one gets one. -/
theorem lookup_chargeEach : (chargeEach req arith q ids).attributes.lookup (key kind id) =
    if keyCount kind ids id = 0 then q.attributes.lookup (key kind id)
    else some ((q.entry id).upDown kind req arith (keyCount kind ids id) 0) := by
  have present : ∀ (ids : List String) (q : Quota kind),
      (q.attributes.lookup (key kind id)).isSome ∨ keyCount kind ids id ≠ 0 →
        ((chargeEach req arith q ids).attributes.lookup (key kind id)).isSome := by
    intro ids
    induction ids with
    | nil => exact fun q h => h.resolve_right fun charged => charged rfl
    | cons head ids ih =>
      intro q h
      refine ih (q.chargeOne req arith head) ?_
      rw [keyCount_cons] at h
      by_cases same : key kind id = key kind head
      · exact Or.inl (by rw [chargeOne, same, lookup_put]; rfl)
      · rw [chargeOne, lookup_put_ne same]
        simpa [same] using h
  split_ifs with none
  · induction ids generalizing q with
    | nil => rfl
    | cons head ids ih =>
      rw [keyCount_cons] at none
      have other : key kind id ≠ key kind head := by
        intro same
        simp [same] at none
      rw [chargeEach_cons, ih (by omega), chargeOne, lookup_put_ne other]
  · obtain ⟨e, found⟩ := Option.isSome_iff_exists.mp (present ids q (Or.inr none))
    rw [found, ← entry_chargeEach, entry_of_lookup found]

/-- Giving back goes down from the entry after the charges, unless the entry looks empty on
the way: it is dropped there. -/
theorem lookup_delEach {n k : Nat} (valid : ∀ id ∈ ids, ValidId kind id)
    (found : q.attributes.lookup (key kind id) = some (e.upDown kind req arith n k)) :
    ((∀ j ≤ keyCount kind ids id, 0 < j → ¬ q.Idle (e.upDown kind req arith n (k + j)) arith) →
      (delEach req q ids arith).attributes.lookup (key kind id) =
        some (e.upDown kind req arith n (k + keyCount kind ids id))) ∧
    (∀ j ≤ keyCount kind ids id, 0 < j → q.Idle (e.upDown kind req arith n (k + j)) arith →
      (delEach req q ids arith).attributes.lookup (key kind id) = none) := by
  induction ids generalizing q k with
  | nil => exact ⟨fun _ => found, fun j small positive => absurd positive (by
      have empty : keyCount kind [] id = 0 := rfl
      omega)⟩
  | cons head ids ih =>
    have rest : ∀ id ∈ ids, ValidId kind id := fun x mem => valid x (List.mem_cons_of_mem head mem)
    have idle : ∀ e, (q.delQuota head req arith).Idle e arith ↔ q.Idle e arith := fun e => by
      simp only [Idle, implicitLimit, isDefault_delQuota]
    rw [delEach_cons, keyCount_cons]
    split_ifs with same
    · have after := @lookup_delQuota kind q head _ req arith (valid head List.mem_cons_self)
        (same ▸ found)
      rw [QuotaEntry.giveBack_upDown, ← same] at after
      split_ifs at after with empty
      · have gone := @lookup_delEach_none kind _ id ids req arith after
        exact ⟨fun none_ => absurd empty (none_ 1 (by omega) one_pos), fun _ _ _ _ => gone⟩
      · obtain ⟨kept, dropped⟩ := ih rest after
        refine ⟨fun none_ => ?_, fun j small positive here => ?_⟩
        · rw [kept fun j small positive => ?_]
          · congr 2
            omega
          · rw [idle, show k + 1 + j = k + (j + 1) by omega]
            exact none_ (j + 1) (by omega) (by omega)
        · obtain ⟨j, rfl⟩ : ∃ i, j = i + 1 := ⟨j - 1, by omega⟩
          rcases Nat.eq_zero_or_pos j with rfl | later
          · exact absurd here empty
          · refine dropped j (by omega) later ((idle _).mpr ?_)
            rwa [show k + 1 + j = k + (j + 1) by omega]
    · have after := @lookup_delQuota_ne kind q head id req arith same
      obtain ⟨kept, dropped⟩ := ih rest (after.trans found)
      exact ⟨fun none_ => kept fun j small positive => by rw [idle]; exact none_ j small positive,
        fun j small positive here => dropped j small positive ((idle _).mpr here)⟩

/-! ## Checking several ids -/

/-- A request fits after `n` of the same size were charged. -/
def FitsAfter (q d : Quota kind) (req : Metric → Option ℚ) (id : String) (n : Nat)
    (arith : QuotaArithmetic) : Prop :=
  ValidId kind id ∧ ∀ m ∈ kind.metrics, ∀ r ∈ req m,
    q.limitFor d id m arith = 0 ∨
      arith.sum (arith.addTimes (q.used id m) r n) r ≤ q.limitFor d id m arith

instance (q d : Quota kind) (req : Metric → Option ℚ) (id : String) (n : Nat)
    (arith : QuotaArithmetic) : Decidable (q.FitsAfter d req id n arith) :=
  inferInstanceAs (Decidable (_ ∧ _))

/-- The place `i` of some ids is admitted: its request fits after those of the places before. -/
def AdmitsAt (q d : Quota kind) (req : Metric → Option ℚ) (arith : QuotaArithmetic)
    (ids : List String) (i : Nat) : Prop :=
  ∀ id ∈ ids[i]?, q.FitsAfter d req id (keyCount kind (ids.take i) id) arith

/-- Requests that are charged before count for the same entry. -/
theorem fits_chargeEach : (chargeEach req arith q ids).Fits d req id arith ↔
    q.FitsAfter d req id (keyCount kind ids id) arith := by
  refine and_congr_right fun _ => forall₂_congr fun m mem => forall₂_congr fun r asked => ?_
  have limit : (chargeEach req arith q ids).limitFor d id m arith = q.limitFor d id m arith := by
    simp only [limitFor, QuotaEntry.effectiveLimit, entry_chargeEach, QuotaEntry.limit_upDown]
  rw [limit, used, entry_chargeEach, QuotaEntry.used_upDown mem, Option.mem_def.mp asked]
  rfl

/-- The section after a refused request: the entry it looked at is there. -/
def refusedAt (q : Quota kind) (id : String) : Quota kind :=
  if ValidId kind id then q.put id (q.entry id) else q

/-- A check of some ids charges them all, or those before the first one that does not fit. -/
theorem checkAll_cases (q d : Quota kind) (req : Metric → Option ℚ) (arith : QuotaArithmetic)
    (ids : List String) :
    ((∀ i, q.AdmitsAt d req arith ids i) ∧
        checkAll d req arith q ids = (.ok (), chargeEach req arith q ids)) ∨
      ∃ i id err, ids[i]? = some id ∧ (∀ j < i, q.AdmitsAt d req arith ids j) ∧
        ¬ q.AdmitsAt d req arith ids i ∧ checkAll d req arith q ids =
          (.error err, (chargeEach req arith q (ids.take i)).refusedAt id) := by
  suffices general : ∀ (done ids : List String),
      ((∀ i, done.length ≤ i → q.AdmitsAt d req arith (done ++ ids) i) ∧
        checkAll d req arith (chargeEach req arith q done) ids =
          (.ok (), chargeEach req arith q (done ++ ids))) ∨
      ∃ i id err, (done ++ ids)[i]? = some id ∧
        (∀ j, done.length ≤ j → j < i → q.AdmitsAt d req arith (done ++ ids) j) ∧
        ¬ q.AdmitsAt d req arith (done ++ ids) i ∧
        checkAll d req arith (chargeEach req arith q done) ids =
          (.error err, (chargeEach req arith q ((done ++ ids).take i)).refusedAt id) by
    rcases general [] ids with ⟨all, run⟩ | ⟨i, id, err, here, before, refused, run⟩
    · exact Or.inl ⟨fun i => all i (Nat.zero_le i), run⟩
    · exact Or.inr ⟨i, id, err, here, fun j => before j (Nat.zero_le j), refused, run⟩
  intro done ids
  induction ids generalizing done with
  | nil =>
    refine Or.inl ⟨fun i past id there => ?_, by rw [List.append_nil]; rfl⟩
    rw [List.append_nil, List.getElem?_eq_none past] at there
    cases there
  | cons id ids ih =>
    have here : (done ++ id :: ids)[done.length]? = some id := by simp
    have taken : (done ++ id :: ids).take done.length = done := by simp
    have admits : q.AdmitsAt d req arith (done ++ id :: ids) done.length ↔
        (chargeEach req arith q done).Fits d req id arith := by
      rw [AdmitsAt, here, taken, fits_chargeEach]
      simp
    by_cases fits : (chargeEach req arith q done).Fits d req id arith
    · have charged : chargeEach req arith q (done ++ [id]) =
          (chargeEach req arith q done).chargeOne req arith id := by
        rw [chargeEach, List.foldl_append]
        rfl
      have next : checkAll d req arith (chargeEach req arith q done) (id :: ids) =
          checkAll d req arith (chargeEach req arith q (done ++ [id])) ids := by
        rw [checkAll, checkQuota_of_fits fits, charged]
        rfl
      have later := ih (done ++ [id])
      rw [List.append_assoc, List.singleton_append, List.length_append, List.length_singleton,
        ← next] at later
      have first {j : Nat} (past : done.length ≤ j)
          (rest : done.length + 1 ≤ j → q.AdmitsAt d req arith (done ++ id :: ids) j) :
          q.AdmitsAt d req arith (done ++ id :: ids) j := by
        rcases past.eq_or_lt with rfl | after
        · exact admits.mpr fits
        · exact rest after
      rcases later with ⟨all, run⟩ | ⟨i, x, err, there, before, refused, run⟩
      · exact Or.inl ⟨fun i past => first past (all i), run⟩
      · exact Or.inr ⟨i, x, err, there,
          fun j past less => first past fun after => before j after less, refused, run⟩
    · obtain ⟨err, run⟩ := checkQuota_of_not_fits fits
      refine Or.inr ⟨done.length, id, err, here, fun j past less => absurd less (by omega),
        fun all => fits (admits.mp all), ?_⟩
      rw [checkAll, run, taken]
      rfl

/-! ## Giving back what was checked -/

/-- Taking a request away `n` times brings the entry of an id back to where it was before the
request was added `n` times. -/
def ComesBack (q : Quota kind) (req : Metric → Option ℚ) (id : String) (n : Nat)
    (arith : QuotaArithmetic) : Prop :=
  match q.attributes.lookup (key kind id) with
  | none => ∃ k ≤ n, 0 < k ∧ q.Idle (QuotaEntry.fresh.upDown kind req arith n k) arith
  | some e =>
    (∀ m ∈ kind.metrics, ∀ r ∈ req m,
      arith.addTimes (arith.addTimes (e.used m) r n) (-r) n = e.used m) ∧
    ∀ k < n, 0 < k → ¬ q.Idle (e.upDown kind req arith n k) arith

/-- An id has an entry, in which adding the request `n` times changes nothing. -/
def Unmoved (q : Quota kind) (req : Metric → Option ℚ) (id : String) (n : Nat)
    (arith : QuotaArithmetic) : Prop :=
  ∃ e ∈ q.attributes.lookup (key kind id), ∀ m ∈ kind.metrics, ∀ r ∈ req m,
    arith.addTimes (e.used m) r n = e.used m

/-- When giving back undoes a check: every id is admitted and its entry comes back; or the
first one that is not admitted, and those before it, have entries that do not move. -/
def Undoable (q d : Quota kind) (tmpl : Template) (arith : QuotaArithmetic) : Prop :=
  ∀ ids req, kind.charges tmpl arith = .ok (ids, req) →
    ((∀ i, q.AdmitsAt d req arith ids i) →
      ∀ id ∈ ids, q.ComesBack req id (keyCount kind ids id) arith) ∧
    ∀ i, (∀ j < i, q.AdmitsAt d req arith ids j) → ¬ q.AdmitsAt d req arith ids i →
      ∀ id ∈ ids.take (i + 1), ValidId kind id →
        q.Unmoved req id (keyCount kind (ids.take i) id) arith

theorem valid_of_admitsAt {i : Nat} (before : ∀ j < i, q.AdmitsAt d req arith ids j) :
    ∀ id ∈ ids.take i, ValidId kind id := by
  intro id mem
  obtain ⟨j, here⟩ := List.mem_iff_getElem?.mp mem
  rw [List.getElem?_take] at here
  split_ifs at here with less
  exact (before j less id here).1

theorem lookup_delEach_of_not_charged (none : keyCount kind ids id = 0) :
    (delEach req q ids arith).attributes.lookup (key kind id) =
      q.attributes.lookup (key kind id) := by
  induction ids generalizing q with
  | nil => rfl
  | cons head ids ih =>
    rw [keyCount_cons] at none
    have other : key kind id ≠ key kind head := by
      intro same
      simp [same] at none
    rw [delEach_cons, ih (by omega), lookup_delQuota_ne other]

/-- The entries that giving back restores, or drops too early, or leaves behind. -/
theorem restored_iff (noneEmpty : q.NoneEmpty arith) (valid : ∀ id ∈ ids, ValidId kind id)
    (charged : keyCount kind ids id ≠ 0) :
    (delEach req (chargeEach req arith q ids) ids arith).attributes.lookup (key kind id) =
        q.attributes.lookup (key kind id) ↔
      q.ComesBack req id (keyCount kind ids id) arith := by
  have found := @lookup_chargeEach kind q id ids req arith
  rw [if_neg charged] at found
  obtain ⟨kept, dropped⟩ := lookup_delEach valid found
  have idle : ∀ e, (chargeEach req arith q ids).Idle e arith ↔ q.Idle e arith := fun e => by
    simp only [Idle, implicitLimit, isDefault_chargeEach]
  simp only [idle, Nat.zero_add] at kept dropped
  rw [ComesBack]
  cases before : q.attributes.lookup (key kind id) with
  | none =>
    rw [entry_of_lookup_none before] at kept dropped
    constructor
    · intro gone
      by_contra never
      push Not at never
      rw [kept never] at gone
      cases gone
    · rintro ⟨k, small, positive, empty⟩
      exact dropped k small positive empty
  | some e =>
    rw [entry_of_lookup before] at kept dropped
    dsimp only
    rw [← QuotaEntry.upDown_eq_iff]
    constructor
    · intro restored
      have straight : ∀ k ≤ keyCount kind ids id, 0 < k →
          ¬ q.Idle (e.upDown kind req arith (keyCount kind ids id) k) arith := by
        intro k small positive empty
        rw [dropped k small positive empty] at restored
        cases restored
      rw [kept straight] at restored
      exact ⟨Option.some.inj restored, fun k small => straight k small.le⟩
    · rintro ⟨back, straight⟩
      rw [kept fun k small positive empty => ?_, back]
      rcases small.eq_or_lt with rfl | less
      · rw [back] at empty
        exact noneEmpty id e before empty
      · exact straight k less positive empty

theorem comesBack_of_key {n : Nat} (same : key kind id' = key kind id)
    (back : q.ComesBack req id' n arith) : q.ComesBack req id n arith := by
  rwa [ComesBack, ← same]

/-- Giving back what was charged to some ids restores every entry exactly when those of the
ids come back. -/
theorem delEach_chargeEach_iff (noneEmpty : q.NoneEmpty arith)
    (valid : ∀ id ∈ ids, ValidId kind id) :
    q.SameEntries (delEach req (chargeEach req arith q ids) ids arith) ↔
      ∀ id ∈ ids, q.ComesBack req id (keyCount kind ids id) arith := by
  constructor
  · intro same id mem
    exact (restored_iff noneEmpty valid (keyCount_pos mem).ne').mp (same id)
  · intro back id
    by_cases charged : keyCount kind ids id = 0
    · rw [lookup_delEach_of_not_charged charged, lookup_chargeEach, if_pos charged]
    · -- some id of the list has this entry, and the condition is about the entry only
      obtain ⟨x, mem, here⟩ := List.mem_map.mp (List.count_pos_iff.mp (Nat.pos_of_ne_zero charged))
      refine (restored_iff noneEmpty valid charged).mpr (comesBack_of_key here ?_)
      have count : keyCount kind ids id = keyCount kind ids x := by rw [keyCount, keyCount, here]
      exact count ▸ back x mem

/-- A refused check has changed no entry exactly when those it charged or looked at are there
and have not moved. -/
theorem refusedAt_iff (valid : ∀ id ∈ ids, ValidId kind id) :
    q.SameEntries ((chargeEach req arith q ids).refusedAt id) ↔
      ∀ x ∈ ids ++ [id], ValidId kind x → q.Unmoved req x (keyCount kind ids x) arith := by
  have found (x : String) :
      ((chargeEach req arith q ids).refusedAt id).attributes.lookup (key kind x) =
        if keyCount kind ids x ≠ 0 ∨ ValidId kind id ∧ key kind x = key kind id then
          some ((q.entry x).upDown kind req arith (keyCount kind ids x) 0)
        else q.attributes.lookup (key kind x) := by
    rw [refusedAt]
    by_cases looked : ValidId kind id ∧ key kind x = key kind id
    · rw [if_pos looked.1, if_pos (Or.inr looked), looked.2, lookup_put, entry_chargeEach]
      rw [entry, entry, looked.2, keyCount, keyCount, looked.2]
    · have kept : (if ValidId kind id then
            (chargeEach req arith q ids).put id ((chargeEach req arith q ids).entry id)
          else chargeEach req arith q ids).attributes.lookup (key kind x) =
          (chargeEach req arith q ids).attributes.lookup (key kind x) := by
        split_ifs with valid
        · exact lookup_put_ne fun same => looked ⟨valid, same⟩
        · rfl
      rw [kept, lookup_chargeEach]
      simp only [looked, or_false, ne_eq, ite_not]
  have unmoved (x : String) : some ((q.entry x).upDown kind req arith (keyCount kind ids x) 0) =
        q.attributes.lookup (key kind x) ↔ q.Unmoved req x (keyCount kind ids x) arith := by
    constructor
    · intro same
      have e := entry_of_lookup same.symm
      exact ⟨_, same.symm, QuotaEntry.upDown_eq_iff.mp (congrArg
        (fun e' : QuotaEntry => e'.upDown kind req arith (keyCount kind ids x) 0) e.symm)⟩
    · rintro ⟨e, there, counters⟩
      rw [entry_of_lookup there, QuotaEntry.upDown_eq_iff.mpr counters, there]
  constructor
  · intro same x mem validX
    have here := same x
    rw [found, if_pos] at here
    · exact (unmoved x).mp here
    · rcases List.mem_append.mp mem with charged | last
      · exact Or.inl (keyCount_pos charged).ne'
      · obtain rfl := List.mem_singleton.mp last
        exact Or.inr ⟨validX, rfl⟩
  · intro still x
    rw [found]
    split_ifs with touched
    · -- the entry is that of a charged id or of the refused one
      obtain ⟨y, mem, validY, here⟩ : ∃ y ∈ ids ++ [id], ValidId kind y ∧ key kind y = key kind x := by
        rcases touched with charged | ⟨validId, same⟩
        · obtain ⟨y, mem, here⟩ :=
            List.mem_map.mp (List.count_pos_iff.mp (Nat.pos_of_ne_zero charged))
          exact ⟨y, List.mem_append_left _ mem, valid y mem, here⟩
        · exact ⟨id, by simp, validId, same.symm⟩
      have there := (unmoved y).mpr (still y mem validY)
      rwa [entry, here, keyCount, here, ← entry, ← keyCount] at there
    · rfl

/-- Giving back undoes a check, entry by entry, exactly under `Undoable`. -/
theorem undone_iff (q d : Quota kind) (tmpl : Template)
    (noneEmpty : q.NoneEmpty .float) : q.Undone d tmpl .float ↔ q.Undoable d tmpl .float := by
  rw [Undone, check_eq]
  cases charges : kind.charges tmpl .float with
  | error e =>
    refine iff_of_true (fun _ => rfl) fun ids req charged => ?_
    rw [charges] at charged
    cases charged
  | ok charge =>
    obtain ⟨ids, req⟩ := charge
    have only : q.Undoable d tmpl .float ↔ _ :=
      ⟨fun undoable => undoable ids req charges, fun condition ids' req' charged => by
        rw [charges] at charged
        cases charged
        exact condition⟩
    rw [only]
    dsimp only
    rcases checkAll_cases q d req .float ids with
      ⟨all, run⟩ | ⟨i, id, err, here, before, refused, run⟩
    · have valid : ∀ id ∈ ids, ValidId kind id := fun id mem => by
        obtain ⟨i, there⟩ := List.mem_iff_getElem?.mp mem
        exact (all i id there).1
      rw [run]
      dsimp only
      rw [del_eq charges, delEach_chargeEach_iff noneEmpty valid]
      exact ⟨fun back => ⟨fun _ => back, fun i _ refused => absurd (all i) refused⟩,
        fun both => both.1 all⟩
    · have stopped : ids.take (i + 1) = ids.take i ++ [id] := by
        rw [List.take_add_one, here, Option.toList_some]
      rw [run]
      dsimp only
      rw [refusedAt_iff (valid_of_admitsAt before), ← stopped]
      constructor
      · intro still
        refine ⟨fun all => absurd (all i) refused, fun j earlier notAdmitted => ?_⟩
        have first : j = i := by
          rcases Nat.lt_trichotomy j i with less | same | more
          · exact absurd (before j less) notAdmitted
          · exact same
          · exact absurd (earlier i more) refused
        exact first ▸ still
      · exact fun both => both.2 i before refused

/-- A user with one running VM from image 0 and no limits, and a VM with two disks from it. -/
theorem undone_iff_two_disks :
    ((⟨∅, false⟩ : Quota .image).put "0" ⟨fun _ => -1, fun _ => 1⟩).Undone ⟨∅, true⟩
        [.vector "DISK" [("IMAGE_ID", "0")], .vector "DISK" [("IMAGE_ID", "0")]] .float ↔
      ((⟨∅, false⟩ : Quota .image).put "0" ⟨fun _ => -1, fun _ => 1⟩).Undoable ⟨∅, true⟩
        [.vector "DISK" [("IMAGE_ID", "0")], .vector "DISK" [("IMAGE_ID", "0")]] .float := by
  refine undone_iff _ _ _ fun id e found idle => ?_
  by_cases here : key .image id = key .image "0"
  · rw [here, lookup_put] at found
    cases found
    have one : QuotaArithmetic.float.read 1 = 0 := (idle .rvms (by decide)).1
    revert one
    decide +kernel
  · rw [lookup_put_ne here] at found
    cases found

/-- Two disks from an image whose default limit is one VM: the second is refused, and the
entry of the first stays charged. -/
theorem check_refused_keeps_entry : ¬ ∀ (kind : QuotaKind) (q d : Quota kind) (tmpl : Template),
    q.NoneEmpty .float → q.Undone d tmpl .float := by
  let q : Quota .image := ⟨∅, false⟩
  let d : Quota .image := (⟨∅, true⟩ : Quota .image).put "0" ⟨fun _ => 1, fun _ => 0⟩
  let tmpl : Template :=
    [.vector "DISK" [("IMAGE_ID", "0")], .vector "DISK" [("IMAGE_ID", "0")]]
  intro undoes
  have undone := undoes .image q d tmpl fun id e found => by cases found
  have refused : (q.check tmpl d .float).1 ≠ .ok () := by decide +kernel
  have kept : ((q.check tmpl d .float).2.attributes.lookup (key .image "0")).isSome = true := by
    decide +kernel
  rw [Undone] at undone
  rcases run : q.check tmpl d .float with ⟨err | done, q'⟩
  · rw [run] at undone kept
    rw [show q'.attributes.lookup (key .image "0") = none from undone "0"] at kept
    cases kept
  · rw [run] at refused
    exact refused rfl

end Quota

end Ezilla
