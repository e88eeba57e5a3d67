import Ezilla.Um.QuotaRuns
import Ezilla.Um.QuotaUndo

/-!
# Quotas kept as texts

The counters are floats that are written with two decimals and read again. Where every sum on
the way is exact, a check adds what the template stands for and `del` takes it away, as in
exact numbers.

* `QuotaArithmetic.Exact`: adding a request some times, and taking it away, rounds nothing;
* `Quotas.exactAbove_of_plain`: so it is for hundredths below 2^15 and for whole numbers up to
  2^24;
* `Quotas.quotaCheck_added`, `Quotas.quotaDel_returned`: the counters of all sections.
-/

namespace Ezilla

/-! ## Sums that are exact -/

namespace QuotaArithmetic

variable {arith : QuotaArithmetic} {used r : ℚ} {n k : Nat}

/-- From a counter, `n` requests can be added and taken away without rounding. -/
def Exact (arith : QuotaArithmetic) (used r : ℚ) (n : Nat) : Prop :=
  ∀ k < n, arith.add (used + k * r) r = used + (k + 1) * r ∧
    arith.add (used + (k + 1) * r) (-r) = used + k * r

theorem Exact.up (exact : arith.Exact used r n) (less : k ≤ n) :
    arith.addTimes used r k = used + k * r := by
  induction k with
  | zero => simp [addTimes]
  | succ k ih =>
    rw [addTimes_succ, ih (by omega), (exact k less).1]
    push_cast
    ring

theorem Exact.down (exact : arith.Exact used r n) (less : k ≤ n) :
    arith.addTimes (used + n * r) (-r) k = used + n * r - k * r := by
  induction k with
  | zero => simp [addTimes]
  | succ k ih =>
    obtain ⟨j, rfl⟩ : ∃ j, n = j + k + 1 := ⟨n - k - 1, by omega⟩
    have step := (exact j (by omega)).2
    rw [addTimes_succ, ih (by omega)]
    have before : used + ((j + k + 1 : Nat) : ℚ) * r - k * r = used + (j + 1) * r := by
      push_cast
      ring
    rw [before, step]
    push_cast
    ring

/-- A number that a counter can have without loss: whole up to 2^24, or hundredths below
2^15. -/
def Plain (x : ℚ) : Prop :=
  (x.den = 1 ∧ |x| ≤ 2 ^ 24) ∨ ((100 * x).den = 1 ∧ |x| < 2 ^ 15)

instance (x : ℚ) : Decidable (Plain x) := inferInstanceAs (Decidable (_ ∨ _))

theorem Plain.cases {x : ℚ} (plain : Plain x) :
    (∃ k : Int, x = k ∧ |k| ≤ 2 ^ 24) ∨ ∃ k : Int, x = k / 100 ∧ |x| < 2 ^ 15 := by
  rcases plain with ⟨whole, small⟩ | ⟨cents, small⟩
  · have num := Rat.den_eq_one_iff x |>.mp whole
    rw [← num] at small
    exact Or.inl ⟨x.num, num.symm, by exact_mod_cast small⟩
  · have num := Rat.den_eq_one_iff (100 * x) |>.mp cents
    refine Or.inr ⟨(100 * x).num, ?_, small⟩
    rw [num]
    ring

theorem abs_nearest_sub_of_plain {x : ℚ} (plain : Plain x) :
    |Binary32.nearest x - x| ≤ 2 ^ (-10 : Int) := by
  rcases plain.cases with ⟨k, rfl, small⟩ | ⟨k, -, small⟩
  · rw [Binary32.nearest_intCast small, sub_self, abs_zero]
    positivity
  · exact Binary32.abs_nearest_sub_le_of_lt (k := 15) (by norm_num) (by exact_mod_cast small)

theorem float_add_intCast {a b : Int} (smallA : |a| ≤ 2 ^ 24) (smallB : |b| ≤ 2 ^ 24)
    (small : |a + b| ≤ 2 ^ 24) : float.add a b = a + b := by
  have finite : |((a + b : Int) : ℚ)| < 2 ^ 128 := by
    have below : |a + b| < 2 ^ 128 := lt_of_le_of_lt small (by norm_num)
    exact_mod_cast below
  have sum : float.sum a b = ((a + b : Int) : ℚ) := by
    rw [QuotaArithmetic.sum, float.read_intCast a smallA, float.read_intCast b smallB,
      ← Int.cast_add]
    exact float.read_intCast _ small
  rw [add, sum, float]
  simp only [if_pos finite, Binary32.fixedTwo_intCast]
  push_cast
  rfl

/-- The rounding of both numbers and of their sum is less than half of a hundredth. -/
theorem float_add_of_lt {x y : ℚ} {c : Int} (plainX : Plain x) (plainY : Plain y)
    (cents : x + y = c / 100) (small : |x + y| ≤ 2 ^ 16 - 1) : float.add x y = x + y := by
  have closeX := abs_le.mp (abs_nearest_sub_of_plain plainX)
  have closeY := abs_le.mp (abs_nearest_sub_of_plain plainY)
  have bounds := abs_le.mp small
  norm_num at closeX closeY bounds
  have below : |Binary32.nearest x + Binary32.nearest y| < 2 ^ (16 : Int) := by
    rw [abs_lt]
    constructor <;> norm_num <;> linarith
  have closeSum := abs_le.mp (Binary32.abs_nearest_sub_le_of_lt (by norm_num) below)
  norm_num at closeSum
  have finite : |float.sum x y| < 2 ^ 128 := by
    rw [QuotaArithmetic.sum, float, abs_lt]
    constructor <;> norm_num <;> linarith
  have near : |float.sum x y - c / 100| < 1 / 200 := by
    rw [← cents, QuotaArithmetic.sum, float, abs_lt]
    constructor <;> norm_num <;> linarith
  rw [add, cents, ← Binary32.fixedTwo_eq near]
  exact if_pos finite

/-- Sums of such numbers are exact. -/
theorem float_add {x y : ℚ} (plainX : Plain x) (plainY : Plain y) (plain : Plain (x + y)) :
    float.add x y = x + y := by
  have wholes {a b : Int} (eqX : x = a) (eqY : y = b) (smallA : |a| ≤ 2 ^ 24)
      (smallB : |b| ≤ 2 ^ 24) : float.add x y = x + y := by
    subst eqX eqY
    refine float_add_intCast smallA smallB ?_
    rcases plain.cases with ⟨k, whole, small⟩ | ⟨-, -, small⟩
    · have same : a + b = k := by exact_mod_cast whole
      rwa [same]
    · have less : |a + b| < 2 ^ 15 := by exact_mod_cast small
      omega
  rcases plain.cases with ⟨k, whole, small⟩ | ⟨k, cents, small⟩
  · have cents : x + y = (100 * k : Int) / 100 := by
      rw [whole]
      push_cast
      ring
    rcases plainX.cases with ⟨a, eqX, smallA⟩ | ⟨-, -, smallX⟩ <;>
      rcases plainY.cases with ⟨b, eqY, smallB⟩ | ⟨-, -, smallY⟩
    · exact wholes eqX eqY smallA smallB
    · have eqY : y = ((k - a : Int) : ℚ) := by
        push_cast
        linarith
      refine wholes eqX eqY smallA ?_
      have less : |k - a| < 2 ^ 15 := by exact_mod_cast eqY ▸ smallY
      omega
    · have eqX : x = ((k - b : Int) : ℚ) := by
        push_cast
        linarith
      refine wholes eqX eqY ?_ smallB
      have less : |k - b| < 2 ^ 15 := by exact_mod_cast eqX ▸ smallX
      omega
    · have less : |k| < 2 ^ 16 := by
        have sum : |(k : ℚ)| < 2 ^ 16 := by
          rw [← whole]
          have boundsX := abs_lt.mp smallX
          have boundsY := abs_lt.mp smallY
          rw [abs_lt]
          constructor <;> linarith
        exact_mod_cast sum
      have bound : |(k : ℚ)| ≤ 2 ^ 16 - 1 := by
        have below : |k| ≤ 2 ^ 16 - 1 := by omega
        exact_mod_cast below
      exact float_add_of_lt plainX plainY cents (whole ▸ bound)
  · refine float_add_of_lt plainX plainY cents ?_
    have bound : (2 : ℚ) ^ 15 ≤ 2 ^ 16 - 1 := by norm_num
    exact small.le.trans bound

theorem Plain.neg {x : ℚ} (plain : Plain x) : Plain (-x) := by
  rwa [Plain, mul_neg, Rat.den_neg_eq_den, Rat.den_neg_eq_den, abs_neg]

/-- Counters that have such numbers on the way lose nothing. -/
theorem exact_of_plain (request : Plain r) (counters : ∀ k ≤ n, Plain (used + k * r)) :
    float.Exact used r n := by
  intro k less
  have here := counters k less.le
  have next := counters (k + 1) less
  push_cast at next
  have forth : used + k * r + r = used + (k + 1) * r := by ring
  have back : used + (k + 1) * r + -r = used + k * r := by ring
  exact ⟨(float_add here request (forth ▸ next)).trans forth,
    (float_add next request.neg (back ▸ here)).trans back⟩

end QuotaArithmetic

/-! ## What a section gives back -/

/-- The ids and the request that `del` of a section gives back for a template. -/
def QuotaKind.returns (kind : QuotaKind) (tmpl : Template) :
    List String × (Metric → Option ℚ) :=
  match kind with
  | .network => (Quotas.networkIds tmpl, oneOf .leases)
  | .image => (Quotas.imageIds tmpl, oneOf .rvms)
  | .vm =>
    ([""], QuotaVirtualMachine.request ((tmpl.getInt "MEMORY").getD 0)
      ((tmpl.getFloat "CPU").getD 0))
  | .datastore =>
    if tmpl.getString "DATASTORE" = "" then ([], fun _ => none)
    else
      match tmpl.getInt "SIZE" with
      | none => ([], fun _ => none)
      | some size => ([tmpl.getString "DATASTORE"], QuotaDatastore.request size)

/-- What a template stands for in a section. -/
def QuotaKind.amounts (kind : QuotaKind) (tmpl : Template) : Amount :=
  match kind with
  | .network => QuotaNetwork.amounts tmpl
  | .image => QuotaImage.amounts tmpl
  | .vm => QuotaVirtualMachine.amounts tmpl
  | .datastore => QuotaDatastore.amounts tmpl

namespace Quota

variable {kind : QuotaKind} {q q' d : Quota kind} {id qid : String} {ids : List String}
  {req : Metric → Option ℚ} {tmpl : Template} {arith : QuotaArithmetic} {m : Metric}

theorem del_returns : q.del tmpl arith =
    delEach (kind.returns tmpl).2 q (kind.returns tmpl).1 arith := by
  cases kind with
  | network => exact (delEach_filter (by decide)).symm
  | image => exact (delEach_filter (by decide)).symm
  | vm => rfl
  | datastore =>
    rw [del, QuotaDatastore.del, QuotaKind.returns]
    split_ifs
    · rfl
    · cases tmpl.getInt "SIZE" with
      | none => rfl
      | some size => rfl

/-- What a section charges it gives back. -/
theorem returns_of_charges (charges : kind.charges tmpl arith = .ok (ids, req)) :
    kind.returns tmpl = (ids, req) := by
  cases kind with
  | network => exact Except.ok.inj charges
  | image => exact Except.ok.inj charges
  | vm =>
    rw [QuotaKind.charges] at charges
    rw [QuotaKind.returns]
    cases memoryRead : tmpl.getInt "MEMORY" with
    | none =>
      rw [memoryRead] at charges
      cases charges
    | some memory =>
      rw [memoryRead] at charges
      dsimp only at charges
      split at charges
      · cases charges
      · split at charges
        · cases charges
        · rename_i cpu cpuRead
          split at charges
          · cases charges
          · rw [cpuRead]
            exact Except.ok.inj charges
  | datastore =>
    rw [QuotaKind.charges] at charges
    rw [QuotaKind.returns]
    split at charges
    · cases charges
    · rename_i named
      rw [if_neg named]
      cases sizeRead : tmpl.getInt "SIZE" with
      | none =>
        rw [sizeRead] at charges
        cases charges
      | some size =>
        rw [sizeRead] at charges
        dsimp only at charges ⊢
        split at charges
        · cases charges
        · exact Except.ok.inj charges

theorem keyCount_single : keyCount kind [qid] id = if key kind id = key kind qid then 1 else 0 := by
  rw [keyCount_cons]
  simp [keyCount]

theorem keyCount_keyed (keyed : kind ≠ .vm) : keyCount kind ids id = ids.count id := by
  have same : key kind = fun id => id := funext fun id => if_neg keyed
  rw [keyCount, same, List.map_id']

/-- The amounts are the requests for the ids. -/
theorem amounts_eq (mem : m ∈ kind.metrics) : kind.amounts tmpl id m =
    keyCount kind (kind.returns tmpl).1 id * ((kind.returns tmpl).2 m).getD 0 := by
  cases kind with
  | network =>
    obtain rfl : m = .leases := by simpa [QuotaKind.metrics] using mem
    rw [QuotaKind.amounts, QuotaNetwork.amounts, unitsOf, if_pos rfl, QuotaKind.returns,
      keyCount_keyed (by decide)]
    exact (mul_one _).symm
  | image =>
    obtain rfl : m = .rvms := by simpa [QuotaKind.metrics] using mem
    rw [QuotaKind.amounts, QuotaImage.amounts, unitsOf, if_pos rfl, QuotaKind.returns,
      keyCount_keyed (by decide)]
    exact (mul_one _).symm
  | vm =>
    have same : key .vm id = key .vm "" := rfl
    rw [QuotaKind.amounts, QuotaVirtualMachine.amounts, requestAt, if_pos same, QuotaKind.returns,
      keyCount_single, if_pos same, Nat.cast_one, one_mul]
  | datastore =>
    rw [QuotaKind.amounts, QuotaDatastore.amounts, QuotaKind.returns]
    split_ifs
    · exact (zero_mul _).symm
    · cases tmpl.getInt "SIZE" with
      | none => exact (zero_mul _).symm
      | some size =>
        dsimp only
        rw [requestAt, keyCount_single]
        split_ifs <;> simp

/-- A section that gives something back gives back something of each metric, and one unit of
some metric. -/
theorem returns_metrics (mem : id ∈ (kind.returns tmpl).1) :
    (∀ m ∈ kind.metrics, ((kind.returns tmpl).2 m).isSome) ∧
      ∃ m ∈ kind.metrics, (kind.returns tmpl).2 m = some 1 := by
  cases kind with
  | network => exact ⟨fun m mem => by cases m <;> first | rfl | exact absurd mem (by decide),
      .leases, by decide, rfl⟩
  | image => exact ⟨fun m mem => by cases m <;> first | rfl | exact absurd mem (by decide),
      .rvms, by decide, rfl⟩
  | vm => exact ⟨fun m mem => by cases m <;> first | rfl | exact absurd mem (by decide),
      .vms, by decide, rfl⟩
  | datastore =>
    rw [QuotaKind.returns] at mem ⊢
    split_ifs at mem ⊢
    · cases mem
    · cases sizeRead : tmpl.getInt "SIZE" with
      | none =>
        rw [sizeRead] at mem
        cases mem
      | some size =>
        exact ⟨fun m mem => by cases m <;> first | rfl | exact absurd mem (by decide),
          .images, by decide, rfl⟩

/-! ## One section -/

/-- The sums of a template over the counters of a section are exact, and can be taken away. -/
def ExactAbove (q : Quota kind) (tmpl : Template) (arith : QuotaArithmetic) : Prop :=
  ∀ id ∈ (kind.returns tmpl).1, ∀ m ∈ kind.metrics, ∀ r ∈ (kind.returns tmpl).2 m,
    arith.Exact (q.used id m) r (keyCount kind (kind.returns tmpl).1 id)

/-- The counters of a section give back a template exactly. -/
def ExactBelow (q : Quota kind) (tmpl : Template) (arith : QuotaArithmetic) : Prop :=
  ∀ id ∈ (kind.returns tmpl).1, ∀ m ∈ kind.metrics, ∀ r ∈ (kind.returns tmpl).2 m,
    arith.Exact (q.used id m - keyCount kind (kind.returns tmpl).1 id * r) r
      (keyCount kind (kind.returns tmpl).1 id)

/-- The section accepts the template. -/
def Admitted (q d : Quota kind) (tmpl : Template) (arith : QuotaArithmetic) : Prop :=
  ∃ ids req, kind.charges tmpl arith = .ok (ids, req) ∧ ∀ i, q.AdmitsAt d req arith ids i

theorem admitted_of_check (accepted : (q.check tmpl d arith).1 = .ok ()) :
    q.Admitted d tmpl arith := by
  rw [check_eq] at accepted
  cases charges : kind.charges tmpl arith with
  | error err =>
    rw [charges] at accepted
    cases accepted
  | ok charge =>
    obtain ⟨ids, req⟩ := charge
    rw [charges] at accepted
    rcases checkAll_cases q d req arith ids with ⟨all, -⟩ | ⟨i, id, err, -, -, -, run⟩
    · exact ⟨ids, req, charges, all⟩
    · dsimp only at accepted
      rw [run] at accepted
      cases accepted

/-- What an accepted check leaves. -/
theorem charged_of_check (accepted : q.check tmpl d arith = (.ok (), q'))
    (charges : kind.charges tmpl arith = .ok (ids, req)) : q' = chargeEach req arith q ids := by
  rw [check_eq, charges] at accepted
  dsimp only at accepted
  rcases checkAll_cases q d req arith ids with ⟨-, run⟩ | ⟨i, id, err, -, -, -, run⟩
  · rw [run] at accepted
    exact (Prod.mk.inj accepted).2.symm
  · rw [run] at accepted
    cases accepted

/-- The section accepts the template, or refuses it before it has charged anything. -/
def WholeOrNone (q d : Quota kind) (tmpl : Template) (arith : QuotaArithmetic) : Prop :=
  q.Admitted d tmpl arith ∨
    ∀ ids req, kind.charges tmpl arith = .ok (ids, req) → ¬ q.AdmitsAt d req arith ids 0

/-- A section that charges one id charges nothing before it refuses. -/
theorem wholeOrNone_of_length
    (one : ∀ ids req, kind.charges tmpl arith = .ok (ids, req) → ids.length ≤ 1) :
    q.WholeOrNone d tmpl arith := by
  by_cases admitted : q.Admitted d tmpl arith
  · exact Or.inl admitted
  · refine Or.inr fun ids req charges first => admitted ⟨ids, req, charges, fun i => ?_⟩
    cases i with
    | zero => exact first
    | succ i =>
      intro id there
      have few := one ids req charges
      rw [List.getElem?_eq_none (by omega)] at there
      cases there

/-- The amount is added to the counters. -/
structure Added (q : Quota kind) (amount : Amount) (q' : Quota kind) : Prop where
  used : ∀ id, ∀ m ∈ kind.metrics, q'.used id m = q.used id m + amount id m
  valid : ∀ id, ∀ m ∈ kind.metrics, amount id m ≠ 0 → ValidId kind id

theorem Added.sound {amount : Amount} (added : q.Added amount q') (sound : q.Sound)
    (nonneg : ∀ id, ∀ m ∈ kind.metrics, 0 ≤ amount id m) : q'.Sound := by
  refine ⟨fun id m mem => ?_, fun id m mem used => ?_⟩
  · rw [added.used id m mem]
    exact add_nonneg (sound.nonneg id m mem) (nonneg id m mem)
  · rw [added.used id m mem] at used
    by_cases before : q.used id m = 0
    · rw [before, zero_add] at used
      exact added.valid id m mem used
    · exact sound.valid id m mem before

/-- A counter on the way down is one that was written: it is read as 0 only if it is 0. -/
theorem used_upDown_eq_zero {e : QuotaEntry} {j : Nat} (positive : 0 < j) (mem : m ∈ kind.metrics)
    (asked : (req m).isSome) (zero : arith.read ((e.upDown kind req arith 0 j).used m) = 0) :
    (e.upDown kind req arith 0 j).used m = 0 := by
  obtain ⟨i, rfl⟩ : ∃ i, j = i + 1 := ⟨j - 1, by omega⟩
  obtain ⟨r, asked⟩ := Option.isSome_iff_exists.mp asked
  rw [QuotaEntry.used_upDown mem, asked] at zero ⊢
  dsimp only at zero ⊢
  rw [QuotaArithmetic.addTimes_succ] at zero ⊢
  exact arith.write_eq_zero _ zero

/-- Giving back an entry with exact counters, of which some metric is in use to the end. -/
theorem used_delEach_of_exact {e : QuotaEntry} (valid : ∀ id ∈ ids, ValidId kind id)
    (found : q.attributes.lookup (key kind id) = some e)
    (asked : ∀ m ∈ kind.metrics, (req m).isSome)
    (inUse : 1 < keyCount kind ids id →
      ∃ m ∈ kind.metrics, req m = some 1 ∧ (keyCount kind ids id : ℚ) ≤ e.used m)
    (exact : ∀ m ∈ kind.metrics, ∀ r ∈ req m,
      arith.Exact (e.used m - keyCount kind ids id * r) r (keyCount kind ids id))
    (mem : m ∈ kind.metrics) : (delEach req q ids arith).used id m =
      e.used m - keyCount kind ids id * (req m).getD 0 := by
  have counter {j : Nat} (small : j ≤ keyCount kind ids id) {m : Metric} (mem : m ∈ kind.metrics)
      {r : ℚ} (of : req m = some r) :
      (e.upDown kind req arith 0 j).used m = e.used m - j * r := by
    have down := (exact m mem r of).down small
    rw [sub_add_cancel] at down
    rw [QuotaEntry.used_upDown mem, of]
    exact down
  obtain ⟨kept, dropped⟩ := @lookup_delEach kind q id ids e req arith 0 0 valid
    (found.trans (congrArg some QuotaEntry.upDown_zero.symm))
  simp only [Nat.zero_add] at kept dropped
  obtain ⟨r, of⟩ := Option.isSome_iff_exists.mp (asked m mem)
  rw [of, Option.getD_some, ← counter le_rfl mem of]
  by_cases empty : 0 < keyCount kind ids id ∧
      q.Idle (e.upDown kind req arith 0 (keyCount kind ids id)) arith
  · obtain ⟨positive, idle⟩ := empty
    rw [used, entry_of_lookup_none (dropped _ le_rfl positive idle),
      used_upDown_eq_zero positive mem (asked m mem) (idle m mem).1]
    rfl
  · refine congrArg (fun e : QuotaEntry => e.used m) (entry_of_lookup (kept ?_))
    intro j small positive idle
    rcases small.eq_or_lt with rfl | less
    · exact empty ⟨positive, idle⟩
    · -- before the end the unit metric has at least one unit left
      obtain ⟨m, mem, unit, least⟩ := inUse (by omega)
      have zero := used_upDown_eq_zero positive mem (asked m mem) (idle m mem).1
      rw [counter small mem unit, mul_one] at zero
      have below : (j : ℚ) < keyCount kind ids id := by exact_mod_cast less
      linarith

theorem exists_of_keyCount_ne_zero (some : keyCount kind ids id ≠ 0) :
    ∃ x ∈ ids, key kind x = key kind id :=
  List.mem_map.mp (List.count_pos_iff.mp (Nat.pos_of_ne_zero some))

/-- Giving back from exact counters takes the amounts away. -/
theorem used_del_of_exact (valid : ∀ id ∈ (kind.returns tmpl).1, ValidId kind id)
    (there : ∀ id ∈ (kind.returns tmpl).1, (q.attributes.lookup (key kind id)).isSome)
    (inUse : ∀ id ∈ (kind.returns tmpl).1, 1 < keyCount kind (kind.returns tmpl).1 id →
      ∃ m ∈ kind.metrics, (kind.returns tmpl).2 m = some 1 ∧
        (keyCount kind (kind.returns tmpl).1 id : ℚ) ≤ q.used id m)
    (exact : q.ExactBelow tmpl arith) (mem : m ∈ kind.metrics) :
    (q.del tmpl arith).used id m = q.used id m - kind.amounts tmpl id m := by
  rw [del_returns]
  by_cases none_ : keyCount kind (kind.returns tmpl).1 id = 0
  · rw [amounts_eq mem, none_, Nat.cast_zero, zero_mul, sub_zero, used, used, entry, entry,
      lookup_delEach_of_not_charged none_]
  · obtain ⟨x, charged, same⟩ := exists_of_keyCount_ne_zero none_
    have counts : keyCount kind (kind.returns tmpl).1 id =
        keyCount kind (kind.returns tmpl).1 x := by rw [keyCount, keyCount, same]
    obtain ⟨e, found⟩ := Option.isSome_iff_exists.mp (there x charged)
    have counter (m : Metric) : q.used x m = e.used m := by rw [used, entry_of_lookup found]
    have after := used_delEach_of_exact valid found (returns_metrics charged).1
      (fun more => by simpa only [counter] using inUse x charged more)
      (fun m mem r of => counter m ▸ exact x charged m mem r of) mem
    rw [used, ← entry_of_key same, ← used, after, used, ← entry_of_key same, ← used, counter,
      amounts_eq mem, counts]

/-- What is in use can be given back from exact counters. -/
theorem returned_del (sound : q.Sound) (exact : q.ExactBelow tmpl arith)
    (enough : ∀ id, ∀ m ∈ kind.metrics, kind.amounts tmpl id m ≤ q.used id m) :
    q.Returned (kind.amounts tmpl) (q.del tmpl arith) := by
  have inUse : ∀ id ∈ (kind.returns tmpl).1, ∃ m ∈ kind.metrics,
      (kind.returns tmpl).2 m = some 1 ∧
        (keyCount kind (kind.returns tmpl).1 id : ℚ) ≤ q.used id m := by
    intro id mem
    obtain ⟨m, metric, unit⟩ := (returns_metrics mem).2
    refine ⟨m, metric, unit, ?_⟩
    have least := enough id m metric
    rwa [amounts_eq metric, unit, Option.getD_some, mul_one] at least
  have positive : ∀ id ∈ (kind.returns tmpl).1, ∃ m ∈ kind.metrics, q.used id m ≠ 0 := by
    intro id mem
    obtain ⟨m, metric, -, least⟩ := inUse id mem
    have some_ : (0 : ℚ) < keyCount kind (kind.returns tmpl).1 id := by
      exact_mod_cast keyCount_pos mem
    exact ⟨m, metric, by linarith⟩
  have valid : ∀ id ∈ (kind.returns tmpl).1, ValidId kind id := by
    intro id mem
    obtain ⟨m, metric, some_⟩ := positive id mem
    exact sound.valid id m metric some_
  refine ⟨fun id m mem => used_del_of_exact valid (fun id there => ?_)
    (fun id there _ => inUse id there) exact mem, fun id m mem amount => ?_⟩
  · obtain ⟨m, -, some_⟩ := positive id there
    cases found : q.attributes.lookup (key kind id) with
    | none =>
      rw [used, entry_of_lookup_none found] at some_
      exact absurd rfl some_
    | some e => rfl
  · by_cases none_ : keyCount kind (kind.returns tmpl).1 id = 0
    · rw [amounts_eq mem, none_, Nat.cast_zero, zero_mul] at amount
      exact absurd rfl amount
    · obtain ⟨x, there, same⟩ := exists_of_keyCount_ne_zero none_
      exact validId_of_key same.symm (valid x there)

/-- What a check charges is not negative. -/
theorem charges_nonneg (charges : kind.charges tmpl arith = .ok (ids, req)) (m : Metric) :
    0 ≤ (req m).getD 0 := by
  cases kind with
  | network =>
    cases charges
    cases m <;> first | exact le_rfl | exact zero_le_one
  | image =>
    cases charges
    cases m <;> first | exact le_rfl | exact zero_le_one
  | vm =>
    rw [QuotaKind.charges] at charges
    split at charges
    · cases charges
    · rename_i memory _
      split at charges
      · cases charges
      · rename_i memoryPos
        split at charges
        · cases charges
        · rename_i cpu _
          split at charges
          · cases charges
          · rename_i cpuPos
            cases charges
            have positive : 0 ≤ cpu := by
              by_contra negative
              exact cpuPos (arith.read_nonpos cpu (not_le.mp negative).le)
            cases m with
            | vms => exact zero_le_one
            | memory => exact Int.cast_nonneg (not_le.mp memoryPos).le
            | cpu => exact positive
            | _ => exact le_rfl
  | datastore =>
    rw [QuotaKind.charges] at charges
    split at charges
    · cases charges
    · split at charges
      · cases charges
      · rename_i size _
        split at charges
        · cases charges
        · rename_i sizeNonneg
          cases charges
          cases m with
          | images => exact zero_le_one
          | size => exact Int.cast_nonneg (not_lt.mp sizeNonneg)
          | _ => exact le_rfl

theorem used_chargeEach_of_exact (exact : ∀ x ∈ ids, ∀ m ∈ kind.metrics, ∀ r ∈ req m,
      arith.Exact (q.used x m) r (keyCount kind ids x)) (mem : m ∈ kind.metrics) :
    (chargeEach req arith q ids).used id m =
      q.used id m + keyCount kind ids id * (req m).getD 0 := by
  rw [used, entry_chargeEach, QuotaEntry.used_upDown mem]
  cases of : req m with
  | none => simp [used]
  | some r =>
    dsimp only
    rw [Option.getD_some]
    by_cases none_ : keyCount kind ids id = 0
    · rw [none_, Nat.cast_zero, zero_mul, add_zero]
      rfl
    · obtain ⟨x, there, same⟩ := exists_of_keyCount_ne_zero none_
      have counts : keyCount kind ids x = keyCount kind ids id := by rw [keyCount, keyCount, same]
      have up := (exact x there m mem r of).up le_rfl
      rw [used, entry_of_key same, ← used, counts] at up
      exact up

/-- A section that refuses a template before it has charged anything keeps its counters. -/
theorem used_of_refused {err : QuotaError} (whole : q.WholeOrNone d tmpl arith)
    (refused : q.check tmpl d arith = (.error err, q')) : q'.used id m = q.used id m := by
  rw [check_eq] at refused
  cases charges : kind.charges tmpl arith with
  | error e =>
    rw [charges] at refused
    cases refused
    rfl
  | ok charge =>
    obtain ⟨ids, req⟩ := charge
    rw [charges] at refused
    dsimp only at refused
    rcases checkAll_cases q d req arith ids with
      ⟨all, run⟩ | ⟨i, x, e, here, before, notAdmitted, run⟩
    · rw [run] at refused
      cases refused
    · rw [run] at refused
      cases refused
      have first : i = 0 := by
        rcases whole with ⟨ids', req', ok, all⟩ | none_
        · rw [charges] at ok
          cases ok
          exact absurd (all i) notAdmitted
        · by_contra later
          exact none_ ids req charges (before 0 (Nat.pos_of_ne_zero later))
      subst first
      rw [used, used, refusedAt, List.take_zero]
      split_ifs
      · rw [show chargeEach req arith q [] = q from rfl, entry_put_self]
      · rfl

/-- A check of exact counters adds the amounts, or is refused. -/
theorem check_cases (exact : q.ExactAbove tmpl arith) (d : Quota kind) :
    (q.Admitted d tmpl arith ∧ ∃ q', q.check tmpl d arith = (.ok (), q') ∧
        q.Added (kind.amounts tmpl) q' ∧ q'.ExactBelow tmpl arith ∧
        ∀ id, ∀ m ∈ kind.metrics, 0 ≤ kind.amounts tmpl id m) ∨
      ∃ err q', q.check tmpl d arith = (.error err, q') ∧
        (q.WholeOrNone d tmpl arith → ∀ id, ∀ m ∈ kind.metrics, q'.used id m = q.used id m) := by
  cases run : q.check tmpl d arith with
  | mk result q' =>
    cases result with
    | error err => exact Or.inr ⟨err, q', rfl, fun whole _ _ _ => used_of_refused whole run⟩
    | ok done =>
      have admitted : q.Admitted d tmpl arith := admitted_of_check (by rw [run])
      refine Or.inl ⟨admitted, q', rfl, ?_⟩
      obtain ⟨ids, req, charges, all⟩ := admitted
      have returns := returns_of_charges charges
      have charged : q' = chargeEach req arith q ids := charged_of_check run charges
      subst charged
      have counters (id : String) (m : Metric) (mem : m ∈ kind.metrics) :
          (chargeEach req arith q ids).used id m =
            q.used id m + keyCount kind ids id * (req m).getD 0 := by
        rw [ExactAbove, returns] at exact
        exact used_chargeEach_of_exact exact mem
      refine ⟨⟨fun id m mem => ?_, fun id m mem amount => ?_⟩, fun id there m mem r of => ?_,
        fun id m mem => ?_⟩
      · rw [counters id m mem, amounts_eq mem, returns]
      · rw [amounts_eq mem, returns] at amount
        have some_ : keyCount kind ids id ≠ 0 := fun none_ => amount (by simp [none_])
        obtain ⟨x, there, same⟩ := exists_of_keyCount_ne_zero some_
        obtain ⟨j, at_⟩ := List.mem_iff_getElem?.mp there
        exact validId_of_key same.symm (all j x at_).1
      · rw [counters id m mem]
        rw [returns] at of there ⊢
        dsimp only at of there ⊢
        rw [Option.mem_def.mp of, Option.getD_some, add_sub_cancel_right]
        rw [ExactAbove, returns] at exact
        exact exact id there m mem r of
      · rw [amounts_eq mem, returns]
        exact mul_nonneg (Nat.cast_nonneg _) (charges_nonneg charges m)

/-- A section that charges one id gives it back from exact counters, whatever they are. -/
theorem restored_of_check (accepted : q.check tmpl d arith = (.ok (), q'))
    (one : (kind.returns tmpl).1.length ≤ 1) (exact : q.ExactAbove tmpl arith) :
    ∀ id, ∀ m ∈ kind.metrics, (q'.del tmpl arith).used id m = q.used id m := by
  intro id m mem
  rcases check_cases exact d with ⟨admitted, q'', run, added, below, -⟩ | ⟨err, q'', run, -⟩ <;>
    rw [accepted] at run <;> cases run
  obtain ⟨ids, req, charges, all⟩ := admitted
  have returns := returns_of_charges charges
  have charged : q' = chargeEach req arith q ids := charged_of_check accepted charges
  rw [used_del_of_exact ?_ ?_ ?_ below mem, added.used id m mem, add_sub_cancel_right]
  · rw [returns]
    intro x there
    obtain ⟨i, at_⟩ := List.mem_iff_getElem?.mp there
    exact (all i x at_).1
  · rw [returns, charged]
    intro x there
    rw [lookup_chargeEach, if_neg (keyCount_pos there).ne']
    rfl
  · intro x _ more
    have few : keyCount kind (kind.returns tmpl).1 x ≤ (kind.returns tmpl).1.length :=
      List.count_le_length.trans_eq (List.length_map _)
    omega

end Quota

/-! ## The whole object -/

/-- The sections that a type charges. -/
def QuotaType.kinds : QuotaType → List QuotaKind
  | .datastore => [.datastore]
  | .network => [.network]
  | .image => [.image]
  | .vm => [.vm]
  | .virtualMachine => [.network, .vm, .image]

theorem QuotaType.amounts_eq (type : QuotaType) (tmpl : Template) (kind : QuotaKind) :
    type.amounts tmpl kind = if kind ∈ type.kinds then kind.amounts tmpl else fun _ _ => 0 := by
  cases type <;> cases kind <;> rfl

namespace Quotas

variable {qs qs' ds : Quotas} {type : QuotaType} {tmpl : Template} {arith : QuotaArithmetic}

/-- The sums of a check are exact, and can be taken away. -/
def ExactAbove (qs : Quotas) (type : QuotaType) (tmpl : Template) (arith : QuotaArithmetic) :
    Prop :=
  ∀ kind ∈ type.kinds, (qs.quota kind).ExactAbove tmpl arith

/-- The requests of a template, and the counters while they are added, are plain numbers. -/
def PlainAbove (qs : Quotas) (type : QuotaType) (tmpl : Template) : Prop :=
  ∀ kind ∈ type.kinds, ∀ id ∈ (kind.returns tmpl).1, ∀ m ∈ kind.metrics,
    ∀ r ∈ (kind.returns tmpl).2 m, QuotaArithmetic.Plain r ∧
      ∀ k ≤ Quota.keyCount kind (kind.returns tmpl).1 id,
        QuotaArithmetic.Plain ((qs.quota kind).used id m + k * r)

instance : Decidable (qs.PlainAbove type tmpl) :=
  inferInstanceAs (Decidable (∀ _, _))

/-- Sums of plain numbers are exact. -/
theorem exactAbove_of_plain (plain : qs.PlainAbove type tmpl) :
    qs.ExactAbove type tmpl .float := by
  intro kind charged id mem m metric r asked
  obtain ⟨request, counters⟩ := plain kind charged id mem m metric r asked
  exact QuotaArithmetic.exact_of_plain request counters

/-- The counters give back a template exactly. -/
def ExactBelow (qs : Quotas) (type : QuotaType) (tmpl : Template) (arith : QuotaArithmetic) :
    Prop :=
  ∀ kind ∈ type.kinds, (qs.quota kind).ExactBelow tmpl arith

/-- No section that a check reaches charges some ids and refuses a later one. -/
def WholeOrNone (qs ds : Quotas) (tmpl : Template) (type : QuotaType) (arith : QuotaArithmetic) :
    Prop :=
  match type with
  | .datastore => qs.datastoreQuota.WholeOrNone ds.datastoreQuota tmpl arith
  | .vm => qs.vmQuota.WholeOrNone ds.vmQuota tmpl arith
  | .network => qs.networkQuota.WholeOrNone ds.networkQuota tmpl arith
  | .image => qs.imageQuota.WholeOrNone ds.imageQuota tmpl arith
  | .virtualMachine =>
    qs.networkQuota.WholeOrNone ds.networkQuota tmpl arith ∧
      (qs.networkQuota.Admitted ds.networkQuota tmpl arith →
        qs.vmQuota.WholeOrNone ds.vmQuota tmpl arith ∧
        (qs.vmQuota.Admitted ds.vmQuota tmpl arith →
          qs.imageQuota.WholeOrNone ds.imageQuota tmpl arith))

/-- An image is charged to one datastore. -/
theorem returns_datastore_length : (QuotaKind.datastore.returns tmpl).1.length ≤ 1 := by
  rw [QuotaKind.returns]
  split_ifs
  · exact Nat.zero_le 1
  · split
    · exact Nat.zero_le 1
    · exact le_rfl

theorem wholeOrNone_datastore : qs.WholeOrNone ds tmpl .datastore arith := by
  refine Quota.wholeOrNone_of_length fun ids req charges => ?_
  have one := @returns_datastore_length tmpl
  rwa [Quota.returns_of_charges charges] at one

/-- Each section is added its amounts. -/
def Added (qs : Quotas) (amounts : QuotaKind → Amount) (qs' : Quotas) : Prop :=
  ∀ kind, (qs.quota kind).Added (amounts kind) (qs'.quota kind)

/-- Another section of a kind. -/
def setQuota (qs : Quotas) : (kind : QuotaKind) → Quota kind → Quotas
  | .datastore, q => { qs with datastoreQuota := q }
  | .network, q => { qs with networkQuota := q }
  | .image, q => { qs with imageQuota := q }
  | .vm, q => { qs with vmQuota := q }

variable {kind kind' : QuotaKind} {q : Quota kind}

@[simp] theorem quota_setQuota : (qs.setQuota kind q).quota kind = q := by
  cases kind <;> rfl

theorem quota_setQuota_ne (ne : kind' ≠ kind) :
    (qs.setQuota kind q).quota kind' = qs.quota kind' := by
  cases kind <;> cases kind' <;> first | rfl | exact absurd rfl ne

theorem quotaCheck_single (single : type.kinds = [kind]) : qs.quotaCheck type tmpl ds arith =
    (((qs.quota kind).check tmpl (ds.quota kind) arith).1,
      qs.setQuota kind ((qs.quota kind).check tmpl (ds.quota kind) arith).2) := by
  cases type <;> cases kind <;> first | rfl | cases single

/-- A check of one section. -/
theorem quotaCheck_added_of_single (single : type.kinds = [kind])
    (exact : qs.ExactAbove type tmpl arith) (ds : Quotas) :
    (∃ qs', qs.quotaCheck type tmpl ds arith = (.ok (), qs') ∧
        qs.Added (type.amounts tmpl) qs' ∧
        ∀ kind id, ∀ m ∈ kind.metrics, 0 ≤ type.amounts tmpl kind id m) ∨
      ∃ err qs', qs.quotaCheck type tmpl ds arith = (.error err, qs') ∧
        ((qs.quota kind).WholeOrNone (ds.quota kind) tmpl arith → qs.SameUsage qs') := by
  have mem : kind ∈ type.kinds := single ▸ List.mem_singleton_self kind
  have only {kind' : QuotaKind} (ne : kind' ≠ kind) : kind' ∉ type.kinds := by
    rw [single]
    simpa using ne
  rw [quotaCheck_single single]
  rcases Quota.check_cases (exact kind mem) (ds.quota kind) with
    ⟨-, q', run, added, -, nonneg⟩ | ⟨err, q', run, same⟩
  · rw [run]
    refine Or.inl ⟨_, rfl, fun kind' => ?_, fun kind' => ?_⟩ <;> rw [type.amounts_eq]
    · by_cases here : kind' = kind
      · subst here
        rwa [if_pos mem, quota_setQuota]
      · rw [if_neg (only here), quota_setQuota_ne here]
        exact ⟨fun _ _ _ => (add_zero _).symm, fun _ _ _ impossible => absurd rfl impossible⟩
    · by_cases here : kind' = kind
      · subst here
        rwa [if_pos mem]
      · rw [if_neg (only here)]
        exact fun _ _ _ => le_rfl
  · rw [run]
    refine Or.inr ⟨err, _, rfl, fun whole kind' id m metric => ?_⟩
    show Quotas.used _ kind' id m = Quotas.used _ kind' id m
    rw [← used_quota, ← used_quota]
    by_cases here : kind' = kind
    · subst here
      rw [quota_setQuota]
      exact same whole id m metric
    · rw [quota_setQuota_ne here]

/-- What was charged to a section is given back without loss. -/
theorem restored_of_added {q q' : Quota kind} (sound : q.Sound)
    (added : q.Added (kind.amounts tmpl) q') (below : q'.ExactBelow tmpl arith)
    (nonneg : ∀ id, ∀ m ∈ kind.metrics, 0 ≤ kind.amounts tmpl id m) (id : String) :
    ∀ m ∈ kind.metrics, (q'.del tmpl arith).used id m = q.used id m := by
  intro m mem
  have returned := Quota.returned_del (added.sound sound nonneg) below fun id m mem => by
    rw [added.used id m mem]
    exact le_add_of_nonneg_left (sound.nonneg id m mem)
  rw [returned.used id m mem, added.used id m mem, add_sub_cancel_right]

/-- A check of a VM. -/
theorem quotaCheck_added_of_virtualMachine (sound : qs.Sound)
    (exact : qs.ExactAbove .virtualMachine tmpl arith) (ds : Quotas) :
    (∃ qs', qs.quotaCheck .virtualMachine tmpl ds arith = (.ok (), qs') ∧
        qs.Added (QuotaType.virtualMachine.amounts tmpl) qs' ∧
        ∀ kind id, ∀ m ∈ kind.metrics, 0 ≤ QuotaType.virtualMachine.amounts tmpl kind id m) ∨
      ∃ err qs', qs.quotaCheck .virtualMachine tmpl ds arith = (.error err, qs') ∧
        (qs.WholeOrNone ds tmpl .virtualMachine arith → qs.SameUsage qs') := by
  have exactNet : qs.networkQuota.ExactAbove tmpl arith := exact .network (by decide)
  have exactVm : qs.vmQuota.ExactAbove tmpl arith := exact .vm (by decide)
  have exactImage : qs.imageQuota.ExactAbove tmpl arith := exact .image (by decide)
  rcases Quota.check_cases exactNet ds.networkQuota with
    ⟨admittedNet, net, runNet, addedNet, belowNet, nonnegNet⟩ | ⟨err, net, runNet, sameNet⟩
  · have restoredNet := restored_of_added (sound .network) addedNet belowNet nonnegNet
    rcases Quota.check_cases exactVm ds.vmQuota with
      ⟨admittedVm, vm, runVm, addedVm, belowVm, nonnegVm⟩ | ⟨err, vm, runVm, sameVm⟩
    · have restoredVm := restored_of_added (sound .vm) addedVm belowVm nonnegVm
      rcases Quota.check_cases exactImage ds.imageQuota with
        ⟨-, img, runImage, addedImage, -, nonnegImage⟩ | ⟨err, img, runImage, sameImage⟩
      · refine Or.inl ⟨{ qs with networkQuota := net, vmQuota := vm, imageQuota := img }, ?_,
          fun kind => ?_, fun kind id m mem => ?_⟩
        · rw [quotaCheck, show QuotaNetwork.check _ _ _ _ = _ from runNet]
          dsimp only
          rw [show QuotaVirtualMachine.check _ _ _ _ = _ from runVm]
          dsimp only
          rw [show QuotaImage.check _ _ _ _ = _ from runImage]
        · cases kind with
          | datastore =>
            exact ⟨fun _ _ _ => (add_zero _).symm, fun _ _ _ impossible => absurd rfl impossible⟩
          | network => exact addedNet
          | image => exact addedImage
          | vm => exact addedVm
        · cases kind with
          | datastore => exact le_rfl
          | network => exact nonnegNet id m mem
          | image => exact nonnegImage id m mem
          | vm => exact nonnegVm id m mem
      · refine Or.inr ⟨err, { qs with
          networkQuota := QuotaNetwork.del net tmpl arith
          vmQuota := QuotaVirtualMachine.del vm tmpl arith
          imageQuota := img }, ?_, fun whole kind id m mem => ?_⟩
        · rw [quotaCheck, show QuotaNetwork.check _ _ _ _ = _ from runNet]
          dsimp only
          rw [show QuotaVirtualMachine.check _ _ _ _ = _ from runVm]
          dsimp only
          rw [show QuotaImage.check _ _ _ _ = _ from runImage]
        · cases kind with
          | datastore => rfl
          | network => exact restoredNet id m mem
          | image => exact sameImage ((whole.2 admittedNet).2 admittedVm) id m mem
          | vm => exact restoredVm id m mem
    · refine Or.inr ⟨err, { qs with
        networkQuota := QuotaNetwork.del net tmpl arith
        vmQuota := vm }, ?_, fun whole kind id m mem => ?_⟩
      · rw [quotaCheck, show QuotaNetwork.check _ _ _ _ = _ from runNet]
        dsimp only
        rw [show QuotaVirtualMachine.check _ _ _ _ = _ from runVm]
      · cases kind with
        | datastore => rfl
        | network => exact restoredNet id m mem
        | image => rfl
        | vm => exact sameVm (whole.2 admittedNet).1 id m mem
  · refine Or.inr ⟨err, { qs with networkQuota := net }, ?_, fun whole kind id m mem => ?_⟩
    · rw [quotaCheck, show QuotaNetwork.check _ _ _ _ = _ from runNet]
    · cases kind with
      | network => exact sameNet whole.1 id m mem
      | _ => rfl

/-- A check of exact counters adds the amounts of its template, or is refused. -/
theorem quotaCheck_added (sound : qs.Sound) (exact : qs.ExactAbove type tmpl arith)
    (ds : Quotas) :
    (∃ qs', qs.quotaCheck type tmpl ds arith = (.ok (), qs') ∧
        qs.Added (type.amounts tmpl) qs' ∧
        ∀ kind id, ∀ m ∈ kind.metrics, 0 ≤ type.amounts tmpl kind id m) ∨
      ∃ err qs', qs.quotaCheck type tmpl ds arith = (.error err, qs') ∧
        (qs.WholeOrNone ds tmpl type arith → qs.SameUsage qs') := by
  cases type with
  | datastore =>
    exact quotaCheck_added_of_single (rfl : QuotaType.datastore.kinds = [.datastore]) exact ds
  | network =>
    exact quotaCheck_added_of_single (rfl : QuotaType.network.kinds = [.network]) exact ds
  | image => exact quotaCheck_added_of_single (rfl : QuotaType.image.kinds = [.image]) exact ds
  | vm => exact quotaCheck_added_of_single (rfl : QuotaType.vm.kinds = [.vm]) exact ds
  | virtualMachine => exact quotaCheck_added_of_virtualMachine sound exact ds

/-- What is charged can be given back. -/
theorem quotaDel_returned (sound : qs.Sound) (exact : qs.ExactBelow type tmpl arith)
    (enough : ∀ kind id, ∀ m ∈ kind.metrics, type.amounts tmpl kind id m ≤ qs.used kind id m) :
    (qs.quota kind).Returned (type.amounts tmpl kind)
      ((qs.quotaDel type tmpl arith).quota kind) := by
  have after : (qs.quotaDel type tmpl arith).quota kind =
      if kind ∈ type.kinds then (qs.quota kind).del tmpl arith else qs.quota kind := by
    cases type <;> cases kind <;> rfl
  rw [after, type.amounts_eq]
  split_ifs with mem
  · refine Quota.returned_del (sound kind) (exact kind mem) fun id m metric => ?_
    have least := enough kind id m metric
    rw [type.amounts_eq, if_pos mem] at least
    rwa [used_quota]
  · exact Quota.Returned.refl

end Quotas

end Ezilla
