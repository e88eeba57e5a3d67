import Ezilla.Um.QuotaLimits
import Mathlib.Data.List.TakeWhile

/-!
# Refused quota definitions

`Quotas::set` works on the quotas of a template one after the other and stops at the first
one that is wrong. What it wrote before stays: the limits of the quotas before that one, also
in other sections, and the limits before the wrong one in a quota that exists already.

`Quotas.set_unchanged_iff` says which refused definitions change nothing: those that repeat
the limits which the quotas have, wherever a later one does not take their place.
-/

namespace Ezilla

namespace Quota

variable {kind : QuotaKind}

/-! ## What a definition writes -/

/-- The limit that a quota of a template sets for a metric, as it is read again. -/
def limitSet (values : List (String × String)) (m : Metric) (arith : QuotaArithmetic) : ℚ :=
  arith.read (limitOf values m arith)

/-- The limit of an entry. One that does not exist has no limit of its own. -/
def ownLimit (q : Quota kind) (id : String) (m : Metric) (arith : QuotaArithmetic) : ℚ :=
  match q.attributes.lookup (key kind id) with
  | some e => arith.read (e.limit m)
  | none => q.implicitLimit

/-- The id that a quota of a template is about. -/
def quotaId (values : List (String × String)) : String := Attribute.vectorValue values "ID"

/-- A quota of a template, where it is about the entry of an id. -/
def about (kind : QuotaKind) (id : String) : Attribute → Option (List (String × String))
  | .single _ _ => none
  | .vector _ values => if key kind id = key kind (quotaId values) then some values else none

/-- The last of some quotas that is about the entry of an id. -/
def lastFor (kind : QuotaKind) (quotas : List Attribute) (id : String) :
    Option (List (String × String)) :=
  quotas.reverse.findSome? (about kind id)

/-- The limit after some quotas are written. -/
def limitAfter (q : Quota kind) (arith : QuotaArithmetic) (quotas : List Attribute) (id : String)
    (m : Metric) : ℚ :=
  match lastFor kind quotas id with
  | some values => limitSet values m arith
  | none => q.ownLimit id m arith

/-- There is an entry after some quotas are written: the last one leaves a limit of its own,
or the entry is used. -/
def presentAfter (q : Quota kind) (arith : QuotaArithmetic) (quotas : List Attribute)
    (id : String) : Bool :=
  match lastFor kind quotas id with
  | some values =>
    !decide (∀ m ∈ kind.metrics,
      arith.read (q.used id m) = 0 ∧ limitSet values m arith = q.implicitLimit)
  | none => (q.attributes.lookup (key kind id)).isSome

/-- A quota is accepted after some others are written. -/
def Accepts (q : Quota kind) (arith : QuotaArithmetic) (before : List Attribute) :
    Attribute → Prop
  | .single _ _ => False
  | .vector _ values =>
    ValidId kind (quotaId values) ∧
      if q.presentAfter arith before (quotaId values) then
        ∀ m ∈ kind.metrics, ¬ WrongLimit q.isDefault values m arith
      else
        ∀ m ∈ kind.metrics, q.implicitLimit ≤ arith.read (limitText values m).2

instance (q : Quota kind) (arith : QuotaArithmetic) (before : List Attribute) :
    DecidablePred (q.Accepts arith before)
  | .single _ _ => isFalse id
  | .vector _ _ => inferInstanceAs (Decidable (_ ∧ _))

/-- The first quota that is refused, with those before it. -/
def stopsAt (q : Quota kind) (arith : QuotaArithmetic) (before : List Attribute) :
    List Attribute → Option (List Attribute × Attribute)
  | [] => none
  | a :: quotas =>
    if q.Accepts arith before a then q.stopsAt arith (before ++ [a]) quotas else some (before, a)

/-- The refused quota, where it sets the limit of a metric: its entry exists, and the metric
comes before the wrong one. -/
def refusedFor (q : Quota kind) (arith : QuotaArithmetic) (before : List Attribute)
    (a : Attribute) (id : String) (m : Metric) : Option (List (String × String)) :=
  match a with
  | .single _ _ => none
  | .vector _ values =>
    if key kind id = key kind (quotaId values) ∧ ValidId kind (quotaId values) ∧
        q.presentAfter arith before (quotaId values) ∧
        m ∈ kind.metrics.takeWhile (fun m => ¬ WrongLimit q.isDefault values m arith) then
      some values
    else none

/-- The limit where a quota is refused. -/
def limitStopped (q : Quota kind) (arith : QuotaArithmetic) (before : List Attribute)
    (a : Attribute) (id : String) (m : Metric) : ℚ :=
  match q.refusedFor arith before a id m with
  | some values => limitSet values m arith
  | none => q.limitAfter arith before id m

/-- The limit when the quotas are written up to the first refused one. -/
def limitWritten (q : Quota kind) (arith : QuotaArithmetic) (quotas : List Attribute)
    (id : String) (m : Metric) : ℚ :=
  match q.stopsAt arith [] quotas with
  | none => q.limitAfter arith quotas id m
  | some (before, a) => q.limitStopped arith before a id m

/-- The quotas are not all accepted. -/
def Refuses (q : Quota kind) (arith : QuotaArithmetic) (quotas : List Attribute) : Prop :=
  q.stopsAt arith [] quotas ≠ none

instance (q : Quota kind) (arith : QuotaArithmetic) (quotas : List Attribute) :
    Decidable (q.Refuses arith quotas) :=
  match stop : q.stopsAt arith [] quotas with
  | none => isFalse fun refuses => refuses stop
  | some _ => isTrue fun none_ => by rw [stop] at none_; cases none_

/-- The quota of a template that sets a limit last, up to the first one that is refused. -/
def lastSetting (q : Quota kind) (arith : QuotaArithmetic) (quotas : List Attribute)
    (id : String) (m : Metric) : Option (List (String × String)) :=
  match q.stopsAt arith [] quotas with
  | none => lastFor kind quotas id
  | some (before, a) => (q.refusedFor arith before a id m).or (lastFor kind before id)

/-- The quotas of a template repeat the limits that the section has, except those in whose
place a later one sets another. -/
def Keeps (q : Quota kind) (arith : QuotaArithmetic) (quotas : List Attribute) : Prop :=
  ∀ id, ∀ m ∈ kind.metrics, ∀ values ∈ q.lastSetting arith quotas id m,
    limitSet values m arith = q.ownLimit id m arith

/-! ## One quota -/

variable {q q' : Quota kind} {id : String} {m : Metric} {e : QuotaEntry}
  {values : List (String × String)} {quotas before : List Attribute} {a : Attribute}
  {arith : QuotaArithmetic}

/-- The entry with the limits of some metrics replaced. -/
def writeLimits (e : QuotaEntry) (values : List (String × String)) (metrics : List Metric)
    (arith : QuotaArithmetic) : QuotaEntry :=
  { e with limit := fun m => if m ∈ metrics then limitOf values m arith else e.limit m }

theorem updateLimits_cons (isDefault : Bool) (metrics : List Metric) :
    updateLimits isDefault values e (m :: metrics) arith =
      if WrongLimit isDefault values m arith then (false, e)
      else updateLimits isDefault values
        { e with limit := Function.update e.limit m (limitOf values m arith) } metrics arith := rfl

/-- `update_limits` replaces the limits before the first wrong one. -/
theorem updateLimits_eq (isDefault : Bool) (metrics : List Metric) :
    updateLimits isDefault values e metrics arith =
      (decide (∀ m ∈ metrics, ¬ WrongLimit isDefault values m arith),
        writeLimits e values (metrics.takeWhile fun m => ¬ WrongLimit isDefault values m arith)
          arith) := by
  induction metrics generalizing e with
  | nil => simp [updateLimits, writeLimits]
  | cons head metrics ih =>
    rw [updateLimits_cons]
    by_cases wrong : WrongLimit isDefault values head arith
    · have taken :
          (head :: metrics).takeWhile (fun m => ¬ WrongLimit isDefault values m arith) = [] := by
        rw [List.takeWhile_cons, if_neg (by simpa using wrong)]
      rw [if_pos wrong, taken, decide_eq_false fun all => all head List.mem_cons_self wrong]
      simp only [writeLimits, List.not_mem_nil, if_false]
    · have taken : (head :: metrics).takeWhile (fun m => ¬ WrongLimit isDefault values m arith) =
          head :: metrics.takeWhile (fun m => ¬ WrongLimit isDefault values m arith) := by
        rw [List.takeWhile_cons, if_pos (by simpa using wrong)]
      rw [if_neg wrong, ih, taken]
      refine Prod.ext ?_ (QuotaEntry.ext ?_ rfl)
      · simp [wrong]
      · funext m
        simp only [writeLimits, List.mem_cons, Function.update_apply]
        by_cases same : m = head
        · simp [same, limitOf]
        · simp [same]

/-- What an accepted quota does to the section. -/
structure Defined (q : Quota kind) (arith : QuotaArithmetic) (values : List (String × String))
    (q' : Quota kind) : Prop where
  isDefault : q'.isDefault = q.isDefault
  used : ∀ id, ∀ m ∈ kind.metrics, arith.read (q'.used id m) = arith.read (q.used id m)
  limit : ∀ id, ∀ m ∈ kind.metrics, q'.ownLimit id m arith =
    if key kind id = key kind (quotaId values) then limitSet values m arith
    else q.ownLimit id m arith
  present : ∀ id, (q'.attributes.lookup (key kind id)).isSome =
    if key kind id = key kind (quotaId values) then
      !decide (∀ m ∈ kind.metrics,
        arith.read (q.used id m) = 0 ∧ limitSet values m arith = q.implicitLimit)
    else (q.attributes.lookup (key kind id)).isSome

theorem lookup_cleanupQuota_put (valid : ValidId kind id) :
    ((q.put id e).cleanupQuota id arith).attributes.lookup (key kind id) =
      if q.Idle e arith then none else some e := by
  have got : (q.put id e).getQuota id = some (some e) := by
    rw [getQuota_of_valid valid, lookup_put]
  have cleaned : (q.put id e).cleanupQuota id arith =
      if q.Idle e arith then (q.put id e).erase id else q.put id e := by
    rw [cleanupQuota, got]
    rfl
  rw [cleaned]
  split_ifs
  · exact lookup_erase
  · exact lookup_put

theorem lookup_cleanupQuota_put_ne {id' : String} (apart : key kind id' ≠ key kind id) :
    ((q.put id e).cleanupQuota id arith).attributes.lookup (key kind id') =
      q.attributes.lookup (key kind id') := by
  rw [cleanupQuota]
  split
  · split_ifs
    · rw [lookup_erase_ne apart, lookup_put_ne apart]
    · exact lookup_put_ne apart
  · exact lookup_put_ne apart

@[simp] theorem isDefault_cleanupQuota : (q.cleanupQuota id arith).isDefault = q.isDefault := by
  rw [cleanupQuota]
  split
  · split_ifs <;> rfl
  · rfl

/-- An entry with the limits of a quota and the old counters is stored, or dropped where it
is empty. -/
theorem defined_put (valid : ValidId kind (quotaId values))
    (limits : ∀ m ∈ kind.metrics, e.limit m = limitOf values m arith)
    (counters : e.used = (q.entry (quotaId values)).used) :
    q.Defined arith values
      ((q.put (quotaId values) e).cleanupQuota (quotaId values) arith) := by
  have here := @lookup_cleanupQuota_put kind q (quotaId values) e arith valid
  have elsewhere := fun id' => @lookup_cleanupQuota_put_ne kind q (quotaId values) e arith id'
  have counted : ∀ id, key kind id = key kind (quotaId values) → ∀ m, e.used m = q.used id m := by
    intro id same m
    rw [counters, used, entry, entry, same]
  have idle : ∀ id, key kind id = key kind (quotaId values) → (q.Idle e arith ↔
      ∀ m ∈ kind.metrics,
        arith.read (q.used id m) = 0 ∧ limitSet values m arith = q.implicitLimit) := by
    intro id same
    refine forall₂_congr fun m mem => ?_
    rw [counted id same, limits m mem]
    rfl
  refine ⟨by simp, fun id m mem => ?_, fun id m mem => ?_, fun id => ?_⟩
  · rw [read_used_cleanupQuota mem, used_put_of_same counters]
  · rw [ownLimit]
    split_ifs with same
    · rw [same, here]
      by_cases empty : q.Idle e arith
      · rw [if_pos empty]
        dsimp only
        rw [implicitLimit, isDefault_cleanupQuota, isDefault_put, ← implicitLimit,
          ← (empty m mem).2, limits m mem]
        rfl
      · rw [if_neg empty]
        exact congrArg arith.read (limits m mem)
    · rw [elsewhere id same, ownLimit]
      cases q.attributes.lookup (key kind id) with
      | none =>
        dsimp only
        rw [implicitLimit, isDefault_cleanupQuota, isDefault_put, ← implicitLimit]
      | some e => rfl
  · split_ifs with same
    · rw [same, here, ← decide_not, Bool.eq_iff_iff, decide_eq_true_eq, ← idle id same]
      by_cases empty : q.Idle e arith <;> simp [empty]
    · rw [elsewhere id same]

/-- An accepted quota is written, and the others follow. -/
theorem set_accepted {name : String} (accepted : q.Accepts arith [] (.vector name values)) :
    ∃ q', (∀ quotas, q.set (.vector name values :: quotas) arith = q'.set quotas arith) ∧
      q.Defined arith values q' := by
  obtain ⟨valid, limits⟩ := accepted
  have got := getQuota_of_valid (q := q) valid
  have present : q.presentAfter arith [] (quotaId values) =
    (q.attributes.lookup (key kind (quotaId values))).isSome := rfl
  rw [present] at limits
  cases found : q.attributes.lookup (key kind (quotaId values)) with
  | none =>
    rw [found] at got limits
    rw [if_neg (by simp)] at limits
    have new : q.newQuota values arith = some ⟨fun m => limitOf values m arith, fun _ => 0⟩ := by
      refine if_neg ?_
      rintro ⟨m, mem, low⟩
      exact absurd low (not_lt.mpr (limits m mem))
    refine ⟨_, fun quotas => ?_,
      defined_put (e := ⟨fun m => limitOf values m arith, fun _ => 0⟩) valid (fun _ _ => rfl) ?_⟩
    · rw [set, show q.getQuota (Attribute.vectorValue values "ID") = some none from got, new]
      rfl
    · rw [entry_of_lookup_none found]
      rfl
  | some e =>
    rw [found] at got limits
    rw [if_pos (by simp)] at limits
    have all := @updateLimits_eq e values arith q.isDefault kind.metrics
    rw [decide_eq_true limits, List.takeWhile_eq_self_iff.mpr fun m mem =>
      decide_eq_true (limits m mem)] at all
    refine ⟨_, fun quotas => ?_,
      defined_put (e := writeLimits e values kind.metrics arith) valid (fun m mem => if_pos mem) ?_⟩
    · rw [set, show q.getQuota (Attribute.vectorValue values "ID") = some (some e) from got]
      dsimp only
      rw [all]
      rfl
    · rw [entry_of_lookup found]
      rfl

/-- A refused quota ends the definition. -/
theorem set_refused (refused : ¬ q.Accepts arith [] a) :
    ∃ err q', (∀ quotas, q.set (a :: quotas) arith = (.error err, q')) ∧
      ∀ id, ∀ m ∈ kind.metrics, q'.ownLimit id m arith = q.limitStopped arith [] a id m := by
  cases a with
  | single name value => exact ⟨_, q, fun _ => rfl, fun _ _ _ => rfl⟩
  | vector name values =>
    have unchanged : ∀ (id : String) (m : Metric), ¬ (ValidId kind (quotaId values) ∧
        q.presentAfter arith [] (quotaId values)) →
        q.limitStopped arith [] (.vector name values) id m = q.ownLimit id m arith := by
      intro id m absent
      have none_ : q.refusedFor arith [] (.vector name values) id m = none :=
        if_neg fun both => absent ⟨both.2.1, both.2.2.1⟩
      rw [limitStopped, none_]
      rfl
    by_cases valid : ValidId kind (quotaId values)
    · have got := getQuota_of_valid (q := q) valid
      have present : q.presentAfter arith [] (quotaId values) =
        (q.attributes.lookup (key kind (quotaId values))).isSome := rfl
      cases found : q.attributes.lookup (key kind (quotaId values)) with
      | none =>
        rw [found] at got present
        have wrong : ∃ m ∈ kind.metrics, arith.read (limitText values m).2 < q.implicitLimit := by
          by_contra none_
          push Not at none_
          exact refused ⟨valid, by rw [present]; exact none_⟩
        refine ⟨.badLimits kind.templateName (some values), q, fun quotas => ?_, fun id m _ => ?_⟩
        · have new : q.newQuota values arith = none := if_pos wrong
          rw [set, show q.getQuota (Attribute.vectorValue values "ID") = some none from got, new]
        · exact (unchanged id m fun both => by simp [present] at both).symm
      | some e =>
        rw [found] at got present
        have wrong : ¬ ∀ m ∈ kind.metrics, ¬ WrongLimit q.isDefault values m arith := fun all =>
          refused ⟨valid, by rw [present]; exact all⟩
        have stopped := @updateLimits_eq e values arith q.isDefault kind.metrics
        rw [decide_eq_false wrong] at stopped
        refine ⟨.badLimits kind.templateName (some values), q.put (quotaId values)
          (writeLimits e values (kind.metrics.takeWhile fun m =>
            ¬ WrongLimit q.isDefault values m arith) arith), fun quotas => ?_, fun id m _ => ?_⟩
        · rw [set, show q.getQuota (Attribute.vectorValue values "ID") = some (some e) from got]
          dsimp only
          rw [stopped]
          rfl
        · have last : lastFor kind [] id = none := rfl
          simp only [limitStopped, limitAfter, last, refusedFor, present, valid,
            Option.isSome_some, true_and, ownLimit]
          by_cases same : key kind id = key kind (quotaId values)
          · rw [same, lookup_put, found]
            simp only [true_and, writeLimits]
            split_ifs <;> rfl
          · rw [lookup_put_ne same, if_neg fun both => same both.1]
            rfl
    · refine ⟨.badLimits kind.templateName (some values), q, fun quotas => ?_, fun id m _ => ?_⟩
      · rw [set, show q.getQuota (Attribute.vectorValue values "ID") = none from
          getQuota_of_not_valid valid]
      · exact (unchanged id m fun both => valid both.1).symm

/-! ## Some quotas -/

theorem lastFor_cons : lastFor kind (a :: quotas) id =
    (lastFor kind quotas id).or (about kind id a) := by
  rw [lastFor, List.reverse_cons, List.findSome?_append, lastFor]
  simp

section After

variable {name : String} (defined : q.Defined arith values q')
include defined

theorem Defined.implicitLimit_eq : q'.implicitLimit = q.implicitLimit := by
  rw [implicitLimit, implicitLimit, defined.isDefault]

theorem Defined.limitAfter_cons (mem : m ∈ kind.metrics) :
    q.limitAfter arith (.vector name values :: quotas) id m = q'.limitAfter arith quotas id m := by
  rw [limitAfter, limitAfter, lastFor_cons]
  cases lastFor kind quotas id with
  | some later => rfl
  | none =>
    rw [Option.none_or, about]
    dsimp only
    rw [defined.limit id m mem]
    split_ifs <;> rfl

theorem Defined.presentAfter_cons :
    q.presentAfter arith (.vector name values :: quotas) id = q'.presentAfter arith quotas id := by
  rw [presentAfter, presentAfter, lastFor_cons]
  cases lastFor kind quotas id with
  | some later =>
    rw [Option.some_or]
    dsimp only
    rw [Bool.eq_iff_iff, ← decide_not, ← decide_not, decide_eq_true_eq, decide_eq_true_eq,
      defined.implicitLimit_eq]
    refine not_congr (forall₂_congr fun m mem => ?_)
    rw [defined.used id m mem]
  | none =>
    rw [Option.none_or, about]
    dsimp only
    rw [defined.present id]
    split_ifs <;> rfl

theorem Defined.accepts_cons :
    q.Accepts arith (.vector name values :: before) a ↔ q'.Accepts arith before a := by
  cases a with
  | single => rfl
  | vector name' values' =>
    rw [Accepts, Accepts, defined.presentAfter_cons, defined.isDefault, defined.implicitLimit_eq]

theorem Defined.refusedFor_cons : q.refusedFor arith (.vector name values :: before) a id m =
    q'.refusedFor arith before a id m := by
  cases a with
  | single => rfl
  | vector name' values' =>
    rw [refusedFor, refusedFor, defined.presentAfter_cons, defined.isDefault]

theorem Defined.limitStopped_cons (mem : m ∈ kind.metrics) :
    q.limitStopped arith (.vector name values :: before) a id m =
      q'.limitStopped arith before a id m := by
  rw [limitStopped, limitStopped, defined.refusedFor_cons, defined.limitAfter_cons mem]

theorem Defined.stopsAt_cons : q.stopsAt arith (.vector name values :: before) quotas =
    (q'.stopsAt arith before quotas).map fun stop => (.vector name values :: stop.1, stop.2) := by
  induction quotas generalizing before with
  | nil => rfl
  | cons a quotas ih =>
    rw [stopsAt, stopsAt]
    simp only [defined.accepts_cons]
    split_ifs
    · exact ih
    · rfl

theorem Defined.limitWritten_cons (accepted : q.Accepts arith [] (.vector name values))
    (mem : m ∈ kind.metrics) :
    q.limitWritten arith (.vector name values :: quotas) id m = q'.limitWritten arith quotas id m := by
  rw [limitWritten, limitWritten, stopsAt, if_pos accepted, List.nil_append,
    defined.stopsAt_cons]
  cases q'.stopsAt arith [] quotas with
  | none => exact defined.limitAfter_cons mem
  | some stop => exact defined.limitStopped_cons mem

end After

/-- What `set` answers and the limits it leaves. -/
theorem set_spec (q : Quota kind) (arith : QuotaArithmetic) (quotas : List Attribute) :
    ((q.set quotas arith).1 ≠ .ok () ↔ q.Refuses arith quotas) ∧
      ∀ id, ∀ m ∈ kind.metrics,
        (q.set quotas arith).2.ownLimit id m arith = q.limitWritten arith quotas id m := by
  induction quotas generalizing q with
  | nil => exact ⟨by simp [set, Refuses, stopsAt], fun _ _ _ => rfl⟩
  | cons a quotas ih =>
    by_cases accepted : q.Accepts arith [] a
    · cases a with
      | single => exact accepted.elim
      | vector name values =>
        obtain ⟨q', step, defined⟩ := set_accepted accepted
        obtain ⟨answer, limits⟩ := ih q'
        rw [step]
        refine ⟨answer.trans ?_, fun id m mem => ?_⟩
        · rw [Refuses, Refuses, stopsAt, if_pos accepted, List.nil_append, defined.stopsAt_cons]
          simp
        · rw [limits id m mem, defined.limitWritten_cons accepted mem]
    · obtain ⟨err, q', step, limits⟩ := set_refused accepted
      rw [step]
      have stop : q.stopsAt arith [] (a :: quotas) = some ([], a) := if_neg accepted
      refine ⟨by simp [Refuses, stop], fun id m mem => ?_⟩
      rw [limits id m mem, limitWritten, stop]

/-- The limit that is written last stays. -/
theorem limitWritten_eq : q.limitWritten arith quotas id m =
    match q.lastSetting arith quotas id m with
    | some values => limitSet values m arith
    | none => q.ownLimit id m arith := by
  rw [limitWritten, lastSetting]
  cases q.stopsAt arith [] quotas with
  | none => rfl
  | some stop =>
    dsimp only
    rw [limitStopped]
    cases q.refusedFor arith stop.1 stop.2 id m with
    | none => rfl
    | some values => rfl

theorem keeps_iff : (∀ id, ∀ m ∈ kind.metrics,
      (q.set quotas arith).2.ownLimit id m arith = q.ownLimit id m arith) ↔
    q.Keeps arith quotas := by
  refine forall_congr' fun id => forall₂_congr fun m mem => ?_
  rw [(set_spec q arith quotas).2 id m mem, limitWritten_eq]
  cases q.lastSetting arith quotas id m with
  | none => simp
  | some values => simp

end Quota

/-! ## The whole object -/

namespace Quotas

/-- The limit of a section, an id and a metric. -/
def ownLimit (qs : Quotas) (kind : QuotaKind) (id : String) (m : Metric)
    (arith : QuotaArithmetic) : ℚ :=
  match kind with
  | .datastore => qs.datastoreQuota.ownLimit id m arith
  | .network => qs.networkQuota.ownLimit id m arith
  | .image => qs.imageQuota.ownLimit id m arith
  | .vm => qs.vmQuota.ownLimit id m arith

/-- Every limit of every section has the same value in both objects. -/
def SameLimits (qs qs' : Quotas) (arith : QuotaArithmetic) : Prop :=
  ∀ kind : QuotaKind, ∀ id, ∀ m ∈ kind.metrics,
    qs'.ownLimit kind id m arith = qs.ownLimit kind id m arith

/-- The quotas of a section in a template. -/
def definitions (kind : QuotaKind) (tmpl : Template) : List Attribute :=
  tmpl.get kind.templateName

/-- No section refuses the template, or its quotas up to the refused one repeat the limits
that there are. -/
def Harmless (qs : Quotas) (tmpl : Template) (arith : QuotaArithmetic) : Prop :=
  let datastore := definitions .datastore tmpl
  let network := definitions .network tmpl
  let image := definitions .image tmpl
  let vm := definitions .vm tmpl
  if qs.datastoreQuota.Refuses arith datastore then qs.datastoreQuota.Keeps arith datastore
  else if qs.networkQuota.Refuses arith network then
    qs.datastoreQuota.Keeps arith datastore ∧ qs.networkQuota.Keeps arith network
  else if qs.imageQuota.Refuses arith image then
    qs.datastoreQuota.Keeps arith datastore ∧ qs.networkQuota.Keeps arith network ∧
      qs.imageQuota.Keeps arith image
  else if qs.vmQuota.Refuses arith vm then
    qs.datastoreQuota.Keeps arith datastore ∧ qs.networkQuota.Keeps arith network ∧
      qs.imageQuota.Keeps arith image ∧ qs.vmQuota.Keeps arith vm
  else True

/-- The limits of the four sections. -/
theorem sameLimits_iff {arith : QuotaArithmetic} (qs : Quotas) (datastore : Quota .datastore)
    (network : Quota .network) (image : Quota .image) (vm : Quota .vm) :
    qs.SameLimits ⟨datastore, network, image, vm⟩ arith ↔
      (∀ id, ∀ m ∈ QuotaKind.datastore.metrics,
        datastore.ownLimit id m arith = qs.datastoreQuota.ownLimit id m arith) ∧
      (∀ id, ∀ m ∈ QuotaKind.network.metrics,
        network.ownLimit id m arith = qs.networkQuota.ownLimit id m arith) ∧
      (∀ id, ∀ m ∈ QuotaKind.image.metrics,
        image.ownLimit id m arith = qs.imageQuota.ownLimit id m arith) ∧
      ∀ id, ∀ m ∈ QuotaKind.vm.metrics,
        vm.ownLimit id m arith = qs.vmQuota.ownLimit id m arith := by
  constructor
  · intro same
    exact ⟨same .datastore, same .network, same .image, same .vm⟩
  · rintro ⟨first, second, third, fourth⟩ kind
    cases kind with
    | datastore => exact first
    | network => exact second
    | image => exact third
    | vm => exact fourth

/-- A refused definition changes no limit and no usage exactly where it is harmless. -/
theorem set_unchanged_iff (qs : Quotas) (tmpl : Template) :
    ((qs.set tmpl .float).1 ≠ .ok () →
        qs.SameLimits (qs.set tmpl .float).2 .float ∧ qs.SameUsage (qs.set tmpl .float).2 .float) ↔
      qs.Harmless tmpl .float := by
  rw [and_iff_left (sameUsage_set qs tmpl .float)]
  have answer₁ :=
    (Quota.set_spec qs.datastoreQuota .float (tmpl.get QuotaKind.datastore.templateName)).1
  have answer₂ := (Quota.set_spec qs.networkQuota .float (tmpl.get QuotaKind.network.templateName)).1
  have answer₃ := (Quota.set_spec qs.imageQuota .float (tmpl.get QuotaKind.image.templateName)).1
  have answer₄ := (Quota.set_spec qs.vmQuota .float (tmpl.get QuotaKind.vm.templateName)).1
  have kept₁ := @Quota.keeps_iff _ qs.datastoreQuota
    (tmpl.get QuotaKind.datastore.templateName) .float
  have kept₂ := @Quota.keeps_iff _ qs.networkQuota
    (tmpl.get QuotaKind.network.templateName) .float
  have kept₃ := @Quota.keeps_iff _ qs.imageQuota
    (tmpl.get QuotaKind.image.templateName) .float
  have kept₄ := @Quota.keeps_iff _ qs.vmQuota
    (tmpl.get QuotaKind.vm.templateName) .float
  rw [Harmless]
  simp only [definitions, ← answer₁, ← answer₂, ← answer₃, ← answer₄, ← kept₁, ← kept₂, ← kept₃,
    ← kept₄, set]
  rcases qs.datastoreQuota.set (tmpl.get QuotaKind.datastore.templateName) .float with
    ⟨_ | ⟨⟩, datastore⟩
  · simp [sameLimits_iff]
  · rcases qs.networkQuota.set (tmpl.get QuotaKind.network.templateName) .float with ⟨_ | ⟨⟩, network⟩
    · simp [sameLimits_iff]
    · rcases qs.imageQuota.set (tmpl.get QuotaKind.image.templateName) .float with ⟨_ | ⟨⟩, image⟩
      · simp [sameLimits_iff]
      · rcases qs.vmQuota.set (tmpl.get QuotaKind.vm.templateName) .float with ⟨_ | ⟨⟩, vm⟩
        · simp [sameLimits_iff]
        · simp

/-- A limit for image 0 and a negative one for image 1: the definition is refused, and the
first limit stays. -/
theorem set_refused_keeps_limit :
    ¬ ∀ (qs : Quotas) (tmpl : Template), (qs.set tmpl .float).1 ≠ .ok () →
      qs.SameLimits (qs.set tmpl .float).2 .float ∧
        qs.SameUsage (qs.set tmpl .float).2 .float := by
  let qs : Quotas := ⟨⟨∅, false⟩, ⟨∅, false⟩, ⟨∅, false⟩, ⟨∅, false⟩⟩
  let tmpl : Template :=
    [.vector "IMAGE" [("ID", "0"), ("RVMS", "5")], .vector "IMAGE" [("ID", "1"), ("RVMS", "-5")]]
  intro unchanged
  have refused : (qs.set tmpl .float).1 ≠ .ok () := by decide +kernel
  have written : (qs.set tmpl .float).2.ownLimit .image "0" .rvms .float = 5 := by
    decide +kernel
  have before : qs.ownLimit .image "0" .rvms .float = -1 := by decide +kernel
  have same := (unchanged qs tmpl refused).1 .image "0" .rvms (by decide)
  rw [written, before] at same
  norm_num at same

end Quotas

end Ezilla
