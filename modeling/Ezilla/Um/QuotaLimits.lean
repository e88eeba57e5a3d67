import Ezilla.Um.QuotaEntries
import Mathlib.Logic.Function.Basic

/-!
# Setting the limits of a quota

`Quota::set` writes the limits of the quotas in a template, and drops an entry
that has no usage and no limit of its own afterwards. It stops at the first
quota that is wrong; the limits before that one stay set, also those of the
same quota. No usage counter changes.
-/

namespace Ezilla

/-- The name of a metric in a quota. -/
def Metric.name : Metric → String
  | size => "SIZE"
  | images => "IMAGES"
  | leases => "LEASES"
  | rvms => "RVMS"
  | vms => "VMS"
  | cpu => "CPU"
  | memory => "MEMORY"

/-- The name of the quotas of a section in a template. -/
def QuotaKind.templateName : QuotaKind → String
  | datastore => "DATASTORE"
  | network => "NETWORK"
  | image => "IMAGE"
  | vm => "VM"

/-- Negative limits or bad format in quota `templateName`, with the quota where
it is a vector. -/
inductive QuotaSetError where
  | badLimits (templateName : String) (quota? : Option (List (String × String)))
  deriving DecidableEq

namespace Quota

/-- `VectorAttribute::vector_value_str(name, float&)`: the text of a limit and its
value, or the empty text and -1 where there is no number. -/
def limitText (values : List (String × String)) (m : Metric) : String × ℚ :=
  let text := Attribute.vectorValue values m.name
  if text = "" then ("", -1)
  else
    match parseFloat text with
    | some limit => (text, limit)
    | none => ("", -1)

/-- `update_limits` refuses the limit of a metric. -/
def WrongLimit (isDefault : Bool) (values : List (String × String)) (m : Metric)
    (arith : QuotaArithmetic := .exact) : Prop :=
  (isDefault = false ∧ (arith.read (limitText values m).2 < -1 ∨
      (arith.read (limitText values m).2 = -1 ∧ (limitText values m).1 = ""))) ∨
    (isDefault = true ∧ arith.read (limitText values m).2 < 0)

instance (isDefault : Bool) (values : List (String × String)) (m : Metric)
    (arith : QuotaArithmetic) : Decidable (WrongLimit isDefault values m arith) :=
  inferInstanceAs (Decidable (_ ∨ _))

/-- The limit that is written for a metric. -/
def limitOf (values : List (String × String)) (m : Metric) (arith : QuotaArithmetic := .exact) :
    ℚ :=
  arith.write (arith.read (limitText values m).2)

/-- `Quota::update_limits`: the limits before the first bad one are replaced. -/
def updateLimits (isDefault : Bool) (values : List (String × String)) (e : QuotaEntry)
    (metrics : List Metric) (arith : QuotaArithmetic := .exact) : Bool × QuotaEntry :=
  match metrics with
  | [] => (true, e)
  | m :: metrics =>
    if WrongLimit isDefault values m arith then (false, e)
    else
      updateLimits isDefault values
        { e with limit := Function.update e.limit m (limitOf values m arith) } metrics arith

variable {kind : QuotaKind}

/-- `Quota::new_quota`. -/
def newQuota (q : Quota kind) (values : List (String × String))
    (arith : QuotaArithmetic := .exact) : Option QuotaEntry :=
  if ∃ m ∈ kind.metrics, arith.read (limitText values m).2 < q.implicitLimit then none
  else some ⟨fun m => limitOf values m arith, fun _ => 0⟩

/-- `Quota::set`. -/
def set (q : Quota kind) (quotas : List Attribute) (arith : QuotaArithmetic := .exact) :
    Except QuotaSetError Unit × Quota kind :=
  match quotas with
  | [] => (.ok (), q)
  | .single _ _ :: _ => (.error (.badLimits kind.templateName none), q)
  | .vector _ values :: quotas =>
    let id := Attribute.vectorValue values "ID"
    match q.getQuota id with
    | none => (.error (.badLimits kind.templateName (some values)), q)
    | some none =>
      match q.newQuota values arith with
      | none => (.error (.badLimits kind.templateName (some values)), q)
      | some e => set ((q.put id e).cleanupQuota id arith) quotas arith
    | some (some e) =>
      match updateLimits q.isDefault values e kind.metrics arith with
      | (false, e') => (.error (.badLimits kind.templateName (some values)), q.put id e')
      | (true, e') => set ((q.put id e').cleanupQuota id arith) quotas arith

/-! ## The counters -/

variable {q : Quota kind} {id id' : String} {m : Metric} {arith : QuotaArithmetic}

theorem lookup_of_getQuota {found : Option QuotaEntry} (got : q.getQuota id = some found) :
    q.attributes.lookup (key kind id) = found := by
  rw [getQuota] at got
  split at got
  · exact Option.some.inj got
  · cases got

theorem used_updateLimits (isDefault : Bool) (values : List (String × String)) (e : QuotaEntry)
    (metrics : List Metric) : (updateLimits isDefault values e metrics arith).2.used = e.used := by
  induction metrics generalizing e with
  | nil => rfl
  | cons m metrics ih =>
    simp only [updateLimits]
    split
    · rfl
    · exact ih _

/-- Dropping an idle entry changes no counter of the section. -/
theorem read_used_cleanupQuota (mem : m ∈ kind.metrics) :
    arith.read ((q.cleanupQuota id arith).used id' m) = arith.read (q.used id' m) := by
  unfold cleanupQuota
  split
  · rename_i e got
    split
    · rename_i idle
      by_cases same : key kind id' = key kind id
      · have found : q.attributes.lookup (key kind id') = some e := same ▸ lookup_of_getQuota got
        have gone : (q.erase id).attributes.lookup (key kind id') = none := same ▸ lookup_erase
        rw [used, used, entry_of_lookup found, entry_of_lookup_none gone, (idle m mem).1]
        exact arith.read_zero
      · rw [used, used, entry, entry, lookup_erase_ne same]
    · rfl
  · rfl

/-- Storing an entry with the counters of the old one changes no counter. -/
theorem used_put_of_same {e : QuotaEntry} (same : e.used = (q.entry id).used) :
    (q.put id e).used id' m = q.used id' m := by
  rw [used, used, entry_put]
  split_ifs with here
  · have entry_eq : q.entry id' = q.entry id := by rw [entry, entry, here]
    rw [same, entry_eq]
  · rfl

/-- Setting limits changes no counter, also where it is refused. -/
theorem read_used_set (quotas : List Attribute) (mem : m ∈ kind.metrics) :
    arith.read ((q.set quotas arith).2.used id' m) = arith.read (q.used id' m) := by
  induction quotas generalizing q with
  | nil => rfl
  | cons a quotas ih =>
    cases a with
    | single name value => rfl
    | vector name values =>
      simp only [set]
      split
      · rfl
      · rename_i got
        have absent := entry_of_lookup_none (lookup_of_getQuota got)
        split
        · rfl
        · rename_i e new
          have none_used : e.used = (q.entry (Attribute.vectorValue values "ID")).used := by
            rw [newQuota] at new
            split at new
            · cases new
            · cases new
              rw [absent]
              rfl
          rw [ih, read_used_cleanupQuota mem, used_put_of_same none_used]
      · rename_i e got
        have found := entry_of_lookup (lookup_of_getQuota got)
        have kept := @used_updateLimits arith q.isDefault values e kind.metrics
        split <;> rename_i e' updated <;> rw [updated] at kept
        · rw [used_put_of_same (found ▸ kept)]
        · rw [ih, read_used_cleanupQuota mem, used_put_of_same (found ▸ kept)]

/-- In exact numbers. -/
theorem used_set (quotas : List Attribute) (mem : m ∈ kind.metrics) :
    (q.set quotas).2.used id' m = q.used id' m :=
  @read_used_set kind q id' m .exact quotas mem

end Quota

/-- `Quotas::set`: the sections in turn, up to the first one that is refused. -/
def Quotas.set (qs : Quotas) (tmpl : Template) (arith : QuotaArithmetic := .exact) :
    Except QuotaSetError Unit × Quotas :=
  match qs.datastoreQuota.set (tmpl.get QuotaKind.datastore.templateName) arith with
  | (.error e, datastore) => (.error e, { qs with datastoreQuota := datastore })
  | (.ok (), datastore) =>
    let qs := { qs with datastoreQuota := datastore }
    match qs.networkQuota.set (tmpl.get QuotaKind.network.templateName) arith with
    | (.error e, network) => (.error e, { qs with networkQuota := network })
    | (.ok (), network) =>
      let qs := { qs with networkQuota := network }
      match qs.imageQuota.set (tmpl.get QuotaKind.image.templateName) arith with
      | (.error e, image) => (.error e, { qs with imageQuota := image })
      | (.ok (), image) =>
        let qs := { qs with imageQuota := image }
        match qs.vmQuota.set (tmpl.get QuotaKind.vm.templateName) arith with
        | (.error e, vm) => (.error e, { qs with vmQuota := vm })
        | (.ok (), vm) => (.ok (), { qs with vmQuota := vm })

/-- Setting limits changes no counter of any section. -/
theorem Quotas.sameUsage_set (qs : Quotas) (tmpl : Template) (arith : QuotaArithmetic) :
    qs.SameUsage (qs.set tmpl arith).2 arith := by
  intro kind id m mem
  have datastore := @Quota.read_used_set _ qs.datastoreQuota id m arith
    (tmpl.get QuotaKind.datastore.templateName)
  have network := @Quota.read_used_set _ qs.networkQuota id m arith
    (tmpl.get QuotaKind.network.templateName)
  have image := @Quota.read_used_set _ qs.imageQuota id m arith
    (tmpl.get QuotaKind.image.templateName)
  have vm := @Quota.read_used_set _ qs.vmQuota id m arith (tmpl.get QuotaKind.vm.templateName)
  simp only [Quotas.set]
  split <;> rename_i run₁ <;> rw [run₁] at datastore
  · cases kind <;> first | exact datastore mem | rfl
  · split <;> rename_i run₂ <;> rw [run₂] at network
    · cases kind <;> first | exact datastore mem | exact network mem | rfl
    · split <;> rename_i run₃ <;> rw [run₃] at image
      · cases kind <;> first | exact datastore mem | exact network mem | exact image mem | rfl
      · split <;> rename_i run₄ <;> rw [run₄] at vm
        · cases kind <;>
            first | exact datastore mem | exact network mem | exact image mem | exact vm mem
        · cases kind <;>
            first | exact datastore mem | exact network mem | exact image mem | exact vm mem

end Ezilla
