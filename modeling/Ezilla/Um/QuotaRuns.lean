import Ezilla.Um.QuotaSections
import Ezilla.Um.QuotaLimits
import Ezilla.Lib.Transition

/-!
# Runs of the quota operations

The quotas of a user or group after any sequence of `quota_check`,
`quota_update`, `set` and `quota_del`, beside the amounts that were accepted and
those that were given back.

* `Quotas.quotaCheck_cases`: a check charges the whole template, or is refused;
* `QuotaSystem.Counted`: every counter is the sum of what is outstanding;
* `QuotaSystem.counted_of_reached`: the runs in which it is;
* `QuotaSystem.lease_kept`: a refused check that leaves a counter raised.
-/

namespace Ezilla

open Transition

/-- The amounts of a template in each section that a type charges. -/
def QuotaType.amounts (tmpl : Template) : QuotaType → QuotaKind → Amount
  | .datastore, .datastore => QuotaDatastore.amounts tmpl
  | .network, .network => QuotaNetwork.amounts tmpl
  | .image, .image => QuotaImage.amounts tmpl
  | .vm, .vm => QuotaVirtualMachine.amounts tmpl
  | .virtualMachine, .network => QuotaNetwork.amounts tmpl
  | .virtualMachine, .vm => QuotaVirtualMachine.amounts tmpl
  | .virtualMachine, .image => QuotaImage.amounts tmpl
  | _, _ => fun _ _ => 0

/-- The increments of an update, which only the VM section has. -/
def QuotaType.increments (tmpl : Template) : QuotaType → QuotaKind → Amount
  | .vm, .vm => QuotaVirtualMachine.increments tmpl
  | _, _ => fun _ _ => 0

namespace Quotas

/-- The section of a kind. -/
def quota (qs : Quotas) : (kind : QuotaKind) → Quota kind
  | .datastore => qs.datastoreQuota
  | .network => qs.networkQuota
  | .image => qs.imageQuota
  | .vm => qs.vmQuota

theorem used_quota (qs : Quotas) (kind : QuotaKind) : (qs.quota kind).used = qs.used kind := by
  cases kind <;> rfl

/-- The limit that a request is compared with. -/
def limitFor (qs ds : Quotas) (kind : QuotaKind) : String → Metric → ℚ :=
  (qs.quota kind).limitFor (ds.quota kind)

def Sound (qs : Quotas) : Prop := ∀ kind, (qs.quota kind).Sound

/-- Each section is charged its amounts. -/
def Charged (qs ds : Quotas) (amounts : QuotaKind → Amount) (qs' : Quotas) : Prop :=
  ∀ kind, (qs.quota kind).Charged (ds.quota kind) (amounts kind) (qs'.quota kind)

/-- No section that a check reaches charges some ids and refuses a later one. -/
def AllOrNothing (qs ds : Quotas) (tmpl : Template) : QuotaType → Prop
  | .datastore => True
  | .vm => True
  | .network => qs.networkQuota.AllOrNothing ds.networkQuota .leases (networkIds tmpl)
  | .image => qs.imageQuota.AllOrNothing ds.imageQuota .rvms (imageIds tmpl)
  | .virtualMachine =>
    qs.networkQuota.AllOrNothing ds.networkQuota .leases (networkIds tmpl) ∧
      (qs.networkQuota.AdmitsAll ds.networkQuota .leases (networkIds tmpl) →
        QuotaVirtualMachine.Admits qs.vmQuota ds.vmQuota tmpl →
        qs.imageQuota.AllOrNothing ds.imageQuota .rvms (imageIds tmpl))

variable {qs qs' ds : Quotas} {type : QuotaType} {tmpl : Template} {kind : QuotaKind}

theorem Charged.of_quota {amounts : QuotaKind → Amount} (kind : QuotaKind)
    (charged : (qs.quota kind).Charged (ds.quota kind) (amounts kind) (qs'.quota kind))
    (others : ∀ kind', kind' ≠ kind →
      qs'.quota kind' = qs.quota kind' ∧ amounts kind' = fun _ _ => 0) :
    qs.Charged ds amounts qs' := by
  intro kind'
  by_cases same : kind' = kind
  · exact same ▸ charged
  · obtain ⟨kept, nothing⟩ := others kind' same
    rw [kept, nothing]
    exact Quota.Charged.refl

/-- A check of a VM charges its NICs, the VM itself and its disks, or is refused. -/
theorem quotaCheck_virtualMachine_cases (qs ds : Quotas) (tmpl : Template) :
    (∃ qs', qs.quotaCheck .virtualMachine tmpl ds = (.ok (), qs') ∧
        qs.Charged ds (QuotaType.virtualMachine.amounts tmpl) qs' ∧
        ∀ kind id m, 0 ≤ QuotaType.virtualMachine.amounts tmpl kind id m) ∨
      ∃ err qs', qs.quotaCheck .virtualMachine tmpl ds = (.error err, qs') ∧
        (qs.Sound ∧ qs.AllOrNothing ds tmpl .virtualMachine → qs.SameUsage qs') := by
  rcases QuotaNetwork.check_cases qs.networkQuota ds.networkQuota tmpl with
    ⟨admitted, net, runNet, chargedNet⟩ | ⟨-, err, net, runNet, sameNet⟩
  · have restoredNet (sound : qs.Sound) (id : String) :
        ∀ m ∈ QuotaKind.network.metrics,
          (QuotaNetwork.del net tmpl).used id m = qs.networkQuota.used id m := by
      have soundNet : net.Sound :=
        chargedNet.sound_of_nonneg (sound .network) fun _ _ _ => Quota.unitsOf_nonneg
      have enough := chargedNet.enough (sound .network)
      exact fun m mem => chargedNet.restored
        (QuotaNetwork.returned_del soundNet fun id => enough id .leases (by decide)) mem
    by_cases fits : QuotaVirtualMachine.Admits qs.vmQuota ds.vmQuota tmpl
    · obtain ⟨vm, runVm, chargedVm, positive⟩ := QuotaVirtualMachine.charged_of_admits fits
      have restoredVm (sound : qs.Sound) (id : String) :
          ∀ m ∈ QuotaKind.vm.metrics,
            (QuotaVirtualMachine.del vm tmpl).used id m = qs.vmQuota.used id m := by
        have enough := chargedVm.enough (sound .vm) "" .vms (by decide)
        exact fun m mem => chargedVm.restored (QuotaVirtualMachine.returned_del enough) mem
      rcases QuotaImage.check_cases qs.imageQuota ds.imageQuota tmpl with
        ⟨-, img, runImg, chargedImg⟩ | ⟨-, err, img, runImg, sameImg⟩
      · refine Or.inl ⟨{ qs with networkQuota := net, vmQuota := vm, imageQuota := img },
          by simp only [quotaCheck, runNet, runVm, runImg], fun kind => ?_, fun kind id m => ?_⟩
        · cases kind with
          | datastore => exact Quota.Charged.refl
          | network => exact chargedNet
          | image => exact chargedImg
          | vm => exact chargedVm
        · cases kind with
          | datastore => exact le_refl 0
          | network => exact Quota.unitsOf_nonneg
          | image => exact Quota.unitsOf_nonneg
          | vm => exact positive id m
      · refine Or.inr ⟨err, _, by simp only [quotaCheck, runNet, runVm, runImg]; rfl,
          fun met kind id m mem => ?_⟩
        cases kind with
        | datastore => rfl
        | network => exact restoredNet met.1 id m mem
        | image => exact sameImg (met.2.2 admitted fits) id m mem
        | vm => exact restoredVm met.1 id m mem
    · obtain ⟨err, vm, runVm, sameVm⟩ := QuotaVirtualMachine.used_of_not_admits fits
      refine Or.inr ⟨err, _, by simp only [quotaCheck, runNet, runVm]; rfl,
        fun met kind id m mem => ?_⟩
      cases kind with
      | datastore => rfl
      | network => exact restoredNet met.1 id m mem
      | image => rfl
      | vm => exact sameVm id m
  · refine Or.inr ⟨err, { qs with networkQuota := net }, by simp only [quotaCheck, runNet],
      fun met kind id m mem => ?_⟩
    cases kind with
    | network => exact sameNet met.2.1 id m mem
    | _ => rfl

/-- A call to one section, seen from the whole object. -/
theorem cases_of_quota {amounts : QuotaKind → Amount} {whole : Prop} (kind : QuotaKind)
    (store : Quota kind → Quotas) (stored : ∀ q, (store q).quota kind = q)
    (others : ∀ q kind', kind' ≠ kind →
      (store q).quota kind' = qs.quota kind' ∧ amounts kind' = fun _ _ => 0)
    {run : Except QuotaError Unit × Quota kind}
    (section_cases :
      (∃ q, run = (.ok (), q) ∧ (qs.quota kind).Charged (ds.quota kind) (amounts kind) q ∧
          ∀ id m, 0 ≤ amounts kind id m) ∨
        ∃ err q, run = (.error err, q) ∧
          (whole → ∀ id, ∀ m ∈ kind.metrics, q.used id m = (qs.quota kind).used id m)) :
    (∃ qs', (run.1, store run.2) = (.ok (), qs') ∧ qs.Charged ds amounts qs' ∧
        ∀ kind id m, 0 ≤ amounts kind id m) ∨
      ∃ err qs', (run.1, store run.2) = (.error err, qs') ∧ (whole → qs.SameUsage qs') := by
  rcases section_cases with ⟨q, rfl, charged, nonneg⟩ | ⟨err, q, rfl, same⟩
  · refine Or.inl ⟨store q, rfl, .of_quota kind ?_ (others q), fun kind' id m => ?_⟩
    · rw [stored]
      exact charged
    · by_cases here : kind' = kind
      · exact here ▸ nonneg id m
      · rw [(others q kind' here).2]
  · refine Or.inr ⟨err, store q, rfl, fun met kind' id m mem => ?_⟩
    rw [← used_quota, ← used_quota]
    by_cases here : kind' = kind
    · subst here
      rw [stored]
      exact same met id m mem
    · rw [(others q kind' here).1]

/-- A check charges the whole template, or is refused. -/
theorem quotaCheck_cases (qs ds : Quotas) (type : QuotaType) (tmpl : Template) :
    (∃ qs', qs.quotaCheck type tmpl ds = (.ok (), qs') ∧ qs.Charged ds (type.amounts tmpl) qs' ∧
        ∀ kind id m, 0 ≤ type.amounts tmpl kind id m) ∨
      ∃ err qs', qs.quotaCheck type tmpl ds = (.error err, qs') ∧
        (qs.Sound ∧ qs.AllOrNothing ds tmpl type → qs.SameUsage qs') := by
  cases type with
  | datastore =>
    refine cases_of_quota .datastore (fun q => { qs with datastoreQuota := q }) (fun _ => rfl) ?_ ?_
    · intro q kind other
      cases kind <;> first | exact absurd rfl other | exact ⟨rfl, rfl⟩
    · rcases QuotaDatastore.check_cases qs.datastoreQuota ds.datastoreQuota tmpl with
        charged | ⟨err, q, run, same⟩
      · exact Or.inl charged
      · exact Or.inr ⟨err, q, run, fun _ id m _ => same id m⟩
  | vm =>
    refine cases_of_quota .vm (fun q => { qs with vmQuota := q }) (fun _ => rfl) ?_ ?_
    · intro q kind other
      cases kind <;> first | exact absurd rfl other | exact ⟨rfl, rfl⟩
    · by_cases fits : QuotaVirtualMachine.Admits qs.vmQuota ds.vmQuota tmpl
      · exact Or.inl (QuotaVirtualMachine.charged_of_admits fits)
      · obtain ⟨err, q, run, same⟩ := QuotaVirtualMachine.used_of_not_admits fits
        exact Or.inr ⟨err, q, run, fun _ id m _ => same id m⟩
  | network =>
    refine cases_of_quota .network (fun q => { qs with networkQuota := q }) (fun _ => rfl) ?_ ?_
    · intro q kind other
      cases kind <;> first | exact absurd rfl other | exact ⟨rfl, rfl⟩
    · rcases QuotaNetwork.check_cases qs.networkQuota ds.networkQuota tmpl with
        ⟨-, q, run, charged⟩ | ⟨-, err, q, run, same⟩
      · exact Or.inl ⟨q, run, charged, fun _ _ => Quota.unitsOf_nonneg⟩
      · exact Or.inr ⟨err, q, run, fun met => same met.2⟩
  | image =>
    refine cases_of_quota .image (fun q => { qs with imageQuota := q }) (fun _ => rfl) ?_ ?_
    · intro q kind other
      cases kind <;> first | exact absurd rfl other | exact ⟨rfl, rfl⟩
    · rcases QuotaImage.check_cases qs.imageQuota ds.imageQuota tmpl with
        ⟨-, q, run, charged⟩ | ⟨-, err, q, run, same⟩
      · exact Or.inl ⟨q, run, charged, fun _ _ => Quota.unitsOf_nonneg⟩
      · exact Or.inr ⟨err, q, run, fun met => same met.2⟩
  | virtualMachine => exact quotaCheck_virtualMachine_cases qs ds tmpl

/-- An update charges its increments, or is refused and changes no counter. -/
theorem quotaUpdate_cases (qs ds : Quotas) (type : QuotaType) (tmpl : Template) :
    (∃ qs', qs.quotaUpdate type tmpl ds = (.ok (), qs') ∧
        qs.Charged ds (type.increments tmpl) qs') ∨
      ∃ err qs', qs.quotaUpdate type tmpl ds = (.error err, qs') ∧ qs.SameUsage qs' := by
  by_cases vm : type = .vm
  · subst vm
    rcases QuotaVirtualMachine.update_cases qs.vmQuota ds.vmQuota tmpl with
      ⟨q, run, charged⟩ | ⟨err, q, run, same⟩
    · refine Or.inl ⟨{ qs with vmQuota := q }, by simp only [quotaUpdate, run],
        .of_quota .vm charged ?_⟩
      intro kind other
      cases kind <;> first | exact absurd rfl other | exact ⟨rfl, rfl⟩
    · refine Or.inr ⟨err, { qs with vmQuota := q }, by simp only [quotaUpdate, run], ?_⟩
      intro kind id m _
      cases kind <;> first | exact same id m | rfl
  · refine Or.inr ⟨.updateNotImplemented, qs, ?_, fun _ _ _ _ => rfl⟩
    cases type <;> first | exact absurd rfl vm | rfl

/-- What is outstanding can be given back. -/
theorem returned_quotaDel (sound : qs.Sound)
    (enough : ∀ kind id, ∀ m ∈ kind.metrics, type.amounts tmpl kind id m ≤ qs.used kind id m) :
    (qs.quota kind).Returned (type.amounts tmpl kind) ((qs.quotaDel type tmpl).quota kind) := by
  cases type with
  | datastore =>
    cases kind with
    | datastore =>
      exact QuotaDatastore.returned_del (sound .datastore) fun id =>
        enough .datastore id .images (by decide)
    | _ => exact Quota.Returned.refl
  | network =>
    cases kind with
    | network =>
      exact QuotaNetwork.returned_del (sound .network) fun id =>
        enough .network id .leases (by decide)
    | _ => exact Quota.Returned.refl
  | image =>
    cases kind with
    | image =>
      exact QuotaImage.returned_del (sound .image) fun id => enough .image id .rvms (by decide)
    | _ => exact Quota.Returned.refl
  | vm =>
    cases kind with
    | vm => exact QuotaVirtualMachine.returned_del (enough .vm "" .vms (by decide))
    | _ => exact Quota.Returned.refl
  | virtualMachine =>
    cases kind with
    | datastore => exact Quota.Returned.refl
    | network =>
      exact QuotaNetwork.returned_del (sound .network) fun id =>
        enough .network id .leases (by decide)
    | image =>
      exact QuotaImage.returned_del (sound .image) fun id => enough .image id .rvms (by decide)
    | vm => exact QuotaVirtualMachine.returned_del (enough .vm "" .vms (by decide))

theorem Charged.used {amounts : QuotaKind → Amount} (charged : qs.Charged ds amounts qs')
    (id : String) {m : Metric} (mem : m ∈ kind.metrics) :
    qs'.used kind id m = qs.used kind id m + amounts kind id m := by
  rw [← used_quota, ← used_quota]
  exact (charged kind).used id m mem

/-- Charging what leaves no counter negative keeps a sound object sound. -/
theorem Charged.sound {amounts : QuotaKind → Amount} (charged : qs.Charged ds amounts qs')
    (sound : qs.Sound)
    (enough : ∀ kind id, ∀ m ∈ kind.metrics, 0 ≤ qs.used kind id m + amounts kind id m) :
    qs'.Sound := by
  intro kind
  refine (charged kind).sound (sound kind) fun id m mem => ?_
  rw [used_quota]
  exact enough kind id m mem

theorem SameUsage.sound (same : qs.SameUsage qs') (sound : qs.Sound) : qs'.Sound := by
  intro kind
  have kept : ∀ id, ∀ m ∈ kind.metrics, (qs'.quota kind).used id m = (qs.quota kind).used id m :=
    fun id m mem => by
      rw [used_quota, used_quota]
      exact same kind id m mem
  refine ⟨fun id m mem => ?_, fun id m mem used => ?_⟩
  · rw [kept id m mem]
    exact (sound kind).nonneg id m mem
  · rw [kept id m mem] at used
    exact (sound kind).valid id m mem used

end Quotas

/-- The quotas, with the amounts that were accepted and those given back. -/
structure QuotaSystem where
  quotas : Quotas
  accepted : List (QuotaKind → Amount)
  returned : List (QuotaKind → Amount)

/-- The calls. The default quotas are those at the time of the call. -/
inductive QuotaCall where
  | check (type : QuotaType) (tmpl : Template) (defaultQuotas : Quotas)
  | update (type : QuotaType) (tmpl : Template) (defaultQuotas : Quotas)
  | set (tmpl : Template)
  | del (type : QuotaType) (tmpl : Template)

namespace QuotaSystem

/-- The sum of what was accepted and not given back. -/
def outstanding (s : QuotaSystem) (kind : QuotaKind) (id : String) (m : Metric) : ℚ :=
  (s.accepted.map fun amounts => amounts kind id m).sum -
    (s.returned.map fun amounts => amounts kind id m).sum

def next (s : QuotaSystem) : QuotaCall → QuotaSystem
  | .check type tmpl defaultQuotas =>
    match s.quotas.quotaCheck type tmpl defaultQuotas with
    | (.ok (), quotas) => { s with quotas, accepted := type.amounts tmpl :: s.accepted }
    | (.error _, quotas) => { s with quotas }
  | .update type tmpl defaultQuotas =>
    match s.quotas.quotaUpdate type tmpl defaultQuotas with
    | (.ok (), quotas) => { s with quotas, accepted := type.increments tmpl :: s.accepted }
    | (.error _, quotas) => { s with quotas }
  | .set tmpl => { s with quotas := (s.quotas.set tmpl).2 }
  | .del type tmpl =>
    { s with
      quotas := s.quotas.quotaDel type tmpl
      returned := type.amounts tmpl :: s.returned }

/-- What a `del` gives back was accepted and not given back. -/
def GivesBack (s : QuotaSystem) : QuotaCall → Prop
  | .del type tmpl => ∀ kind id, ∀ m ∈ kind.metrics,
      type.amounts tmpl kind id m ≤ s.outstanding kind id m
  | _ => True

def Step (s : QuotaSystem) (l : QuotaCall) (s' : QuotaSystem) : Prop :=
  s.GivesBack l ∧ s.next l = s'

/-- Nothing is used yet; limits may be set. -/
def Started (s : QuotaSystem) : Prop :=
  (∀ kind id, ∀ m ∈ kind.metrics, s.quotas.used kind id m = 0) ∧ s.accepted = [] ∧ s.returned = []

/-- Every counter is the sum of what is outstanding, and none is negative. -/
def Counted (s : QuotaSystem) : Prop :=
  ∀ kind id, ∀ m ∈ kind.metrics,
    s.quotas.used kind id m = s.outstanding kind id m ∧ 0 ≤ s.quotas.used kind id m

/-- The call is a check or an update that is accepted. -/
def Accepts (s : QuotaSystem) : QuotaCall → Prop
  | .check type tmpl ds => (s.quotas.quotaCheck type tmpl ds).1 = .ok ()
  | .update type tmpl ds => (s.quotas.quotaUpdate type tmpl ds).1 = .ok ()
  | _ => False

/-- The limit that applies at a call: the own one, the default where that is -1. -/
def limitAt (s : QuotaSystem) : QuotaCall → QuotaKind → String → Metric → ℚ
  | .check _ _ ds => s.quotas.limitFor ds
  | .update _ _ ds => s.quotas.limitFor ds
  | _ => fun _ _ _ => 0

/-- What an accepted call raises stays within the limit, where 0 is no limit. -/
def Within (s : QuotaSystem) (l : QuotaCall) (s' : QuotaSystem) : Prop :=
  s.Accepts l → ∀ kind id, ∀ m ∈ kind.metrics, s.quotas.used kind id m < s'.quotas.used kind id m →
    s.limitAt l kind id m = 0 ∨ s'.quotas.used kind id m ≤ s.limitAt l kind id m

/-- No check charges some of its NICs or disks and refuses a later one, and no
update takes more than is used. -/
def Meets (s : QuotaSystem) : QuotaCall → Prop
  | .check type tmpl ds => s.quotas.AllOrNothing ds tmpl type
  | .update type tmpl _ => ∀ kind id, ∀ m ∈ kind.metrics,
      0 ≤ s.quotas.used kind id m + type.increments tmpl kind id m
  | _ => True

/-! ## The invariant -/

structure Inv (s : QuotaSystem) : Prop where
  counted : ∀ kind id, ∀ m ∈ kind.metrics, s.quotas.used kind id m = s.outstanding kind id m
  sound : s.quotas.Sound

section Steps

variable {s : QuotaSystem} {qs ds : Quotas} {amounts : QuotaKind → Amount}

theorem outstanding_accepted (kind : QuotaKind) (id : String) (m : Metric) :
    outstanding { s with quotas := qs, accepted := amounts :: s.accepted } kind id m =
      s.outstanding kind id m + amounts kind id m := by
  simp only [outstanding, List.map_cons, List.sum_cons]
  ring

theorem outstanding_returned (kind : QuotaKind) (id : String) (m : Metric) :
    outstanding { s with quotas := qs, returned := amounts :: s.returned } kind id m =
      s.outstanding kind id m - amounts kind id m := by
  simp only [outstanding, List.map_cons, List.sum_cons]
  ring

/-- An accepted call that leaves no counter negative. -/
theorem Inv.accepted (inv : s.Inv) (charged : s.quotas.Charged ds amounts qs)
    (enough : ∀ kind id, ∀ m ∈ kind.metrics, 0 ≤ s.quotas.used kind id m + amounts kind id m) :
    Inv { s with quotas := qs, accepted := amounts :: s.accepted } := by
  refine ⟨fun kind id m mem => ?_, charged.sound inv.sound enough⟩
  rw [outstanding_accepted, charged.used id mem, inv.counted kind id m mem]

/-- A call that changes no counter. -/
theorem Inv.sameUsage (inv : s.Inv) (same : s.quotas.SameUsage qs) :
    Inv { s with quotas := qs } := by
  exact ⟨fun kind id m mem => (same kind id m mem).trans (inv.counted kind id m mem),
    same.sound inv.sound⟩

/-- One call keeps the invariant. -/
theorem Inv.next {l : QuotaCall} (inv : s.Inv) (meets : s.Meets l) (gives : s.GivesBack l) :
    (s.next l).Inv := by
  cases l with
  | check type tmpl ds =>
    simp only [QuotaSystem.next]
    rcases Quotas.quotaCheck_cases s.quotas ds type tmpl with
      ⟨qs, run, charged, nonneg⟩ | ⟨err, qs, run, same⟩
    · rw [run]
      refine inv.accepted charged fun kind id m mem => add_nonneg ?_ (nonneg kind id m)
      rw [← Quotas.used_quota]
      exact (inv.sound kind).nonneg id m mem
    · rw [run]
      exact inv.sameUsage (same ⟨inv.sound, meets⟩)
  | update type tmpl ds =>
    simp only [QuotaSystem.next]
    rcases Quotas.quotaUpdate_cases s.quotas ds type tmpl with
      ⟨qs, run, charged⟩ | ⟨err, qs, run, same⟩
    · rw [run]
      exact inv.accepted charged meets
    · rw [run]
      exact inv.sameUsage same
  | set tmpl => exact inv.sameUsage (s.quotas.sameUsage_set tmpl .exact)
  | del type tmpl =>
    have enough : ∀ kind id, ∀ m ∈ kind.metrics,
        type.amounts tmpl kind id m ≤ s.quotas.used kind id m := fun kind id m mem => by
      rw [inv.counted kind id m mem]
      exact gives kind id m mem
    have returned (kind : QuotaKind) :
        (s.quotas.quota kind).Returned (type.amounts tmpl kind)
          ((s.quotas.quotaDel type tmpl).quota kind) :=
      Quotas.returned_quotaDel inv.sound enough
    refine ⟨fun kind id m mem => ?_, fun kind => ?_⟩
    · have less := (returned kind).used id m mem
      rw [Quotas.used_quota, Quotas.used_quota, inv.counted kind id m mem] at less
      exact less.trans (outstanding_returned kind id m).symm
    · refine (returned kind).sound (inv.sound kind) fun id m mem => ?_
      rw [Quotas.used_quota]
      exact enough kind id m mem

theorem Inv.holds (inv : s.Inv) : s.Counted := by
  intro kind id m mem
  refine ⟨inv.counted kind id m mem, ?_⟩
  rw [← Quotas.used_quota]
  exact (inv.sound kind).nonneg id m mem

theorem Started.inv (started : s.Started) : s.Inv := by
  obtain ⟨unused, accepted, returned⟩ := started
  have unused' : ∀ kind id, ∀ m ∈ kind.metrics, (s.quotas.quota kind).used id m = 0 :=
    fun kind id m mem => by
      rw [Quotas.used_quota]
      exact unused kind id m mem
  refine ⟨fun kind id m mem => ?_, fun kind => ⟨fun id m mem => ?_, fun id m mem used => ?_⟩⟩
  · simp [unused kind id m mem, outstanding, accepted, returned]
  · rw [unused' kind id m mem]
  · exact absurd (unused' kind id m mem) used

/-- What an accepted call raises stays within the limits. -/
theorem within_of_charged (charged : s.quotas.Charged ds amounts qs) {kind : QuotaKind}
    {id : String} {m : Metric} (mem : m ∈ kind.metrics)
    (raised : s.quotas.used kind id m < qs.used kind id m) :
    s.quotas.limitFor ds kind id m = 0 ∨ qs.used kind id m ≤ s.quotas.limitFor ds kind id m := by
  have positive : 0 < amounts kind id m := by
    rw [charged.used id mem] at raised
    linarith
  have within := (charged kind).within id m mem positive
  rw [Quotas.used_quota] at within
  exact within

theorem within_next (s : QuotaSystem) (l : QuotaCall) : s.Within l (s.next l) := by
  intro accepts kind id m mem raised
  cases l with
  | check type tmpl ds =>
    rcases Quotas.quotaCheck_cases s.quotas ds type tmpl with
      ⟨qs, run, charged, -⟩ | ⟨err, qs, run, -⟩
    · simp only [QuotaSystem.next, run] at raised ⊢
      exact within_of_charged charged mem raised
    · rw [Accepts, run] at accepts
      cases accepts
  | update type tmpl ds =>
    rcases Quotas.quotaUpdate_cases s.quotas ds type tmpl with
      ⟨qs, run, charged⟩ | ⟨err, qs, run, -⟩
    · simp only [QuotaSystem.next, run] at raised ⊢
      exact within_of_charged charged mem raised
    · rw [Accepts, run] at accepts
      cases accepts
  | set tmpl => exact accepts.elim
  | del type tmpl => exact accepts.elim

end Steps

/-- After a run whose calls meet the condition every counter is the sum of what is
outstanding and none is negative. An accepted call leaves what it raises within
its limit, in any state. -/
theorem counted_of_reached (s : QuotaSystem) :
    (Reachable Started (Guarded Meets Step) s → s.Counted) ∧
      ∀ l s', Step s l s' → s.Within l s' := by
  refine ⟨fun met => ?_, fun l s' taken => ?_⟩
  · have inv : s.Inv := met.invariant (fun _ => Started.inv) fun _ _ _ before taken => by
      obtain ⟨meets, gives, rfl⟩ := taken
      exact before.next meets gives
    exact inv.holds
  · obtain ⟨-, rfl⟩ := taken
    exact within_next s l

/-! ## A check that is refused at a later NIC -/

def noQuotas (isDefault : Bool) : Quotas :=
  ⟨⟨∅, isDefault⟩, ⟨∅, isDefault⟩, ⟨∅, isDefault⟩, ⟨∅, isDefault⟩⟩

def atStart : QuotaSystem := ⟨noQuotas false, [], []⟩

def nic (networkId : String) : Attribute := .vector "NIC" [("NETWORK_ID", networkId)]

/-- One lease is allowed on network 2. -/
def oneLease : QuotaCall := .set [.vector "NETWORK" [("ID", "2"), ("LEASES", "1")]]

/-- NICs on the networks. -/
def checkNics (networkIds : List String) : QuotaCall :=
  .check .network (networkIds.map nic) (noQuotas true)

theorem started_atStart : atStart.Started := by
  refine ⟨fun kind id m mem => ?_, rfl, rfl⟩
  cases kind <;> rfl

/-- The second NIC on network 2 is refused, the lease on network 1 stays charged. -/
theorem lease_kept :
    ¬ ∀ s : QuotaSystem, Reachable Started Step s →
      s.Counted ∧ ∀ l s', Step s l s' → s.Within l s' := by
  intro always
  have reached : Reachable Started Step ((atStart.next oneLease).next (checkNics ["1", "2", "2"])) :=
    .step (l := checkNics ["1", "2", "2"])
      (.step (l := oneLease) (.init started_atStart) ⟨trivial, rfl⟩) ⟨trivial, rfl⟩
  have counted := ((always _ reached).1 .network "1" .leases (by decide)).1
  exact absurd counted (by decide +kernel)

/-- The counters after a NIC on network 2 was charged. -/
theorem counted_of_reached_one :
    ((atStart.next oneLease).next (checkNics ["2"])).Counted := by
  have whole : Meets (atStart.next oneLease) (checkNics ["2"]) := Or.inl (by decide +kernel)
  exact (counted_of_reached _).1
    (.step (l := checkNics ["2"])
      (.step (l := oneLease) (.init started_atStart) ⟨trivial, trivial, rfl⟩) ⟨whole, trivial, rfl⟩)

end QuotaSystem

end Ezilla
