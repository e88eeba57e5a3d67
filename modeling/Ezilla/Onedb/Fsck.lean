import Ezilla.Um.QuotaRuns

/-!
# The repair of quotas by fsck

`fsck` computes the usage of every user and group from the VMs and images in the database
and writes it into their documents. The daemon reads the limits from the same documents: a
limit of -1 is left to the default quotas, and so is a missing entry, but a limit of 0 is no
limit at all.

`Database.limitsKept_iff` says when the limits are the same before and after. Where an entry
is missing, `fsck` writes a new one with all limits 0.
-/

namespace Ezilla

/-! ## The database -/

/-- The quotas in the document of a user or group: the entries of each section with their
ids, in the order of the document, and `none` where there is no section. The entries of the
VM section have the empty id. -/
structure QuotaDoc where
  sections : QuotaKind → Option (List (String × QuotaEntry))

/-- A row of the VM pool: the numbers and ids that are read from its body. -/
structure VmRow where
  uid : Int
  gid : Int
  state : Nat
  cpu : List ℚ
  memory : List Int
  networkIds : List String
  imageIds : List String

/-- A row of the image pool. -/
structure ImageRow where
  uid : Int
  gid : Int
  datastoreIds : List String
  size : List Int

/-- The tables that are read and written, users and groups by their ids. -/
structure Database where
  users : Int → Option QuotaDoc
  groups : Int → Option QuotaDoc
  vms : List VmRow
  images : List ImageRow

/-! ## The usage -/

/-- The usage of some ids, as a hash: each id once, in the order they were first seen. -/
abbrev UsageHash := List (String × (Metric → ℚ))

namespace Fsck

/-- A number with its decimals after the second cut off. -/
def truncate2 (c : ℚ) : ℚ :=
  if c < 0 then ⌈c * 100⌉ / 100 else ⌊c * 100⌋ / 100

/-- The usage of the VM section. -/
def vmUsage (vms : List VmRow) : Metric → ℚ
  | .cpu => vms.foldl (fun sum vm => vm.cpu.foldl (fun sum c => sum + truncate2 c) sum) 0
  | .memory => vms.foldl (fun sum vm => vm.memory.foldl (fun sum n => sum + (n : ℚ)) sum) 0
  | .vms => vms.length
  | _ => 0

/-- One unit of a metric for each time an id comes up. -/
def countUsage (metric : Metric) (ids : List String) : UsageHash :=
  ids.eraseDups.map fun id => (id, fun m => if m = metric then (ids.count id : ℚ) else 0)

/-- The images and their size for each datastore. -/
def datastoreUsage (images : List ImageRow) : UsageHash :=
  let stored := images.flatMap fun img => img.datastoreIds.map fun id => (id, img.size)
  (stored.map Prod.fst).eraseDups.map fun id =>
    (id, fun m =>
      match m with
      | .images => ((stored.filter fun x => x.1 = id).length : ℚ)
      | .size =>
        (stored.filter fun x => x.1 = id).foldl
          (fun sum x => x.2.foldl (fun sum n => sum + (n : ℚ)) sum) 0
      | _ => 0)

/-- The usage of a section from the VMs and images of a user or group. -/
def usage (vms : List VmRow) (images : List ImageRow) : QuotaKind → UsageHash
  | .vm => [("", vmUsage vms)]
  | .network => countUsage .leases (vms.flatMap VmRow.networkIds)
  | .image => countUsage .rvms (vms.flatMap VmRow.imageIds)
  | .datastore => datastoreUsage images

/-! ## The repair -/

/-- The entry with its usage corrected. -/
def repaired (e : QuotaEntry) (used : Metric → ℚ) : QuotaEntry := { e with used := used }

/-- The limits of a new entry. -/
def newLimits : Metric → ℚ := fun _ => 0

/-- The entry that is written where there is none. -/
def newEntry (used : Metric → ℚ) : QuotaEntry := ⟨newLimits, used⟩

/-- The VM section: its last entry is corrected. A section without entries is written anew. -/
def repairVm (used : Metric → ℚ) (entries : List (String × QuotaEntry)) :
    List (String × QuotaEntry) :=
  match entries.getLast? with
  | none => [("", newEntry used)]
  | some (id, e) => entries.dropLast ++ [(id, repaired e used)]

/-- The entries of another section with the usage that is found for them. An id is taken out
of the usage when its entry is corrected. -/
def repairEntries : UsageHash → List (String × QuotaEntry) →
    List (String × QuotaEntry) × UsageHash
  | usage, [] => ([], usage)
  | usage, (id, e) :: entries =>
    let (entries, left) := repairEntries (usage.filter fun x => x.1 ≠ id) entries
    ((id, repaired e ((usage.lookup id).getD fun _ => 0)) :: entries, left)

/-- Another section: what is left of the usage gets new entries. -/
def repairSection (usage : UsageHash) (entries : List (String × QuotaEntry)) :
    List (String × QuotaEntry) :=
  let (entries, left) := repairEntries usage entries
  entries ++ left.map fun x => (x.1, newEntry x.2)

/-- `calculate_quotas`: the document of a user or group with these VMs and images. A section
that is missing is treated as one without entries, and added. -/
def calculateQuotas (vms : List VmRow) (images : List ImageRow) (doc : QuotaDoc) : QuotaDoc where
  sections kind :=
    let entries := (doc.sections kind).getD []
    match kind with
    | .vm => some (repairVm (vmUsage vms) entries)
    | kind => some (repairSection (usage vms images kind) entries)

end Fsck

/-- The state of a VM that is done. -/
def VmRow.doneState : Nat := 6

/-- The quota part of `fsck`. User and group 0 have no quotas. -/
def Database.fsck (db : Database) : Database where
  users oid :=
    if 0 < oid then
      (db.users oid).map (Fsck.calculateQuotas
        (db.vms.filter fun vm => vm.uid = oid ∧ vm.state ≠ VmRow.doneState)
        (db.images.filter fun img => img.uid = oid))
    else if oid = 0 then db.users oid else none
  groups oid :=
    if 0 < oid then
      (db.groups oid).map (Fsck.calculateQuotas
        (db.vms.filter fun vm => vm.gid = oid ∧ vm.state ≠ VmRow.doneState)
        (db.images.filter fun img => img.gid = oid))
    else if oid = 0 then db.groups oid else none
  vms := db.vms
  images := db.images

/-! ## What the daemon reads -/

/-- The section that the daemon reads from a document: of two entries with one id it looks
up the first. -/
def QuotaDoc.quota (doc : QuotaDoc) (kind : QuotaKind) : Quota kind where
  attributes := ((doc.sections kind).getD []).foldr
    (fun x entries => entries.insert (Quota.key kind x.1) x.2) ∅
  isDefault := false

/-- The limit that `check_quota` compares a request with is the same for both documents,
whatever the section, the id and the metric. -/
def QuotaDoc.SameLimits (defaultQuotas : Quotas) (doc doc' : QuotaDoc) : Prop :=
  ∀ kind : QuotaKind, ∀ id, ∀ m ∈ kind.metrics,
    (doc'.quota kind).limitFor (defaultQuotas.quota kind) id m =
      (doc.quota kind).limitFor (defaultQuotas.quota kind) id m

/-! ## The limits under a repair -/

namespace Fsck

open Quota (key)

variable {kind : QuotaKind} {entries : List (String × QuotaEntry)} {used : Metric → ℚ}
  {hash : UsageHash} {doc : QuotaDoc} {d : Quota kind} {id : String} {m : Metric}
  {vms : List VmRow} {images : List ImageRow}

/-- The limits of some entries under their keys. -/
def limitsOf (kind : QuotaKind) (entries : List (String × QuotaEntry)) :
    List (String × (Metric → ℚ)) :=
  entries.map fun x => (key kind x.1, x.2.limit)

/-- The limits that the daemon finds for an id. -/
theorem lookup_quota : ((doc.quota kind).attributes.lookup (key kind id)).map QuotaEntry.limit =
    (limitsOf kind ((doc.sections kind).getD [])).lookup (key kind id) := by
  rw [QuotaDoc.quota, limitsOf]
  dsimp only
  induction (doc.sections kind).getD [] with
  | nil => rfl
  | cons x entries ih =>
    rw [List.foldr_cons, List.map_cons, List.lookup_cons]
    by_cases here : key kind id = key kind x.1
    · rw [here, AList.lookup_insert, beq_self_eq_true]
      rfl
    · rw [AList.lookup_insert_ne here, ih, beq_eq_false_iff_ne.mpr here]

/-- The limit of a request from the limits that are found: without an entry it is the one of
a new entry. -/
theorem limitFor_eq (q : Quota kind) : q.limitFor d id m =
    QuotaEntry.effectiveLimit
      ⟨((q.attributes.lookup (key kind id)).map QuotaEntry.limit).getD fun _ => -1, fun _ => 0⟩
      (d.getQuota id).join m := by
  rw [Quota.limitFor, Quota.entry]
  cases q.attributes.lookup (key kind id) with
  | none => rfl
  | some e => rfl

/-- What is left of the usage belongs to no entry, and the limits stay. -/
theorem repairEntries_eq : limitsOf kind (repairEntries hash entries).1 = limitsOf kind entries ∧
    (repairEntries hash entries).2 = hash.filter fun x => ∀ y ∈ entries, x.1 ≠ y.1 := by
  induction entries generalizing hash with
  | nil => exact ⟨rfl, (List.filter_eq_self.mpr fun x _ => by simp).symm⟩
  | cons y entries ih =>
    obtain ⟨limits, left⟩ := @ih (hash.filter fun x => x.1 ≠ y.1)
    rw [repairEntries]
    refine ⟨?_, ?_⟩
    · rw [limitsOf, List.map_cons, ← limitsOf, limits]
      rfl
    · dsimp only
      rw [left, List.filter_filter]
      refine List.filter_congr fun x _ => Bool.eq_iff_iff.mpr ?_
      simp only [Bool.and_eq_true, decide_eq_true_eq, List.forall_mem_cons]
      exact and_comm

theorem limitsOf_repairVm : limitsOf kind (repairVm used entries) =
    if entries = [] then [(key kind "", newLimits)] else limitsOf kind entries := by
  rw [repairVm]
  split
  · rename_i empty
    rw [if_pos (List.getLast?_eq_none_iff.mp empty)]
    rfl
  · rename_i id e last
    have some : entries ≠ [] := by
      rintro rfl
      cases last
    have whole : entries.dropLast ++ [(id, e)] = entries := by
      rw [List.getLast?_eq_some_getLast some, Option.some_inj] at last
      rw [← last, List.dropLast_append_getLast]
    rw [if_neg some]
    conv_rhs => rw [← whole]
    rw [limitsOf, limitsOf, List.map_append, List.map_append]
    rfl

theorem limitsOf_repairSection : limitsOf kind (repairSection hash entries) =
    limitsOf kind entries ++
      (hash.filter fun x => ∀ y ∈ entries, x.1 ≠ y.1).map fun x => (key kind x.1, newLimits) := by
  obtain ⟨limits, left⟩ := @repairEntries_eq kind entries hash
  rw [repairSection]
  dsimp only
  rw [limitsOf, List.map_append, ← limitsOf, limits, left, List.map_map]
  rfl

/-- The VMs and images of a user or group use the resource. -/
def Uses (vms : List VmRow) (images : List ImageRow) (kind : QuotaKind) (id : String) : Prop :=
  match kind with
  | .vm => True
  | .network => ∃ vm ∈ vms, id ∈ vm.networkIds
  | .image => ∃ vm ∈ vms, id ∈ vm.imageIds
  | .datastore => ∃ img ∈ images, id ∈ img.datastoreIds

/-- No entry of the section is the one of the id. -/
def Missing (doc : QuotaDoc) (kind : QuotaKind) (id : String) : Prop :=
  ∀ x ∈ (doc.sections kind).getD [], key kind id ≠ key kind x.1

theorem lookup_limitsOf_eq_none_iff : (limitsOf kind entries).lookup (key kind id) = none ↔
    ∀ x ∈ entries, key kind id ≠ key kind x.1 := by
  simp only [limitsOf, List.lookup_eq_none_iff, List.forall_mem_map, bne_iff_ne]

/-- The usage has the ids that are used. -/
theorem mem_usage_iff (keyed : kind ≠ .vm) :
    (∃ x ∈ usage vms images kind, x.1 = id) ↔ Uses vms images kind id := by
  cases kind with
  | vm => exact absurd rfl keyed
  | network => simp [usage, countUsage, Uses]
  | image => simp [usage, countUsage, Uses]
  | datastore => simp [usage, datastoreUsage, Uses]

/-- The new entries: one for each id that is used and missing. -/
theorem lookup_new_iff (keyed : kind ≠ .vm) (limits : Option (Metric → ℚ)) :
    ((hash.filter fun x => ∀ y ∈ entries, x.1 ≠ y.1).map
        fun x => (key kind x.1, newLimits)).lookup (key kind id) = limits ↔
      ((∃ x ∈ hash, x.1 = id) ∧ (∀ y ∈ entries, id ≠ y.1) → limits = some newLimits) ∧
        (¬ ((∃ x ∈ hash, x.1 = id) ∧ ∀ y ∈ entries, id ≠ y.1) → limits = none) := by
  have key_eq : ∀ id, key kind id = id := fun id => if_neg keyed
  simp only [key_eq]
  have zero : ∀ f, (((hash.filter fun x => ∀ y ∈ entries, x.1 ≠ y.1).map
      fun x => (x.1, newLimits)).lookup id = some f) → f = newLimits := by
    intro f found
    obtain ⟨l, l', split, -⟩ := List.lookup_eq_some_iff.mp found
    have mem : (id, f) ∈ (hash.filter fun x => ∀ y ∈ entries, x.1 ≠ y.1).map
        fun x => (x.1, newLimits) := by
      rw [split]
      exact List.mem_append_right l List.mem_cons_self
    obtain ⟨x, -, same⟩ := List.mem_map.mp mem
    exact (congrArg Prod.snd same).symm
  have absent : (((hash.filter fun x => ∀ y ∈ entries, x.1 ≠ y.1).map
      fun x => (x.1, newLimits)).lookup id = none) ↔
        ¬ ((∃ x ∈ hash, x.1 = id) ∧ ∀ y ∈ entries, id ≠ y.1) := by
    simp only [List.lookup_eq_none_iff, List.forall_mem_map, bne_iff_ne, List.mem_filter,
      decide_eq_true_eq, not_and]
    constructor
    · rintro none_ ⟨x, mem, rfl⟩ missing
      exact none_ x ⟨mem, missing⟩ rfl
    · rintro unused x ⟨mem, missing⟩ rfl
      exact unused ⟨x, mem, rfl⟩ missing
  by_cases used : (∃ x ∈ hash, x.1 = id) ∧ ∀ y ∈ entries, id ≠ y.1
  · cases found : ((hash.filter fun x => ∀ y ∈ entries, x.1 ≠ y.1).map
        fun x => (x.1, newLimits)).lookup id with
    | none => exact absurd used (absent.mp found)
    | some f =>
      rw [zero f found, eq_comm]
      exact ⟨fun is => ⟨fun _ => is, fun unused => absurd used unused⟩, fun both => both.1 used⟩
  · rw [absent.mpr used, eq_comm]
    exact ⟨fun is => ⟨fun used' => absurd used' used, fun _ => is⟩, fun both => both.2 used⟩

/-- The limits that the daemon finds after the repair: those of a new entry where one was
missing and is used, else those before. -/
theorem lookup_calculateQuotas (limits : Option (Metric → ℚ)) :
    (((calculateQuotas vms images doc).quota kind).attributes.lookup (key kind id)).map
        QuotaEntry.limit = limits ↔
      (Missing doc kind id ∧ Uses vms images kind id → limits = some newLimits) ∧
      (¬ (Missing doc kind id ∧ Uses vms images kind id) →
        limits = ((doc.quota kind).attributes.lookup (key kind id)).map QuotaEntry.limit) := by
  rw [lookup_quota, lookup_quota]
  by_cases keyed : kind = .vm
  · subst keyed
    rw [calculateQuotas]
    dsimp only
    rw [Option.getD_some, limitsOf_repairVm, Missing, Uses]
    cases (doc.sections .vm).getD [] with
    | nil =>
      rw [if_pos rfl]
      simp [key, eq_comm]
    | cons x entries =>
      have there : ¬ ∀ y ∈ x :: entries, key .vm id ≠ key .vm y.1 := fun missing =>
        missing x List.mem_cons_self rfl
      rw [if_neg (List.cons_ne_nil x entries)]
      simp only [there, false_and, false_imp_iff, not_false_eq_true, true_imp_iff, true_and,
        eq_comm]
  · have repaired_ : ((calculateQuotas vms images doc).sections kind).getD [] =
        repairSection (usage vms images kind) ((doc.sections kind).getD []) := by
      cases kind with
      | vm => exact absurd rfl keyed
      | network => rfl
      | image => rfl
      | datastore => rfl
    rw [repaired_, limitsOf_repairSection, List.lookup_append]
    cases before : (limitsOf kind ((doc.sections kind).getD [])).lookup (key kind id) with
    | some l =>
      have there : ¬ Missing doc kind id := fun missing => by
        rw [lookup_limitsOf_eq_none_iff.mpr missing] at before
        cases before
      simp [there, eq_comm]
    | none =>
      have missing : Missing doc kind id := lookup_limitsOf_eq_none_iff.mp before
      rw [Option.none_or, lookup_new_iff keyed, mem_usage_iff keyed]
      have named : ∀ y ∈ (doc.sections kind).getD [], id ≠ y.1 := fun y mem same =>
        missing y mem (congrArg (key kind) same)
      simp only [missing, true_and, and_iff_left named]

/-- The repair keeps every limit of a document exactly when the default quotas have no limit
for what is used without an entry. -/
theorem sameLimits_calculateQuotas_iff (defaultQuotas : Quotas) :
    doc.SameLimits defaultQuotas (calculateQuotas vms images doc) ↔
      ∀ kind : QuotaKind, ∀ id, Missing doc kind id → Uses vms images kind id →
        ∀ m ∈ kind.metrics,
          QuotaEntry.fresh.effectiveLimit ((defaultQuotas.quota kind).getQuota id).join m = 0 := by
  refine forall₂_congr fun kind id => ?_
  have after := (lookup_calculateQuotas _).mp (show
    (((calculateQuotas vms images doc).quota kind).attributes.lookup (key kind id)).map
      QuotaEntry.limit = _ from rfl)
  by_cases created : Missing doc kind id ∧ Uses vms images kind id
  · have before : ((doc.quota kind).attributes.lookup (key kind id)).map QuotaEntry.limit = none := by
      rw [lookup_quota, lookup_limitsOf_eq_none_iff]
      exact created.1
    simp only [limitFor_eq, after.1 created, before, created.1, created.2, true_imp_iff,
      Option.getD_some, Option.getD_none]
    refine forall₂_congr fun m mem => ?_
    rw [eq_comm]
    exact Iff.rfl
  · simp only [limitFor_eq, after.2 created]
    exact iff_of_true (fun _ _ => trivial) fun missing uses => absurd ⟨missing, uses⟩ created

end Fsck

/-! ## The whole database -/

namespace Database

/-- The VMs of a user that are not done. -/
def vmsOfUser (db : Database) (oid : Int) : List VmRow :=
  db.vms.filter fun vm => vm.uid = oid ∧ vm.state ≠ VmRow.doneState

def imagesOfUser (db : Database) (oid : Int) : List ImageRow :=
  db.images.filter fun img => img.uid = oid

/-- The VMs of a group that are not done. -/
def vmsOfGroup (db : Database) (oid : Int) : List VmRow :=
  db.vms.filter fun vm => vm.gid = oid ∧ vm.state ≠ VmRow.doneState

def imagesOfGroup (db : Database) (oid : Int) : List ImageRow :=
  db.images.filter fun img => img.gid = oid

/-- Every user and every group with an id above 0 has the same limits in both databases. -/
def LimitsKept (defaultUserQuotas defaultGroupQuotas : Quotas) (db db' : Database) : Prop :=
  ∀ oid : Int, 0 < oid →
    (∀ doc ∈ db.users oid, ∃ doc' ∈ db'.users oid, doc.SameLimits defaultUserQuotas doc') ∧
    ∀ doc ∈ db.groups oid, ∃ doc' ∈ db'.groups oid, doc.SameLimits defaultGroupQuotas doc'

/-- The default quotas have no limit for what these VMs and images use without an entry in
the document. -/
def Unlimited (defaultQuotas : Quotas) (vms : List VmRow) (images : List ImageRow)
    (doc : QuotaDoc) : Prop :=
  ∀ kind : QuotaKind, ∀ id, Fsck.Missing doc kind id → Fsck.Uses vms images kind id →
    ∀ m ∈ kind.metrics,
      QuotaEntry.fresh.effectiveLimit ((defaultQuotas.quota kind).getQuota id).join m = 0

/-- The repair keeps every limit exactly when the default quotas have none for what a user
or a group uses without an entry; a missing VM entry counts as used. -/
theorem limitsKept_iff (db : Database) (defaultUserQuotas defaultGroupQuotas : Quotas) :
    db.LimitsKept defaultUserQuotas defaultGroupQuotas db.fsck ↔
      ∀ oid : Int, 0 < oid →
        (∀ doc ∈ db.users oid,
          Unlimited defaultUserQuotas (db.vmsOfUser oid) (db.imagesOfUser oid) doc) ∧
        ∀ doc ∈ db.groups oid,
          Unlimited defaultGroupQuotas (db.vmsOfGroup oid) (db.imagesOfGroup oid) doc := by
  refine forall₂_congr fun oid positive => and_congr ?_ ?_
  · refine forall₂_congr fun doc found => ?_
    rw [Option.mem_def] at found
    rw [Unlimited, ← Fsck.sameLimits_calculateQuotas_iff, fsck]
    simp only [if_pos positive, found, Option.map_some, Option.mem_some, exists_eq_left']
    rfl
  · refine forall₂_congr fun doc found => ?_
    rw [Option.mem_def] at found
    rw [Unlimited, ← Fsck.sameLimits_calculateQuotas_iff, fsck]
    simp only [if_pos positive, found, Option.map_some, Option.mem_some, exists_eq_left']
    rfl

/-- A user without quotas of its own, where the default is 5 VMs: after the repair the user
has no limit. -/
theorem fsck_lifts_limit : ¬ ∀ (db : Database) (defaultUserQuotas defaultGroupQuotas : Quotas),
    db.LimitsKept defaultUserQuotas defaultGroupQuotas db.fsck := by
  let none_ : Quotas := ⟨⟨∅, true⟩, ⟨∅, true⟩, ⟨∅, true⟩, ⟨∅, true⟩⟩
  let five : Quotas :=
    { none_ with vmQuota := none_.vmQuota.put "" ⟨fun _ => 5, fun _ => 0⟩ }
  let doc : QuotaDoc := ⟨fun _ => none⟩
  let db : Database := ⟨fun oid => if oid = 2 then some doc else none, fun _ => none, [], []⟩
  have found : db.users 2 = some doc := rfl
  intro kept
  obtain ⟨doc', after, same⟩ := (kept db five none_ 2 (by decide)).1 doc found
  have repaired : doc' = Fsck.calculateQuotas [] [] doc := (Option.some_inj.mp after).symm
  have limit := same .vm "" .vms (by decide)
  rw [repaired] at limit
  have before : (doc.quota .vm).limitFor (five.quota .vm) "" .vms = 5 := by decide +kernel
  have lifted : ((Fsck.calculateQuotas [] [] doc).quota .vm).limitFor (five.quota .vm) "" .vms = 0 := by
    decide +kernel
  rw [before, lifted] at limit
  norm_num at limit

end Database

end Ezilla
