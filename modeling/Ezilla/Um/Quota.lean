import Ezilla.Lib.Binary32
import Ezilla.Template
import Mathlib.Data.List.AList
import Mathlib.Tactic.Linarith

/-!
# Quotas of users and groups

A `Quotas` object holds four sections (datastores, networks, images and VMs).
A section keeps one entry for each resource id with a limit and a usage counter
for each of its metrics; the VM section keeps a single entry.

The limits and counters are texts, which the code reads as floats, adds up and
writes back with two decimals at most. An entry has the numbers that the texts
stand for, and each operation works in a `QuotaArithmetic`: that of the code, or
exact numbers, for results about counters that are taken as such.

* `QuotaArithmetic.float`, `QuotaArithmetic.exact`: the two;
* `Quota.checkQuota`, `Quota.delQuota`, `Quota.cleanupQuota`: the operations of
  `Quota.cc` on one entry;
* `QuotaNetwork`, `QuotaImage`, `QuotaVirtualMachine`, `QuotaDatastore`: the
  `check` and `del` of each section;
* `Quotas.quotaCheck`, `Quotas.quotaUpdate`, `Quotas.quotaDel`: the operations
  of `Quotas.cc` on the whole object.
-/

namespace Ezilla

/-! ## Sections, metrics and entries -/

/-- The metrics a quota can limit. -/
inductive Metric where
  | size
  | images
  | leases
  | rvms
  | vms
  | cpu
  | memory
  deriving DecidableEq, Repr

/-- The sections of a `Quotas` object. -/
inductive QuotaKind where
  | datastore
  | network
  | image
  | vm
  deriving DecidableEq, Repr

/-- The metrics of a section, in the order of its metrics array. -/
def QuotaKind.metrics : QuotaKind → List Metric
  | .datastore => [.size, .images]
  | .network => [.leases]
  | .image => [.rvms]
  | .vm => [.vms, .cpu, .memory]

/-- The error texts of the quota checks, with the values printed in them. -/
inductive QuotaError where
  /-- String 'qid' is not a valid ID -/
  | invalidId (qid : String)
  /-- limit of `limit` reached for `metric` quota in `section` with ID: qid -/
  | limitReached (limit : ℚ) (metric : Metric) (section' : QuotaKind) (qid : String)
  /-- MEMORY attribute must be a positive integer value -/
  | badMemory
  /-- CPU attribute must be a positive float or integer value -/
  | badCpu
  /-- Datastore not defined for image -/
  | noDatastore
  /-- Image size must be a positive integer value -/
  | badSize
  /-- Cannot update quota. Not implemented -/
  | updateNotImplemented
  deriving DecidableEq

/-- How the texts of limits and counters are read and written: whole numbers of 24 binary
digits exactly, no number that is not positive as one that is, and nothing as 0 that is not
written as 0. -/
structure QuotaArithmetic where
  read : ℚ → ℚ
  write : ℚ → ℚ
  read_intCast : ∀ n : Int, |n| ≤ 2 ^ 24 → read n = n
  read_nonpos : ∀ x ≤ 0, read x ≤ 0
  write_eq_zero : ∀ x, read (write x) = 0 → write x = 0

namespace QuotaArithmetic

/-- The float that `iss >> float` gives for a text, and `Quota::float_to_str`: two decimals for
a number that is not whole. A sum beyond the largest float is written as `inf`, which is read
as 0. -/
def float : QuotaArithmetic where
  read := Binary32.nearest
  write x := if |x| < 2 ^ 128 then Binary32.fixedTwo x else 0
  read_intCast _ small := Binary32.nearest_intCast small
  read_nonpos _ := Binary32.nearest_nonpos
  write_eq_zero x zero := by
    split_ifs at zero ⊢ with finite
    · exact Binary32.fixedTwo_eq_zero zero
    · rfl

/-- Exact numbers. -/
def exact : QuotaArithmetic := ⟨fun x => x, fun x => x, fun _ _ => rfl, fun _ nonpos => nonpos,
  fun _ zero => zero⟩

variable (arith : QuotaArithmetic)

/-- A counter with a request, as it is compared with a limit. -/
def sum (used n : ℚ) : ℚ := arith.read (arith.read used + arith.read n)

/-- `Quota::add_to_quota`: the counter with a request, written back. -/
def add (used n : ℚ) : ℚ := arith.write (arith.sum used n)

@[simp] theorem read_zero : arith.read 0 = 0 := by
  have zero := arith.read_intCast 0 (by norm_num)
  rwa [Int.cast_zero] at zero

@[simp] theorem read_neg_one : arith.read (-1) = -1 := by
  have one := arith.read_intCast (-1) (by norm_num)
  rwa [Int.cast_neg, Int.cast_one] at one

@[simp] theorem exact_read (x : ℚ) : exact.read x = x := rfl

@[simp] theorem exact_write (x : ℚ) : exact.write x = x := rfl

@[simp] theorem exact_sum (used n : ℚ) : exact.sum used n = used + n := rfl

@[simp] theorem exact_add (used n : ℚ) : exact.add used n = used + n := rfl

end QuotaArithmetic

/-- The limits and the usage counters of one quota. -/
@[ext]
structure QuotaEntry where
  limit : Metric → ℚ
  used : Metric → ℚ

namespace QuotaEntry

/-- The quota `check_quota` creates: every limit is left to the default. -/
def fresh : QuotaEntry := ⟨fun _ => -1, fun _ => 0⟩

/-- Add the request to the usage of each metric of the section that it names
(`add_to_quota`). -/
def addToQuota (e : QuotaEntry) (metrics : List Metric) (req : Metric → Option ℚ)
    (arith : QuotaArithmetic := .exact) : QuotaEntry :=
  { e with used := fun m =>
      if m ∈ metrics then
        match req m with
        | none => e.used m
        | some n => arith.add (e.used m) n
      else e.used m }

/-- The limit that applies to a metric: the default one where the entry says -1,
and none (0) where there is no default either. -/
def effectiveLimit (e : QuotaEntry) (default? : Option QuotaEntry) (m : Metric)
    (arith : QuotaArithmetic := .exact) : ℚ :=
  if arith.read (e.limit m) = -1 then
    match default? with
    | some d => arith.read (d.limit m)
    | none => 0
  else
    arith.read (e.limit m)

/-- The first metric whose limit the request would exceed, with that limit. -/
def exceeded (e : QuotaEntry) (metrics : List Metric) (req : Metric → Option ℚ)
    (default? : Option QuotaEntry) (arith : QuotaArithmetic := .exact) : Option (Metric × ℚ) :=
  metrics.findSome? fun m =>
    match req m with
    | none => none
    | some n =>
      let limit := e.effectiveLimit default? m arith
      if limit = 0 ∨ arith.sum (e.used m) n ≤ limit then none else some (m, limit)

end QuotaEntry

/-- A quota section. Entries are kept under the text of their `ID`. -/
structure Quota (kind : QuotaKind) where
  attributes : AList fun _ : String => QuotaEntry
  isDefault : Bool

namespace Quota

variable {kind : QuotaKind}

/-- `QuotaVirtualMachine::get_quota` ignores the id, so its only entry is kept
under the empty one. -/
def key (kind : QuotaKind) (id : String) : String :=
  if kind = .vm then "" else id

/-- `get_quota` finds nothing wrong with this id. -/
def ValidId (kind : QuotaKind) (id : String) : Prop :=
  kind = .vm ∨ (id ≠ "" ∧ parseInt id ≠ none)

instance (id : String) : Decidable (ValidId kind id) :=
  inferInstanceAs (Decidable (_ ∨ _))

/-- `Quota::get_quota`: `none` for an id the section refuses (-1), else the entry
with that id, if there is one. -/
def getQuota (q : Quota kind) (id : String) : Option (Option QuotaEntry) :=
  if ValidId kind id then some (q.attributes.lookup (key kind id)) else none

/-- Store an entry under its id. -/
def put (q : Quota kind) (id : String) (e : QuotaEntry) : Quota kind :=
  { q with attributes := q.attributes.insert (key kind id) e }

/-- Remove the entry of an id. -/
def erase (q : Quota kind) (id : String) : Quota kind :=
  { q with attributes := q.attributes.erase (key kind id) }

/-- `Quota::check_quota`: refuse the request, or add it to the usage counters.
A missing entry is created before the limits are looked at, and it stays also
when the request is refused. `defaultQuotas` is the section of the default
quotas that `get_default_quota` reads. -/
def checkQuota (q : Quota kind) (qid : String) (usageReq : Metric → Option ℚ)
    (defaultQuotas : Quota kind) (arith : QuotaArithmetic := .exact) :
    Except QuotaError Unit × Quota kind :=
  match q.getQuota qid with
  | none => (.error (.invalidId qid), q)
  | some found =>
    let entry := found.getD .fresh
    let defaultQ := (defaultQuotas.getQuota qid).join
    match entry.exceeded kind.metrics usageReq defaultQ arith with
    | some (m, limit) => (.error (.limitReached limit m kind qid), q.put qid entry)
    | none => (.ok (), q.put qid (entry.addToQuota kind.metrics usageReq arith))

/-- The limit of an entry that nobody set. -/
def implicitLimit (q : Quota kind) : ℚ := if q.isDefault then 0 else -1

/-- `Quota::cleanup_quota`: drop an entry with no usage and no limit of its own. -/
def cleanupQuota (q : Quota kind) (qid : String) (arith : QuotaArithmetic := .exact) :
    Quota kind :=
  match q.getQuota qid with
  | some (some e) =>
    if ∀ m ∈ kind.metrics, arith.read (e.used m) = 0 ∧ arith.read (e.limit m) = q.implicitLimit then
      q.erase qid
    else q
  | _ => q

/-- `Quota::del_quota`: subtract the request from the counters of the entry. -/
def delQuota (q : Quota kind) (qid : String) (usageReq : Metric → Option ℚ)
    (arith : QuotaArithmetic := .exact) : Quota kind :=
  match q.getQuota qid with
  | some (some e) =>
    (q.put qid (e.addToQuota kind.metrics (fun m => (usageReq m).map (-·)) arith)).cleanupQuota
      qid arith
  | _ => q

/-- The entry of an id, or the one a check would create for it. -/
def entry (q : Quota kind) (id : String) : QuotaEntry :=
  (q.attributes.lookup (key kind id)).getD .fresh

/-- The value of a usage counter; an entry that does not exist uses nothing. -/
def used (q : Quota kind) (id : String) (m : Metric) : ℚ := (q.entry id).used m

/-- The limit written in the entry. -/
def limit (q : Quota kind) (id : String) (m : Metric) : ℚ := (q.entry id).limit m

/-- The limit a request on this id is compared with (0 stands for no limit). -/
def limitFor (q defaultQuotas : Quota kind) (id : String) (m : Metric)
    (arith : QuotaArithmetic := .exact) : ℚ :=
  (q.entry id).effectiveLimit (defaultQuotas.getQuota id).join m arith

/-- The request fits in the limits of the entry. -/
def Fits (q defaultQuotas : Quota kind) (req : Metric → Option ℚ) (id : String)
    (arith : QuotaArithmetic := .exact) : Prop :=
  ValidId kind id ∧ ∀ m ∈ kind.metrics, ∀ r ∈ req m,
    q.limitFor defaultQuotas id m arith = 0 ∨
      arith.sum (q.used id m) r ≤ q.limitFor defaultQuotas id m arith

instance (q defaultQuotas : Quota kind) (req : Metric → Option ℚ) (id : String)
    (arith : QuotaArithmetic) : Decidable (q.Fits defaultQuotas req id arith) :=
  inferInstanceAs (Decidable (_ ∧ _))

/-- In exact numbers, the request still fits in the limits of the entry after `n` earlier
requests of the same size. -/
def Admits (q defaultQuotas : Quota kind) (req : Metric → Option ℚ) (id : String) (n : Nat) :
    Prop :=
  ValidId kind id ∧ ∀ m ∈ kind.metrics, ∀ r ∈ req m,
    q.limitFor defaultQuotas id m = 0 ∨
      q.used id m + n * r + r ≤ q.limitFor defaultQuotas id m

instance (q defaultQuotas : Quota kind) (req : Metric → Option ℚ) (id : String) (n : Nat) :
    Decidable (q.Admits defaultQuotas req id n) :=
  inferInstanceAs (Decidable (_ ∧ _))

end Quota

/-! ## The sections that charge one resource id at a time -/

/-- The loop of `QuotaNetwork::check` and `QuotaImage::check`: one unit for each
id in turn, ids left empty are skipped, the first refusal ends the loop. -/
def Quota.checkEach {kind : QuotaKind} (defaultQuotas : Quota kind)
    (req : Metric → Option ℚ) (q : Quota kind) (ids : List String)
    (arith : QuotaArithmetic := .exact) : Except QuotaError Unit × Quota kind :=
  match ids with
  | [] => (.ok (), q)
  | id :: ids =>
    if id = "" then
      checkEach defaultQuotas req q ids arith
    else
      match q.checkQuota id req defaultQuotas arith with
      | (.ok (), q') => checkEach defaultQuotas req q' ids arith
      | (.error e, q') => (.error e, q')

/-- The loop of `QuotaNetwork::del` and `QuotaImage::del`. -/
def Quota.delEach {kind : QuotaKind} (req : Metric → Option ℚ) (q : Quota kind)
    (ids : List String) (arith : QuotaArithmetic := .exact) : Quota kind :=
  ids.foldl (fun q id => q.delQuota id req arith) q

/-- A request of one unit of a metric. -/
def oneOf (metric : Metric) : Metric → Option ℚ :=
  fun m => if m = metric then some 1 else none

namespace QuotaNetwork

/-- The network ids of the NICs of a template. -/
def ids (tmpl : Template) : List String := tmpl.vectorValues "NIC" "NETWORK_ID"

/-- `QuotaNetwork::check`. -/
def check (q : Quota .network) (tmpl : Template) (defaultQuotas : Quota .network)
    (arith : QuotaArithmetic := .exact) : Except QuotaError Unit × Quota .network :=
  Quota.checkEach defaultQuotas (oneOf .leases) q (ids tmpl) arith

/-- `QuotaNetwork::del`. -/
def del (q : Quota .network) (tmpl : Template) (arith : QuotaArithmetic := .exact) :
    Quota .network :=
  Quota.delEach (oneOf .leases) q (ids tmpl) arith

end QuotaNetwork

namespace QuotaImage

/-- The image ids of the disks of a template. -/
def ids (tmpl : Template) : List String := tmpl.vectorValues "DISK" "IMAGE_ID"

/-- `QuotaImage::check`. -/
def check (q : Quota .image) (tmpl : Template) (defaultQuotas : Quota .image)
    (arith : QuotaArithmetic := .exact) : Except QuotaError Unit × Quota .image :=
  Quota.checkEach defaultQuotas (oneOf .rvms) q (ids tmpl) arith

/-- `QuotaImage::del`. -/
def del (q : Quota .image) (tmpl : Template) (arith : QuotaArithmetic := .exact) :
    Quota .image :=
  Quota.delEach (oneOf .rvms) q (ids tmpl) arith

end QuotaImage

/-! ## The sections that charge one request for a template -/

namespace QuotaVirtualMachine

/-- The request for a VM: one VM with its memory and its CPU. -/
def request (memory : Int) (cpu : ℚ) : Metric → Option ℚ
  | .vms => some 1
  | .memory => some memory
  | .cpu => some cpu
  | _ => none

/-- `QuotaVirtualMachine::check`. -/
def check (q : Quota .vm) (tmpl : Template) (defaultQuotas : Quota .vm)
    (arith : QuotaArithmetic := .exact) : Except QuotaError Unit × Quota .vm :=
  match tmpl.getInt "MEMORY" with
  | none => (.error .badMemory, q)
  | some memory =>
    if memory ≤ 0 then
      (.error .badMemory, q)
    else
      match tmpl.getFloat "CPU" with
      | none => (.error .badCpu, q)
      | some cpu =>
        if arith.read cpu ≤ 0 then
          (.error .badCpu, q)
        else
          q.checkQuota "" (request memory cpu) defaultQuotas arith

/-- `QuotaVirtualMachine::del`: an attribute that is missing counts as 0. -/
def del (q : Quota .vm) (tmpl : Template) (arith : QuotaArithmetic := .exact) : Quota .vm :=
  q.delQuota ""
    (request ((tmpl.getInt "MEMORY").getD 0) ((tmpl.getFloat "CPU").getD 0)) arith

/-- The request of `QuotaVirtualMachine::update`: only the given increments. -/
def updateRequest (memory? : Option Int) (cpu? : Option ℚ) : Metric → Option ℚ
  | .memory => memory?.map Int.cast
  | .cpu => cpu?
  | _ => none

/-- `QuotaVirtualMachine::update`. -/
def update (q : Quota .vm) (tmpl : Template) (defaultQuotas : Quota .vm)
    (arith : QuotaArithmetic := .exact) : Except QuotaError Unit × Quota .vm :=
  q.checkQuota "" (updateRequest (tmpl.getInt "MEMORY") (tmpl.getFloat "CPU")) defaultQuotas arith

end QuotaVirtualMachine

namespace QuotaDatastore

/-- The request for an image: one image with its size. -/
def request (size : Int) : Metric → Option ℚ
  | .images => some 1
  | .size => some size
  | _ => none

/-- `QuotaDatastore::check`. -/
def check (q : Quota .datastore) (tmpl : Template) (defaultQuotas : Quota .datastore)
    (arith : QuotaArithmetic := .exact) : Except QuotaError Unit × Quota .datastore :=
  let dsId := tmpl.getString "DATASTORE"
  if dsId = "" then
    (.error .noDatastore, q)
  else
    match tmpl.getInt "SIZE" with
    | none => (.error .badSize, q)
    | some size =>
      if size < 0 then
        (.error .badSize, q)
      else
        q.checkQuota dsId (request size) defaultQuotas arith

/-- `QuotaDatastore::del`. -/
def del (q : Quota .datastore) (tmpl : Template) (arith : QuotaArithmetic := .exact) :
    Quota .datastore :=
  let dsId := tmpl.getString "DATASTORE"
  if dsId = "" then
    q
  else
    match tmpl.getInt "SIZE" with
    | none => q
    | some size => q.delQuota dsId (request size) arith

end QuotaDatastore

/-! ## The whole object -/

/-- `Quotas::QuotaType`: a section, or all the sections a VM is charged in. -/
inductive QuotaType where
  | datastore
  | vm
  | network
  | image
  | virtualMachine
  deriving DecidableEq, Repr

/-- The four quota sections of a user or group. -/
structure Quotas where
  datastoreQuota : Quota .datastore
  networkQuota : Quota .network
  imageQuota : Quota .image
  vmQuota : Quota .vm

namespace Quotas

/-- `Quotas::quota_check`. For a VM the sections are charged one after the other;
a refusal takes back the sections that were charged before. -/
def quotaCheck (qs : Quotas) (type : QuotaType) (tmpl : Template) (defaultQuotas : Quotas)
    (arith : QuotaArithmetic := .exact) : Except QuotaError Unit × Quotas :=
  match type with
  | .datastore =>
    let (r, q) := QuotaDatastore.check qs.datastoreQuota tmpl defaultQuotas.datastoreQuota arith
    (r, { qs with datastoreQuota := q })
  | .network =>
    let (r, q) := QuotaNetwork.check qs.networkQuota tmpl defaultQuotas.networkQuota arith
    (r, { qs with networkQuota := q })
  | .image =>
    let (r, q) := QuotaImage.check qs.imageQuota tmpl defaultQuotas.imageQuota arith
    (r, { qs with imageQuota := q })
  | .vm =>
    let (r, q) := QuotaVirtualMachine.check qs.vmQuota tmpl defaultQuotas.vmQuota arith
    (r, { qs with vmQuota := q })
  | .virtualMachine =>
    match QuotaNetwork.check qs.networkQuota tmpl defaultQuotas.networkQuota arith with
    | (.error e, net) => (.error e, { qs with networkQuota := net })
    | (.ok (), net) =>
      match QuotaVirtualMachine.check qs.vmQuota tmpl defaultQuotas.vmQuota arith with
      | (.error e, vm) =>
        (.error e, { qs with networkQuota := QuotaNetwork.del net tmpl arith, vmQuota := vm })
      | (.ok (), vm) =>
        match QuotaImage.check qs.imageQuota tmpl defaultQuotas.imageQuota arith with
        | (.error e, img) =>
          (.error e, { qs with
            networkQuota := QuotaNetwork.del net tmpl arith
            vmQuota := QuotaVirtualMachine.del vm tmpl arith
            imageQuota := img })
        | (.ok (), img) =>
          (.ok (), { qs with networkQuota := net, vmQuota := vm, imageQuota := img })

/-- `Quotas::quota_update`: only VM quotas can be updated. -/
def quotaUpdate (qs : Quotas) (type : QuotaType) (tmpl : Template) (defaultQuotas : Quotas)
    (arith : QuotaArithmetic := .exact) : Except QuotaError Unit × Quotas :=
  match type with
  | .vm =>
    let (r, q) := QuotaVirtualMachine.update qs.vmQuota tmpl defaultQuotas.vmQuota arith
    (r, { qs with vmQuota := q })
  | _ => (.error .updateNotImplemented, qs)

/-- `Quotas::quota_del`. -/
def quotaDel (qs : Quotas) (type : QuotaType) (tmpl : Template)
    (arith : QuotaArithmetic := .exact) : Quotas :=
  match type with
  | .datastore => { qs with datastoreQuota := QuotaDatastore.del qs.datastoreQuota tmpl arith }
  | .network => { qs with networkQuota := QuotaNetwork.del qs.networkQuota tmpl arith }
  | .image => { qs with imageQuota := QuotaImage.del qs.imageQuota tmpl arith }
  | .vm => { qs with vmQuota := QuotaVirtualMachine.del qs.vmQuota tmpl arith }
  | .virtualMachine =>
    { qs with
      networkQuota := QuotaNetwork.del qs.networkQuota tmpl arith
      vmQuota := QuotaVirtualMachine.del qs.vmQuota tmpl arith
      imageQuota := QuotaImage.del qs.imageQuota tmpl arith }

/-- The usage counter of a section, an id and a metric. -/
def used (qs : Quotas) : QuotaKind → String → Metric → ℚ
  | .datastore => qs.datastoreQuota.used
  | .network => qs.networkQuota.used
  | .image => qs.imageQuota.used
  | .vm => qs.vmQuota.used

/-- Every usage counter of every section has the same value in both objects. -/
def SameUsage (qs qs' : Quotas) (arith : QuotaArithmetic := .exact) : Prop :=
  ∀ kind : QuotaKind, ∀ id, ∀ m ∈ kind.metrics,
    arith.read (qs'.used kind id m) = arith.read (qs.used kind id m)

end Quotas

end Ezilla
