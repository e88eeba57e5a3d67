import Ezilla.Host.Host
import Ezilla.Xml.TemplateText
import Mathlib.Data.Finset.Image

/-!
# Monitoring

The driver reports a host as a template text with one VM entry for each machine that it found.
`update_info` sets the attributes of the text in the template of the host, takes the capacity
from them, and compares the entries with the VMs that are charged on the host: those that are
reported are found, the others are lost, and the other entries are zombies, or wild if they are
not of OpenNebula.

* `VmScan.add`: one entry; the set of expected VMs is consumed;
* `MonitoredHost.updateInfo`: the whole update;
* `Scanned`: what the entries so far have made of the set;
* `updateInfo_split`: the classes after the update, and what a text with an error leaves.
-/

namespace Ezilla

/-! ## The host -/

/-- `Host::HostState`. -/
inductive HostState where
  | init
  | monitoringMonitored
  | monitored
  | error
  | disabled
  | monitoringError
  | monitoringInit
  | monitoringDisabled
  deriving DecidableEq, Repr

namespace HostState

/-- `isEnabled`. -/
def isEnabled (state : HostState) : Bool := state ≠ .disabled && state ≠ .monitoringDisabled

/-- `touch`. -/
def touch (success : Bool) : HostState → HostState
  | .monitoringDisabled => .disabled
  | .monitoringError | .monitoringInit | .monitoringMonitored =>
    if success then .monitored else .error
  | state => state

end HostState

/-- A host with the fields that its monitoring writes. -/
structure MonitoredHost where
  host : Host
  freeCpu : Int32
  freeMem : Int32
  usedCpu : Int32
  usedMem : Int32
  state : HostState
  lastMonitored : Nat
  tmpl : Template

/-! ## The entries -/

/-- The local variables of the loop over the VM entries. -/
structure VmScan where
  lost : Finset Int
  /-- a VM and its POLL -/
  found : List (Int × String)
  /-- the DEPLOY_ID of each -/
  zombies : List String
  wilds : List String
  deriving DecidableEq

/-- One VM entry. -/
def VmScan.add (s : VmScan) (vatt : List (String × String)) : VmScan :=
  match Attribute.vectorInt vatt "ID" with
  | none => s
  | some vmid =>
    if vmid ≠ -1 then
      if vmid ∈ s.lost then
        { s with
          lost := s.lost.erase vmid
          found :=
            if vmid ∈ s.found.map Prod.fst then s.found
            else s.found ++ [(vmid, Attribute.vectorValue vatt "POLL")] }
      else { s with zombies := s.zombies ++ [Attribute.vectorValue vatt "DEPLOY_ID"] }
    else { s with wilds := s.wilds ++ [Attribute.vectorValue vatt "DEPLOY_ID"] }

/-- What `update_info` returns in its arguments. -/
structure VmLists where
  withVmInfo : Bool
  lost : Finset Int
  found : List (Int × String)
  deriving DecidableEq

/-! ## The update -/

/-- `Template::get(name, bool&)`. -/
def Template.getBool (tmpl : Template) (name : String) : Bool :=
  (tmpl.getString name).toUpper = "YES"

/-- `get_template_attribute(name, fv)` and `static_cast<int>(fv)`. -/
def Template.getTruncated (tmpl : Template) (name : String) : Int32 :=
  toInt32 (Binary32.nearest ((tmpl.getFloat name).getD 0))

/-- The attributes for a class of entries, if there are any. -/
def Template.setClass (tmpl : Template) (total names : String) (ids : List String) : Template :=
  if ids = [] then tmpl
  else
    let tmpl := TemplateXml.set true tmpl (.single total (toString ids.length))
    TemplateXml.set true tmpl (.single names (", ".intercalate ids))

namespace MonitoredHost

/-- The ids of the VMs on the host. -/
def vmIds (h : MonitoredHost) : Finset Int := h.host.vmCollection.image fun id : Nat => (id : Int)

/-- The capacity that an enabled host has in its template. -/
def readShare (h : MonitoredHost) : MonitoredHost :=
  if h.state.isEnabled then
    { h with
      host := { h.host with share := { h.host.share with
        maxCpu := h.tmpl.getTruncated "TOTALCPU"
        maxMem := h.tmpl.getTruncated "TOTALMEMORY" } }
      freeCpu := h.tmpl.getTruncated "FREECPU"
      freeMem := h.tmpl.getTruncated "FREEMEMORY"
      usedCpu := h.tmpl.getTruncated "USEDCPU"
      usedMem := h.tmpl.getTruncated "USEDMEMORY" }
  else h

/-- The names whose attributes of the last monitoring are removed. -/
def expired : List String := ["ERROR", "ZOMBIES", "TOTAL_ZOMBIES", "WILDS", "TOTAL_WILDS", "VM"]

/-- The message in the template of a host whose text has an error. -/
def parseErrorMessage (logTime : String) : String :=
  logTime ++ " : Error parsing monitor information. Check oned.log for more details."

/-- `Host::update_info`: whether it succeeds, the host and the lists. `now` is the time and
`logTime` how it is written. -/
def updateInfo (now : Nat) (logTime : Nat → String) (h : MonitoredHost) (parseStr : String)
    (out : VmLists) : Bool × MonitoredHost × VmLists :=
  let attrs := (TemplateText.statementsSet parseStr).map TemplateXml.Statement.attribute
  let h := { h with tmpl := attrs.foldl (TemplateXml.set true) h.tmpl }
  match TemplateText.attributes parseStr with
  | none =>
    let h := { h with state := h.state.touch false, lastMonitored := now }
    let tmpl := TemplateXml.set true (h.tmpl.erase "ERROR")
      (.single "ERROR" (parseErrorMessage (logTime now)))
    (false, { h with tmpl }, out)
  | some attrs =>
    let h := { h with state := h.state.touch true, lastMonitored := now }
    let h := h.readShare
    let tmpl := expired.foldl Template.erase h.tmpl
    let withVmInfo := tmpl.getBool "VM_POLL"
    let tmpl := tmpl.erase "VM_POLL"
    let scan := (Template.vectors attrs "VM").foldl VmScan.add ⟨h.vmIds, out.found, [], []⟩
    let tmpl := tmpl.setClass "TOTAL_WILDS" "WILDS" scan.wilds
    let tmpl := tmpl.setClass "TOTAL_ZOMBIES" "ZOMBIES" scan.zombies
    (true, { h with tmpl }, ⟨withVmInfo, scan.lost, scan.found⟩)

end MonitoredHost

/-! ## What the text reports -/

/-- The ids of the VM entries; those that are no numbers are passed over. -/
def reportedIds (attrs : List Attribute) : List Int :=
  (Template.vectors attrs "VM").filterMap fun vatt => Attribute.vectorInt vatt "ID"

/-- What the entries so far have made of the charged VMs. -/
structure Scanned (charged : Finset Int) (ids : List Int) (s : VmScan) : Prop where
  lost : ∀ id, id ∈ s.lost ↔ id ∈ charged ∧ id ∉ ids
  found : ∀ id, id ∈ s.found.map Prod.fst ↔ id ∈ charged ∧ id ∈ ids
  once : (s.found.map Prod.fst).Nodup
  wilds : s.wilds.length = ids.count (-1)
  others : s.zombies.length + s.found.length = ids.countP (· ≠ -1)

namespace Scanned

variable {charged : Finset Int} {ids : List Int} {s : VmScan} {vatt : List (String × String)}

/-- An entry for a VM that was charged and not yet reported. -/
theorem add_found {vmid : Int} {poll : String} (known : vmid ≠ -1) (expected : vmid ∈ s.lost)
    (scanned : Scanned charged ids s) :
    Scanned charged (ids ++ [vmid])
      { s with lost := s.lost.erase vmid, found := s.found ++ [(vmid, poll)] } := by
  obtain ⟨lost, found, once, wilds, others⟩ := scanned
  obtain ⟨here, unread⟩ := (lost vmid).mp expected
  constructor
  · intro id
    rw [Finset.mem_erase, lost, List.mem_append, List.mem_singleton]
    tauto
  · intro id
    rw [List.map_append, List.mem_append, List.mem_append, found, List.map_singleton,
      List.mem_singleton]
    constructor
    · intro either
      rcases either with ⟨mine, read⟩ | same
      · exact ⟨mine, .inl read⟩
      · exact ⟨same ▸ here, .inr same⟩
    · intro ⟨mine, either⟩
      exact either.imp_left fun read => ⟨mine, read⟩
  · rw [List.map_append, List.map_singleton]
    refine List.nodup_append.mpr ⟨once, List.nodup_singleton _, ?_⟩
    intro id member id' last same
    rw [same, List.mem_singleton.mp last] at member
    exact unread ((found vmid).mp member).2
  · rw [List.count_append, List.count_singleton, if_neg (by simpa using known)]
    exact wilds
  · rw [List.countP_append, List.countP_singleton, if_pos (by simpa using known),
      List.length_append, List.length_singleton]
    dsimp only
    omega

/-- An entry for a VM that is not expected. -/
theorem add_zombie {vmid : Int} {deployId : String} (known : vmid ≠ -1) (other : vmid ∉ s.lost)
    (scanned : Scanned charged ids s) :
    Scanned charged (ids ++ [vmid]) { s with zombies := s.zombies ++ [deployId] } := by
  obtain ⟨lost, found, once, wilds, others⟩ := scanned
  -- it is not charged, or was reported before
  have old : vmid ∈ charged → vmid ∈ ids := by
    intro mine
    by_contra unread
    exact other ((lost vmid).mpr ⟨mine, unread⟩)
  constructor
  · intro id
    rw [lost, List.mem_append, List.mem_singleton]
    constructor
    · intro ⟨mine, unread⟩
      refine ⟨mine, fun either => either.elim unread fun same => ?_⟩
      exact unread (same ▸ old (same ▸ mine))
    · intro ⟨mine, unread⟩
      exact ⟨mine, fun read => unread (.inl read)⟩
  · intro id
    rw [found, List.mem_append, List.mem_singleton]
    constructor
    · intro ⟨mine, read⟩
      exact ⟨mine, .inl read⟩
    · intro ⟨mine, either⟩
      refine ⟨mine, either.elim (fun read => read) fun same => ?_⟩
      exact same ▸ old (same ▸ mine)
  · exact once
  · rw [List.count_append, List.count_singleton, if_neg (by simpa using known)]
    exact wilds
  · rw [List.countP_append, List.countP_singleton, if_pos (by simpa using known),
      List.length_append, List.length_singleton]
    dsimp only
    omega

/-- An entry for a machine that is not of OpenNebula. -/
theorem add_wild {deployId : String} (ours : -1 ∉ charged) (scanned : Scanned charged ids s) :
    Scanned charged (ids ++ [-1]) { s with wilds := s.wilds ++ [deployId] } := by
  obtain ⟨lost, found, once, wilds, others⟩ := scanned
  have same : ∀ id, id ∈ charged → (id ∈ ids ++ [-1] ↔ id ∈ ids) := by
    intro id mine
    rw [List.mem_append, List.mem_singleton]
    exact or_iff_left fun wild => ours (wild ▸ mine)
  refine ⟨fun id => ?_, fun id => ?_, once, ?_, ?_⟩
  · rw [lost]
    exact and_congr_right fun mine => not_congr (same id mine).symm
  · rw [found]
    exact and_congr_right fun mine => (same id mine).symm
  · rw [List.count_append, List.count_singleton_self, List.length_append, List.length_singleton,
      wilds]
  · rw [List.countP_append, List.countP_singleton, if_neg (by decide)]
    exact others

theorem add (ours : -1 ∉ charged) (scanned : Scanned charged ids s) :
    Scanned charged (ids ++ (Attribute.vectorInt vatt "ID").toList) (s.add vatt) := by
  unfold VmScan.add
  cases Attribute.vectorInt vatt "ID" with
  | none =>
    rw [Option.toList_none, List.append_nil]
    exact scanned
  | some vmid =>
    rw [Option.toList_some]
    dsimp only
    split
    · rename_i known
      split
      · rename_i expected
        have new : vmid ∉ s.found.map Prod.fst := fun member =>
          ((scanned.lost vmid).mp expected).2 ((scanned.found vmid).mp member).2
        rw [if_neg new]
        exact scanned.add_found known expected
      · rename_i other
        exact scanned.add_zombie known other
    · rename_i foreign
      rw [not_not.mp foreign]
      exact scanned.add_wild ours

theorem foldl {vm_att : List (List (String × String))} (ours : -1 ∉ charged)
    (scanned : Scanned charged ids s) :
    Scanned charged (ids ++ vm_att.filterMap fun vatt => Attribute.vectorInt vatt "ID")
      (vm_att.foldl VmScan.add s) := by
  induction vm_att generalizing ids s with
  | nil =>
    rw [List.filterMap_nil, List.append_nil]
    exact scanned
  | cons vatt vm_att ih =>
    have next : Scanned charged (ids ++ (Attribute.vectorInt vatt "ID").toList) (s.add vatt) :=
      scanned.add ours
    have rest := ih next
    rw [List.append_assoc] at rest
    have first : (Attribute.vectorInt vatt "ID").toList ++
        vm_att.filterMap (fun vatt => Attribute.vectorInt vatt "ID") =
          (vatt :: vm_att).filterMap fun vatt => Attribute.vectorInt vatt "ID" := by
      cases here : Attribute.vectorInt vatt "ID" with
      | none => simp only [List.filterMap_cons, here, Option.toList_none, List.nil_append]
      | some vmid => simp only [List.filterMap_cons, here, Option.toList_some, List.singleton_append]
    rw [first] at rest
    exact rest

/-- The entries for charged VMs and for others. -/
theorem countP_known (ours : -1 ∉ charged) : ids.countP (· ≠ -1) =
    ids.countP (fun id => id ≠ -1 ∧ id ∉ charged) + (ids.filter (· ∈ charged)).length := by
  induction ids with
  | nil => rfl
  | cons id ids ih =>
    rw [List.countP_cons, List.countP_cons, List.filter_cons, ih]
    by_cases mine : id ∈ charged
    · have known : id ≠ -1 := fun wild => ours (wild ▸ mine)
      simp only [mine, known, ne_eq, not_false_eq_true, not_true_eq_false, and_false, decide_true,
        decide_false, if_true, List.length_cons]
      rfl
    · simp only [mine, ne_eq, not_false_eq_true, and_true, decide_false]
      rw [if_neg Bool.false_ne_true]
      omega

/-- The zombies are the reported VMs that are not charged exactly where no charged VM is reported
twice. -/
theorem zombies_iff (ours : -1 ∉ charged) (scanned : Scanned charged ids s) :
    s.zombies.length = ids.countP (fun id => id ≠ -1 ∧ id ∉ charged) ↔
      (ids.filter (· ∈ charged)).Nodup := by
  have others := scanned.others
  rw [countP_known ours] at others
  have same : ∀ id, id ∈ s.found.map Prod.fst ↔ id ∈ ids.filter (· ∈ charged) := by
    intro id
    rw [scanned.found, List.mem_filter, decide_eq_true_eq]
    exact and_comm
  have length : (s.found.map Prod.fst).length = s.found.length := List.length_map _
  constructor
  · intro counted
    have inside := scanned.once.subperm fun id member => (same id).mp member
    have perm := inside.perm_of_length_le (by omega)
    exact perm.nodup_iff.mp scanned.once
  · intro apart
    have perm := (List.perm_ext_iff_of_nodup scanned.once apart).mpr same
    have equal := perm.length_eq
    omega

theorem start (charged : Finset Int) : Scanned charged [] ⟨charged, [], [], []⟩ :=
  ⟨fun _ => (and_iff_left List.not_mem_nil).symm, fun _ => iff_of_false List.not_mem_nil
    fun both => List.not_mem_nil both.2, List.nodup_nil, rfl, rfl⟩

end Scanned

/-! ## The template -/

section Template

variable {tmpl : Template} {name total names : String} {a : Attribute}

theorem Template.get_set : Template.get (TemplateXml.set true tmpl a) name =
    if a.name = name then [a] else tmpl.get name := by
  unfold TemplateXml.set Template.get
  rw [if_pos rfl, List.filter_append, List.filter_filter]
  split
  · rename_i same
    have none : tmpl.filter (fun b => decide (b.name = name) && decide (b.name ≠ a.name)) = [] := by
      refine List.filter_eq_nil_iff.mpr fun b _ => ?_
      rw [same]
      simp
    rw [none, List.nil_append]
    exact List.filter_cons_of_pos (p := fun b : Attribute => decide (b.name = name))
      (decide_eq_true same)
  · rename_i other
    have kept : tmpl.filter (fun b => decide (b.name = name) && decide (b.name ≠ a.name)) =
        tmpl.filter fun b => b.name = name := by
      refine List.filter_congr fun b _ => ?_
      by_cases here : b.name = name
      · rw [here, decide_eq_true (Ne.symm other), Bool.and_true]
      · rw [decide_eq_false here, Bool.false_and]
    rw [kept, List.filter_cons_of_neg (by simpa using other), List.filter_nil, List.append_nil]

theorem Template.get_erase : (Template.erase tmpl total).get name =
    if total = name then [] else tmpl.get name := by
  unfold Template.erase Template.get
  rw [List.filter_filter]
  split
  · rename_i same
    refine List.filter_eq_nil_iff.mpr fun b _ => ?_
    rw [same]
    simp
  · rename_i other
    refine List.filter_congr fun b _ => ?_
    by_cases here : b.name = name
    · rw [here, decide_eq_true (Ne.symm other), Bool.and_true]
    · rw [decide_eq_false here, Bool.false_and]

theorem Template.get_foldl_erase {erased : List String} :
    Template.get (erased.foldl Template.erase tmpl) name =
      if name ∈ erased then [] else tmpl.get name := by
  induction erased generalizing tmpl with
  | nil => rfl
  | cons first erased ih =>
    rw [List.foldl_cons, ih, Template.get_erase]
    by_cases later : name ∈ erased
    · rw [if_pos later, if_pos (List.mem_cons_of_mem _ later)]
    · rw [if_neg later]
      by_cases here : first = name
      · rw [if_pos here, if_pos (here ▸ List.mem_cons_self)]
      · rw [if_neg here, if_neg]
        intro member
        exact (List.mem_cons.mp member).elim (fun same => here same.symm) later

theorem Template.get_foldl_set {attrs : List Attribute} (other : name ∉ attrs.map Attribute.name) :
    Template.get (attrs.foldl (TemplateXml.set true) tmpl) name = tmpl.get name := by
  induction attrs generalizing tmpl with
  | nil => rfl
  | cons a attrs ih =>
    rw [List.map_cons, List.mem_cons, not_or] at other
    rw [List.foldl_cons, ih other.2, Template.get_set, if_neg (Ne.symm other.1)]

/-- A count as the host shows it: none is not shown. -/
def countAttribute (name : String) (n : Nat) : List Attribute :=
  if n = 0 then [] else [.single name (toString n)]

theorem Template.get_setClass_total {ids : List String} (apart : names ≠ total)
    (erased : tmpl.get total = []) :
    (tmpl.setClass total names ids).get total = countAttribute total ids.length := by
  unfold Template.setClass countAttribute
  by_cases none : ids = []
  · rw [if_pos none, if_pos (List.length_eq_zero_iff.mpr none)]
    exact erased
  · rw [if_neg none, if_neg (mt List.length_eq_zero_iff.mp none)]
    simp only [Template.get_set, Attribute.name, apart, if_false, if_true]

theorem Template.get_setClass_ne {ids : List String} (first : total ≠ name)
    (second : names ≠ name) : (tmpl.setClass total names ids).get name = tmpl.get name := by
  unfold Template.setClass
  split
  · rfl
  · simp only [Template.get_set, Attribute.name, first, second, if_false]

end Template

/-! ## The classes after an update -/

/-- The VMs of the host after a text that reports some ids. -/
structure SplitsVms (charged : Finset Int) (ids : List Int) (out : VmLists) (tmpl : Template) :
    Prop where
  disjoint : ∀ id ∈ out.lost, id ∉ out.found.map Prod.fst
  union : ∀ id, id ∈ out.lost ∨ id ∈ out.found.map Prod.fst ↔ id ∈ charged
  found : ∀ id, id ∈ out.found.map Prod.fst ↔ id ∈ charged ∧ id ∈ ids
  wilds : tmpl.get "TOTAL_WILDS" = countAttribute "TOTAL_WILDS" (ids.count (-1))

/-- The zombies are the reported VMs that are not charged. -/
def CountsZombies (charged : Finset Int) (ids : List Int) (tmpl : Template) : Prop :=
  tmpl.get "TOTAL_ZOMBIES" =
    countAttribute "TOTAL_ZOMBIES" (ids.countP fun id => id ≠ -1 ∧ id ∉ charged)

/-- The capacity and the VMs of a host are those of another one. -/
structure SameCapacity (h h' : MonitoredHost) : Prop where
  host : h.host = h'.host
  freeCpu : h.freeCpu = h'.freeCpu
  freeMem : h.freeMem = h'.freeMem
  usedCpu : h.usedCpu = h'.usedCpu
  usedMem : h.usedMem = h'.usedMem

namespace MonitoredHost

variable {now : Nat} {logTime : Nat → String} {h : MonitoredHost} {text : String}
  {attrs : List Attribute} {out : VmLists} {name : String}

theorem wild_not_charged : -1 ∉ h.vmIds := by
  intro member
  obtain ⟨id, _, same⟩ := Finset.mem_image.mp member
  omega

@[simp] theorem vmIds_readShare : h.readShare.vmIds = h.vmIds := by
  unfold readShare
  split
  · rfl
  · rfl

theorem updateInfo_of_attributes {withVmInfo : Bool}
    (parsed : TemplateText.attributes text = some attrs) :
    SplitsVms h.vmIds (reportedIds attrs) (h.updateInfo now logTime text ⟨withVmInfo, ∅, []⟩).2.2
        (h.updateInfo now logTime text ⟨withVmInfo, ∅, []⟩).2.1.tmpl ∧
      (((reportedIds attrs).filter (· ∈ h.vmIds)).Nodup → CountsZombies h.vmIds (reportedIds attrs)
        (h.updateInfo now logTime text ⟨withVmInfo, ∅, []⟩).2.1.tmpl) := by
  have scanned : Scanned h.vmIds ([] ++ reportedIds attrs)
      ((Template.vectors attrs "VM").foldl VmScan.add ⟨h.vmIds, [], [], []⟩) :=
    (Scanned.start h.vmIds).foldl wild_not_charged
  rw [List.nil_append] at scanned
  unfold updateInfo
  rw [parsed]
  dsimp only
  rw [vmIds_readShare]
  have ids : h.vmIds = vmIds { h with
      state := h.state.touch true
      lastMonitored := now
      tmpl := ((TemplateText.statementsSet text).map TemplateXml.Statement.attribute).foldl
        (TemplateXml.set true) h.tmpl } := rfl
  rw [← ids]
  generalize (Template.vectors attrs "VM").foldl VmScan.add ⟨h.vmIds, [], [], []⟩ = scan at *
  constructor
  · constructor
    · intro id lost found
      exact ((scanned.lost id).mp lost).2 ((scanned.found id).mp found).2
    · intro id
      rw [scanned.lost, scanned.found, ← and_or_left]
      exact and_iff_left (Decidable.em _).symm
    · exact scanned.found
    · rw [Template.get_setClass_ne (by decide) (by decide),
        Template.get_setClass_total (by decide), scanned.wilds]
      rw [Template.get_erase, if_neg (by decide), Template.get_foldl_erase, if_pos (by decide)]
  · intro once
    unfold CountsZombies
    rw [Template.get_setClass_total (by decide), (scanned.zombies_iff wild_not_charged).mpr once]
    rw [Template.get_setClass_ne (by decide) (by decide), Template.get_erase, if_neg (by decide),
      Template.get_foldl_erase, if_pos (by decide)]

theorem updateInfo_of_error (failed : TemplateText.attributes text = none) :
    SameCapacity (h.updateInfo now logTime text out).2.1 h ∧
      (h.updateInfo now logTime text out).2.2 = out ∧
      ∀ name, name ≠ "ERROR" →
        name ∉ ((TemplateText.statementsSet text).map TemplateXml.Statement.attribute).map
          Attribute.name →
        (h.updateInfo now logTime text out).2.1.tmpl.get name = h.tmpl.get name := by
  unfold updateInfo
  rw [failed]
  dsimp only
  refine ⟨⟨rfl, rfl, rfl, rfl, rfl⟩, rfl, fun name other unset => ?_⟩
  simp only [Template.get_set, Attribute.name, Ne.symm other, if_false, Template.get_erase,
    Template.get_foldl_set unset]

/-- After a text that parses, each VM of the host is found or lost, and found exactly if it is
reported; the wild machines are counted, and the zombies where no VM of the host is reported
twice. A text with an error leaves the capacity, the VMs and the attributes that it does not
set. -/
theorem updateInfo_split (now : Nat) (logTime : Nat → String) (h : MonitoredHost) (text : String)
    (withVmInfo : Bool) :
    (∀ attrs, TemplateText.attributes text = some attrs →
      SplitsVms h.vmIds (reportedIds attrs)
          (h.updateInfo now logTime text ⟨withVmInfo, ∅, []⟩).2.2
          (h.updateInfo now logTime text ⟨withVmInfo, ∅, []⟩).2.1.tmpl ∧
        (((reportedIds attrs).filter (· ∈ h.vmIds)).Nodup →
          CountsZombies h.vmIds (reportedIds attrs)
            (h.updateInfo now logTime text ⟨withVmInfo, ∅, []⟩).2.1.tmpl)) ∧
      (TemplateText.attributes text = none →
        SameCapacity (h.updateInfo now logTime text ⟨withVmInfo, ∅, []⟩).2.1 h ∧
          (h.updateInfo now logTime text ⟨withVmInfo, ∅, []⟩).2.2 = ⟨withVmInfo, ∅, []⟩ ∧
          ∀ name, name ≠ "ERROR" →
            name ∉ ((TemplateText.statementsSet text).map TemplateXml.Statement.attribute).map
              Attribute.name →
            (h.updateInfo now logTime text ⟨withVmInfo, ∅, []⟩).2.1.tmpl.get name =
              h.tmpl.get name) :=
  ⟨fun _ parsed => updateInfo_of_attributes parsed, fun failed => updateInfo_of_error failed⟩

/-- A host with VM 3. -/
def hostOfThree : MonitoredHost where
  host := ⟨⟨0, 0, 0, 0, 0, 0, 1⟩, {3}⟩
  freeCpu := 0
  freeMem := 0
  usedCpu := 0
  usedMem := 0
  state := .monitoringMonitored
  lastMonitored := 0
  tmpl := []

example : (hostOfThree.updateInfo 5 (fun _ => "now") "VM=[ID=3,POLL=a] VM=[ID=4] VM=[ID=-1]"
    ⟨false, ∅, []⟩).2.2 = ⟨false, ∅, [(3, "a")]⟩ := by decide +kernel

/-- A VM that is reported twice is a zombie of its own host, and a text with an error changes the
template. -/
theorem reported_twice_is_zombie :
    (TemplateText.attributes "VM=[ID=3] VM=[ID=3]").map reportedIds = some [3, 3] ∧
      3 ∈ hostOfThree.vmIds ∧
      (hostOfThree.updateInfo 5 (fun _ => "now") "VM=[ID=3] VM=[ID=3]"
        ⟨false, ∅, []⟩).2.1.tmpl.get "TOTAL_ZOMBIES" = [.single "TOTAL_ZOMBIES" "1"] ∧
      ¬ CountsZombies hostOfThree.vmIds [3, 3]
        (hostOfThree.updateInfo 5 (fun _ => "now") "VM=[ID=3] VM=[ID=3]"
          ⟨false, ∅, []⟩).2.1.tmpl ∧
      TemplateText.attributes "TOTALCPU=800 VM=[" = none ∧
      (hostOfThree.updateInfo 5 (fun _ => "now") "TOTALCPU=800 VM=["
        ⟨false, ∅, []⟩).2.1.tmpl = [.single "TOTALCPU" "800",
          .single "ERROR" "now : Error parsing monitor information. Check oned.log for more details."]
      := by
  have counted : (hostOfThree.updateInfo 5 (fun _ => "now") "VM=[ID=3] VM=[ID=3]"
      ⟨false, ∅, []⟩).2.1.tmpl.get "TOTAL_ZOMBIES" = [.single "TOTAL_ZOMBIES" "1"] := by
    decide +kernel
  refine ⟨by decide +kernel, by decide, counted, fun right => ?_, by decide +kernel,
    by decide +kernel⟩
  rw [CountsZombies, counted] at right
  exact absurd right (by decide)

end MonitoredHost

end Ezilla
