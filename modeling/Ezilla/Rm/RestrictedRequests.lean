import Ezilla.Vm.NewVm

/-!
# Restricted attributes in the requests of users

Five requests take a template text from a user and hand its attributes to a
virtual machine. Allocate, instantiate and NIC attach check the text, the update
of the user template strips it, and disk attach does neither.

* `Execution.Upholds`: a request of a user stores nothing restricted that came
  from the user;
* `RestrictedRequests.upholds_iff`: when the five requests do so;
* `RestrictedRequests.hidden_by_context`: with `CONTEXT/FILES` and `NIC/VLAN_ID`
  restricted, a text with a `CONTEXT` hides its `NIC/VLAN_ID` from the check.
-/

namespace Ezilla

open Template (merge check removeRestricted removeAllExceptRestricted)

/-- Who makes a request, or who owns a template. -/
structure Requester where
  uid : Int
  gid : Int
  deriving DecidableEq, Repr

/-- `oneadmin` and the members of its group. -/
def Requester.isAdministrator (r : Requester) : Bool :=
  r.uid = 0 || r.gid = 0

/-- How a request ends: refused, with undefined behaviour on the way, or with
attributes stored in a virtual machine, of which those of the user are kept here. -/
inductive Execution where
  | refused
  | undefined
  | stored (supplied : Template)
  deriving DecidableEq, Repr

/-- A request with the texts that come with it, and with the stored objects it
works on. -/
inductive RestrictedRequest where
  | allocate (text : String)
  | instantiate (owner : Requester) (id : Nat) (tmplName name : String) (rtmpl : Template)
      (text : String)
  | attach (text : String)
  | attachNic (text : String)
  | update (userTemplate : Template) (text : String)

namespace RestrictedRequests

/-- `parse` stands for the template parser and `others` for the remaining answers
of a request (authorization, quotas, the state of the machine). The pools are those
that a new machine, or a machine with a new disk or network, is set up from. -/
structure Setting where
  restricted : List RestrictedEntry
  parse : String → Option Template
  others : Bool
  creation : VmCreation
  machine : AttachWorld

variable (s : Setting) (r : Requester)

/-- The new machine, with what it has from some attributes of its template. -/
def create (tmpl mine : Template) : Execution :=
  match s.creation.create tmpl with
  | none => .refused
  | some vm => .stored (s.creation.supplied tmpl vm mine)

/-- `VirtualMachineAllocate::request_execute`. -/
def allocate (text : String) : Execution :=
  match s.parse text with
  | none => .refused
  | some tmpl =>
    if !r.isAdministrator && (check tmpl s.restricted).isSome then .refused
    else if s.others then create s tmpl tmpl
    else .refused

/-- The names that an instantiated template loses. -/
def instanceNames : List String := ["NAME", "TEMPLATE_NAME", "TEMPLATE_ID"]

/-- The attributes that an instantiated template gets. -/
def instanceAttributes (id : Nat) (tmplName name : String) : Template :=
  [.single "TEMPLATE_NAME" tmplName, .single "TEMPLATE_ID" (toString id)] ++
    if name = "" then [] else [.single "NAME" name]

/-- The template that `VMTemplateInstantiate::request_execute` hands over. -/
def instanceTemplate (id : Nat) (tmplName name : String) (tmpl uattrs : Template) : Template :=
  ((merge tmpl uattrs).filter fun a => a.name ∉ instanceNames) ++
    instanceAttributes id tmplName name

/-- The attributes of the template that the merge leaves. -/
def unmerged (tmpl uattrs : Template) : Template :=
  tmpl.filter fun a => (uattrs.all fun b => b.name ≠ a.name) && a.name ∉ instanceNames

/-- The copies of the merged text that are kept. -/
def merged (uattrs : Template) : Template :=
  (uattrs.map Attribute.clone).filter fun a => a.name ∉ instanceNames

/-- The merge text; no text merges nothing. -/
def readMerge (text : String) : Option Template :=
  if text = "" then some [] else s.parse text

/-- The attributes of the user in an instance. An administrator's template is not his. -/
def instanceMine (owner : Requester) (tmpl uattrs : Template) : Template :=
  if owner.isAdministrator then merged uattrs else unmerged tmpl uattrs ++ merged uattrs

/-- `VMTemplateInstantiate::request_execute`, on a copy of the stored template. -/
def instantiate (owner : Requester) (id : Nat) (tmplName name : String) (rtmpl : Template)
    (text : String) : Execution :=
  let tmpl : Template := rtmpl.map Attribute.clone
  if !owner.isAdministrator && (check tmpl s.restricted).isSome then .refused
  else
    match readMerge s text with
    | none => .refused
    | some uattrs =>
      if !r.isAdministrator && (check uattrs s.restricted).isSome then .refused
      else if s.others then
        create s (instanceTemplate id tmplName name tmpl uattrs) (instanceMine owner tmpl uattrs)
      else .refused

/-- What an attach stores. -/
def attached (a? : Option Attribute) : Execution :=
  match a? with
  | some a => .stored [a]
  | none => .refused

/-- `VirtualMachineAttach::request_execute`: no check of the text. -/
def attach (text : String) : Execution :=
  match s.parse text with
  | none => .refused
  | some tmpl => if s.others then attached (s.machine.disk? tmpl) else .refused

/-- `VirtualMachineAttachNic::request_execute`. -/
def attachNic (text : String) : Execution :=
  match s.parse text with
  | none => .refused
  | some tmpl =>
    if !r.isAdministrator && (check tmpl s.restricted).isSome then .refused
    else if s.others then attached (s.machine.nic? tmpl)
    else .refused

/-- `VirtualMachine::replace_template`, as `VirtualMachineUpdateTemplate` calls it. -/
def update (userTemplate : Template) (text : String) : Execution :=
  if s.others then
    match s.parse text with
    | none => .refused
    | some tmpl =>
      if r.isAdministrator then .stored tmpl
      else
        match removeRestricted tmpl s.restricted,
          removeAllExceptRestricted userTemplate s.restricted with
        | some left, some kept =>
          .stored (left.filter fun a => kept.all fun b => b.name ≠ a.name)
        | _, _ => .undefined
  else .refused

def execute : RestrictedRequest → Execution
  | .allocate text => allocate s r text
  | .instantiate owner id tmplName name rtmpl text =>
    instantiate s r owner id tmplName name rtmpl text
  | .attach text => attach s text
  | .attachNic text => attachNic s r text
  | .update userTemplate text => update s r userTemplate text

/-- The template that the code hands over consists of these attributes. -/
theorem instanceTemplate_eq (id : Nat) (tmplName name : String) (tmpl uattrs : Template) :
    instanceTemplate id tmplName name tmpl uattrs =
      unmerged tmpl uattrs ++ merged uattrs ++ instanceAttributes id tmplName name := by
  unfold instanceTemplate merge unmerged merged
  rw [List.filter_append, List.filter_filter]
  simp only [Bool.and_comm]

/-! ## What a request may store -/

/-- The attribute is restricted, or has a value that is. -/
def Restricted (a : Attribute) : Prop := ∃ e ∈ s.restricted, a.carries e = true

/-- Nothing that the user supplied and the machine stores is restricted. -/
def Upholds : Execution → Prop
  | .refused => True
  | .undefined => False
  | .stored supplied => ∀ a ∈ supplied, ¬ Restricted s a

/-- A text of which nothing is looked at twice or too late, and in which every
restricted value is looked at, unless its whole attribute goes. -/
def Strips (userTemplate tmpl : Template) : Prop :=
  tmpl.Readable s.restricted ∧
    (Template.restrictedPlaces userTemplate [] s.restricted).Nodup ∧
    ∀ (place : Nat) (a : Attribute), tmpl[place]? = some a →
      a.name ∉ plainNames s.restricted → ¬ userTemplate.KeepsName s.restricted a.name →
      ∀ field, .vector a.name field ∈ s.restricted → a.hasField field = true →
        ∃ l ∈ tmpl.removals s.restricted, l.place = place ∧ l.field = field

/-- When the check or the strip of the request sees what is restricted. -/
def Sees : RestrictedRequest → Prop
  | .allocate text => ∀ tmpl vm, s.parse text = some tmpl → s.others = true →
      s.creation.create tmpl = some vm →
      (∃ a ∈ s.creation.supplied tmpl vm tmpl, Restricted s a) → tmpl.Exposes s.restricted
  | .instantiate owner id tmplName name rtmpl text => ∀ uattrs vm,
      let tmpl : Template := rtmpl.map Attribute.clone
      let handed := instanceTemplate id tmplName name tmpl uattrs
      readMerge s text = some uattrs → s.others = true → s.creation.create handed = some vm →
      (∃ a ∈ s.creation.supplied handed vm (instanceMine owner tmpl uattrs), Restricted s a) →
      uattrs.Exposes s.restricted ∨ owner.isAdministrator = false ∧ tmpl.Exposes s.restricted
  | .attach text => ∀ tmpl a, s.parse text = some tmpl → s.others = true →
      s.machine.disk? tmpl = some a → ¬ Restricted s a
  | .attachNic text => ∀ tmpl a, s.parse text = some tmpl → s.others = true →
      s.machine.nic? tmpl = some a → Restricted s a → tmpl.Exposes s.restricted
  | .update userTemplate text => ∀ tmpl, s.parse text = some tmpl → s.others = true →
      Strips s userTemplate tmpl

/-! ## When the requests uphold the restriction -/

section Requests

variable {s r}

/-- The check of a user's text refuses what it sees. -/
theorem refuses_iff (outside : r.isAdministrator = false) (tmpl : Template) :
    (!r.isAdministrator && (check tmpl s.restricted).isSome) = true ↔
      tmpl.Exposes s.restricted := by
  rw [outside, Bool.not_false, Bool.true_and, Template.check_isSome_iff]

/-- A machine is created without anything restricted of the user. -/
theorem upholds_create_iff (tmpl mine : Template) : Upholds s (create s tmpl mine) ↔
    ∀ vm, s.creation.create tmpl = some vm →
      ¬ ∃ a ∈ s.creation.supplied tmpl vm mine, Restricted s a := by
  unfold create
  cases s.creation.create tmpl with
  | none => exact iff_of_true trivial fun vm no => by cases no
  | some vm => simp [Upholds]

theorem upholds_allocate_iff (outside : r.isAdministrator = false) (text : String) :
    Upholds s (allocate s r text) ↔ Sees s (.allocate text) := by
  simp only [allocate, Sees]
  cases parsed : s.parse text with
  | none => exact iff_of_true trivial (by simp)
  | some tmpl =>
    dsimp only
    by_cases exposed : tmpl.Exposes s.restricted
    · rw [if_pos ((refuses_iff outside _).mpr exposed)]
      exact iff_of_true trivial fun _ _ same _ _ _ => Option.some.inj same ▸ exposed
    · rw [if_neg fun seen => exposed ((refuses_iff outside _).mp seen)]
      cases s.others with
      | false => exact iff_of_true trivial (by simp)
      | true =>
        rw [if_pos rfl, upholds_create_iff]
        constructor
        · intro none _ vm same _ created some_
          cases same
          exact absurd some_ (none vm created)
        · intro sees vm created some_
          exact exposed (sees tmpl vm rfl rfl created some_)

theorem upholds_attached_iff (a? : Option Attribute) :
    Upholds s (attached a?) ↔ ∀ a, a? = some a → ¬ Restricted s a := by
  cases a? with
  | none => exact iff_of_true trivial fun a no => by cases no
  | some a => simp [attached, Upholds]

theorem upholds_attach_iff (text : String) :
    Upholds s (attach s text) ↔ Sees s (.attach text) := by
  simp only [attach, Sees]
  cases parsed : s.parse text with
  | none => exact iff_of_true trivial (by simp)
  | some tmpl =>
    dsimp only
    cases s.others with
    | false => exact iff_of_true trivial (by simp)
    | true =>
      rw [if_pos rfl, upholds_attached_iff]
      constructor
      · intro none _ a same _
        cases same
        exact none a
      · intro none a
        exact none tmpl a rfl rfl

theorem upholds_attachNic_iff (outside : r.isAdministrator = false) (text : String) :
    Upholds s (attachNic s r text) ↔ Sees s (.attachNic text) := by
  simp only [attachNic, Sees]
  cases parsed : s.parse text with
  | none => exact iff_of_true trivial (by simp)
  | some tmpl =>
    dsimp only
    by_cases exposed : tmpl.Exposes s.restricted
    · rw [if_pos ((refuses_iff outside _).mpr exposed)]
      exact iff_of_true trivial fun _ _ same _ _ _ => Option.some.inj same ▸ exposed
    · rw [if_neg fun seen => exposed ((refuses_iff outside _).mp seen)]
      cases s.others with
      | false => exact iff_of_true trivial (by simp)
      | true =>
        rw [if_pos rfl, upholds_attached_iff]
        constructor
        · intro none _ a same _ attaches restricted
          cases same
          exact absurd restricted (none a attaches)
        · intro sees a attaches restricted
          exact exposed (sees tmpl a rfl rfl attaches restricted)

theorem upholds_instantiate_iff (outside : r.isAdministrator = false) (owner : Requester) (id : Nat)
    (tmplName name : String) (rtmpl : Template) (text : String) :
    Upholds s (instantiate s r owner id tmplName name rtmpl text) ↔
      Sees s (.instantiate owner id tmplName name rtmpl text) := by
  simp only [instantiate, Sees]
  have refuses : (!owner.isAdministrator && (check (rtmpl.map Attribute.clone) s.restricted).isSome)
      = true ↔ owner.isAdministrator = false ∧
        Template.Exposes (rtmpl.map Attribute.clone) s.restricted := by
    rw [Bool.and_eq_true, Bool.not_eq_true', Template.check_isSome_iff]
  by_cases stored : owner.isAdministrator = false ∧
      Template.Exposes (rtmpl.map Attribute.clone) s.restricted
  · rw [if_pos (refuses.mpr stored)]
    exact iff_of_true trivial fun _ _ _ _ _ _ => .inr stored
  · rw [if_neg fun seen => stored (refuses.mp seen)]
    cases readMerge s text with
    | none => exact iff_of_true trivial (by simp)
    | some uattrs =>
      dsimp only
      by_cases exposed : uattrs.Exposes s.restricted
      · rw [if_pos ((refuses_iff outside _).mpr exposed)]
        exact iff_of_true trivial fun _ _ same _ _ _ => .inl (Option.some.inj same ▸ exposed)
      · rw [if_neg fun seen => exposed ((refuses_iff outside _).mp seen)]
        cases s.others with
        | false => exact iff_of_true trivial (by simp)
        | true =>
          rw [if_pos rfl, upholds_create_iff]
          constructor
          · intro none _ vm same _ created some_
            cases same
            exact absurd some_ (none vm created)
          · intro sees vm created some_
            exact (sees uattrs vm rfl rfl created some_).elim exposed stored

/-- What the strip leaves of a template carries nothing restricted where every
restricted value was looked at. -/
theorem left_unrestricted_iff {tmpl left kept userTemplate : Template}
    (strip : removeRestricted tmpl s.restricted = some left)
    (keep : removeAllExceptRestricted userTemplate s.restricted = some kept) :
    (∀ a ∈ left.filter fun a => kept.all fun b => b.name ≠ a.name,
        ¬ Restricted s a) ↔
      ∀ (place : Nat) (a : Attribute), tmpl[place]? = some a →
        a.name ∉ plainNames s.restricted → ¬ userTemplate.KeepsName s.restricted a.name →
        ∀ field, .vector a.name field ∈ s.restricted → a.hasField field = true →
          ∃ l ∈ tmpl.removals s.restricted, l.place = place ∧ l.field = field := by
  have keptNames : ∀ a : Attribute, (kept.all fun b => b.name ≠ a.name) = true ↔
      ¬ userTemplate.KeepsName s.restricted a.name := by
    intro a
    rw [← Template.keepsName_iff keep]
    simp
  simp only [List.mem_filter, keptNames, Template.mem_removeRestricted_iff strip, Restricted]
  constructor
  · intro none place a found unrestricted unkept field member has
    apply Classical.byContradiction
    intro unseen
    have whole : Template.removedFields (tmpl.removals s.restricted) place field = false := by
      refine Bool.eq_false_iff.mpr fun removed => unseen ?_
      obtain ⟨l, within, same⟩ := List.any_eq_true.mp removed
      exact ⟨l, within, by simpa using same⟩
    refine none _ ⟨⟨place, a, found, unrestricted, rfl⟩, ?_⟩ ⟨_, member, ?_⟩
    · rw [Template.name_without]
      exact unkept
    · simp only [Attribute.carries, Template.name_without, Template.hasField_without, whole, has,
        decide_true, Bool.not_false, Bool.and_true]
  · rintro looked _ ⟨⟨place, a, found, unrestricted, rfl⟩, unkept⟩ ⟨e, member, restricts⟩
    rw [Template.name_without] at unkept
    cases e with
    | plain name =>
      simp only [Attribute.carries, Template.name_without, decide_eq_true_eq] at restricts
      refine unrestricted ?_
      rw [restricts]
      exact List.mem_filterMap.mpr ⟨_, member, rfl⟩
    | vector name field =>
      simp only [Attribute.carries, Template.name_without, Template.hasField_without,
        Bool.and_eq_true, decide_eq_true_eq, Bool.not_eq_true'] at restricts
      obtain ⟨rfl, unseen, has⟩ := restricts
      obtain ⟨l, within, here, sought⟩ := looked place a found unrestricted unkept field member has
      refine Bool.false_ne_true (unseen.symm.trans (List.any_eq_true.mpr ⟨l, within, ?_⟩))
      simp [here, sought]

theorem upholds_update_iff (outside : r.isAdministrator = false) (userTemplate : Template)
    (text : String) :
    Upholds s (update s r userTemplate text) ↔
      Sees s (.update userTemplate text) := by
  simp only [update, Sees]
  cases s.others with
  | false => exact iff_of_true trivial (by simp)
  | true =>
    rw [if_pos rfl]
    cases parsed : s.parse text with
    | none => exact iff_of_true trivial (by simp)
    | some tmpl =>
      simp only [outside, Bool.false_eq_true, if_false, Option.some.injEq, forall_eq',
        true_implies, Strips]
      cases strip : removeRestricted tmpl s.restricted with
      | none =>
        refine iff_of_false (fun impossible => impossible) ?_
        rw [← Template.removeRestricted_isSome_iff, strip]
        exact fun none => Bool.false_ne_true none.1
      | some left =>
        cases keep : removeAllExceptRestricted userTemplate s.restricted with
        | none =>
          refine iff_of_false (fun impossible => impossible) ?_
          rintro ⟨-, once, -⟩
          rw [removeAllExceptRestricted, if_pos once] at keep
          cases keep
        | some kept =>
          have readable : tmpl.Readable s.restricted := by
            rw [← Template.removeRestricted_isSome_iff, strip]
            rfl
          have once : (Template.restrictedPlaces userTemplate [] s.restricted).Nodup := by
            unfold removeAllExceptRestricted at keep
            split at keep
            · assumption
            · cases keep
          simp only [Upholds, readable, once, true_and]
          exact left_unrestricted_iff strip keep

end Requests

/-- A request of a user outside the administrators upholds the restriction
exactly where its check or its strip sees what is restricted. -/
theorem upholds_iff (s : Setting) (r : Requester) (req : RestrictedRequest)
    (outside : r.isAdministrator = false) :
    Upholds s (execute s r req) ↔ Sees s req := by
  cases req with
  | allocate text => exact upholds_allocate_iff outside text
  | instantiate owner id tmplName name rtmpl text =>
    exact upholds_instantiate_iff outside owner id tmplName name rtmpl text
  | attach text => exact upholds_attach_iff text
  | attachNic text => exact upholds_attachNic_iff outside text
  | update userTemplate text => exact upholds_update_iff outside userTemplate text

/-- A text with a context and a network card in a VLAN. -/
def vlanText : String :=
  "CPU = 1 MEMORY = 128 CONTEXT = [ HOSTNAME = \"web\" ] NIC = [ NETWORK_ID = 0, VLAN_ID = 7 ]"

/-- Its template. -/
def vlanTemplate : Template :=
  [.single "CPU" "1", .single "MEMORY" "128", .vector "CONTEXT" [("HOSTNAME", "web")],
    .vector "NIC" [("NETWORK_ID", "0"), ("VLAN_ID", "7")]]

/-- A network of one lease, in no VLAN. -/
def lan : VirtualNetwork where
  oid := 0
  name := "lan"
  bridge := "br0"
  global := ""
  globalBin := (0, 0)
  site := ""
  siteBin := (0, 0)
  vlan := false
  phydev := ""
  vlanId := ""
  clusterId := -1
  leases := .fixed (FixedLeases.new 512 answers [("10.0.0.1", "")])

/-- The pools with this network, and without images and files. -/
def lanCreation : VmCreation where
  world :=
    { files _ :=
        ⟨⟨oneadminId, oneadminId, DiskRuns.noImages, DiskRuns.noImages⟩, fun _ => none, fun _ => none⟩
      nics _ := ⟨fun _ => some lan, fun _ => .done⟩
      disks _ := DiskRuns.volatileWorld
      inetNtop _ _ _ _ := "fe80::400:aff:fe00:1"
      defaultDevPrefix := "hd" }
  files := ⟨⟨oneadminId, oneadminId, DiskRuns.noImages, DiskRuns.noImages⟩, fun _ => none⟩
  scope := VariableText.undefinedScope
  vmId := 3
  uid := 5

/-- The restricted attributes of the distributed configuration, and a parser that knows one
text. -/
def distributed : Setting where
  restricted := setRestrictedAttributes ["CONTEXT/FILES", "NIC/MAC", "NIC/VLAN_ID"]
  parse text := if text = vlanText then some vlanTemplate else none
  others := true
  creation := lanCreation
  machine := ⟨3, 5, DiskRuns.volatileWorld, [], -1, ⟨fun _ => some lan, fun _ => .done⟩, 0,
    fun _ _ _ _ => "fe80::400:aff:fe00:1"⟩

theorem upholds_iff_distributed :
    (⟨5, 100⟩ : Requester).isAdministrator = false ∧
      (Upholds distributed (allocate distributed ⟨5, 100⟩ vlanText) ↔
        Sees distributed (.allocate vlanText)) :=
  ⟨by decide, upholds_iff distributed ⟨5, 100⟩ (.allocate vlanText) (by decide)⟩

/-- A text with a context hides the VLAN of its network card. The network has none, so that the
machine is stored with that of the user. -/
theorem hidden_by_context :
    ¬ ∀ (s : Setting) (r : Requester) (req : RestrictedRequest), r.isAdministrator = false →
      Upholds s (execute s r req) := by
  intro always
  have held := always distributed ⟨5, 100⟩ (.allocate vlanText) (by decide)
  have run : execute distributed ⟨5, 100⟩ (.allocate vlanText) =
      .stored [.vector "NIC" [("NETWORK_ID", "0"), ("VLAN_ID", "7")],
        .vector "CONTEXT" [("HOSTNAME", "web")], .single "CPU" "1", .single "MEMORY" "128"] := by
    decide +kernel
  rw [run] at held
  exact held (.vector "NIC" [("NETWORK_ID", "0"), ("VLAN_ID", "7")]) (by simp)
    ⟨.vector "NIC" "VLAN_ID", by decide +kernel, by decide +kernel⟩

end RestrictedRequests

end Ezilla
