import Ezilla.Vnm.FirewallRules
import Mathlib.Tactic.Tauto

/-!
# The table of a host

What the scripts for a VM do to a table that has the rules of some NICs, next to those of other
programs.

* `Filters`: the table has the rules of some NICs and no others of its kind;
* `activate_of_fresh`, `deactivate_of_apart`: the scripts keep this for the NICs they are about;
* `deactivateNic_exact_iff`: when the chain that is removed is the one that was meant.
-/

namespace Ezilla

/-- A NIC whose packets are filtered. -/
structure FilteredNic where
  vmId : Nat
  tap : String
  nic : FirewallNic
  deriving DecidableEq, Repr

namespace FilteredNic

variable (e : FilteredNic)

def chain : String := OpenNebulaFirewall.chain e.vmId e.nic.networkId

/-- The rule that sends its packets to its chain. -/
def rule : FilterRule := OpenNebulaFirewall.tapToChain e.tap e.chain

/-- The rules of its chain. -/
def rules : List FilterRule := OpenNebulaFirewall.present (OpenNebulaFirewall.nicRules e.nic)

/-- Its chain is found where another name is looked for. -/
def begins (vmId : Nat) (networkId : Option Nat) : Bool :=
  e.vmId = vmId ∧ OpenNebulaFirewall.networkText networkId <+:
    OpenNebulaFirewall.networkText e.nic.networkId

end FilteredNic

namespace OpenNebulaFirewall

/-- A rule that jumps to a chain in whose name another one is found. -/
def jumpsTo (vmId : Nat) (networkId : Option Nat) (r : FilterRule) : Bool :=
  match r.target with
  | .verdict _ => false
  | .jump name => chainName vmId networkId <:+: name.toList

/-- No condition of a rule has a text that could be taken for a name of the driver. -/
def Unnamed (r : FilterRule) : Prop := ∀ c ∈ r.conditions, ¬ "one-".toList <:+: c.text

instance (r : FilterRule) : Decidable (Unnamed r) :=
  inferInstanceAs (Decidable (∀ c ∈ r.conditions, _))

end OpenNebulaFirewall

/-- `iptables` prints the chain that a rule jumps to and the texts of its conditions, and a name
of the driver nowhere else. -/
def Iptables.Lists (iptables : Iptables) : Prop :=
  ∀ r vmId networkId, OpenNebulaFirewall.chainName vmId networkId <:+: iptables.line r ↔
    OpenNebulaFirewall.jumpsTo vmId networkId r = true ∨
      ∃ c ∈ r.conditions, OpenNebulaFirewall.chainName vmId networkId <:+: c.text

namespace OpenNebulaFirewall

/-- A NIC is filtered if it has an interface and rules. -/
def filteredNic (vmId : Nat) (nic : FirewallNic) : Option FilteredNic :=
  match nic.tap with
  | none => none
  | some tap => if nicRules nic = [] then none else some ⟨vmId, tap, nic⟩

def filteredNics (vmId : Nat) (nics : List FirewallNic) : List FilteredNic :=
  (nics.filter selected).filterMap (filteredNic vmId)

/-- A rule that jumps to a chain with a name of the driver in its name. -/
def isOwn (r : FilterRule) : Bool :=
  match r.target with
  | .verdict _ => false
  | .jump name => "one-".toList <:+: name.toList

/-- The table has the rules of some NICs, in the order in which they were made, and apart from
them no rule that jumps to a chain of the driver; and `FORWARD` has no other text that could be
taken for a name of the driver. -/
structure Filters (t : FilterTable) (active : List FilteredNic) : Prop where
  forward : ∃ rules, t.lookup forward = some rules ∧
    rules.filter isOwn = active.map FilteredNic.rule ∧ ∀ r ∈ rules, Unnamed r
  chains : ∀ e ∈ active, t.lookup e.chain = some e.rules
  others : ∀ vmId networkId, chain vmId networkId ∉ active.map FilteredNic.chain →
    t.lookup (chain vmId networkId) = none
  used : ∀ name rules, t.lookup name = some rules → name ≠ OpenNebulaFirewall.forward →
    ∀ r ∈ rules, isOwn r = false
  distinct : (active.map FilteredNic.chain).Nodup

variable {iptables : Iptables} {t : FilterTable} {active : List FilteredNic}
  {vmId : Nat} {networkId : Option Nat} {nic : FirewallNic} {e : FilteredNic}

/-! ## Own rules -/

theorem one_infix_chainName (vmId : Nat) (networkId : Option Nat) :
    "one-".toList <:+: chainName vmId networkId :=
  ⟨[], Nat.toDigits 10 vmId ++ '-' :: networkText networkId, by
    rw [List.nil_append, chainName, List.append_assoc]⟩

theorem isOwn_of_chain {r : FilterRule} (jumps : r.target = .jump (chain vmId networkId)) :
    isOwn r = true := by
  rw [isOwn, jumps]
  simp only [chain, String.toList_ofList, decide_eq_true_eq]
  exact one_infix_chainName vmId networkId

theorem isOwn_rule (e : FilteredNic) : isOwn e.rule = true := isOwn_of_chain rfl

theorem verdict_of_mem_rules {r : FilterRule} (member : r ∈ present (nicRules nic)) :
    ∃ v, r.target = .verdict v := by
  rw [present, List.mem_filterMap] at member
  obtain ⟨r', member, same⟩ := member
  obtain rfl : r' = some r := same
  rw [nicRules, List.mem_append, List.mem_append] at member
  have ports {proto : IpProtocol} {white black : Option String}
      (there : some r ∈ portRules proto white black) : ∃ v, r.target = .verdict v := by
    have rule {range : String} {policy : PacketFilter.Verdict}
        (same : some r = filterPorts proto range policy) : ∃ v, r.target = .verdict v := by
      unfold filterPorts at same
      split at same
      · cases same
        exact ⟨policy, rfl⟩
      · cases same
    unfold portRules at there
    split at there
    · rcases List.mem_cons.mp there with same | there
      · cases same
        exact ⟨.accept, rfl⟩
      · rcases List.mem_cons.mp there with same | there
        · exact rule same
        · cases List.mem_singleton.mp there
          exact ⟨.drop, rfl⟩
    · exact rule (List.mem_singleton.mp there)
    · cases there
  rcases member with (tcp | udp) | icmp
  · exact ports tcp
  · exact ports udp
  · unfold icmpRules at icmp
    split at icmp
    · rcases List.mem_cons.mp icmp with same | there
      · cases same
        exact ⟨.accept, rfl⟩
      · cases List.mem_singleton.mp there
        exact ⟨.drop, rfl⟩
    · cases icmp

theorem not_isOwn_of_mem_rules {r : FilterRule} (member : r ∈ e.rules) : isOwn r = false := by
  obtain ⟨v, verdict⟩ := verdict_of_mem_rules member
  rw [isOwn, verdict]

/-! ## Activation -/

theorem filteredNic_eq_some (filtered : filteredNic vmId nic = some e) :
    e.vmId = vmId ∧ e.nic = nic ∧ nic.tap = some e.tap ∧ nicRules nic ≠ [] := by
  cases tap : nic.tap with
  | none =>
    simp only [filteredNic, tap, reduceCtorEq] at filtered
  | some tap' =>
    by_cases empty : nicRules nic = []
    · simp only [filteredNic, tap, empty, if_true, reduceCtorEq] at filtered
    · simp only [filteredNic, tap, empty, if_false, Option.some.injEq] at filtered
      subst filtered
      exact ⟨rfl, rfl, rfl, empty⟩

theorem activateNic_of_not_filtered (unfiltered : filteredNic vmId nic = none) :
    activateNic iptables vmId t nic = (t, true) := by
  cases tap : nic.tap with
  | none => simp only [activateNic, tap]
  | some tap' =>
    by_cases empty : nicRules nic = []
    · simp only [activateNic, tap, empty]
      rfl
    · simp only [filteredNic, tap, empty, if_false, reduceCtorEq] at unfiltered

/-- Rules are appended to a chain one after the other. -/
theorem runRules_append {name : String} {base : List FilterRule}
    (rules : List (Option FilterRule)) (there : t.lookup name = some base)
    (valid : ∀ r ∈ present rules, iptables.valid r = true)
    (verdicts : ∀ r ∈ present rules, ∃ v, r.target = .verdict v) :
    ∃ t', runRules iptables t (rules.map (Option.map (.append name))) = (t', true) ∧
      t'.lookup name = some (base ++ present rules) ∧
      ∀ other, other ≠ name → t'.lookup other = t.lookup other := by
  induction rules generalizing t base with
  | nil => exact ⟨t, rfl, by rw [there, present, List.filterMap_nil, List.append_nil], fun _ _ => rfl⟩
  | cons rule rules ih =>
    cases rule with
    | none => exact ih there valid verdicts
    | some r =>
      rw [present_cons] at valid verdicts
      obtain ⟨v, verdict⟩ := verdicts r List.mem_cons_self
      have run := PacketFilter.run_append there (valid r List.mem_cons_self)
        (by rw [verdict]; trivial)
      obtain ⟨t', runs, here, elsewhere⟩ := ih (AList.lookup_insert t)
        (fun r' member => valid r' (List.mem_cons_of_mem _ member))
        (fun r' member => verdicts r' (List.mem_cons_of_mem _ member))
      refine ⟨t', ?_, ?_, fun other ne => ?_⟩
      · rw [List.map_cons, Option.map_some, runRules, run]
        exact runs
      · rw [here, present_cons, List.append_assoc, List.singleton_append]
      · rw [elsewhere other ne, AList.lookup_insert_ne ne]

/-- A NIC whose chain is not there yet gets its rules. -/
theorem activateNic_of_fresh (filters : Filters t active) (filtered : filteredNic vmId nic = some e)
    (fresh : e.chain ∉ active.map FilteredNic.chain) (unnamed : Unnamed e.rule)
    (valid : iptables.valid e.rule = true)
    (valids : ∀ r ∈ e.rules, iptables.valid r = true) :
    ∃ t', activateNic iptables vmId t nic = (t', true) ∧ Filters t' (active ++ [e]) := by
  obtain ⟨rfl, rfl, tap, nonempty⟩ := filteredNic_eq_some filtered
  obtain ⟨rules, there, own, texts⟩ := filters.forward
  have none : t.lookup e.chain = none := filters.others _ _ fresh
  have ne : forward ≠ e.chain := fun same => chain_ne_forward same.symm
  have there' : (t.insert e.chain []).lookup forward = some rules := by
    rw [AList.lookup_insert_ne ne, there]
  have target : e.rule.target.There (t.insert e.chain []) :=
    (AList.mem_insert t).mpr (.inl rfl)
  have empty : ((t.insert e.chain []).insert forward (rules ++ [e.rule])).lookup e.chain =
      some [] := by
    rw [AList.lookup_insert_ne ne.symm, AList.lookup_insert]
  obtain ⟨t', runs, here, elsewhere⟩ := runRules_append (nicRules e.nic) empty valids
    fun r member => verdict_of_mem_rules member
  have lookups (other : String) (apart : other ≠ e.chain) (apart' : other ≠ forward) :
      t'.lookup other = t.lookup other := by
    rw [elsewhere other apart, AList.lookup_insert_ne apart', AList.lookup_insert_ne apart]
  refine ⟨t', ?_, ?_⟩
  · have first : (PacketFilter.Command.newChain e.chain).run iptables.valid t =
        some (t.insert e.chain []) := PacketFilter.run_newChain none
    have second := PacketFilter.run_append there' valid target
    simp only [activateNic, tap, processChain, if_neg nonempty, runRules]
    rw [show chain e.vmId e.nic.networkId = e.chain from rfl, first]
    simp only
    rw [show tapToChain e.tap e.chain = e.rule from rfl, second]
    exact runs
  · refine ⟨⟨rules ++ [e.rule], ?_, ?_, fun r member => ?_⟩, ?_, ?_, ?_, ?_⟩
    · rw [elsewhere forward ne, AList.lookup_insert]
    · rw [List.filter_append, own, List.map_append, List.filter_cons_of_pos (isOwn_rule e)]
      rfl
    · rcases List.mem_append.mp member with before | new
      · exact texts r before
      · exact List.mem_singleton.mp new ▸ unnamed
    · intro e' member
      rcases List.mem_append.mp member with before | new
      · have apart : e'.chain ≠ e.chain := fun same =>
          fresh (same ▸ List.mem_map_of_mem before)
        rw [lookups _ apart chain_ne_forward]
        exact filters.chains e' before
      · cases List.mem_singleton.mp new
        rw [here, List.nil_append]
        rfl
    · intro vmId' networkId' out
      rw [List.map_append, List.mem_append, not_or] at out
      rw [lookups _ (fun same => out.2 (List.mem_singleton.mpr same)) chain_ne_forward]
      exact filters.others _ _ out.1
    · intro name rules' found apart r member
      by_cases same : name = e.chain
      · subst same
        rw [here, List.nil_append] at found
        cases found
        exact not_isOwn_of_mem_rules member
      · rw [lookups _ same apart] at found
        exact filters.used _ _ found apart r member
    · rw [List.map_append]
      exact filters.distinct.append (List.nodup_singleton _) fun name left right =>
        fresh (List.mem_singleton.mp right ▸ left)

/-- The NICs of a VM are filtered when none of them was. -/
theorem activate_of_fresh {nics : List FirewallNic} (filters : Filters t active)
    (fresh : ∀ e ∈ filteredNics vmId nics, e.chain ∉ active.map FilteredNic.chain)
    (distinct : ((filteredNics vmId nics).map FilteredNic.chain).Nodup)
    (valid : ∀ e ∈ filteredNics vmId nics, Unnamed e.rule ∧ iptables.valid e.rule = true ∧
      ∀ r ∈ e.rules, iptables.valid r = true) :
    ∃ t', activate iptables vmId nics t = (t', true) ∧
      Filters t' (active ++ filteredNics vmId nics) := by
  unfold activate
  unfold filteredNics at fresh distinct valid ⊢
  generalize nics.filter selected = picked at fresh distinct valid ⊢
  induction picked generalizing t active with
  | nil => exact ⟨t, rfl, by rw [List.filterMap_nil, List.append_nil]; exact filters⟩
  | cons nic nics ih =>
    cases filtered : filteredNic vmId nic with
    | none =>
      rw [List.filterMap_cons_none filtered] at fresh distinct valid ⊢
      simp only [eachNic, activateNic_of_not_filtered filtered]
      exact ih filters fresh distinct valid
    | some e =>
      rw [List.filterMap_cons_some filtered] at fresh distinct valid ⊢
      rw [List.map_cons, List.nodup_cons] at distinct
      have ok := valid e List.mem_cons_self
      obtain ⟨t', runs, filters'⟩ := activateNic_of_fresh filters filtered
        (fresh e List.mem_cons_self) ok.1 ok.2.1 ok.2.2
      have fresh' : ∀ e' ∈ nics.filterMap (filteredNic vmId),
          e'.chain ∉ (active ++ [e]).map FilteredNic.chain := by
        intro e' member
        rw [List.map_append, List.mem_append, not_or]
        refine ⟨fresh e' (List.mem_cons_of_mem _ member), fun same => distinct.1 ?_⟩
        rw [← List.mem_singleton.mp same]
        exact List.mem_map_of_mem member
      obtain ⟨t'', rest, all⟩ := ih filters' fresh' distinct.2 fun e' member =>
        valid e' (List.mem_cons_of_mem _ member)
      refine ⟨t'', ?_, ?_⟩
      · simp only [eachNic, runs]
        exact rest
      · rw [List.append_assoc] at all
        exact all

/-! ## Removal -/

/-- The rules that are own are those of the NICs that are left, and no other chain has any. -/
theorem own_deleteRule (filters : Filters t active) {rules : List FilterRule} {num : Nat}
    (left : (rules.eraseIdx (num - 1)).filter isOwn =
      (active.eraseP (·.begins vmId networkId)).map FilteredNic.rule) {name : String}
    {rules' : List FilterRule}
    (there : (t.insert forward (rules.eraseIdx (num - 1))).lookup name = some rules')
    {r : FilterRule} (member : r ∈ rules') (own : isOwn r = true) :
    name = forward ∧ ∃ e ∈ active.eraseP (·.begins vmId networkId), r = e.rule := by
  by_cases same : name = forward
  · subst same
    rw [AList.lookup_insert] at there
    cases there
    have kept := List.mem_filter.mpr ⟨member, own⟩
    rw [left] at kept
    obtain ⟨e, there, is⟩ := List.mem_map.mp kept
    exact ⟨rfl, e, there, is.symm⟩
  · rw [AList.lookup_insert_ne same] at there
    rw [filters.used name rules' there same r member] at own
    cases own

/-- The NIC whose rule is found, and those that are left without it. -/
theorem mem_eraseP_begins (filters : Filters t active)
    (found : active.find? (·.begins vmId networkId) = some e) :
    e.vmId = vmId ∧ e ∈ active ∧
      ∀ e', e' ∈ active.eraseP (·.begins vmId networkId) ↔ e' ∈ active ∧ e'.chain ≠ e.chain := by
  obtain ⟨begins, before, after, rfl, skipped⟩ := List.find?_eq_some_iff_append.mp found
  have left : (before ++ e :: after).eraseP (·.begins vmId networkId) = before ++ after := by
    rw [List.eraseP_append_right _ fun b member => by simpa using skipped b member,
      List.eraseP_cons, begins]
    rfl
  have distinct := filters.distinct
  rw [List.map_append, List.map_cons, List.nodup_middle, List.nodup_cons, ← List.map_append]
    at distinct
  refine ⟨(of_decide_eq_true begins).1, List.mem_append_right _ List.mem_cons_self, fun e' => ?_⟩
  rw [left]
  constructor
  · intro kept
    refine ⟨?_, fun same => distinct.1 (same ▸ List.mem_map_of_mem kept)⟩
    exact List.mem_append.mpr ((List.mem_append.mp kept).imp_right (List.mem_cons_of_mem e))
  · intro h
    obtain ⟨member, apart⟩ := h
    refine List.mem_append.mpr ((List.mem_append.mp member).imp_right fun there => ?_)
    exact (List.mem_cons.mp there).resolve_left fun same => apart (same ▸ rfl)

/-- The rule of a chain is found by what begins its name. -/
theorem jumpsTo_rule (e : FilteredNic) : jumpsTo vmId networkId e.rule = e.begins vmId networkId := by
  have found : chainName vmId networkId <:+: e.chain.toList ↔
      e.vmId = vmId ∧ networkText networkId <+: networkText e.nic.networkId := by
    rw [eq_comm, ← chainName_found_iff, FilteredNic.chain, chain, String.toList_ofList]
  exact decide_eq_decide.mpr found

/-- Only an own rule jumps to a chain with a name of the driver in its name. -/
theorem isOwn_of_jumpsTo {r : FilterRule} (jumps : jumpsTo vmId networkId r = true) :
    isOwn r = true := by
  unfold jumpsTo at jumps
  unfold isOwn
  split at jumps
  · cases jumps
  · exact decide_eq_true ((one_infix_chainName vmId networkId).trans (of_decide_eq_true jumps))

section Removal

variable (lists : iptables.Lists)
include lists

/-- The line that is found is that of a rule that jumps to the chain. -/
theorem findIdx?_line {rules : List FilterRule} (unnamed : ∀ r ∈ rules, Unnamed r) :
    rules.findIdx? (fun r => chainName vmId networkId <:+: iptables.line r) =
      rules.findIdx? (jumpsTo vmId networkId) := by
  induction rules with
  | nil => rfl
  | cons r rest ih =>
    have first : decide (chainName vmId networkId <:+: iptables.line r) =
        jumpsTo vmId networkId r := by
      rw [Bool.eq_iff_iff, decide_eq_true_eq, lists, or_iff_left_iff_imp]
      intro h
      obtain ⟨c, member, found⟩ := h
      exact absurd ((one_infix_chainName vmId networkId).trans found)
        (unnamed r List.mem_cons_self c member)
    rw [List.findIdx?_cons, List.findIdx?_cons, first,
      ih fun r' member => unnamed r' (List.mem_cons_of_mem _ member)]

/-- The rule that is found in `FORWARD`, and what is left without it. -/
theorem ruleNum_spec (filters : Filters t active) :
    (active.find? (·.begins vmId networkId) = none ∧
        ruleNum iptables t (chainName vmId networkId) = none) ∨
      ∃ e rules num, active.find? (·.begins vmId networkId) = some e ∧
        t.lookup forward = some rules ∧
        ruleNum iptables t (chainName vmId networkId) = some num ∧ 1 ≤ num ∧
        num ≤ rules.length ∧
        (rules.eraseIdx (num - 1)).filter isOwn =
          (active.eraseP (·.begins vmId networkId)).map FilteredNic.rule ∧
        ∀ r ∈ rules.eraseIdx (num - 1), Unnamed r := by
  obtain ⟨rules, there, own, texts⟩ := filters.forward
  have both : (fun r => jumpsTo vmId networkId r && isOwn r) = jumpsTo vmId networkId := by
    funext r
    cases found : jumpsTo vmId networkId r with
    | false => rfl
    | true => exact isOwn_of_jumpsTo found
  have begins : jumpsTo vmId networkId ∘ FilteredNic.rule = (·.begins vmId networkId) :=
    funext jumpsTo_rule
  have first : rules.find? (jumpsTo vmId networkId) =
      (active.find? (·.begins vmId networkId)).map FilteredNic.rule := by
    rw [← begins, ← List.find?_map, ← own, List.find?_filter]
    congr 1
    funext r
    rw [Bool.eq_iff_iff, decide_eq_true_eq]
    exact ⟨fun found => ⟨isOwn_of_jumpsTo found, found⟩, And.right⟩
  have left : (rules.eraseP (jumpsTo vmId networkId)).filter isOwn =
      (active.eraseP (·.begins vmId networkId)).map FilteredNic.rule := by
    rw [← begins, ← List.eraseP_map, ← own, List.eraseP_filter, both]
  rw [List.eraseP_eq_eraseIdx] at left
  have number : ruleNum iptables t (chainName vmId networkId) =
      (rules.findIdx? (jumpsTo vmId networkId)).map (· + 1) := by
    rw [ruleNum, there, Option.getD_some, findIdx?_line lists texts]
  cases index : rules.findIdx? (jumpsTo vmId networkId) with
  | none =>
    refine .inl ⟨?_, by rw [number, index]; rfl⟩
    rw [List.findIdx?_eq_none_iff] at index
    have none : rules.find? (jumpsTo vmId networkId) = none :=
      List.find?_eq_none.mpr fun r member => by rw [index r member]; exact Bool.false_ne_true
    rw [none] at first
    exact Option.map_eq_none_iff.mp first.symm
  | some i =>
    obtain ⟨lt, holds, -⟩ := List.findIdx?_eq_some_iff_getElem.mp index
    have there' : (rules.find? (jumpsTo vmId networkId)).isSome :=
      List.find?_isSome.mpr ⟨rules[i], List.getElem_mem lt, holds⟩
    rw [first, Option.isSome_map] at there'
    obtain ⟨e, found⟩ := Option.isSome_iff_exists.mp there'
    rw [index] at left
    refine .inr ⟨e, rules, i + 1, found, there, by rw [number, index]; rfl, Nat.le_add_left 1 i, lt,
      left, fun r member => texts r ((rules.eraseIdx_sublist _).subset member)⟩

/-- When the rule that is found is that of the NIC, its chain goes and nothing else. -/
theorem deactivateNic_of_found (filters : Filters t active)
    (found : active.find? (·.begins vmId nic.networkId) = some e)
    (exact_ : e.nic.networkId = nic.networkId) :
    ∃ t', deactivateNic iptables vmId t nic = (t', true) ∧
      Filters t' (active.eraseP (·.begins vmId nic.networkId)) := by
  rcases ruleNum_spec lists filters with ⟨none, -⟩ | ⟨e', rules, num, first, there, number, pos,
    le, left, texts⟩
  · cases found.symm.trans none
  cases found.symm.trans first
  obtain ⟨vm, member, kept⟩ := mem_eraseP_begins filters found
  have name : chain vmId nic.networkId = e.chain := by
    rw [FilteredNic.chain, vm, exact_]
  have ne : e.chain ≠ forward := chain_ne_forward
  have first : (PacketFilter.Command.deleteRule forward num).run iptables.valid t =
      some (t.insert forward (rules.eraseIdx (num - 1))) :=
    PacketFilter.run_deleteRule there pos le
  have here : (t.insert forward (rules.eraseIdx (num - 1))).lookup e.chain = some e.rules := by
    rw [AList.lookup_insert_ne ne, filters.chains e member]
  have second : (PacketFilter.Command.flush e.chain).run iptables.valid
      (t.insert forward (rules.eraseIdx (num - 1))) =
        some ((t.insert forward (rules.eraseIdx (num - 1))).insert e.chain []) :=
    PacketFilter.run_flush here
  have unused : PacketFilter.Table.Unused
      ((t.insert forward (rules.eraseIdx (num - 1))).insert e.chain []) e.chain := by
    intro entry inside r memberR jumps
    have there' := AList.mem_lookup_iff.mpr inside
    by_cases same : entry.1 = e.chain
    · rw [same, AList.lookup_insert] at there'
      rw [← Option.some.inj there'] at memberR
      cases memberR
    · rw [AList.lookup_insert_ne same] at there'
      obtain ⟨-, e', left', rfl⟩ := own_deleteRule filters left there' memberR
        (isOwn_of_chain jumps)
      exact ((kept e').mp left').2 (PacketFilter.Target.jump.inj jumps)
  have third : (PacketFilter.Command.deleteChain e.chain).run iptables.valid
      ((t.insert forward (rules.eraseIdx (num - 1))).insert e.chain []) =
        some (((t.insert forward (rules.eraseIdx (num - 1))).insert e.chain []).erase e.chain) :=
    PacketFilter.run_deleteChain (AList.lookup_insert _) unused
  refine ⟨((t.insert forward (rules.eraseIdx (num - 1))).insert e.chain []).erase e.chain, ?_, ?_⟩
  · simp only [deactivateNic, number, purgeChain, name, runRules, first, second, third]
  · have lookups (other : String) (apart : other ≠ e.chain) :
        (((t.insert forward (rules.eraseIdx (num - 1))).insert e.chain []).erase e.chain).lookup
          other = (t.insert forward (rules.eraseIdx (num - 1))).lookup other := by
      rw [AList.lookup_erase_ne apart, AList.lookup_insert_ne apart]
    refine ⟨⟨rules.eraseIdx (num - 1), ?_, left, texts⟩, fun e' left' => ?_, fun vm' network out => ?_,
      fun name' rules' there' apart r memberR => ?_, ?_⟩
    · rw [lookups _ ne.symm, AList.lookup_insert]
    · obtain ⟨member', apart⟩ := (kept e').mp left'
      have ne' : e'.chain ≠ forward := chain_ne_forward
      rw [lookups _ apart, AList.lookup_insert_ne ne']
      exact filters.chains e' member'
    · by_cases same : chain vm' network = e.chain
      · rw [same, AList.lookup_erase]
      · rw [lookups _ same, AList.lookup_insert_ne chain_ne_forward]
        refine filters.others _ _ fun there' => out ?_
        obtain ⟨e', member', is⟩ := List.mem_map.mp there'
        exact List.mem_map.mpr ⟨e', (kept e').mpr ⟨member', fun eq => same (is ▸ eq)⟩, is⟩
    · by_contra own
      rw [Bool.not_eq_false] at own
      by_cases same : name' = e.chain
      · rw [same, AList.lookup_erase] at there'
        cases there'
      · rw [lookups _ same] at there'
        exact apart (own_deleteRule filters left there' memberR own).1
    · exact filters.distinct.sublist ((List.eraseP_sublist).map _)

/-- When it is the rule of another NIC, the script fails, and the packets for that NIC are not
sent to its chain any more. -/
theorem deactivateNic_of_other (filters : Filters t active)
    (found : active.find? (·.begins vmId nic.networkId) = some e)
    (other : e.nic.networkId ≠ nic.networkId) :
    ∃ t' rules', deactivateNic iptables vmId t nic = (t', false) ∧
      t'.lookup forward = some rules' ∧
      rules'.filter isOwn =
        (active.eraseP (·.begins vmId nic.networkId)).map FilteredNic.rule := by
  rcases ruleNum_spec lists filters with ⟨none, -⟩ | ⟨e', rules, num, first, there, number, pos,
    le, left, texts⟩
  · cases found.symm.trans none
  cases found.symm.trans first
  obtain ⟨vm, -, kept⟩ := mem_eraseP_begins filters found
  have ne : chain vmId nic.networkId ≠ forward := chain_ne_forward
  have deleted : (PacketFilter.Command.deleteRule forward num).run iptables.valid t =
      some (t.insert forward (rules.eraseIdx (num - 1))) :=
    PacketFilter.run_deleteRule there pos le
  have here : (t.insert forward (rules.eraseIdx (num - 1))).lookup forward =
      some (rules.eraseIdx (num - 1)) := AList.lookup_insert t
  by_cases active' : chain vmId nic.networkId ∈ active.map FilteredNic.chain
  · -- its own rule is still there, so that the chain cannot be deleted
    obtain ⟨e', member, same⟩ := List.mem_map.mp active'
    have there' : (t.insert forward (rules.eraseIdx (num - 1))).lookup
        (chain vmId nic.networkId) = some e'.rules := by
      rw [AList.lookup_insert_ne ne, ← same, filters.chains e' member]
    have second : (PacketFilter.Command.flush (chain vmId nic.networkId)).run iptables.valid
        (t.insert forward (rules.eraseIdx (num - 1))) =
          some ((t.insert forward (rules.eraseIdx (num - 1))).insert
            (chain vmId nic.networkId) []) := PacketFilter.run_flush there'
    have used : ¬ PacketFilter.Table.Unused ((t.insert forward (rules.eraseIdx (num - 1))).insert
        (chain vmId nic.networkId) []) (chain vmId nic.networkId) := by
      intro unused
      have left' : e' ∈ active.eraseP (·.begins vmId nic.networkId) :=
        (kept e').mpr ⟨member, fun eq => other (chain_injective (eq.symm.trans same)).2⟩
      have inside : e'.rule ∈ (rules.eraseIdx (num - 1)).filter isOwn := by
        rw [left]
        exact List.mem_map_of_mem left'
      have entry : ((t.insert forward (rules.eraseIdx (num - 1))).insert
          (chain vmId nic.networkId) []).lookup forward = some (rules.eraseIdx (num - 1)) := by
        rw [AList.lookup_insert_ne ne.symm, here]
      exact unused _ (AList.mem_lookup_iff.mp entry) _ (List.mem_filter.mp inside).1
        (congrArg _ same)
    have third : (PacketFilter.Command.deleteChain (chain vmId nic.networkId)).run iptables.valid
        ((t.insert forward (rules.eraseIdx (num - 1))).insert (chain vmId nic.networkId) []) =
          none := by
      simp only [PacketFilter.Command.run, AList.lookup_insert]
      exact if_neg used
    refine ⟨(t.insert forward (rules.eraseIdx (num - 1))).insert (chain vmId nic.networkId) [],
      rules.eraseIdx (num - 1), ?_, ?_, left⟩
    · simp only [deactivateNic, number, purgeChain, runRules, deleted, second, third]
    · rw [AList.lookup_insert_ne ne.symm, here]
  · have missing : (t.insert forward (rules.eraseIdx (num - 1))).lookup
        (chain vmId nic.networkId) = none := by
      rw [AList.lookup_insert_ne ne, filters.others _ _ active']
    have second : (PacketFilter.Command.flush (chain vmId nic.networkId)).run iptables.valid
        (t.insert forward (rules.eraseIdx (num - 1))) = none := by
      simp only [PacketFilter.Command.run, missing]
    refine ⟨t.insert forward (rules.eraseIdx (num - 1)), _, ?_, here, left⟩
    simp only [deactivateNic, number, purgeChain, runRules, deleted, second]

theorem deactivateNic_of_not_found (filters : Filters t active)
    (none : active.find? (·.begins vmId nic.networkId) = none) :
    deactivateNic iptables vmId t nic = (t, true) := by
  rcases @ruleNum_spec iptables t active vmId nic.networkId lists filters with
    ⟨-, number⟩ | ⟨e, rules, num, found, -⟩
  · simp only [deactivateNic, number]
  · cases none.symm.trans found

/-- The chain of a NIC is removed, and those of the other NICs are left, if and only if its own
line is the first one in which its name is found. Otherwise the script fails. -/
theorem deactivateNic_exact_iff (filters : Filters t active) :
    (∃ t', deactivateNic iptables vmId t nic = (t', true) ∧
        Filters t' (active.eraseP (·.begins vmId nic.networkId))) ↔
      ∀ e ∈ active.find? (·.begins vmId nic.networkId), e.nic.networkId = nic.networkId := by
  cases found : active.find? (·.begins vmId nic.networkId) with
  | none =>
    refine ⟨fun _ e there => (by cases there), fun _ => ⟨t, ?_, ?_⟩⟩
    · exact deactivateNic_of_not_found lists filters found
    · rwa [List.eraseP_of_forall_not fun e member => List.find?_eq_none.mp found e member]
  | some e =>
    constructor
    · intro h e' there
      obtain ⟨t', runs, -⟩ := h
      cases there
      by_contra other
      obtain ⟨t'', -, fails, -⟩ := deactivateNic_of_other lists filters found other
      cases runs.symm.trans fails
    · exact fun own => deactivateNic_of_found lists filters found (own e rfl)

/-- Its name is found in no other NIC's, if the numbers of the networks of the VM do not begin
each other. -/
theorem deactivateNic_of_apart (filters : Filters t active)
    (apart : ∀ e ∈ active, e.begins vmId nic.networkId = true →
      e.nic.networkId = nic.networkId) :
    ∃ t', deactivateNic iptables vmId t nic = (t', true) ∧
      Filters t' (active.filter fun e => ¬ (e.vmId = vmId ∧ e.nic.networkId = nic.networkId)) := by
  have begins (e : FilteredNic) (member : e ∈ active) : e.begins vmId nic.networkId = true ↔
      e.vmId = vmId ∧ e.nic.networkId = nic.networkId := by
    constructor
    · exact fun begins => ⟨(of_decide_eq_true begins).1, apart e member begins⟩
    · intro h
      obtain ⟨vm, network⟩ := h
      rw [FilteredNic.begins, decide_eq_true_eq, network]
      exact ⟨vm, List.prefix_rfl⟩
  have exact_ : ∀ e ∈ active.find? (·.begins vmId nic.networkId),
      e.nic.networkId = nic.networkId := fun e found =>
    apart e (List.mem_of_find?_eq_some found)
      (List.find?_some (p := fun e : FilteredNic => e.begins vmId nic.networkId) found)
  obtain ⟨t', runs, filters'⟩ := (deactivateNic_exact_iff lists filters).mpr exact_
  refine ⟨t', runs, ?_⟩
  have same : active.eraseP (·.begins vmId nic.networkId) =
      active.filter fun e => ¬ (e.vmId = vmId ∧ e.nic.networkId = nic.networkId) := by
    have distinct := filters.distinct
    clear filters filters' runs exact_ apart
    induction active with
    | nil => rfl
    | cons e rest ih =>
      rw [List.map_cons, List.nodup_cons] at distinct
      have later := ih (fun e' member => begins e' (List.mem_cons_of_mem _ member)) distinct.2
      by_cases first : e.begins vmId nic.networkId = true
      · have is := (begins e List.mem_cons_self).mp first
        rw [List.eraseP_cons, first, cond_true, List.filter_cons_of_neg (by simp [is])]
        refine (List.filter_eq_self.mpr fun e' member => ?_).symm
        have apart : ¬ (e'.vmId = vmId ∧ e'.nic.networkId = nic.networkId) := by
          intro same
          refine distinct.1 (List.mem_map.mpr ⟨e', member, ?_⟩)
          rw [FilteredNic.chain, FilteredNic.chain, same.1, same.2, is.1, is.2]
        exact decide_eq_true apart
      · have is := mt (begins e List.mem_cons_self).mpr first
        rw [List.eraseP_cons, Bool.eq_false_of_not_eq_true first, cond_false,
          List.filter_cons, if_pos (decide_eq_true is), later]
  rwa [same] at filters'

/-- The NICs of a VM that are left when it is cleaned up. -/
def leaves (vmId : Nat) (nics : List FirewallNic) (e : FilteredNic) : Bool :=
  ¬ (e.vmId = vmId ∧ e.nic.networkId ∈ (nics.filter selected).map FirewallNic.networkId)

/-- A VM is cleaned up, if the numbers of its networks do not begin each other. -/
theorem deactivate_of_apart {nics : List FirewallNic} (filters : Filters t active)
    (apart : ∀ nic ∈ nics.filter selected, ∀ e ∈ active,
      e.begins vmId nic.networkId = true → e.nic.networkId = nic.networkId) :
    ∃ t', deactivate iptables vmId nics t = (t', true) ∧
      Filters t' (active.filter (leaves vmId nics)) := by
  unfold deactivate leaves
  generalize nics.filter selected = picked at apart ⊢
  induction picked generalizing t active with
  | nil => exact ⟨t, rfl, by simpa using filters⟩
  | cons nic picked ih =>
    obtain ⟨t', runs, filters'⟩ := deactivateNic_of_apart lists filters
      (apart nic List.mem_cons_self)
    obtain ⟨t'', rest, all⟩ := ih filters' fun nic' member e there =>
      apart nic' (List.mem_cons_of_mem _ member) e (List.mem_of_mem_filter there)
    refine ⟨t'', ?_, ?_⟩
    · simp only [eachNic, runs]
      exact rest
    · rw [List.filter_filter] at all
      have same : (fun e : FilteredNic =>
          decide (¬ (e.vmId = vmId ∧ e.nic.networkId ∈ picked.map FirewallNic.networkId)) &&
            decide (¬ (e.vmId = vmId ∧ e.nic.networkId = nic.networkId))) =
          fun e => decide (¬ (e.vmId = vmId ∧
            e.nic.networkId ∈ (nic :: picked).map FirewallNic.networkId)) := by
        funext e
        rw [← Bool.decide_and, decide_eq_decide, List.map_cons, List.mem_cons]
        tauto
      rwa [same] at all

end Removal

end OpenNebulaFirewall

end Ezilla
