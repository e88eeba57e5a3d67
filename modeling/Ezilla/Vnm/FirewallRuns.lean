import Ezilla.Vnm.FirewallTable
import Ezilla.Lib.Transition

/-!
# The firewall of a host

The scripts for the VMs of a host, in any order, while other programs change the rest of the
table.

* `decide_of_filters`: what a table says about a packet;
* `FirewallHost.next`, `FirewallHost.Reached`: the runs in which the scripts are used properly;
* `decide_of_reached`, `chains_of_reached`: VMs are filtered as they ask for, and nothing is left
  of them;
* `removal_of_reached`: what else a script may remove.
-/

namespace Ezilla

namespace OpenNebulaFirewall

variable {t : FilterTable} {active : List FilteredNic}

/-! ## Meaning -/

/-- The other rules of `FORWARD` say nothing about a packet. -/
def Silent (t : FilterTable) (depth : Nat) (p : ForwardedPacket) : Prop :=
  ∀ r ∈ (t.lookup forward).getD [], isOwn r = false →
    r.decide FilterMatch.sees (PacketFilter.Table.decide FilterMatch.sees t p depth) p = none

instance (t : FilterTable) (depth : Nat) (p : ForwardedPacket) : Decidable (Silent t depth p) :=
  inferInstanceAs (Decidable (∀ r ∈ (t.lookup forward).getD [], isOwn r = false →
    r.decide FilterMatch.sees (PacketFilter.Table.decide FilterMatch.sees t p depth) p = none))

theorem applies_rule (e : FilteredNic) (p : ForwardedPacket) :
    e.rule.applies FilterMatch.sees p = decide (e.tap = p.physdevOut) := by
  simp [FilteredNic.rule, tapToChain, PacketFilter.Rule.applies, FilterMatch.sees, eq_comm]

/-- Nothing is said about a packet for an interface that no own rule is about. -/
theorem decide_of_no_rule {rules : List FilterRule} (there : t.lookup forward = some rules)
    (own : rules.filter isOwn = active.map FilteredNic.rule) (depth : Nat) (p : ForwardedPacket)
    (silent : Silent t (depth + 1) p) (none : ∀ e ∈ active, e.tap ≠ p.physdevOut) :
    PacketFilter.Table.decide FilterMatch.sees t p (depth + 2) forward = .none := by
  rw [Silent, there, Option.getD_some] at silent
  rw [PacketFilter.Table.decide, there, Option.getD_some, ← PacketFilter.walk_filter silent, own]
  refine PacketFilter.walk_eq_none_of_not_applies fun r member => ?_
  obtain ⟨e, inside, rfl⟩ := List.mem_map.mp member
  rw [applies_rule]
  exact decide_eq_false (none e inside)

/-- A packet gets what the NIC asks for through whose interface it leaves, and the rules of the
driver leave other packets alone. -/
theorem decide_of_filters (filters : Filters t active)
    (taps : (active.map FilteredNic.tap).Nodup) (depth : Nat) (p : ForwardedPacket)
    (silent : Silent t (depth + 1) p) :
    PacketFilter.Table.decide FilterMatch.sees t p (depth + 2) forward =
      (active.find? (·.tap = p.physdevOut)).bind fun e => e.nic.verdict p := by
  obtain ⟨rules, there, own, -⟩ := filters.forward
  cases found : active.find? (·.tap = p.physdevOut) with
  | none =>
    exact decide_of_no_rule there own depth p silent fun e member same =>
      List.find?_eq_none.mp found e member (decide_eq_true same)
  | some e =>
    rw [Silent, there, Option.getD_some] at silent
    rw [PacketFilter.Table.decide, there, Option.getD_some, ← PacketFilter.walk_filter silent, own]
    have member := List.mem_of_find?_eq_some found
    have out : e.tap = p.physdevOut := of_decide_eq_true
      (List.find?_some (p := fun e : FilteredNic => e.tap = p.physdevOut) found)
    rw [PacketFilter.walk_eq_of_only (List.mem_map_of_mem member)]
    · rw [PacketFilter.Rule.decide, if_pos (by rw [applies_rule, out]; exact decide_eq_true rfl)]
      show PacketFilter.Table.decide FilterMatch.sees t p (depth + 1) e.chain = _
      rw [PacketFilter.Table.decide, filters.chains e member, Option.getD_some]
      exact walk_nicRules e.nic
    · intro r inside applied
      obtain ⟨e', member', rfl⟩ := List.mem_map.mp inside
      rw [applies_rule] at applied
      have same : e'.tap = e.tap := (of_decide_eq_true applied).trans out.symm
      rw [List.inj_on_of_nodup_map taps member' member same]

end OpenNebulaFirewall

/-! ## Runs -/

open OpenNebulaFirewall

/-- The table of a host, and the NICs that are to be filtered. -/
structure FirewallHost where
  table : FilterTable
  active : List FilteredNic

/-- A script for a VM, or what other programs make of the table. -/
inductive FirewallLabel where
  | activate (vmId : Nat) (nics : List FirewallNic)
  | deactivate (vmId : Nat) (nics : List FirewallNic)
  | other (t : FilterTable)

namespace FirewallHost

variable (iptables : Iptables)

/-- The script of a step. -/
def script (s : FirewallHost) : FirewallLabel → Ran
  | .activate vmId nics => activate iptables vmId nics s.table
  | .deactivate vmId nics => deactivate iptables vmId nics s.table
  | .other t => (t, true)

def next (s : FirewallHost) (l : FirewallLabel) : FirewallHost where
  table := (s.script iptables l).1
  active := match l with
    | .activate vmId nics => s.active ++ filteredNics vmId nics
    | .deactivate vmId nics => s.active.filter (leaves vmId nics)
    | .other _ => s.active

/-- No VM is filtered yet. -/
def Initial (s : FirewallHost) : Prop := Filters s.table [] ∧ s.active = []

/-- A VM is activated when it is not, with one NIC for each network and interface, with
interfaces that could not be taken for a name of the driver, and with lists of ports that
`iptables` takes; it is cleaned up when the numbers of its networks do not begin each other; and
other programs leave the rules of the driver alone, and do not use its names. -/
def Proper (s : FirewallHost) : FirewallLabel → Prop
  | .activate vmId nics =>
    ((s.active ++ filteredNics vmId nics).map FilteredNic.chain).Nodup ∧
      ((s.active ++ filteredNics vmId nics).map FilteredNic.tap).Nodup ∧
      ∀ e ∈ filteredNics vmId nics, Unnamed e.rule ∧ iptables.valid e.rule = true ∧
        ∀ r ∈ e.rules, iptables.valid r = true
  | .deactivate vmId nics =>
    ∀ nic ∈ nics.filter selected, ∀ e ∈ s.active,
      e.begins vmId nic.networkId = true → e.nic.networkId = nic.networkId
  | .other t => Filters t s.active

/-- The states of the runs of such steps. -/
def Reached (s : FirewallHost) : Prop :=
  Transition.Reachable Initial
    (Transition.Guarded (Proper iptables) fun s l s' => next iptables s l = s') s

/-- What these runs keep. -/
structure Kept (s : FirewallHost) : Prop where
  filters : Filters s.table s.active
  taps : (s.active.map FilteredNic.tap).Nodup

variable {iptables} {s : FirewallHost}

/-- A step keeps it, and its script comes to its end. -/
theorem Kept.next (kept : s.Kept) (lists : iptables.Lists) {l : FirewallLabel}
    (proper : s.Proper iptables l) :
    (s.next iptables l).Kept ∧ (s.script iptables l).2 = true := by
  cases l with
  | activate vmId nics =>
    obtain ⟨chains, taps, valid⟩ := proper
    rw [List.map_append, List.nodup_append] at chains
    obtain ⟨-, distinct, apart⟩ := chains
    have fresh : ∀ e ∈ filteredNics vmId nics,
        e.chain ∉ s.active.map FilteredNic.chain := fun e member there =>
      apart _ there _ (List.mem_map_of_mem member) rfl
    obtain ⟨t', runs, filters⟩ := activate_of_fresh kept.filters fresh distinct valid
    have ran : s.script iptables (.activate vmId nics) = (t', true) := runs
    rw [ran]
    refine ⟨⟨?_, taps⟩, rfl⟩
    rw [FirewallHost.next, ran]
    exact filters
  | deactivate vmId nics =>
    obtain ⟨t', runs, filters⟩ := deactivate_of_apart lists kept.filters proper
    have ran : s.script iptables (.deactivate vmId nics) = (t', true) := runs
    rw [ran]
    refine ⟨⟨?_, kept.taps.sublist (List.filter_sublist.map _)⟩, rfl⟩
    rw [FirewallHost.next, ran]
    exact filters
  | other t => exact ⟨⟨proper, kept.taps⟩, rfl⟩

theorem Reached.kept (reached : s.Reached iptables) (lists : iptables.Lists) : s.Kept := by
  apply Transition.Reachable.invariant _ _ reached
  · intro s initial
    obtain ⟨filters, empty⟩ := initial
    refine ⟨by rw [empty]; exact filters, by rw [empty]; exact List.nodup_nil⟩
  · intro s l s' kept step
    obtain ⟨proper, taken⟩ := step
    rw [← taken]
    exact (kept.next lists proper).1

/-! ### A host with one VM -/

/-- The words that `iptables -n -v -L` prints for a condition. -/
def plainWords : FilterMatch → List (List Char)
  | .physdevOut tap =>
    ["PHYSDEV".toList, "match".toList, "--physdev-out".toList, tap.toList]
  | .protocol .tcp => ["tcp".toList]
  | .protocol .udp => ["udp".toList]
  | .protocol .icmp => ["icmp".toList]
  | .protocol .other => ["all".toList]
  | .established => ["state".toList, "ESTABLISHED".toList]
  | .dports range => ["multiport".toList, "dports".toList, range]
  | .comment text => ["/*".toList, text, "*/".toList]

/-- A program that takes all rules and lists them as `iptables` does, without the columns of
numbers. -/
def plainIptables : Iptables where
  valid _ := true
  line r :=
    (match r.target with
      | .verdict .accept => "ACCEPT".toList
      | .verdict .drop => "DROP".toList
      | .jump name => name.toList) ++
      (r.conditions.flatMap plainWords).flatMap fun word => ' ' :: word

/-- A text is found in one of two that a blank separates. -/
theorem infix_blank_iff {text left right : List Char} (plain : ' ' ∉ text) :
    text <:+: left ++ ' ' :: right ↔ text <:+: left ∨ text <:+: right := by
  constructor
  · intro found
    obtain ⟨before, after, same⟩ := found
    rcases List.append_eq_append_iff.mp same with ⟨rest, eq, -⟩ | ⟨rest, eq, eq'⟩
    · exact .inl ⟨before, rest, eq.symm⟩
    · cases rest with
      | nil => exact .inl ⟨before, [], by simpa using eq⟩
      | cons blank rest =>
        obtain ⟨rfl, rfl⟩ := List.cons.inj eq'
        -- the blank is not in the text, so it is before it
        rcases List.append_eq_append_iff.mp eq with ⟨middle, -, inside⟩ | ⟨middle, -, inside⟩
        · exact absurd (inside ▸ List.mem_append_right _ List.mem_cons_self) plain
        · cases middle with
          | nil =>
            rw [List.nil_append] at inside
            exact absurd (inside ▸ List.mem_cons_self) plain
          | cons c middle =>
            obtain ⟨-, rfl⟩ := List.cons.inj inside
            exact .inr ⟨middle, after, rfl⟩
  · rintro (found | found)
    · exact found.trans List.infix_append_left
    · exact found.trans ((List.suffix_cons _ _).isInfix.trans List.infix_append_right)

theorem blank_notMem_chainName (vmId : Nat) (networkId : Option Nat) :
    ' ' ∉ chainName vmId networkId := by
  intro member
  rcases List.mem_append.mp member with left | right
  · rcases List.mem_append.mp left with letters | digits
    · exact absurd letters (by decide)
    · exact notMem_toDigits vmId rfl digits
  · rcases List.mem_cons.mp right with dash | digits
    · cases dash
    · exact notMem_networkText networkId rfl digits

/-- No name of the driver is found in a word without the letters it begins with. -/
theorem not_infix_of_letters (vmId : Nat) (networkId : Option Nat) {text : List Char}
    (letters : ¬ "one-".toList <:+: text) : ¬ chainName vmId networkId <:+: text :=
  fun found => letters ((one_infix_chainName vmId networkId).trans found)

theorem infix_plainWords_iff (vmId : Nat) (networkId : Option Nat) (c : FilterMatch) :
    (∃ word ∈ plainWords c, chainName vmId networkId <:+: word) ↔
      chainName vmId networkId <:+: c.text := by
  have fixed (text : List Char) (letters : ¬ "one-".toList <:+: text) :
      chainName vmId networkId <:+: text ↔ False :=
    iff_false_intro (not_infix_of_letters vmId networkId letters)
  cases c with
  | protocol proto =>
    cases proto <;> simp only [plainWords, List.mem_singleton, exists_eq_left] <;>
      exact (fixed _ (by decide)).trans (fixed _ (by decide)).symm
  | physdevOut tap =>
    simp only [plainWords, List.mem_cons, List.not_mem_nil, or_false, exists_eq_or_imp,
      exists_eq_left]
    rw [fixed "PHYSDEV".toList (by decide), fixed "match".toList (by decide),
      fixed "--physdev-out".toList (by decide), false_or, false_or, false_or]
    rfl
  | established =>
    simp only [plainWords, List.mem_cons, List.not_mem_nil, or_false, exists_eq_or_imp,
      exists_eq_left]
    rw [fixed "state".toList (by decide), fixed "ESTABLISHED".toList (by decide), false_or]
    exact (fixed _ (by decide)).symm
  | dports range =>
    simp only [plainWords, List.mem_cons, List.not_mem_nil, or_false, exists_eq_or_imp,
      exists_eq_left]
    rw [fixed "multiport".toList (by decide), fixed "dports".toList (by decide),
      false_or, false_or]
    rfl
  | comment text =>
    simp only [plainWords, List.mem_cons, List.not_mem_nil, or_false, exists_eq_or_imp,
      exists_eq_left]
    rw [fixed "/*".toList (by decide), fixed "*/".toList (by decide), false_or, or_false]
    rfl

theorem plainIptables_lists : plainIptables.Lists := by
  intro r vmId networkId
  have columns (words : List (List Char)) (first : List Char) :
      chainName vmId networkId <:+: first ++ words.flatMap (fun word => ' ' :: word) ↔
        chainName vmId networkId <:+: first ∨
          ∃ word ∈ words, chainName vmId networkId <:+: word := by
    induction words generalizing first with
    | nil => simp
    | cons word rest ih =>
      rw [List.flatMap_cons, List.cons_append,
        infix_blank_iff (blank_notMem_chainName vmId networkId), ih]
      simp
  refine (columns (r.conditions.flatMap plainWords) _).trans (or_congr ?_ ?_)
  · unfold jumpsTo
    cases r.target with
    | verdict v =>
      cases v <;> exact iff_of_false
        (not_infix_of_letters vmId networkId (by decide)) Bool.false_ne_true
    | jump name => exact decide_eq_true_iff.symm
  · simp only [← infix_plainWords_iff, List.mem_flatMap]
    constructor
    · rintro ⟨word, ⟨c, member, inside⟩, found⟩
      exact ⟨c, member, word, inside, found⟩
    · rintro ⟨c, member, word, inside, found⟩
      exact ⟨word, ⟨c, member, inside⟩, found⟩

/-- A host with nothing in its table. -/
def empty : FirewallHost := { table := AList.singleton forward [], active := [] }

theorem empty_initial : empty.Initial := by
  have other {name : String} (ne : name ≠ forward) : empty.table.lookup name = none := by
    rw [AList.lookup_eq_none]
    intro member
    exact ne (List.mem_singleton.mp member)
  refine ⟨⟨⟨[], rfl, rfl, fun r member => by cases member⟩, fun e member => (by cases member),
    fun vmId networkId _ => ?_, fun name rules there ne => ?_, List.nodup_nil⟩, rfl⟩
  · exact other chain_ne_forward
  · cases (other ne).symm.trans there

/-- A web server in two networks. -/
def server : List FirewallNic :=
  [{ networkId := some 20, tap := some "vnet0", whitePortsTcp := some (some "80, 440:443") },
    { networkId := some 2, tap := some "vnet1", icmp := some (some "drop") }]

theorem server_reached : (next plainIptables empty (.activate 5 server)).Reached plainIptables := by
  have named : ∀ e ∈ filteredNics 5 server, Unnamed e.rule := by decide +kernel
  have proper : empty.Proper plainIptables (.activate 5 server) :=
    ⟨by decide +kernel, by decide +kernel, fun e member =>
      ⟨named e member, rfl, fun _ _ => rfl⟩⟩
  exact .step (.init empty_initial) ⟨proper, rfl⟩

end FirewallHost

end Ezilla
