import Ezilla.Vnm.Firewall

/-!
# The rules of a NIC and the names of their chains

* `walk_nicRules`: what the rules of a NIC say about a packet is what its attributes ask for;
* `chainName_found_iff`: when the name of a chain is found in the name of another.
-/

namespace Ezilla

open PacketFilter (walk walk_append)

namespace OpenNebulaFirewall

/-! ## Rules -/

section Rules

variable {call : String → Option PacketFilter.Verdict} {p : ForwardedPacket}
  {proto : IpProtocol} {white black : Option String} {icmp : Option String}

/-- The rules without the `nil`s. -/
def present (rules : List (Option FilterRule)) : List FilterRule := rules.filterMap id

theorem decide_filterEstablished (policy : PacketFilter.Verdict) :
    (filterEstablished proto policy).decide FilterMatch.sees call p =
      if p.protocol = proto ∧ p.established = true then some policy else none := by
  simp [filterEstablished, PacketFilter.Rule.decide, PacketFilter.Rule.applies,
    PacketFilter.Target.decide, FilterMatch.sees]

theorem decide_filterProtocol (policy : PacketFilter.Verdict) :
    (filterProtocol proto policy).decide FilterMatch.sees call p =
      if p.protocol = proto then some policy else none := by
  simp [filterProtocol, PacketFilter.Rule.decide, PacketFilter.Rule.applies,
    PacketFilter.Target.decide, FilterMatch.sees]

/-- The rule for a list of ports, if there is one. -/
theorem walk_filterPorts (range : String) (policy : PacketFilter.Verdict) :
    walk FilterMatch.sees call p (present [filterPorts proto range policy]) =
      if p.protocol = proto ∧ inPorts (portText range) p.dport = true then some policy
      else none := by
  unfold filterPorts
  cases ports : portRanges (portText range) with
  | none =>
    have out : inPorts (portText range) p.dport = false := by
      rw [inPorts, ports]
      rfl
    rw [if_neg (by simp), out]
    simp [present, walk]
  | some ranges =>
    simp [present, walk, PacketFilter.Rule.decide, PacketFilter.Rule.applies,
      PacketFilter.Target.decide, FilterMatch.sees]

theorem present_append (rules rest : List (Option FilterRule)) :
    present (rules ++ rest) = present rules ++ present rest := List.filterMap_append

theorem present_cons (r : FilterRule) (rest : List (Option FilterRule)) :
    present (some r :: rest) = r :: present rest := List.filterMap_cons_some rfl

theorem walk_cons (r : FilterRule) (rest : List FilterRule) :
    walk FilterMatch.sees call p (r :: rest) =
      (r.decide FilterMatch.sees call p).or (walk FilterMatch.sees call p rest) := by
  unfold walk
  rw [List.findSome?_cons]
  cases r.decide FilterMatch.sees call p <;> rfl

/-- The rules for a protocol say nothing about others. -/
theorem walk_portRules : walk FilterMatch.sees call p (present (portRules proto white black)) =
    if p.protocol = proto then portVerdict white black p else none := by
  cases white with
  | some range =>
    have rules : present (portRules proto (some range) black) =
        filterEstablished proto .accept :: (present [filterPorts proto range .accept] ++
          [filterProtocol proto .drop]) := by
      rw [portRules, present_cons, show [filterPorts proto range .accept,
        some (filterProtocol proto .drop)] = [filterPorts proto range .accept] ++
          [some (filterProtocol proto .drop)] from rfl, present_append]
      rfl
    rw [rules, walk_cons, walk_append, decide_filterEstablished, walk_filterPorts, walk_cons,
      decide_filterProtocol]
    by_cases same : p.protocol = proto
    · cases established : p.established <;>
        cases inside : inPorts (portText range) p.dport <;>
        simp [same, established, inside, portVerdict]
    · simp [same, walk]
  | none =>
    cases black with
    | some range =>
      rw [portRules, walk_filterPorts]
      by_cases same : p.protocol = proto <;> simp [same, portVerdict]
    | none => simp [portRules, portVerdict, present, walk]

theorem walk_icmpRules : walk FilterMatch.sees call p (present (icmpRules icmp)) =
    if p.protocol = .icmp ∧ closesIcmp icmp = true then
      some (if p.established then .accept else .drop)
    else none := by
  unfold icmpRules
  cases closes : closesIcmp icmp with
  | false => simp [present, walk]
  | true =>
    rw [if_pos rfl]
    by_cases same : p.protocol = .icmp
    · cases established : p.established <;>
        simp [same, established, present, walk, decide_filterEstablished,
          decide_filterProtocol]
    · simp [same, present, walk, decide_filterEstablished,
        decide_filterProtocol]

/-- The rules of a NIC do what its attributes ask for. -/
theorem walk_nicRules (nic : FirewallNic) :
    walk FilterMatch.sees call p (present (nicRules nic)) = nic.verdict p := by
  rw [nicRules, present_append, present_append, walk_append, walk_append, walk_portRules,
    walk_portRules, walk_icmpRules]
  unfold FirewallNic.verdict
  cases p.protocol with
  | tcp => simp
  | udp => simp
  | icmp => simp
  | other => simp

end Rules

/-! ## Names -/

section Names

variable {vmId vmId' : Nat} {networkId networkId' : Option Nat}

theorem notMem_toDigits {c : Char} (n : Nat) (other : c.isDigit = false) :
    c ∉ Nat.toDigits 10 n := by
  intro member
  have digit := Nat.isDigit_of_mem_toDigits (by decide) (by decide) member
  rw [other] at digit
  cases digit

theorem notMem_networkText {c : Char} (networkId : Option Nat) (other : c.isDigit = false) :
    c ∉ networkText networkId := by
  cases networkId with
  | none => exact List.not_mem_nil
  | some n => exact notMem_toDigits n other

theorem toDigits_injective {n m : Nat} (same : Nat.toDigits 10 n = Nat.toDigits 10 m) : n = m := by
  rw [← digitsValue_toDigits n, same, digitsValue_toDigits]

theorem networkText_injective (same : networkText networkId = networkText networkId') :
    networkId = networkId' := by
  cases networkId with
  | none =>
    cases networkId' with
    | none => rfl
    | some m => exact absurd same.symm Nat.toDigits_ne_nil
  | some n =>
    cases networkId' with
    | none => exact absurd same Nat.toDigits_ne_nil
    | some m => rw [toDigits_injective same]

/-- The first letter of a name stands nowhere else in it. -/
theorem chainName_eq (vmId : Nat) (networkId : Option Nat) :
    ∃ rest, chainName vmId networkId = 'o' :: rest ∧ 'o' ∉ rest := by
  refine ⟨_, rfl, ?_⟩
  intro member
  have cases : 'o' ∈ ['n', 'e', '-'] ++ Nat.toDigits 10 vmId ++ '-' :: networkText networkId :=
    member
  rcases List.mem_append.mp cases with left | right
  · rcases List.mem_append.mp left with letters | digits
    · simp at letters
    · exact notMem_toDigits vmId rfl digits
  · rcases List.mem_cons.mp right with dash | digits
    · cases dash
    · exact notMem_networkText networkId rfl digits

/-- A name is found in another one when they are of the same VM and the number of the network
begins the other one. -/
theorem chainName_found_iff : chainName vmId networkId <:+: chainName vmId' networkId' ↔
    vmId = vmId' ∧ networkText networkId <+: networkText networkId' := by
  constructor
  · intro found
    obtain ⟨before, after, same⟩ := found
    -- it can only be found at the start
    have start : before = [] := by
      obtain ⟨rest, first, -⟩ := chainName_eq vmId networkId
      obtain ⟨rest', first', once⟩ := chainName_eq vmId' networkId'
      rw [first, first', List.append_assoc] at same
      cases before with
      | nil => rfl
      | cons c before =>
        have tail : before ++ ('o' :: rest ++ after) = rest' := List.tail_eq_of_cons_eq same
        exact absurd (tail ▸ List.mem_append_right _ List.mem_cons_self) once
    rw [start, List.nil_append, chainName, chainName, List.append_assoc, List.append_assoc,
      List.append_assoc, List.append_cancel_left_eq] at same
    have parts : Nat.toDigits 10 vmId' ++ '-' :: networkText networkId' =
        Nat.toDigits 10 vmId ++ '-' :: (networkText networkId ++ after) := same.symm
    obtain ⟨vm, -, network⟩ := (List.append_cons_inj_of_notMem (notMem_toDigits vmId' rfl)
      (notMem_networkText networkId' rfl)).mp parts
    exact ⟨toDigits_injective vm.symm, after, network.symm⟩
  · intro h
    obtain ⟨rfl, after, network⟩ := h
    refine ⟨[], after, ?_⟩
    rw [chainName, chainName, ← network]
    simp only [List.nil_append, List.append_assoc, List.cons_append]

theorem chain_injective (same : chain vmId networkId = chain vmId' networkId') :
    vmId = vmId' ∧ networkId = networkId' := by
  have names : chainName vmId networkId = chainName vmId' networkId' :=
    String.ofList_injective same
  have forth : chainName vmId networkId <:+: chainName vmId' networkId' := by rw [names]
  have back : chainName vmId' networkId' <:+: chainName vmId networkId := by rw [names]
  obtain ⟨vm, left⟩ := chainName_found_iff.mp forth
  obtain ⟨-, right⟩ := chainName_found_iff.mp back
  exact ⟨vm, networkText_injective (left.eq_of_length_le right.length_le)⟩

theorem chain_ne_forward : chain vmId networkId ≠ forward := by
  intro same
  have names : chainName vmId networkId = forward.toList := by
    rw [← same, chain, String.toList_ofList]
  obtain ⟨rest, first, -⟩ := chainName_eq vmId networkId
  rw [first] at names
  cases names

end Names

end OpenNebulaFirewall

end Ezilla
