import Ezilla.Template
import Ezilla.Lib.PacketFilter
import Mathlib.Data.List.Infix

/-!
# The firewall of a NIC

The network driver `fw` runs on the host of a VM. When the VM has booted it makes a chain for
each NIC with the ports that are open or closed for it, and sends the packets that leave through
the interface of the NIC to this chain. When the VM is gone it looks the chains up in the listing
of `FORWARD` and removes them.

* `FirewallNic`: what the driver reads of a NIC;
* `OpenNebulaFirewall.activate`, `OpenNebulaFirewall.deactivate`: the two scripts;
* `FirewallNic.verdict`: what the attributes of the NIC ask for.

A script stops at the first command that fails. The scripts of one host run one at a time.
-/

namespace Ezilla

/-! ## Packets and rules -/

inductive IpProtocol where
  | tcp
  | udp
  | icmp
  | other
  deriving DecidableEq, Repr

/-- A packet that is forwarded, with the bridge port it leaves by. -/
structure ForwardedPacket where
  physdevOut : String
  protocol : IpProtocol
  established : Bool
  dport : Nat
  deriving DecidableEq, Repr

/-- The conditions of the rules. -/
inductive FilterMatch where
  /-- `-m physdev --physdev-out` -/
  | physdevOut (tap : String)
  /-- `-p` -/
  | protocol (proto : IpProtocol)
  /-- `-m state --state ESTABLISHED` -/
  | established
  /-- `-m multiport --dports` -/
  | dports (range : List Char)
  /-- `-m comment --comment` -/
  | comment (text : List Char)
  deriving DecidableEq, Repr

/-- One port, or the first and the last of some. -/
def portRange (item : List Char) : Option (Nat × Nat) :=
  match item.splitOn ':' with
  | [port] => if port ≠ [] ∧ port.all Char.isDigit then
      some (digitsValue port, digitsValue port) else none
  | [first, last] => if first ≠ [] ∧ last ≠ [] ∧ (first ++ last).all Char.isDigit then
      some (digitsValue first, digitsValue last) else none
  | _ => none

/-- The ports of a list that `range?` takes: numbers and ranges with commas between them. -/
def portRanges (range : List Char) : Option (List (Nat × Nat)) :=
  (range.splitOn ',').mapM portRange

/-- A port is in a list. -/
def inPorts (range : List Char) (port : Nat) : Bool :=
  ((portRanges range).getD []).any fun ports => ports.1 ≤ port ∧ port ≤ ports.2

/-- When a condition holds of a packet. -/
def FilterMatch.sees : FilterMatch → ForwardedPacket → Bool
  | .physdevOut tap, p => p.physdevOut = tap
  | .protocol proto, p => p.protocol = proto
  | .established, p => p.established
  | .dports range, p => inPorts range p.dport
  | .comment _, _ => true

/-- The text of its own that a condition has. -/
def FilterMatch.text : FilterMatch → List Char
  | .physdevOut tap => tap.toList
  | .protocol _ | .established => []
  | .dports range => range
  | .comment text => text

abbrev FilterRule := PacketFilter.Rule String FilterMatch
abbrev FilterTable := PacketFilter.Table String FilterMatch
abbrev FilterCommand := PacketFilter.Command String FilterMatch

/-- What `iptables` takes and how it prints: rules that are refused as they are, and the lines of
a listing. -/
structure Iptables where
  valid : FilterRule → Bool
  line : FilterRule → List Char

/-! ## NICs -/

/-- What the driver reads of a NIC. A NIC that is not in a network has no number of one, and the
element of an attribute may have no text. -/
structure FirewallNic where
  networkId : Option Nat := none
  tap : Option String := none
  whitePortsTcp : Option (Option String) := none
  blackPortsTcp : Option (Option String) := none
  whitePortsUdp : Option (Option String) := none
  blackPortsUdp : Option (Option String) := none
  icmp : Option (Option String) := none
  deriving DecidableEq, Repr

namespace OpenNebulaFirewall

/-- The NICs of `XPATH_FILTER`. -/
def selected (nic : FirewallNic) : Bool :=
  nic.icmp.isSome || nic.whitePortsTcp.isSome || nic.whitePortsUdp.isSome ||
    nic.blackPortsTcp.isSome || nic.blackPortsUdp.isSome

/-- How a number of a network is printed. -/
def networkText (networkId : Option Nat) : List Char :=
  (networkId.map (Nat.toDigits 10)).getD []

/-- The name of the chain of a NIC. -/
def chainName (vmId : Nat) (networkId : Option Nat) : List Char :=
  "one-".toList ++ Nat.toDigits 10 vmId ++ '-' :: networkText networkId

def chain (vmId : Nat) (networkId : Option Nat) : String :=
  String.ofList (chainName vmId networkId)

/-! ## Rules -/

/-- `\s` in a regular expression. -/
def isSpace (c : Char) : Bool :=
  c = ' ' ∨ c = '\t' ∨ c = '\n' ∨ c = '\r' ∨ c.toNat = 11 ∨ c.toNat = 12

/-- The text of a list of ports without blanks. -/
def portText (range : String) : List Char := range.toList.filter fun c => !isSpace c

def filterEstablished (protocol : IpProtocol) (policy : PacketFilter.Verdict) : FilterRule :=
  { conditions := [.protocol protocol, .established], target := .verdict policy }

def filterProtocol (protocol : IpProtocol) (policy : PacketFilter.Verdict) : FilterRule :=
  { conditions := [.protocol protocol], target := .verdict policy }

/-- There is no rule for a list that `range?` does not take. -/
def filterPorts (protocol : IpProtocol) (range : String) (policy : PacketFilter.Verdict) :
    Option FilterRule :=
  if (portRanges (portText range)).isSome then
    some { conditions := [.protocol protocol, .dports (portText range)], target := .verdict policy }
  else none

/-- The rules for TCP or UDP; the closed ports are not read when there are open ones. -/
def portRules (protocol : IpProtocol) (white black : Option String) : List (Option FilterRule) :=
  match white, black with
  | some range, _ =>
    [some (filterEstablished protocol .accept), filterPorts protocol range .accept,
      some (filterProtocol protocol .drop)]
  | none, some range => [filterPorts protocol range .drop]
  | none, none => []

/-- ICMP is closed. -/
def closesIcmp (icmp : Option String) : Bool :=
  match icmp with
  | none => false
  | some text => text.toLower = "no" ∨ text.toLower = "drop"

def icmpRules (icmp : Option String) : List (Option FilterRule) :=
  if closesIcmp icmp then
    [some (filterEstablished .icmp .accept), some (filterProtocol .icmp .drop)]
  else []

/-- `nic_rules`; `none` stands for a `nil` among the rules. -/
def nicRules (nic : FirewallNic) : List (Option FilterRule) :=
  portRules .tcp nic.whitePortsTcp.join nic.blackPortsTcp.join ++
    portRules .udp nic.whitePortsUdp.join nic.blackPortsUdp.join ++ icmpRules nic.icmp.join

def tapToChain (tap : String) (chain : String) : FilterRule :=
  { conditions := [.physdevOut tap], target := .jump chain }

/-! ## Scripts -/

/-- The built-in chain for packets that are forwarded. -/
def forward : String := "FORWARD"

variable (iptables : Iptables)

/-- The table after a script, and whether it came to its end. -/
abbrev Ran := FilterTable × Bool

/-- `run_rules`: a `nil` is an empty command, and the script exits at a command that fails. -/
def runRules (t : FilterTable) : List (Option FilterCommand) → Ran
  | [] => (t, true)
  | none :: rest => runRules t rest
  | some command :: rest =>
    match command.run iptables.valid t with
    | none => (t, false)
    | some t' => runRules t' rest

/-- The commands of `process_chain`. -/
def processChain (chain tap : String) (rules : List (Option FilterRule)) :
    List (Option FilterCommand) :=
  if rules = [] then []
  else some (.newChain chain) :: some (.append forward (tapToChain tap chain)) ::
    rules.map (Option.map (.append chain))

/-- The script does something for each NIC, and exits where something fails. -/
def eachNic (run : FilterTable → FirewallNic → Ran) (t : FilterTable) : List FirewallNic → Ran
  | [] => (t, true)
  | nic :: rest =>
    match run t nic with
    | (t', true) => eachNic run t' rest
    | (t', false) => (t', false)

def activateNic (vmId : Nat) (t : FilterTable) (nic : FirewallNic) : Ran :=
  match nic.tap with
  | none => (t, true)
  | some tap => runRules iptables t (processChain (chain vmId nic.networkId) tap (nicRules nic))

def activate (vmId : Nat) (nics : List FirewallNic) (t : FilterTable) : Ran :=
  eachNic (activateNic iptables vmId) t (nics.filter selected)

/-- The commands of `purge_chain`. -/
def purgeChain (chain : String) (ruleNum : Nat) : List (Option FilterCommand) :=
  [some (.deleteRule forward ruleNum), some (.flush chain), some (.deleteChain chain)]

/-- The number of the first line with the name of a chain in it. -/
def ruleNum (t : FilterTable) (chain : List Char) : Option Nat :=
  (((t.lookup forward).getD []).findIdx? fun r => chain <:+: iptables.line r).map (· + 1)

def deactivateNic (vmId : Nat) (t : FilterTable) (nic : FirewallNic) : Ran :=
  match ruleNum iptables t (chainName vmId nic.networkId) with
  | none => (t, true)
  | some num => runRules iptables t (purgeChain (chain vmId nic.networkId) num)

def deactivate (vmId : Nat) (nics : List FirewallNic) (t : FilterTable) : Ran :=
  eachNic (deactivateNic iptables vmId) t (nics.filter selected)

end OpenNebulaFirewall

/-! ## What is asked for -/

/-- What the ports that are open or closed say about a packet. -/
def portVerdict (white black : Option String) (p : ForwardedPacket) :
    Option PacketFilter.Verdict :=
  match white, black with
  | some range, _ =>
    some (if p.established ∨ inPorts (OpenNebulaFirewall.portText range) p.dport then .accept
      else .drop)
  | none, some range =>
    if inPorts (OpenNebulaFirewall.portText range) p.dport then some .drop else none
  | none, none => none

/-- What the attributes of a NIC say about a packet for it. -/
def FirewallNic.verdict (nic : FirewallNic) (p : ForwardedPacket) : Option PacketFilter.Verdict :=
  match p.protocol with
  | .tcp => portVerdict nic.whitePortsTcp.join nic.blackPortsTcp.join p
  | .udp => portVerdict nic.whitePortsUdp.join nic.blackPortsUdp.join p
  | .icmp =>
    if OpenNebulaFirewall.closesIcmp nic.icmp.join then
      some (if p.established then .accept else .drop)
    else none
  | .other => none

end Ezilla
