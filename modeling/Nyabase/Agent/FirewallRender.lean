import Nyabase.Common.Firewall

/-!
# The egress firewall table: `packages/agent/src/firewall-render.ts`

The source writes nft rules as text.  Here a rule is a list of matches and a verdict, its text is computed
from them, and so is what it does with a frame: the rule applies when every match holds, and the first
rule of the chain that applies decides.

What the guards look up in sets that change with traffic (budgets, learned MACs) is part of the frame's
surroundings.
-/

namespace Nyabase.Agent

open Lib Common

/-! ## Frames -/

inductive EtherType where
  | ip | arp | other
  deriving DecidableEq

/-- A frame at the prerouting hook, as far as the table looks at it. -/
structure Frame where
  iifname : String
  etherDaddr : Nat
  etherType : EtherType
  /-- `ether daddr` is in `@learned_macs`. -/
  learned : Bool
  /-- The NIC is over its budget for ARP broadcasts. -/
  arpOverBudget : Bool
  /-- The NIC is over its budget for frames to unlearned MACs. -/
  unlearnedOverBudget : Bool
  ipDaddr : Nat
  l4proto : Nat
  /-- The flags and the fragment offset of the IPv4 header. -/
  fragOff : Nat
  /-- The destination port of the transport header, which a non-first fragment does not carry. -/
  dport : Nat

/-- `MANAGED_NIC_HOST_NAME_PREFIX`. -/
def managedNicHostNamePrefix : String := "nyh"

namespace Frame

/-- `iifname "nyh*"`. -/
def fromGuest (frame : Frame) : Bool :=
  managedNicHostNamePrefix.toList.isPrefixOf frame.iifname.toList

def fragmentOffset (frame : Frame) : Nat := frame.fragOff % 0x2000

end Frame

/-! ## Rules -/

def protocolName : FirewallProtocol → String
  | .all => "all"
  | .tcp => "tcp"
  | .udp => "udp"

/-- The IP protocol number; `all` has none. -/
def protocolNumber : FirewallProtocol → Option Nat
  | .all => none
  | .tcp => some 6
  | .udp => some 17

inductive NftMatch where
  | guest
  | notGuest
  | notIpOrArp
  | etherBroadcast
  | etherArp
  | etherGroup
  | arpOverBudget
  | notLearned
  | unlearnedOverBudget
  /-- `ip daddr 224.0.0.0/3`. -/
  | daddrReserved
  | daddr (intervals : List AddressInterval)
  | l4proto (protocol : FirewallProtocol)
  | dport (protocol : FirewallProtocol) (ports : List FirewallPortRange)
  /-- `ip frag-off & 0x1fff != 0`. -/
  | laterFragment

inductive NftVerdict where
  | accept
  | drop
  | rejectTcpReset
  | rejectIcmp (kind : String)

structure NftRule where
  matches_ : List NftMatch
  verdict : NftVerdict

namespace NftMatch

/-- Does the match hold?  Whatever looks into the IP header takes the frame to be IPv4. -/
def holds (frame : Frame) : NftMatch → Bool
  | guest => frame.fromGuest
  | notGuest => !frame.fromGuest
  | notIpOrArp => frame.etherType = .other
  | etherBroadcast => frame.etherDaddr == 0xffffffffffff
  | etherArp => frame.etherType = .arp
  | etherGroup => frame.etherDaddr / 0x10000000000 % 2 == 1
  | arpOverBudget => frame.arpOverBudget
  | notLearned => !frame.learned
  | unlearnedOverBudget => frame.unlearnedOverBudget
  | daddrReserved => frame.etherType = .ip && frame.ipDaddr / 2 ^ 29 == 7
  | daddr intervals =>
    frame.etherType = .ip && intervals.any fun interval => interval.holds frame.ipDaddr
  | l4proto protocol => frame.etherType = .ip && protocolNumber protocol == some frame.l4proto
  | dport protocol ports =>
    frame.etherType = .ip && protocolNumber protocol == some frame.l4proto && frame.fragmentOffset == 0 &&
      ports.any fun range => decide (range.fromPort ≤ frame.dport) && decide (frame.dport ≤ range.toPort)
  | laterFragment => frame.etherType = .ip && frame.fragmentOffset != 0

end NftMatch

/-- What becomes of a frame. -/
def NftVerdict.action : NftVerdict → FirewallAction
  | accept => .accept
  | drop => .drop
  | rejectTcpReset => .reject
  | rejectIcmp _ => .reject

namespace NftRule

def applies (rule : NftRule) (frame : Frame) : Bool := rule.matches_.all fun m => m.holds frame

end NftRule

/-- The verdict of the first rule that applies. -/
def firstMatch (rules : List NftRule) (frame : Frame) : Option FirewallAction :=
  (rules.find? fun rule => rule.applies frame).map fun rule => rule.verdict.action

/-! ## Text -/

/-- An anonymous set. -/
def nftSet (elements : List String) : String := "\x7b " ++ ", ".intercalate elements ++ " \x7d"

def guestsText : String := "\"" ++ managedNicHostNamePrefix ++ "*\""

def limitOver (perSecond burst : Nat) : String :=
  s!"limit rate over {perSecond}/second burst {burst} packets"

def intervalText (interval : AddressInterval) : String :=
  if interval.first == interval.last then interval.first else interval.first ++ "-" ++ interval.last

def portRangeText (range : FirewallPortRange) : String :=
  if range.fromPort == range.toPort then toString range.fromPort
  else toString range.fromPort ++ "-" ++ toString range.toPort

def NftMatch.text : NftMatch → String
  | guest => "iifname " ++ guestsText
  | notGuest => "iifname != " ++ guestsText
  | notIpOrArp => "ether type != " ++ nftSet ["ip", "arp"]
  | etherBroadcast => "ether daddr ff:ff:ff:ff:ff:ff"
  | etherArp => "ether type arp"
  | etherGroup => "ether daddr & 01:00:00:00:00:00 == 01:00:00:00:00:00"
  | arpOverBudget => "update @arp_broadcast_budget " ++ nftSet ["iifname " ++ limitOver 20 100]
  | notLearned => "ether daddr != @learned_macs"
  | unlearnedOverBudget => "update @unlearned_budget " ++ nftSet ["iifname " ++ limitOver 20 200]
  | daddrReserved => "ip daddr 224.0.0.0/3"
  | daddr intervals => "ip daddr " ++ nftSet (intervals.map intervalText)
  | l4proto protocol => "meta l4proto " ++ protocolName protocol
  | dport protocol ports => protocolName protocol ++ " dport " ++ nftSet (ports.map portRangeText)
  | laterFragment => "ip frag-off & 0x1fff != 0"

def NftVerdict.text : NftVerdict → String
  | accept => "accept"
  | drop => "drop"
  | rejectTcpReset => "reject with tcp reset"
  | rejectIcmp kind => "reject with icmp type " ++ kind

def NftRule.text (rule : NftRule) : String :=
  " ".intercalate (rule.matches_.map NftMatch.text ++ [rule.verdict.text])

/-! ## Rendering -/

/-- The verdict of a rule on tcp or udp. -/
def protocolVerdict (protocol : FirewallProtocol) : FirewallAction → NftVerdict
  | .accept => .accept
  | .drop => .drop
  | .reject => if protocol = .tcp then .rejectTcpReset else .rejectIcmp "port-unreachable"

/-- The rules for one spec with its address match, in order: one, or two for reject on every protocol and
for accept with ports. -/
def rulesFor (daddr : NftMatch) (rule : FirewallRuleSpec) : List NftRule :=
  if rule.protocol = .all then
    match rule.action with
    | .accept => [⟨[daddr], .accept⟩]
    | .drop => [⟨[daddr], .drop⟩]
    | .reject =>
      [⟨[daddr, .l4proto .tcp], .rejectTcpReset⟩, ⟨[daddr], .rejectIcmp "admin-prohibited"⟩]
  else if rule.ports.isEmpty then
    [⟨[daddr, .l4proto rule.protocol], protocolVerdict rule.protocol rule.action⟩]
  else
    ⟨[daddr, .l4proto rule.protocol, .dport rule.protocol rule.ports], protocolVerdict rule.protocol rule.action⟩ ::
      -- non-first fragments carry no ports, so a rule of their own accepts them
      if rule.action = .accept then [⟨[daddr, .laterFragment, .l4proto rule.protocol], .accept⟩] else []

def firewallRules (rule : FirewallRuleSpec) : Option (List NftRule) :=
  (firewallAddressIntervals rule.cidrs).map fun intervals => rulesFor (.daddr intervals) rule

def renderFirewallRule (rule : FirewallRuleSpec) : Option (List String) :=
  (firewallRules rule).map fun rules => rules.map NftRule.text

/-- `GUARD_RULES`. -/
def guardRules : List NftRule :=
  [⟨[.etherBroadcast, .etherArp, .arpOverBudget], .drop⟩, ⟨[.etherBroadcast, .etherArp], .accept⟩,
    ⟨[.etherGroup], .drop⟩,
    ⟨[.daddrReserved], .drop⟩,
    ⟨[.l4proto .udp, .dport .udp [⟨67, 67⟩, ⟨68, 68⟩]], .drop⟩,
    ⟨[.notLearned, .unlearnedOverBudget], .drop⟩]

/-- What stands before the Backend's rules. -/
def fixedRules : List NftRule :=
  [⟨[.notGuest], .accept⟩, ⟨[.guest, .notIpOrArp], .drop⟩] ++ guardRules

/-- The rules that the egress chain stands for; without a document it drops every frame of a guest. -/
def egressRules (document : Option FirewallDocument) : Option (List NftRule) :=
  match document with
  | none => some [⟨[.guest], .drop⟩]
  | some document => do
      let rules ← document.rules.mapM firewallRules
      return fixedRules ++ rules.flatten

/-- `policy accept`. -/
def evaluateChain (rules : List NftRule) (frame : Frame) : FirewallAction :=
  (firstMatch rules frame).getD .accept

/-- `FAIL_CLOSED_KEY`. -/
def failClosedKey : String := "fail-closed"

/-- `AGENT_FIREWALL_TABLE`. -/
def agentFirewallTable : String := "nyabase_firewall"

def firewallComment (owner key : String) : String := s!"nyabase egress server={owner} digest={key}"

/-- The content a table for this document stands for. -/
def contentKey (document : Option FirewallDocument) : String :=
  match document with
  | some document => document.digest
  | none => failClosedKey

def dynamicSet (name key timeout : String) : List String :=
  ["set " ++ name ++ " \x7b", "  typeof " ++ key, "  size 65536", "  flags dynamic,timeout",
    "  timeout " ++ timeout, "\x7d"]

/-- `GUARD_SETS`. -/
def guardSets : List String :=
  dynamicSet "arp_broadcast_budget" "iifname" "1m" ++ dynamicSet "unlearned_budget" "iifname" "1m" ++
    dynamicSet "learned_macs" "ether saddr" "5m"

/-- `LEARNING_CHAINS`. -/
def learningChains : List String :=
  ["forward", "output"].flatMap fun hook =>
    ["chain learn_" ++ hook ++ " \x7b", "  type filter hook " ++ hook ++ " priority 100; policy accept;",
      "  oifname " ++ guestsText ++ " ether type arp update @learned_macs " ++ nftSet ["ether saddr"],
      "  oifname " ++ guestsText ++ " add @learned_macs " ++ nftSet ["ether saddr"],
      "\x7d"]

def indent (depth : String) (lines : List String) : List String := lines.map fun line => depth ++ line

/-- The lines of the egress chain. -/
def egressLines (document : Option FirewallDocument) : Option (List String) :=
  match document with
  | none => some ["iifname " ++ guestsText ++ " drop"]
  | some document => do
      let rules ← document.rules.mapM renderFirewallRule
      return fixedRules.map NftRule.text ++ rules.flatten

/-- The whole table for `document`, as one nft transaction. -/
def renderFirewallRuleset (owner : String) (document : Option FirewallDocument) : Option String := do
  let body ← egressLines document
  let extra (lines : List String) := if document.isSome then lines else []
  return "\n".intercalate <| ["table bridge " ++ agentFirewallTable, "delete table bridge " ++ agentFirewallTable,
      "table bridge " ++ agentFirewallTable ++ " \x7b",
      "  comment \"" ++ firewallComment owner (contentKey document) ++ "\""] ++
    indent "  " (extra guardSets) ++
    ["  chain egress \x7b", "    type filter hook prerouting priority -190; policy accept;"] ++
    indent "    " body ++ ["  \x7d"] ++ indent "  " (extra learningChains) ++
    ["\x7d", ""]

end Nyabase.Agent
