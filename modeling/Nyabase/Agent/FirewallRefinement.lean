import Nyabase.Agent.FirewallRender

/-!
# The rendered rules do what the document says

A document means: the first rule that matches a packet decides, and no match accepts.  The chain rendered
from it decides the same for every packet of a guest that passes the fixed guards and carries its ports.
Later fragments of a datagram carry none, so no rule with ports matches them; they are accepted when an
accept rule with ports for their address and protocol comes before every rule that would drop them.

The chain is what nft reads in the rendered text.  Its grammar is written down apart from the renderer, for the
phrases the table uses.
-/

namespace Nyabase
namespace Common

/-! ## What a document means -/

namespace FirewallRuleSpec

def coversAddress (rule : FirewallRuleSpec) (frame : Agent.Frame) : Bool :=
  rule.cidrs.any fun cidr => inCidr cidr frame.ipDaddr

def coversProtocol (rule : FirewallRuleSpec) (frame : Agent.Frame) : Bool :=
  rule.protocol = .all || Agent.protocolNumber rule.protocol == some frame.l4proto

/-- No ports means every port. -/
def coversPort (rule : FirewallRuleSpec) (frame : Agent.Frame) : Bool :=
  rule.ports.isEmpty || rule.ports.any fun range =>
    decide (range.fromPort ≤ frame.dport) && decide (frame.dport ≤ range.toPort)

/-- The rule matches a packet that carries its ports. -/
def matchesPacket (rule : FirewallRuleSpec) (frame : Agent.Frame) : Bool :=
  rule.coversAddress frame && rule.coversProtocol frame && rule.coversPort frame

/-- What is rendered for the rule decides on the packet.  On a later fragment it does so if it has no ports to look
for, or accepts. -/
def decides (rule : FirewallRuleSpec) (frame : Agent.Frame) : Bool :=
  rule.coversAddress frame && rule.coversProtocol frame &&
    if frame.fragmentOffset = 0 then rule.coversPort frame else rule.ports.isEmpty || rule.action = .accept

/-- The rule would drop (or reject) a later fragment, whose ports it cannot see. -/
def dropsFragment (rule : FirewallRuleSpec) (frame : Agent.Frame) : Bool :=
  rule.action != .accept && rule.coversAddress frame && rule.coversProtocol frame && rule.ports.isEmpty

end FirewallRuleSpec

/-- What the document does with a packet. -/
def FirewallDocument.action (document : FirewallDocument) (frame : Agent.Frame) : FirewallAction :=
  ((document.rules.find? fun rule => rule.matchesPacket frame).map fun rule => rule.action).getD .accept

end Common

namespace Agent

open Lib Common List

/-! ## How nft reads a table -/

/-- An element of a set: one value, or a range from the first to the last. -/
inductive ReadsElement : (text first last : String) → Prop where
  | value (text : String) : ReadsElement text text text
  | range (first last : String) : ReadsElement (first ++ "-" ++ last) first last

inductive ReadsProtocol : String → FirewallProtocol → Prop where
  | tcp : ReadsProtocol "tcp" .tcp
  | udp : ReadsProtocol "udp" .udp

inductive ReadsMatch : String → NftMatch → Prop where
  | guest : ReadsMatch "iifname \"nyh*\"" .guest
  | notGuest : ReadsMatch "iifname != \"nyh*\"" .notGuest
  | notIpOrArp : ReadsMatch "ether type != \x7b ip, arp \x7d" .notIpOrArp
  | etherBroadcast : ReadsMatch "ether daddr ff:ff:ff:ff:ff:ff" .etherBroadcast
  | etherArp : ReadsMatch "ether type arp" .etherArp
  | etherGroup : ReadsMatch "ether daddr & 01:00:00:00:00:00 == 01:00:00:00:00:00" .etherGroup
  | arpOverBudget : ReadsMatch
      "update @arp_broadcast_budget \x7b iifname limit rate over 20/second burst 100 packets \x7d" .arpOverBudget
  | notLearned : ReadsMatch "ether daddr != @learned_macs" .notLearned
  | unlearnedOverBudget : ReadsMatch
      "update @unlearned_budget \x7b iifname limit rate over 20/second burst 200 packets \x7d" .unlearnedOverBudget
  | daddrReserved : ReadsMatch "ip daddr 224.0.0.0/3" .daddrReserved
  | daddr {elements : List String} {intervals : List AddressInterval}
      (each : Forall₂ (fun text interval => ReadsElement text interval.first interval.last) elements intervals) :
      ReadsMatch ("ip daddr " ++ ("\x7b " ++ ", ".intercalate elements ++ " \x7d")) (.daddr intervals)
  | l4proto {name : String} {protocol : FirewallProtocol} (named : ReadsProtocol name protocol) :
      ReadsMatch ("meta l4proto " ++ name) (.l4proto protocol)
  | dport {name : String} {protocol : FirewallProtocol} {elements : List String} {ports : List FirewallPortRange}
      (named : ReadsProtocol name protocol) (each : Forall₂ (fun text range =>
        ReadsElement text (toString range.fromPort) (toString range.toPort)) elements ports) :
      ReadsMatch (name ++ " dport " ++ ("\x7b " ++ ", ".intercalate elements ++ " \x7d")) (.dport protocol ports)
  | laterFragment : ReadsMatch "ip frag-off & 0x1fff != 0" .laterFragment

inductive ReadsVerdict : String → NftVerdict → Prop where
  | accept : ReadsVerdict "accept" .accept
  | drop : ReadsVerdict "drop" .drop
  | tcpReset : ReadsVerdict "reject with tcp reset" .rejectTcpReset
  | adminProhibited : ReadsVerdict "reject with icmp type admin-prohibited" (.rejectIcmp "admin-prohibited")
  | portUnreachable : ReadsVerdict "reject with icmp type port-unreachable" (.rejectIcmp "port-unreachable")

inductive ReadsRule : String → NftRule → Prop where
  | rule {phrases : List String} {ending : String} {matches_ : List NftMatch} {verdict : NftVerdict}
      (each : Forall₂ ReadsMatch phrases matches_) (ends : ReadsVerdict ending verdict) :
      ReadsRule (" ".intercalate (phrases ++ [ending])) ⟨matches_, verdict⟩

/-- The lines of the egress chain, a base chain of policy accept, read as these rules. -/
def ReadsEgress (text : String) (rules : List NftRule) : Prop :=
  ∃ before lines after, text = "\n".intercalate (before ++ ["  chain egress \x7b",
      "    type filter hook prerouting priority -190; policy accept;"] ++ indent "    " lines ++ ["  \x7d"] ++ after) ∧
    "  chain egress \x7b" ∉ before ∧ Forall₂ ReadsRule lines rules

theorem readsElement_interval (interval : AddressInterval) :
    ReadsElement (intervalText interval) interval.first interval.last := by
  unfold intervalText
  split
  · next hsame =>
    rw [← beq_iff_eq.mp hsame]
    exact .value _
  · exact .range _ _

theorem readsElement_ports (range : FirewallPortRange) :
    ReadsElement (portRangeText range) (toString range.fromPort) (toString range.toPort) := by
  unfold portRangeText
  split
  · next hsame =>
    rw [← beq_iff_eq.mp hsame]
    exact .value _
  · exact .range _ _

/-- A protocol that has a name in nft. -/
theorem readsProtocol_name {protocol : FirewallProtocol} (h : protocol ≠ .all) :
    ReadsProtocol (protocolName protocol) protocol := by
  cases protocol with
  | all => exact absurd rfl h
  | tcp => exact .tcp
  | udp => exact .udp

theorem ReadsMatch.of_eq {text written : String} {found : NftMatch} (h : ReadsMatch text found) (heq : written = text) :
    ReadsMatch written found := heq ▸ h

/-- The rules the table is made of: their protocols have names, and their rejections are of a known kind. -/
def NftMatch.Named : NftMatch → Prop
  | l4proto protocol | dport protocol _ => protocol ≠ .all
  | _ => True

def NftVerdict.Named : NftVerdict → Prop
  | rejectIcmp kind => kind = "admin-prohibited" ∨ kind = "port-unreachable"
  | _ => True

def NftRule.Named (rule : NftRule) : Prop := (∀ found ∈ rule.matches_, found.Named) ∧ rule.verdict.Named

/-- What is written for a match reads as the match. -/
theorem readsMatch_text {found : NftMatch} (h : found.Named) : ReadsMatch found.text found := by
  cases found with
  | daddr intervals =>
    have heach : Forall₂ (fun text interval => ReadsElement text interval.first interval.last)
        (intervals.map intervalText) intervals :=
      forall₂_map_left_iff.mpr (forall₂_same.mpr fun interval _ => readsElement_interval interval)
    exact .daddr heach
  | dport protocol ports =>
    have heach : Forall₂ (fun text range => ReadsElement text (toString range.fromPort) (toString range.toPort))
        (ports.map portRangeText) ports :=
      forall₂_map_left_iff.mpr (forall₂_same.mpr fun range _ => readsElement_ports range)
    exact .dport (readsProtocol_name h) heach
  | l4proto protocol => exact .l4proto (readsProtocol_name h)
  | guest => exact ReadsMatch.guest.of_eq (by decide +kernel)
  | notGuest => exact ReadsMatch.notGuest.of_eq (by decide +kernel)
  | notIpOrArp => exact ReadsMatch.notIpOrArp.of_eq (by decide +kernel)
  | arpOverBudget => exact ReadsMatch.arpOverBudget.of_eq (by decide +kernel)
  | unlearnedOverBudget => exact ReadsMatch.unlearnedOverBudget.of_eq (by decide +kernel)
  | etherBroadcast | etherArp | etherGroup | notLearned | daddrReserved | laterFragment => constructor

theorem readsVerdict_text {verdict : NftVerdict} (h : verdict.Named) : ReadsVerdict verdict.text verdict := by
  cases verdict with
  | accept => exact .accept
  | drop => exact .drop
  | rejectTcpReset => exact .tcpReset
  | rejectIcmp kind =>
    rcases h with rfl | rfl
    · exact .adminProhibited
    · exact .portUnreachable

theorem readsRule_text {rule : NftRule} (h : rule.Named) : ReadsRule rule.text rule :=
  .rule (forall₂_map_left_iff.mpr (forall₂_same.mpr fun found hfound => readsMatch_text (h.1 found hfound)))
    (readsVerdict_text h.2)

theorem mapM_renderFirewallRule {specs : List FirewallRuleSpec} {rules : List (List NftRule)}
    (h : specs.mapM firewallRules = some rules) :
    specs.mapM renderFirewallRule = some (rules.map fun rendered => rendered.map NftRule.text) := by
  rw [mapM_eq_some_iff] at h ⊢
  refine forall₂_map_right_iff.mpr (h.imp fun spec rendered hrules => ?_)
  rw [renderFirewallRule, hrules, Option.map_some]

theorem named_rulesFor (intervals : List AddressInterval) (rule : FirewallRuleSpec) :
    ∀ rendered ∈ rulesFor (.daddr intervals) rule, rendered.Named := by
  have hverdict : (protocolVerdict rule.protocol rule.action).Named := by
    cases rule.action with
    | accept | drop => trivial
    | reject => cases rule.protocol <;> first | trivial | exact .inr rfl
  by_cases hall : rule.protocol = .all
  · rw [rulesFor, if_pos hall]
    cases rule.action <;> simp [NftRule.Named, NftMatch.Named, NftVerdict.Named]
  · rw [rulesFor, if_neg hall]
    split
    · simp [NftRule.Named, NftMatch.Named, hall, hverdict]
    · have haccept : NftVerdict.accept.Named := trivial
      split <;> simp [NftRule.Named, NftMatch.Named, hall, hverdict, haccept]

/-- The text of the table reads as the rules of its chain. -/
theorem readsEgress_render (owner : String) {document : FirewallDocument} {rules : List NftRule}
    (hrules : egressRules (some document) = some rules) :
    ∃ text, renderFirewallRuleset owner (some document) = some text ∧ ReadsEgress text rules := by
  obtain ⟨rendered, hrendered, h⟩ := Option.bind_eq_some_iff.mp hrules
  obtain rfl := Option.some.inj h
  have hlines : egressLines (some document) = some ((fixedRules ++ rendered.flatten).map NftRule.text) := by
    rw [egressLines, mapM_renderFirewallRule hrendered, map_append, map_flatten]
    rfl
  have hfixed : ∀ rule ∈ fixedRules, rule.Named := by
    simp [fixedRules, guardRules, NftRule.Named, NftMatch.Named, NftVerdict.Named]
  have hnamed : ∀ rule ∈ fixedRules ++ rendered.flatten, rule.Named := by
    refine forall_mem_append.mpr ⟨hfixed, fun rule hrule => ?_⟩
    obtain ⟨ruled, hruled, hrule⟩ := mem_flatten.mp hrule
    obtain ⟨spec, -, hspec⟩ := (mem_of_mapM_eq_some hrendered ruled).mp hruled
    obtain ⟨intervals, -, rfl⟩ := Option.map_eq_some_iff.mp hspec
    exact named_rulesFor intervals spec rule hrule
  refine ⟨_, ?_, ["table bridge " ++ agentFirewallTable, "delete table bridge " ++ agentFirewallTable,
    "table bridge " ++ agentFirewallTable ++ " \x7b",
      "  comment \"" ++ firewallComment owner document.digest ++ "\""] ++
      indent "  " guardSets, (fixedRules ++ rendered.flatten).map NftRule.text,
      indent "  " learningChains ++ ["\x7d", ""], rfl, ?_, ?_⟩
  · rw [renderFirewallRuleset, hlines, ← append_assoc]
    rfl
  · rw [mem_append, not_or]
    refine ⟨?_, by decide +kernel⟩
    simp only [mem_cons, not_mem_nil, or_false, not_or]
    refine ⟨by decide +kernel, by decide +kernel, by decide +kernel, fun h => ?_⟩
    have hletter := congrArg (fun line => line.toList[3]?) h
    simp [String.toList_append] at hletter
  · exact forall₂_map_left_iff.mpr (forall₂_same.mpr fun rule hrule => readsRule_text (hnamed rule hrule))

variable {frame : Frame}

/-! ## First match -/

@[simp] theorem firstMatch_nil : firstMatch [] frame = none := rfl

@[simp] theorem firstMatch_cons (rule : NftRule) (rules : List NftRule) : firstMatch (rule :: rules) frame =
      if rule.applies frame then some rule.verdict.action else firstMatch rules frame := by
  unfold firstMatch
  rw [List.find?_cons]
  cases rule.applies frame <;> rfl

theorem firstMatch_append (rules rules' : List NftRule) :
    firstMatch (rules ++ rules') frame = (firstMatch rules frame).or (firstMatch rules' frame) := by
  induction rules with
  | nil => rfl
  | cons rule rules ih =>
    rw [List.cons_append, firstMatch_cons, firstMatch_cons, ih]
    split <;> rfl

/-! ## One rule -/

attribute [local simp] NftRule.applies FirewallRuleSpec.coversProtocol

theorem action_protocolVerdict (protocol : FirewallProtocol) (action : FirewallAction) :
    (protocolVerdict protocol action).action = action := by
  cases action with
  | accept | drop => rfl
  | reject =>
    show (if protocol = .tcp then _ else _ : NftVerdict).action = _
    split <;> rfl

variable {rule : FirewallRuleSpec}

/-- The rendered address match holds for the addresses of the rule. -/
theorem daddr_holds {intervals : List AddressInterval} (h : firewallAddressIntervals rule.cidrs = some intervals)
    (hip : frame.etherType = .ip) : (NftMatch.daddr intervals).holds frame = rule.coversAddress frame := by
  simp [NftMatch.holds, hip, firewallAddressIntervals_hold h, FirewallRuleSpec.coversAddress]

theorem l4proto_holds (protocol : FirewallProtocol) (hip : frame.etherType = .ip) :
    (NftMatch.l4proto protocol).holds frame = (protocolNumber protocol == some frame.l4proto) := by
  simp [NftMatch.holds, hip]

variable {daddr : NftMatch}

section

variable (hdaddr : daddr.holds frame = rule.coversAddress frame)

include hdaddr

/-- A rule without ports gives its action to every packet of its addresses and its protocol. -/
theorem firstMatch_rulesFor_portless
    (hip : frame.etherType = .ip) (hempty : rule.ports = []) : firstMatch (rulesFor daddr rule) frame =
      if rule.coversAddress frame && rule.coversProtocol frame then some rule.action else none := by
  by_cases hall : rule.protocol = .all
  · have hprotocol : rule.coversProtocol frame = true := by
      simp [hall]
    rw [hprotocol, rulesFor, if_pos hall]
    cases haction : rule.action with
    | accept | drop => simp [hdaddr, NftVerdict.action]
    | reject =>
      -- tcp packets are rejected by the first of the two rules, all others by the second
      cases hcovers : rule.coversAddress frame with
      | false => simp [hdaddr, hcovers]
      | true =>
        simp only [firstMatch_cons, NftRule.applies, List.all_cons, List.all_nil, hdaddr, hcovers,
          NftVerdict.action, Bool.and_true, Bool.true_and, if_true]
        split <;> rfl
  · simp [rulesFor, hall, hempty, hdaddr, l4proto_holds _ hip, action_protocolVerdict]

/-- A packet gets the rule's action exactly when what is rendered decides on it. -/
theorem firstMatch_rulesFor (hports : rule.protocol = .all → rule.ports = []) (hip : frame.etherType = .ip) :
    firstMatch (rulesFor daddr rule) frame = if rule.decides frame then some rule.action else none := by
  by_cases hempty : rule.ports = []
  · rw [firstMatch_rulesFor_portless hdaddr hip hempty]
    simp [FirewallRuleSpec.decides, FirewallRuleSpec.coversPort, hempty]
  have hall : rule.protocol ≠ .all := mt hports hempty
  rw [rulesFor, if_neg hall, if_neg (by simpa using hempty), firstMatch_cons, action_protocolVerdict,
    FirewallRuleSpec.decides]
  by_cases hoffset : frame.fragmentOffset = 0
  · have hfragment : firstMatch (if rule.action = .accept then
        [⟨[daddr, .laterFragment, .l4proto rule.protocol], .accept⟩] else []) frame = none := by
      split
      · simp [NftMatch.holds, hoffset]
      · rfl
    rw [hfragment]
    congr 1
    simp only [NftRule.applies, List.all_cons, List.all_nil, hdaddr, l4proto_holds _ hip]
    simp [NftMatch.holds, hip, hoffset, FirewallRuleSpec.coversPort, hall, hempty, and_assoc]
  · by_cases haction : rule.action = .accept
    · simp [hdaddr, l4proto_holds _ hip, haction, hall, NftVerdict.action]
      simp [NftMatch.holds, hip, hoffset]
    · simp [NftMatch.holds, hoffset, haction, hempty]

end

/-! ## The whole chain -/

/-- Every rule of a valid document renders. -/
theorem exists_firewallRules (h : zFirewallRuleSpec rule = true) : ∃ rules, firewallRules rule = some rules := by
  have hcidrs : ∀ cidr ∈ rule.cidrs, isCanonicalCidr cidr = true := by
    intro cidr hcidr
    simp only [zFirewallRuleSpec, Bool.and_eq_true, List.all_eq_true] at h
    exact (h.1.1.1.1.1 cidr hcidr).2
  obtain ⟨intervals, hintervals⟩ := exists_firewallAddressIntervals hcidrs
  exact ⟨rulesFor (.daddr intervals) rule, by rw [firewallRules, hintervals]; rfl⟩

theorem ports_eq_nil (h : zFirewallRuleSpec rule = true) (hall : rule.protocol = .all) : rule.ports = [] := by
  simp only [zFirewallRuleSpec, Bool.and_eq_true, Bool.or_eq_true] at h
  simpa [hall] using h.2

/-- The rules of all specs give the action of the first one that decides. -/
theorem firstMatch_flatten {specs : List FirewallRuleSpec} {rules : List (List NftRule)}
    (hspecs : ∀ spec ∈ specs, zFirewallRuleSpec spec = true) (hip : frame.etherType = .ip)
    (h : specs.mapM firewallRules = some rules) :
    firstMatch rules.flatten frame = (specs.find? fun spec => spec.decides frame).map fun spec => spec.action := by
  rw [mapM_eq_some_iff] at h
  induction h with
  | nil => rfl
  | @cons spec first specs rest hfirst _ ih =>
    obtain ⟨intervals, hintervals, rfl⟩ := Option.map_eq_some_iff.mp hfirst
    have hvalid := hspecs spec mem_cons_self
    rw [flatten_cons, firstMatch_append, ih fun spec' hspec' => hspecs spec' (mem_cons_of_mem _ hspec'),
      firstMatch_rulesFor (daddr_holds hintervals hip) (ports_eq_nil hvalid) hip, List.find?_cons]
    cases spec.decides frame <;> rfl

/-- The fixed rules leave an IPv4 frame of a guest to the guards. -/
theorem firstMatch_fixedRules (hguest : frame.fromGuest = true) (hip : frame.etherType = .ip) :
    firstMatch fixedRules frame = firstMatch guardRules frame := by
  rw [fixedRules, firstMatch_append, firstMatch_cons, firstMatch_cons]
  simp [NftMatch.holds, hguest, hip]

variable {document : FirewallDocument}

/-- The chain gives the action of the first spec that decides. -/
theorem evaluateChain_egressRules {rules : List NftRule}
    (hspecs : ∀ spec ∈ document.rules, zFirewallRuleSpec spec = true)
    (hrules : egressRules (some document) = some rules) (hguest : frame.fromGuest = true) (hip : frame.etherType = .ip)
    (hguards : firstMatch guardRules frame = none) : evaluateChain rules frame =
      ((document.rules.find? fun spec => spec.decides frame).map fun spec => spec.action).getD .accept := by
  obtain ⟨rendered, hrendered, h⟩ := Option.bind_eq_some_iff.mp hrules
  obtain rfl := Option.some.inj h
  rw [evaluateChain, firstMatch_append, firstMatch_fixedRules hguest hip, hguards,
    firstMatch_flatten hspecs hip hrendered]
  rfl

/-- Every valid document renders. -/
theorem exists_egressRules (h : zFirewallDocument document = true) :
    ∃ rules, egressRules (some document) = some rules := by
  simp only [zFirewallDocument, Bool.and_eq_true, List.all_eq_true] at h
  obtain ⟨rendered, hrendered⟩ := exists_mapM_eq_some fun spec hspec => exists_firewallRules (h.1.2 spec hspec)
  exact ⟨fixedRules ++ rendered.flatten, by rw [egressRules, hrendered]; rfl⟩

/-- A later fragment is accepted when the first rule that decides on it is not one that drops it. -/
theorem find?_decides_accept {specs before after : List FirewallRuleSpec}
    (hsplit : specs = before ++ rule :: after) (hoffset : frame.fragmentOffset ≠ 0) (haction : rule.action = .accept)
    (hrule : rule.decides frame = true) (hbefore : ∀ earlier ∈ before, earlier.dropsFragment frame = false) :
    (specs.find? fun spec => spec.decides frame).map (fun spec => spec.action) = some .accept := by
  subst hsplit
  induction before with
  | nil => simp [hrule, haction]
  | cons earlier before ih =>
    rw [List.cons_append, List.find?_cons]
    cases hearlier : earlier.decides frame with
    | false => exact ih fun spec hspec => hbefore spec (List.mem_cons_of_mem _ hspec)
    | true =>
      -- it covers the fragment and does not drop it
      have hdrops := hbefore earlier (List.mem_cons_self ..)
      simp only [FirewallRuleSpec.decides, if_neg hoffset, Bool.and_eq_true, Bool.or_eq_true] at hearlier
      simp only [FirewallRuleSpec.dropsFragment, hearlier.1.1, hearlier.1.2] at hdrops
      simp only [Option.map_some, Option.some.injEq]
      by_cases haccept : earlier.action = .accept
      · exact haccept
      · have hempty : earlier.ports.isEmpty = true := by simpa [haccept] using hearlier.2
        simp [hempty, haccept] at hdrops

/-- A document that lets a guest reach one web server of a network it otherwise rejects. -/
def sampleDocument : FirewallDocument where
  digest := String.ofList (List.replicate 64 '0')
  rules := [⟨.accept, .tcp, ["10.0.0.8/32"], [⟨80, 80⟩, ⟨443, 443⟩]⟩, ⟨.reject, .all, ["10.0.0.0/8"], []⟩]

def sampleFrame (ipDaddr fragOff dport : Nat) : Frame where
  iifname := "nyh0"
  etherDaddr := 0x00163e000001
  etherType := .ip
  learned := true
  arpOverBudget := false
  unlearnedOverBudget := false
  ipDaddr := ipDaddr
  l4proto := 6
  fragOff := fragOff
  dport := dport

end Agent
end Nyabase
