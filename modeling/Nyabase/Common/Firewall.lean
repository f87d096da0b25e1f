import Nyabase.Common.Ipv4
import Nyabase.Lib.IntervalSet
import Nyabase.Lib.Result
import Nyabase.Lib.Text

/-!
# Guest egress firewall documents: `packages/common/src/protocol/firewall.ts`

A document lists the rules of one server in priority order; the first rule that matches a packet decides,
and no match means accept.  Of the schemas only those the agent checks a document with are modelled.
-/

namespace Nyabase.Common

open Lib

inductive FirewallAction where
  | accept | drop | reject
  deriving DecidableEq, Repr

inductive FirewallProtocol where
  | all | tcp | udp
  deriving DecidableEq, Repr

structure FirewallPortRange where
  fromPort : Nat
  toPort : Nat
  deriving DecidableEq

/-- What the agent needs of one rule. -/
structure FirewallRuleSpec where
  action : FirewallAction
  protocol : FirewallProtocol
  cidrs : List String
  ports : List FirewallPortRange
  deriving DecidableEq

/-- The rules of one server, as the Backend sends them. -/
structure FirewallDocument where
  digest : String
  rules : List FirewallRuleSpec
  deriving DecidableEq

/-! ## Addresses and ports -/

def cidrRange (cidr : String) : Option (Nat × Nat) := do
  let parsed ← parseCidr cidr
  let base ← ipToNum parsed.base
  let size := 2 ^ (32 - parsed.prefixLen)
  let start := base - base % size
  return (start, start + size - 1)

/-- The characters `String.prototype.trim` removes. -/
def isJsWhitespace (c : Char) : Bool :=
  (0x9 ≤ c.toNat && c.toNat ≤ 0xd) || (0x2000 ≤ c.toNat && c.toNat ≤ 0x200a) ||
    [0x20, 0xa0, 0x1680, 0x2028, 0x2029, 0x202f, 0x205f, 0x3000, 0xfeff].contains c.toNat

/-- A CIDR or a bare IPv4 address (as `/32`) in canonical form. -/
def canonicalFirewallCidr (value : String) : Option String :=
  let trimmed := trimBy isJsWhitespace value.toList
  canonicalIpv4Cidr (String.ofList (if trimmed.contains '/' then trimmed else trimmed ++ "/32".toList))

structure AddressInterval where
  first : String
  last : String

def addressInterval (range : Nat × Nat) : Option AddressInterval := do
  let first ← numToIp range.1
  let last ← numToIp range.2
  return { first, last }

/-- Disjoint, sorted inclusive address intervals covering `cidrs`. -/
def firewallAddressIntervals (cidrs : List String) : Option (List AddressInterval) := do
  let ranges ← cidrs.mapM cidrRange
  (IntervalSet.coalesce ranges).mapM addressInterval

/-! ## What the agent accepts -/

/-- `FIREWALL_MAX_CIDRS_PER_RULE`. -/
def firewallMaxCidrsPerRule : Nat := 256

/-- `FIREWALL_MAX_PORT_RANGES_PER_RULE`. -/
def firewallMaxPortRangesPerRule : Nat := 32

/-- `FIREWALL_MAX_RULES_PER_SERVER`. -/
def firewallMaxRulesPerServer : Nat := 256

/-- `FIREWALL_MAX_CIDRS_PER_SERVER`. -/
def firewallMaxCidrsPerServer : Nat := 4096

def zFirewallPortRange (range : FirewallPortRange) : Bool :=
  decide (1 ≤ range.fromPort) && decide (range.fromPort ≤ 65535) && decide (1 ≤ range.toPort) &&
    decide (range.toPort ≤ 65535) && decide (range.fromPort ≤ range.toPort)

def isCanonicalCidr (value : String) : Bool :=
  canonicalFirewallCidr value == some value && value.toList.contains '/'

def zFirewallRuleSpec (rule : FirewallRuleSpec) : Bool :=
  (rule.cidrs.all fun cidr => decide (cidr.toList.length ≤ 18) && isCanonicalCidr cidr) &&
    decide (1 ≤ rule.cidrs.length) && decide (rule.cidrs.length ≤ firewallMaxCidrsPerRule) &&
    rule.ports.all zFirewallPortRange && decide (rule.ports.length ≤ firewallMaxPortRangesPerRule) &&
    (rule.protocol != .all || rule.ports.isEmpty)

def zFirewallDocument (document : FirewallDocument) : Bool :=
  taggedHex "" 64 document.digest && decide (document.rules.length ≤ firewallMaxRulesPerServer) &&
    document.rules.all zFirewallRuleSpec &&
    decide ((document.rules.map fun rule => rule.cidrs.length).sum ≤ firewallMaxCidrsPerServer)

/-! ## What a CIDR stands for -/

/-- The address has the network bits of the CIDR. -/
def inCidr (cidr : String) (address : Nat) : Bool :=
  match parseCidr cidr with
  | none => false
  | some parsed =>
    match ipToNum parsed.base with
    | none => false
    | some base => address / 2 ^ (32 - parsed.prefixLen) == base / 2 ^ (32 - parsed.prefixLen)

variable {cidr : String} {range : Nat × Nat}

/-- The addresses from the first to the last of `cidrRange` are those of the CIDR. -/
theorem inCidr_iff (h : cidrRange cidr = some range) (address : Nat) :
    inCidr cidr address = true ↔ range.1 ≤ address ∧ address ≤ range.2 := by
  simp only [cidrRange, Option.bind_eq_bind, Option.bind_eq_some_iff] at h
  obtain ⟨parsed, hparsed, base, hbase, hrange⟩ := h
  cases hrange
  have hsize : 0 < 2 ^ (32 - parsed.prefixLen) := Nat.two_pow_pos _
  rw [← Nat.div_mul_self_eq_mod_sub_self, ← Nat.div_eq_iff hsize]
  simp [inCidr, hparsed, hbase]

/-- A parsed CIDR covers addresses below 2³² only. -/
theorem cidrRange_le (h : cidrRange cidr = some range) : range.1 ≤ 0xffffffff ∧ range.2 ≤ 0xffffffff := by
  simp only [cidrRange, Option.bind_eq_bind, Option.bind_eq_some_iff] at h
  obtain ⟨parsed, -, base, hbase, hrange⟩ := h
  cases hrange
  have hlt := ipToNum_lt hbase
  -- the block of the CIDR is one of those that 2³² splits into
  generalize hbits : 32 - parsed.prefixLen = bits
  have hsplit : 2 ^ (32 - bits) * 2 ^ bits = 2 ^ 32 := by
    rw [← Nat.pow_add]
    congr 1
    omega
  have hblock : base / 2 ^ bits < 2 ^ (32 - bits) := by
    apply Nat.div_lt_of_lt_mul
    rw [Nat.mul_comm, hsplit]
    exact hlt
  have hend := Nat.mul_le_mul_right (2 ^ bits) hblock
  rw [hsplit, Nat.succ_mul, Nat.div_mul_self_eq_mod_sub_self] at hend
  omega

/-! ## Address intervals -/

def AddressInterval.holds (interval : AddressInterval) (address : Nat) : Bool :=
  match ipToNum interval.first, ipToNum interval.last with
  | some first, some last => decide (first ≤ address) && decide (address ≤ last)
  | _, _ => false

theorem addressInterval_holds {interval : AddressInterval} (h : addressInterval range = some interval) (address : Nat) :
    interval.holds address = true ↔ range.1 ≤ address ∧ address ≤ range.2 := by
  simp only [addressInterval, Option.bind_eq_bind, Option.bind_eq_some_iff] at h
  obtain ⟨first, hfirst, last, hlast, hinterval⟩ := h
  cases hinterval
  have hfirst := ipToNum_of_numToIp hfirst
  have hlast := ipToNum_of_numToIp hlast
  simp [AddressInterval.holds, hfirst, hlast]

/-- The intervals hold exactly the addresses of the CIDRs. -/
theorem firewallAddressIntervals_hold {cidrs : List String} {intervals : List AddressInterval}
    (h : firewallAddressIntervals cidrs = some intervals) (address : Nat) :
    (intervals.any fun interval => interval.holds address) = cidrs.any fun cidr => inCidr cidr address := by
  obtain ⟨ranges, hranges, hintervals⟩ := Option.bind_eq_some_iff.mp h
  have hmem := mem_of_mapM_eq_some hintervals
  rw [Bool.eq_iff_iff, List.any_eq_true, List.any_eq_true]
  calc (∃ interval ∈ intervals, interval.holds address = true)
      ↔ IntervalSet.Covers (IntervalSet.coalesce ranges) address := by
        constructor
        · rintro ⟨interval, hinterval, hholds⟩
          obtain ⟨range, hrange, hshown⟩ := (hmem interval).mp hinterval
          exact ⟨range, hrange, (addressInterval_holds hshown address).mp hholds⟩
        · rintro ⟨range, hrange, hcovers⟩
          obtain ⟨interval, hshown⟩ := exists_of_mapM_eq_some hintervals hrange
          exact ⟨interval, (hmem interval).mpr ⟨range, hrange, hshown⟩,
            (addressInterval_holds hshown address).mpr hcovers⟩
    _ ↔ IntervalSet.Covers ranges address := IntervalSet.covers_coalesce ranges address
    _ ↔ ∃ cidr ∈ cidrs, inCidr cidr address = true := by
        constructor
        · rintro ⟨range, hrange, hcovers⟩
          obtain ⟨cidr, hcidr, hparsed⟩ := (mem_of_mapM_eq_some hranges range).mp hrange
          exact ⟨cidr, hcidr, (inCidr_iff hparsed address).mpr hcovers⟩
        · rintro ⟨cidr, hcidr, hin⟩
          obtain ⟨range, hparsed⟩ := exists_of_mapM_eq_some hranges hcidr
          exact ⟨range, (mem_of_mapM_eq_some hranges range).mpr ⟨cidr, hcidr, hparsed⟩,
            (inCidr_iff hparsed address).mp hin⟩

/-! ## Valid documents render -/

/-- A canonical CIDR parses. -/
theorem exists_cidrRange (h : isCanonicalCidr cidr = true) : ∃ range, cidrRange cidr = some range := by
  rw [isCanonicalCidr, Bool.and_eq_true, beq_iff_eq] at h
  obtain ⟨parsed, base, hparsed, hbase⟩ := parseCidr_canonical h.1
  simp [cidrRange, hparsed, hbase]

theorem exists_firewallAddressIntervals {cidrs : List String} (h : ∀ cidr ∈ cidrs, isCanonicalCidr cidr = true) :
    ∃ intervals, firewallAddressIntervals cidrs = some intervals := by
  obtain ⟨ranges, hranges⟩ := exists_mapM_eq_some fun cidr hcidr => exists_cidrRange (h cidr hcidr)
  have hbounds : ∀ range ∈ IntervalSet.coalesce ranges, range.1 ≤ 0xffffffff ∧ range.2 ≤ 0xffffffff := by
    apply IntervalSet.coalesce_le
    intro range hrange
    obtain ⟨cidr, -, hcidr⟩ := (mem_of_mapM_eq_some hranges range).mp hrange
    exact cidrRange_le hcidr
  obtain ⟨intervals, hintervals⟩ := exists_mapM_eq_some fun range hrange =>
    show ∃ interval, addressInterval range = some interval by simp [addressInterval, numToIp, hbounds range hrange]
  exact ⟨intervals, by rw [firewallAddressIntervals, hranges]; exact hintervals⟩

end Nyabase.Common
