import Nyabase.SshProxy.ProxyProtocol

/-!
# The networks whose peers may send a PROXY header: `Cidr` in `tools/ssh-proxy/src/proxy_protocol.rs`

A configured network is an address without host bits and a prefix length.  The source masks the address as one
number, `u32` or `u128`; here these are natural numbers, and a shift past the width is caught as `checked_shl` does.
-/

namespace Nyabase.ProxyCommon

/-- `u32::from` of an IPv4 address. -/
def v4Number (octets : Octets) : Nat :=
  ((octets.1.toNat * 256 + octets.2.1.toNat) * 256 + octets.2.2.1.toNat) * 256 + octets.2.2.2.toNat

/-- `Ipv4Addr::from` of a `u32`. -/
def v4OfNumber (number : Nat) : Octets :=
  ((number / 2 ^ 24).toUInt8, (number / 2 ^ 16).toUInt8, (number / 2 ^ 8).toUInt8, number.toUInt8)

/-- `u128::from` of an IPv6 address. -/
def v6Number (segments : List UInt16) : Nat :=
  segments.foldl (fun number segment => number * 65536 + segment.toNat) 0

/-- `Ipv6Addr::from` of a `u128`. -/
def v6OfNumber (number : Nat) : { segments : List UInt16 // segments.length = 8 } :=
  ⟨[112, 96, 80, 64, 48, 32, 16, 0].map fun shift => (number / 2 ^ shift).toUInt16, rfl⟩

def IpAddr.isIpv4 : IpAddr → Bool
  | .v4 _ => true
  | .v6 _ => false

/-- How many bits an address has. -/
def IpAddr.width (ip : IpAddr) : Nat := if ip.isIpv4 then 32 else 128

def IpAddr.number : IpAddr → Nat
  | .v4 octets => v4Number octets
  | .v6 segments => v6Number segments.val

/-- The bits of an address, the first one the highest of its number. -/
def IpAddr.bit (ip : IpAddr) (index : Nat) : Bool := ip.number.testBit (ip.width - 1 - index)

end Nyabase.ProxyCommon

namespace Nyabase.SshProxy

open Lib ProxyCommon

/-- `MAX.checked_shl(shift).unwrap_or(0)` for unsigned numbers of a width. -/
def shiftedMax (width shift : Nat) : Nat := if shift < width then (2 ^ width - 1) <<< shift % 2 ^ width else 0

structure Cidr where
  network : IpAddr
  prefixLength : UInt8
  deriving DecidableEq

namespace Cidr

def masked (cidr : Cidr) : IpAddr → IpAddr
  | .v4 octets => .v4 (v4OfNumber (v4Number octets &&& shiftedMax 32 (32 - cidr.prefixLength.toNat)))
  | .v6 segments => .v6 (v6OfNumber (v6Number segments.val &&& shiftedMax 128 (128 - cidr.prefixLength.toNat)))

def contains (cidr : Cidr) (ip : IpAddr) : Bool :=
  ip.isIpv4 == cidr.network.isIpv4 && cidr.masked ip == cidr.network

theorem length_of_parseIpv6 {text : List Char} {segments : List UInt16} (h : parseIpv6 text = some segments) :
    segments.length = 8 :=
  (parseIpv6_eq_some.mp h).length

/-- `IpAddr::from_str` -/
def parseAddress (text : List Char) : Option IpAddr :=
  match ProxyCommon.parseIpv4 text with
  | some octets => some (.v4 octets)
  | none =>
    match h : parseIpv6 text with
    | some segments => some (.v6 ⟨segments, length_of_parseIpv6 h⟩)
    | none => none

/-- `u8::from_str`, which takes what `u16::from_str` takes below 256. -/
def parseU8 (text : List Char) : Option UInt8 :=
  ((parseU16 text).filter fun number => number < 256).map UInt16.toUInt8

/-- The prefix length of an entry, all the bits of its family where it gives none. -/
def parseLength (quoted : List Char) (bits : UInt8) : Option (List Char) → Except (List Char) UInt8
  | some text =>
    okOr ((parseU8 text).filter fun prefixLength => prefixLength ≤ bits)
      (quoted ++ " has an invalid prefix length".toList)
  | none => .ok bits

def parse (entry : List Char) : Except (List Char) Cidr := do
  let quoted := "`".toList ++ entry ++ "`".toList
  let (address, lengthText) :=
    match splitOnce '/' entry with
    | some (address, lengthText) => (address, some lengthText)
    | none => (entry, none)
  let network ← okOr ((parseAddress address).map IpAddr.toCanonical)
    (quoted ++ " is not an IP address or CIDR network".toList)
  let prefixLength ← parseLength quoted (if network.isIpv4 then 32 else 128) lengthText
  let cidr : Cidr := ⟨network, prefixLength⟩
  if cidr.masked network ≠ network then .error (quoted ++ " has host bits set".toList)
  else .ok cidr

end Cidr

/-! ## Numbers and their leading bits -/

theorem testBit_shiftedMax {width shift : Nat} (j : Nat) :
    (shiftedMax width shift).testBit j = (decide (shift ≤ j) && decide (j < width)) := by
  unfold shiftedMax
  split
  · rw [Nat.testBit_mod_two_pow, Nat.testBit_shiftLeft, Nat.testBit_two_pow_sub_one]
    by_cases hj : j < width <;> by_cases hshift : shift ≤ j <;> simp [hj, hshift]
    omega
  · simp only [Nat.zero_testBit]
    by_cases hj : j < width <;> simp [hj]
    omega

/-- A number without bits below the mask is the masked one exactly when the bits above agree. -/
theorem and_shiftedMax_eq_iff {width length n m : Nat} (hlength : length ≤ width)
    (hm : m &&& shiftedMax width (width - length) = m) :
    n &&& shiftedMax width (width - length) = m ↔
      ∀ i < length, n.testBit (width - 1 - i) = m.testBit (width - 1 - i) := by
  constructor
  · intro h i hi
    rw [← h, Nat.testBit_and, testBit_shiftedMax, decide_eq_true (by omega), decide_eq_true (by omega)]
    simp
  · intro h
    refine Nat.eq_of_testBit_eq fun j => ?_
    rw [← hm, Nat.testBit_and, Nat.testBit_and, testBit_shiftedMax]
    by_cases hj : width - length ≤ j ∧ j < width
    · have hbit := h (width - 1 - j) (by omega)
      rw [show width - 1 - (width - 1 - j) = j by omega] at hbit
      rw [hbit]
    · rw [← Bool.decide_and, decide_eq_false hj, Bool.and_false, Bool.and_false]

theorem v4OfNumber_v4Number (octets : Octets) : v4OfNumber (v4Number octets) = octets := by
  obtain ⟨a, b, c, d⟩ := octets
  have ha := a.toNat_lt
  have hb := b.toNat_lt
  have hc := c.toNat_lt
  have hd := d.toNat_lt
  simp only [v4OfNumber, v4Number, Prod.mk.injEq, ← UInt8.toNat_inj, UInt8.toNat_ofNat']
  omega

theorem v4Number_v4OfNumber {n : Nat} (h : n < 2 ^ 32) : v4Number (v4OfNumber n) = n := by
  simp only [v4OfNumber, v4Number, UInt8.toNat_ofNat']
  omega

theorem v6OfNumber_v6Number (segments : { segments : List UInt16 // segments.length = 8 }) :
    v6OfNumber (v6Number segments.val) = segments := by
  obtain ⟨segments, hlength⟩ := segments
  match segments, hlength with
  | [a, b, c, d, e, f, g, h], _ =>
    have ha := a.toNat_lt
    have hb := b.toNat_lt
    have hc := c.toNat_lt
    have hd := d.toNat_lt
    have he := e.toNat_lt
    have hf := f.toNat_lt
    have hg := g.toNat_lt
    have hh := h.toNat_lt
    simp only [v6OfNumber, v6Number, List.foldl, List.map, Subtype.mk.injEq, List.cons.injEq, ← UInt16.toNat_inj,
      UInt16.toNat_ofNat', and_true]
    omega

theorem v6Number_v6OfNumber {n : Nat} (h : n < 2 ^ 128) : v6Number (v6OfNumber n).val = n := by
  simp only [v6OfNumber, v6Number, List.foldl, List.map, UInt16.toNat_ofNat']
  omega

theorem shiftedMax_lt (width shift : Nat) : shiftedMax width shift < 2 ^ width := by
  unfold shiftedMax
  split
  · exact Nat.mod_lt _ (Nat.two_pow_pos width)
  · exact Nat.two_pow_pos width

namespace Cidr

variable {cidr : Cidr} {ip : IpAddr}

/-- The masked address is the network when the masked number is. -/
theorem masked_eq_network_iff (hfamily : ip.isIpv4 = cidr.network.isIpv4) : cidr.masked ip = cidr.network ↔
    ip.number &&& shiftedMax ip.width (ip.width - cidr.prefixLength.toNat) = cidr.network.number := by
  obtain ⟨network, length⟩ := cidr
  cases ip with
  | v4 octets =>
    cases network with
    | v6 _ => cases hfamily
    | v4 other =>
      have hlt := Nat.and_lt_two_pow (v4Number octets) (shiftedMax_lt 32 (32 - length.toNat))
      refine ⟨fun h => ?_, fun h => ?_⟩
      · rw [← h]
        exact (v4Number_v4OfNumber hlt).symm
      · exact congrArg IpAddr.v4 ((congrArg v4OfNumber h).trans (v4OfNumber_v4Number other))
  | v6 segments =>
    cases network with
    | v4 _ => cases hfamily
    | v6 other =>
      have hlt := Nat.and_lt_two_pow (v6Number segments.val) (shiftedMax_lt 128 (128 - length.toNat))
      refine ⟨fun h => ?_, fun h => ?_⟩
      · rw [← h]
        exact (v6Number_v6OfNumber hlt).symm
      · exact congrArg IpAddr.v6 ((congrArg v6OfNumber h).trans (v6OfNumber_v6Number other))

theorem parseLength_le {quoted : List Char} {bits length : UInt8} {text : Option (List Char)}
    (h : parseLength quoted bits text = .ok length) : length ≤ bits := by
  unfold parseLength at h
  split at h
  · exact of_decide_eq_true (Option.filter_eq_some_iff.mp (okOr_eq_ok.mp h)).2
  · obtain rfl := Except.ok.inj h
    exact UInt8.le_refl _

/-- A configured network has no more bits than its family and none of them set past its length. -/
theorem parse_spec {entry : List Char} (h : parse entry = .ok cidr) :
    cidr.prefixLength.toNat ≤ cidr.network.width ∧ cidr.masked cidr.network = cidr.network := by
  unfold parse at h
  dsimp only at h
  obtain ⟨network, -, h⟩ := bind_eq_ok.mp h
  obtain ⟨length, hlength, h⟩ := bind_eq_ok.mp h
  split at h
  · cases h
  rename_i hmasked
  cases h
  refine ⟨?_, not_ne_iff.mp hmasked⟩
  have hle := UInt8.le_iff_toNat_le.mp (parseLength_le hlength)
  cases network <;> exact hle

/-- A configured network contains a peer exactly when, with a mapped address taken for the IPv4 address it carries,
both are of one family and agree on the first bits, as many as the prefix length says. -/
theorem contains_iff_leading_bits (entry : List Char) (cidr : Cidr) (peer : IpAddr) (h : parse entry = .ok cidr) :
    cidr.contains peer.toCanonical = true ↔ peer.toCanonical.isIpv4 = cidr.network.isIpv4 ∧
      ∀ i < cidr.prefixLength.toNat, peer.toCanonical.bit i = cidr.network.bit i := by
  obtain ⟨hlength, hnetwork⟩ := parse_spec h
  rw [masked_eq_network_iff rfl] at hnetwork
  rw [contains, Bool.and_eq_true, beq_iff_eq, beq_iff_eq]
  refine and_congr_right fun hfamily => ?_
  have hwidth : peer.toCanonical.width = cidr.network.width := by
    rw [IpAddr.width, IpAddr.width, hfamily]
  rw [masked_eq_network_iff hfamily, hwidth, and_shiftedMax_eq_iff hlength hnetwork]
  simp only [IpAddr.bit, hwidth]

theorem mapped_peer_contained : ∃ cidr, parse "10.0.0.0/8".toList = .ok cidr ∧
    cidr.contains (IpAddr.v6 ⟨[0, 0, 0, 0, 0, 0xffff, 0x0a01, 0x0203], rfl⟩).toCanonical = true := by
  have hparse : parse "10.0.0.0/8".toList = .ok ⟨.v4 (10, 0, 0, 0), 8⟩ := by decide +kernel
  exact ⟨_, hparse, (contains_iff_leading_bits _ _ _ hparse).mpr (by decide +kernel)⟩

end Cidr

end Nyabase.SshProxy
