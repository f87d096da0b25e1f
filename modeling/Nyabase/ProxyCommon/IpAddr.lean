import Mathlib.Tactic

/-!
# IP addresses as Rust's standard library prints them

`std::net::IpAddr`, its `to_canonical` and its `Display`.  An IPv6 address is eight 16-bit segments;
printing compresses the first longest run of at least two zero segments (RFC 5952).
-/

namespace Nyabase.ProxyCommon

open List

/-- The four bytes of an IPv4 address. -/
abbrev Octets := UInt8 × UInt8 × UInt8 × UInt8

inductive IpAddr where
  | v4 (octets : Octets)
  | v6 (segments : { segments : List UInt16 // segments.length = 8 })
  deriving DecidableEq

/-- `Ipv6Addr::to_ipv4_mapped`: the IPv4 address behind `::ffff:a.b.c.d`. -/
def toIpv4Mapped (segments : List UInt16) : Option Octets :=
  match segments with
  | [0, 0, 0, 0, 0, 0xffff, high, low] =>
    some ((high >>> 8).toUInt8, high.toUInt8, (low >>> 8).toUInt8, low.toUInt8)
  | _ => none

def IpAddr.toCanonical : IpAddr → IpAddr
  | .v4 octets => .v4 octets
  | .v6 segments =>
    match toIpv4Mapped segments.val with
    | some octets => .v4 octets
    | none => .v6 segments

def displayIpv4 (octets : Octets) : List Char :=
  Nat.toDigits 10 octets.1.toNat ++ '.' :: Nat.toDigits 10 octets.2.1.toNat ++
    '.' :: Nat.toDigits 10 octets.2.2.1.toNat ++ '.' :: Nat.toDigits 10 octets.2.2.2.toNat

/-- The segments in hexadecimal, joined by colons. -/
def displaySegments (segments : List UInt16) : List Char :=
  [':'].intercalate (segments.map fun segment => Nat.toDigits 16 segment.toNat)

/-- A run of zero segments: where it starts and how many there are. -/
structure ZeroSpan where
  start : Nat
  length : Nat

/-- The first longest run of zero segments, scanning from index `index`. -/
def longestZeroSpan : List UInt16 → (index : Nat) → (current longest : ZeroSpan) → ZeroSpan
  | [], _, _, longest => longest
  | segment :: rest, index, current, longest =>
    if segment = 0 then
      let current : ZeroSpan := ⟨if current.length = 0 then index else current.start, current.length + 1⟩
      longestZeroSpan rest (index + 1) current (if longest.length < current.length then current else longest)
    else
      longestZeroSpan rest (index + 1) ⟨0, 0⟩ longest

def displayIpv6 (segments : List UInt16) : List Char :=
  match toIpv4Mapped segments with
  | some octets => "::ffff:".toList ++ displayIpv4 octets
  | none =>
    let zeroes := longestZeroSpan segments 0 ⟨0, 0⟩ ⟨0, 0⟩
    if 1 < zeroes.length then
      displaySegments (segments.take zeroes.start) ++ "::".toList ++
        displaySegments (segments.drop (zeroes.start + zeroes.length))
    else displaySegments segments

def IpAddr.display : IpAddr → List Char
  | .v4 octets => displayIpv4 octets
  | .v6 segments => displayIpv6 segments.val

end Nyabase.ProxyCommon
