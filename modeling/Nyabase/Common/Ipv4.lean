import Nyabase.Common.Protocol

/-!
# IPv4 addresses and CIDRs: `packages/common/src/utils.ts`

Addresses are texts in the source and numbers once they are parsed.  `ipToNum` computes with JavaScript's
32-bit shifts; a text that makes the source throw gives `none` here.
-/

namespace Nyabase.Common

open Option

/-! ## Numbers -/

def decimalValue (digits : List Char) : Nat :=
  digits.foldl (fun value c => value * 10 + (c.toNat - '0'.toNat)) 0

/-- `\d{1,most}`, as a number. -/
def decimal? (most : Nat) (text : List Char) : Option Nat :=
  if 1 ≤ text.length ∧ text.length ≤ most ∧ text.all isDigit then some (decimalValue text) else none

/-- The signed 32-bit number of the low bits, as `<<` leaves it. -/
def toInt32 (value : Int) : Int := (value + 2 ^ 31) % 2 ^ 32 - 2 ^ 31

/-- `value << 8`. -/
def shiftLeft8 (value : Int) : Int := toInt32 (value * 256)

/-- `value >>> 0`. -/
def toUint32 (value : Int) : Nat := (value % 2 ^ 32).toNat

/-- The loop of `ipToNum` over the octets. -/
def octetsToNum (octets : List Nat) : Nat :=
  toUint32 (octets.foldl (fun (value : Int) (octet : Nat) => shiftLeft8 value + octet) 0)

/-- `\d{1,3}` not above 255. -/
def octet? (text : List Char) : Option Nat :=
  (decimal? 3 text).bind fun value => if value ≤ 255 then some value else none

def ipToNum (ip : String) : Option Nat :=
  match ip.toList.splitOn '.' with
  | [a, b, c, d] => do
      let a ← octet? a
      let b ← octet? b
      let c ← octet? c
      let d ← octet? d
      return octetsToNum [a, b, c, d]
  | _ => none

def octetText (n : Nat) : List Char := (toString n).toList

def numToIp (value : Nat) : Option String :=
  if value ≤ 0xffffffff then
    some (String.ofList (['.'].intercalate [octetText (value / 2 ^ 24 % 256), octetText (value / 2 ^ 16 % 256),
        octetText (value / 2 ^ 8 % 256), octetText (value % 256)]))
  else none

/-! ## CIDRs -/

structure Cidr where
  base : String
  prefixLen : Nat

def parseCidr (cidr : String) : Option Cidr :=
  match cidr.toList.splitOn '/' with
  | [base, length] => do
      let prefixLen ← decimal? 2 length
      let _ ← ipToNum (String.ofList base)
      if prefixLen ≤ 32 then some { base := String.ofList base, prefixLen } else none
  | _ => none

/-- `cidrBounds`: the first and the last address. -/
def cidrBounds (base : String) (prefixLen : Nat) : Option (Nat × Nat) := do
  let baseNum ← ipToNum base
  let size := 2 ^ (32 - prefixLen)
  let networkAddr := baseNum / size * size
  return (networkAddr, networkAddr + size - 1)

def canonicalIpv4Cidr (cidr : String) : Option String := do
  let parsed ← parseCidr cidr
  let bounds ← cidrBounds parsed.base parsed.prefixLen
  let network ← numToIp bounds.1
  return s!"{network}/{parsed.prefixLen}"

/-! ## Addresses are numbers below 2³² -/

/-- The 32-bit arithmetic of `ipToNum` is exact. -/
theorem octetsToNum_eq {a b c d : Nat} (ha : a ≤ 255) (hb : b ≤ 255) (hc : c ≤ 255) (hd : d ≤ 255) :
    octetsToNum [a, b, c, d] = a * 2 ^ 24 + b * 2 ^ 16 + c * 2 ^ 8 + d := by
  have hfirst : shiftLeft8 0 + (a : Int) = (a : Nat) := by
    rw [show shiftLeft8 0 = 0 by decide, zero_add]
  have hsecond : shiftLeft8 (a : Nat) + (b : Int) = (a * 256 + b : Nat) := by
    unfold shiftLeft8 toInt32
    omega
  have hthird : shiftLeft8 (a * 256 + b : Nat) + (c : Int) = ((a * 256 + b) * 256 + c : Nat) := by
    unfold shiftLeft8 toInt32
    omega
  rw [octetsToNum, List.foldl_cons, List.foldl_cons, List.foldl_cons, List.foldl_cons, List.foldl_nil,
    hfirst, hsecond, hthird]
  -- the last shift can pass 2³¹; `>>> 0` takes the sign back
  unfold toUint32 shiftLeft8 toInt32
  omega

variable {n : Nat} {ip : String}

theorem octet?_le {text : List Char} (h : octet? text = some n) : n ≤ 255 := by
  obtain ⟨value, -, hvalue⟩ := bind_eq_some_iff.mp h
  split at hvalue
  · rwa [← some.inj hvalue]
  · cases hvalue

theorem octet?_octetText (h : n < 256) : octet? (octetText n) = some n := by
  revert n
  decide +kernel

theorem isDigit_of_decimal? {most : Nat} {text : List Char} (h : decimal? most text = some n) :
    ∀ c ∈ text, isDigit c = true := by
  unfold decimal? at h
  split at h
  · rename_i hdigits
    exact List.all_eq_true.mp hdigits.2.2
  · cases h

/-- An octet is written with digits only. -/
theorem notMem_octetText (h : n < 256) {c : Char} (hc : isDigit c = false) : c ∉ octetText n := by
  intro hmem
  obtain ⟨value, hvalue, -⟩ := bind_eq_some_iff.mp (octet?_octetText h)
  rw [isDigit_of_decimal? hvalue c hmem] at hc
  cases hc

theorem ipToNum_lt (h : ipToNum ip = some n) : n < 2 ^ 32 := by
  unfold ipToNum at h
  split at h
  · simp only [bind_eq_bind, bind_eq_some_iff] at h
    obtain ⟨a, ha, b, hb, c, hc, d, hd, h⟩ := h
    have ha := octet?_le ha
    have hb := octet?_le hb
    have hc := octet?_le hc
    have hd := octet?_le hd
    have hn : octetsToNum [a, b, c, d] = n := some.inj h
    rw [octetsToNum_eq ha hb hc hd] at hn
    omega
  · cases h

/-- Writing an address and reading it back gives the address. -/
theorem ipToNum_of_numToIp (h : numToIp n = some ip) : ipToNum ip = some n := by
  unfold numToIp at h
  split at h
  · have ha : n / 2 ^ 24 % 256 < 256 := Nat.mod_lt _ (by decide)
    have hb : n / 2 ^ 16 % 256 < 256 := Nat.mod_lt _ (by decide)
    have hc : n / 2 ^ 8 % 256 < 256 := Nat.mod_lt _ (by decide)
    have hd : n % 256 < 256 := Nat.mod_lt _ (by decide)
    cases h
    rw [ipToNum, String.toList_ofList, List.splitOn_intercalate]
    · simp only [octet?_octetText ha, octet?_octetText hb, octet?_octetText hc, octet?_octetText hd]
      show some (octetsToNum _) = some n
      rw [octetsToNum_eq (by omega) (by omega) (by omega) (by omega)]
      congr 1
      omega
    · intro text htext
      simp only [List.mem_cons, List.not_mem_nil, or_false] at htext
      obtain rfl | rfl | rfl | rfl := htext
      · exact notMem_octetText ha (by decide)
      · exact notMem_octetText hb (by decide)
      · exact notMem_octetText hc (by decide)
      · exact notMem_octetText hd (by decide)
    · simp
  · cases h

theorem slash_notMem_of_numToIp (h : numToIp n = some ip) : '/' ∉ ip.toList := by
  unfold numToIp at h
  split at h
  · cases h
    have hoctet : ∀ m : Nat, '/' ∉ octetText (m % 256) := fun m =>
      notMem_octetText (Nat.mod_lt m (by decide)) (by decide)
    simp [List.intercalate_cons_cons, hoctet]
  · cases h

theorem decimal?_prefixLen (h : n ≤ 32) : decimal? 2 (toString n).toList = some n ∧ '/' ∉ (toString n).toList := by
  revert n
  decide +kernel

theorem parseCidr_le {cidr : String} {parsed : Cidr} (h : parseCidr cidr = some parsed) : parsed.prefixLen ≤ 32 := by
  unfold parseCidr at h
  split at h
  · simp only [bind_eq_bind, bind_eq_some_iff] at h
    obtain ⟨prefixLen, -, base, -, h⟩ := h
    split at h
    · rename_i hle
      rw [← some.inj h]
      exact hle
    · cases h
  · cases h

/-- A canonical CIDR parses, as its network address and its prefix length. -/
theorem parseCidr_canonical {cidr canonical : String} (h : canonicalIpv4Cidr cidr = some canonical) :
    ∃ parsed network, parseCidr canonical = some parsed ∧ ipToNum parsed.base = some network := by
  simp only [canonicalIpv4Cidr, bind_eq_bind, bind_eq_some_iff] at h
  obtain ⟨parsed, hparsed, bounds, -, network, hnetwork, hcanonical⟩ := h
  have hle := parseCidr_le hparsed
  obtain ⟨hdecimal, hslash⟩ := decimal?_prefixLen hle
  have hnum := ipToNum_of_numToIp hnetwork
  have hlist : canonical.toList = network.toList ++ '/' :: (toString parsed.prefixLen).toList := by
    rw [← some.inj hcanonical]
    simp [toString]
  refine ⟨{ base := network, prefixLen := parsed.prefixLen }, bounds.1, ?_, hnum⟩
  rw [parseCidr, hlist, List.splitOn_append_cons_self_of_not_mem (slash_notMem_of_numToIp hnetwork),
    List.splitOn_eq_singleton hslash]
  simp only [hdecimal, String.ofList_toList, hnum, bind_eq_bind, bind_some, if_pos hle]

end Nyabase.Common
