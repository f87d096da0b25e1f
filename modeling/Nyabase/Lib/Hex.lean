import Mathlib.Data.Nat.Digits.Defs
import Mathlib.Tactic

/-!
# Hexadecimal numerals over bytes

Reading accepts digits of either case; writing uses lower case and no leading zero.
-/

namespace Nyabase.Lib

/-- `u8::is_ascii_hexdigit`. -/
def isHexDigit (byte : UInt8) : Bool :=
  (0x30 ≤ byte && byte ≤ 0x39) || (0x61 ≤ byte && byte ≤ 0x66) || (0x41 ≤ byte && byte ≤ 0x46)

def hexDigitValue (byte : UInt8) : Nat :=
  if byte ≤ 0x39 then byte.toNat - 0x30
  else if byte ≤ 0x46 then byte.toNat - 0x37
  else byte.toNat - 0x57

/-- The number written by hexadecimal digits, most significant first. -/
def hexValue (digits : List UInt8) : Nat :=
  digits.foldl (fun value digit => value * 16 + hexDigitValue digit) 0

def hexDigitByte (digit : Nat) : UInt8 :=
  if digit < 10 then (0x30 + digit).toUInt8 else (0x57 + digit).toUInt8

/-- The bytes of `format!("{n:x}")`. -/
def hexBytes (n : Nat) : List UInt8 :=
  if n = 0 then [0x30] else (Nat.digits 16 n).reverse.map hexDigitByte

theorem hexDigitByte_spec {digit : Nat} (h : digit < 16) :
    isHexDigit (hexDigitByte digit) = true ∧ hexDigitValue (hexDigitByte digit) = digit := by
  revert digit
  decide

theorem isHexDigit_of_mem_hexBytes {n : Nat} {byte : UInt8} (h : byte ∈ hexBytes n) : isHexDigit byte = true := by
  unfold hexBytes at h
  split at h
  · rw [List.mem_singleton.mp h]
    decide
  · obtain ⟨digit, hdigit, rfl⟩ := List.mem_map.mp h
    have hlt : digit < 16 := Nat.digits_lt_base (by decide) (List.mem_reverse.mp hdigit)
    exact (hexDigitByte_spec hlt).1

theorem hexBytes_ne_nil (n : Nat) : hexBytes n ≠ [] := by
  unfold hexBytes
  split
  · simp
  · rename_i hn
    simpa [Nat.digits_eq_nil_iff_eq_zero] using hn

/-- Writing a number and reading it back gives the number. -/
theorem hexValue_hexBytes (n : Nat) : hexValue (hexBytes n) = n := by
  unfold hexBytes
  split
  · rename_i hn
    rw [hn]
    decide
  -- digits come least significant first, so the induction is on that list and reading ends at its head
  have hdigits : ∀ digits : List Nat, (∀ d ∈ digits, d < 16) →
      hexValue (digits.reverse.map hexDigitByte) = Nat.ofDigits 16 digits := by
    intro digits hlt
    induction digits with
    | nil => rfl
    | cons d digits ih =>
      rw [List.reverse_cons, List.map_append, hexValue, List.foldl_append, ← hexValue,
        ih fun x hx => hlt x (by simp [hx]), Nat.ofDigits_cons]
      simp only [List.map_cons, List.map_nil, List.foldl_cons, List.foldl_nil, (hexDigitByte_spec (hlt d (by simp))).2]
      omega
  rw [hdigits _ fun d hd => Nat.digits_lt_base (by decide) hd, Nat.ofDigits_digits]

end Nyabase.Lib
