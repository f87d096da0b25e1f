import Mathlib.Tactic

/-!
# Numerals over characters

Numbers written with the digits of a radix up to 16, in either case, most significant digit first.
-/

namespace Nyabase.Lib

/-- The value of a digit; 16 for every other character. -/
def digitOf (c : Char) : Nat :=
  if '0' ≤ c ∧ c ≤ '9' then c.toNat - 48
  else if 'a' ≤ c ∧ c ≤ 'f' then c.toNat - 87
  else if 'A' ≤ c ∧ c ≤ 'F' then c.toNat - 55
  else 16

def isDigitOf (radix : Nat) (c : Char) : Bool := digitOf c < radix

def numeralValue (radix : Nat) (text : List Char) : Nat :=
  text.foldl (fun value c => value * radix + digitOf c) 0

theorem digitOf_digitChar {digit : Nat} (h : digit < 16) : digitOf digit.digitChar = digit := by
  revert digit
  decide

theorem isDigitOf_digitChar {radix digit : Nat} (hradix : radix ≤ 16) (h : digit < radix) :
    isDigitOf radix digit.digitChar = true := by
  rw [isDigitOf, digitOf_digitChar (by omega)]
  exact decide_eq_true h

theorem toNat_of_isDigitOf {c : Char} (h : isDigitOf 16 c = true) : 48 ≤ c.toNat ∧ c.toNat ≤ 102 := by
  have hlt : digitOf c < 16 := of_decide_eq_true h
  unfold digitOf at hlt
  split at hlt
  · next hrange => exact ⟨hrange.1, le_trans (b := 57) hrange.2 (by decide)⟩
  split at hlt
  · next hrange => exact ⟨le_trans (b := 97) (by decide) hrange.1, hrange.2⟩
  split at hlt
  · next hrange => exact ⟨le_trans (b := 65) (by decide) hrange.1, le_trans (b := 70) hrange.2 (by decide)⟩
  · omega

theorem isDigitOf_ten {c : Char} : isDigitOf 10 c = true ↔ '0' ≤ c ∧ c ≤ '9' := by
  rw [isDigitOf, decide_eq_true_eq, digitOf]
  split
  · next hrange =>
    have h57 : c.toNat ≤ 57 := hrange.2
    exact ⟨fun _ => hrange, fun _ => by omega⟩
  next hrange =>
  refine ⟨fun hlt => ?_, fun h => absurd h hrange⟩
  split at hlt
  · next hletter =>
    have h97 : 97 ≤ c.toNat := hletter.1
    omega
  split at hlt
  · next hletter =>
    have h65 : 65 ≤ c.toNat := hletter.1
    omega
  · omega

/-- A decimal digit is the character its value is written with. -/
theorem eq_digitChar_of_isDigitOf {c : Char} (h : isDigitOf 10 c = true) : c = (digitOf c).digitChar := by
  have hrange := isDigitOf_ten.mp h
  have hvalue : digitOf c = c.toNat - 48 := if_pos hrange
  have hlow : 48 ≤ c.toNat := hrange.1
  have hhigh : c.toNat ≤ 57 := hrange.2
  have hchar : c = Char.ofNat c.toNat := (Char.ofNat_toNat c).symm
  rw [hvalue]
  generalize c.toNat = n at *
  subst hchar
  interval_cases n <;> rfl

theorem numeralValue_append_singleton (radix : Nat) (text : List Char) (c : Char) :
    numeralValue radix (text ++ [c]) = numeralValue radix text * radix + digitOf c := by
  simp [numeralValue]

theorem exists_digitChar_of_mem_toDigits {radix n : Nat} {c : Char} (h : c ∈ Nat.toDigits radix n)
    (hpos : 1 < radix) : ∃ digit < radix, c = digit.digitChar := by
  induction n using Nat.strongRecOn with
  | ind n ih =>
    by_cases hlt : n < radix
    · rw [Nat.toDigits_of_lt_base hlt] at h
      exact ⟨n, hlt, List.mem_singleton.mp h⟩
    rw [Nat.toDigits_of_base_le hpos (by omega)] at h
    rcases List.mem_append.mp h with hinit | hlast
    · exact ih (n / radix) (Nat.div_lt_self (by omega) hpos) hinit
    · exact ⟨n % radix, Nat.mod_lt _ (by omega), List.mem_singleton.mp hlast⟩

theorem isDigitOf_of_mem_toDigits {base radix n : Nat} {c : Char} (h : c ∈ Nat.toDigits base n)
    (hpos : 1 < base := by decide) (hbase : base ≤ radix := by decide) (hradix : radix ≤ 16 := by decide) :
    isDigitOf radix c = true := by
  obtain ⟨digit, hdigit, rfl⟩ := exists_digitChar_of_mem_toDigits h hpos
  exact isDigitOf_digitChar hradix (hdigit.trans_le hbase)

/-- What is written for a number reads as that number. -/
theorem numeralValue_toDigits {radix : Nat} (n : Nat) (hpos : 1 < radix := by decide)
    (hradix : radix ≤ 16 := by decide) : numeralValue radix (Nat.toDigits radix n) = n := by
  induction n using Nat.strongRecOn with
  | ind n ih =>
    by_cases hlt : n < radix
    · rw [Nat.toDigits_of_lt_base hlt]
      simp [numeralValue, digitOf_digitChar (show n < 16 by omega)]
    have hmod : n % radix < radix := Nat.mod_lt _ (by omega)
    rw [Nat.toDigits_of_base_le hpos (by omega), numeralValue_append_singleton,
      ih (n / radix) (Nat.div_lt_self (by omega) hpos), digitOf_digitChar (by omega)]
    exact Nat.div_add_mod' n radix

/-- A decimal numeral without a leading zero is what is written for its value. -/
theorem toDigits_numeralValue {text : List Char} (hne : text ≠ []) (hdigits : ∀ c ∈ text, isDigitOf 10 c = true)
    (hzero : text.head? = some '0' → text.length = 1) : Nat.toDigits 10 (numeralValue 10 text) = text := by
  -- the last digit is the one the conversion splits off
  induction text using List.reverseRecOn with
  | nil => exact absurd rfl hne
  | append_singleton text c ih =>
    have hc := hdigits c (by simp)
    have hlt : digitOf c < 10 := of_decide_eq_true hc
    rw [numeralValue_append_singleton]
    cases text with
    | nil =>
      rw [show numeralValue 10 [] * 10 + digitOf c = digitOf c by simp [numeralValue],
        Nat.toDigits_of_lt_base hlt, ← eq_digitChar_of_isDigitOf hc]
      rfl
    | cons first rest =>
      have hfirst : first ≠ '0' := by
        intro h
        have := hzero (by simp [h])
        simp at this
      have hprefix := ih (by simp) (fun x hx => hdigits x (List.mem_append_left _ hx))
        (fun h => absurd (Option.some.inj h) hfirst)
      have hpos : 0 < numeralValue 10 (first :: rest) := by
        by_contra hnot
        rw [Nat.eq_zero_of_not_pos hnot, Nat.toDigits_zero] at hprefix
        exact hfirst (List.cons.inj hprefix).1.symm
      rw [Nat.mul_comm, ← Nat.toDigits_append_toDigits (by decide) hpos hlt, hprefix,
        Nat.toDigits_of_lt_base hlt, ← eq_digitChar_of_isDigitOf hc]

/-- A number is written without a leading zero. -/
theorem length_toDigits_of_head {n : Nat} (h : (Nat.toDigits 10 n).head? = some '0') :
    (Nat.toDigits 10 n).length = 1 := by
  by_cases hlt : n < 10
  · rw [Nat.toDigits_of_lt_base hlt]
    rfl
  exfalso
  have hhead : ∀ m, 0 < m → (Nat.toDigits 10 m).head? ≠ some '0' := by
    intro m
    induction m using Nat.strongRecOn with
    | ind m ih =>
      intro hpos
      by_cases hm : m < 10
      · interval_cases m <;> decide
      · rw [Nat.toDigits_of_base_le (by decide) (by omega), List.head?_append_of_ne_nil _ Nat.toDigits_ne_nil]
        exact ih (m / 10) (by omega) (by omega)
  exact hhead n (by omega) h

end Nyabase.Lib
