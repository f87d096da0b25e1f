import Mathlib.Tactic

/-!
# ASCII case

`to_ascii_lowercase` and `eq_ignore_ascii_case` on texts.  `Char.toLower` only touches the ASCII letters,
so both are `map`s of it.
-/

namespace Nyabase.Lib

theorem toLower_val (c : Char) : c.toLower.toNat = if 65 ≤ c.toNat ∧ c.toNat ≤ 90 then c.toNat + 32 else c.toNat := by
  unfold Char.toLower
  split
  · rename_i h
    have hrange : 65 ≤ c.toNat ∧ c.toNat ≤ 90 := h
    rw [if_pos hrange]
    show (c.val + 32).toNat = c.val.toNat + 32
    rw [UInt32.toNat_add]
    have : c.val.toNat ≤ 90 := hrange.2
    simp only [UInt32.reduceToNat]
    omega
  · rename_i h
    have hrange : ¬ (65 ≤ c.toNat ∧ c.toNat ≤ 90) := h
    rw [if_neg hrange]

theorem toLower_toLower (c : Char) : c.toLower.toLower = c.toLower := by
  apply Char.toNat_inj.mp
  have houter := toLower_val c.toLower
  have hinner := toLower_val c
  split at hinner <;> split at houter <;> omega

/-- Lower-casing neither makes nor removes a character that is not an ASCII letter. -/
theorem toLower_eq_iff {c d : Char} (hd : ¬ (65 ≤ d.toNat ∧ d.toNat ≤ 90))
    (hd' : ¬ (97 ≤ d.toNat ∧ d.toNat ≤ 122)) : c.toLower = d ↔ c = d := by
  have hval := toLower_val c
  constructor
  · rintro rfl
    apply Char.toNat_inj.mp
    split at hval <;> omega
  · rintro rfl
    apply Char.toNat_inj.mp
    rw [hval, if_neg hd]

def lower (name : List Char) : List Char := name.map Char.toLower

@[simp] theorem lower_lower (name : List Char) : lower (lower name) = lower name := by
  simp only [lower, List.map_map, Function.comp_def, toLower_toLower]

theorem lower_eq_self {name : List Char} (h : ∀ c ∈ name, c.toLower = c) : lower name = name := by
  conv_rhs => rw [← List.map_id name]
  exact List.map_congr_left h

/-- `str::eq_ignore_ascii_case` (`Char.toLower` only touches ASCII letters). -/
def eqIgnoreAsciiCase (left right : List Char) : Bool :=
  lower left == lower right

theorem contains_lower {name : List Char} {d : Char} (hd : ¬ (65 ≤ d.toNat ∧ d.toNat ≤ 90))
    (hd' : ¬ (97 ≤ d.toNat ∧ d.toNat ≤ 122)) : (lower name).contains d = name.contains d := by
  simp [lower, toLower_eq_iff hd hd']

end Nyabase.Lib
