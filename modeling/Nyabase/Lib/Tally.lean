import Nyabase.Lib.AssocList

/-!
# Tallies

A tally is a map from keys to positive counts that says how often each key occurs among some items, none more
often than the cap.  It grows by one item at a time and shrinks by `decrement`, whose subtraction is checked: `none`
is an underflow.  A key whose count reaches zero leaves the map.
-/

namespace Nyabase.Lib

open AssocList

/-- Subtraction of one that fails at zero. -/
def checkedPred : Nat → Option Nat
  | 0 => none
  | count + 1 => some count

section

variable {κ : Type} [DecidableEq κ]

/-- Takes one off the count of `key`, if the map has it. -/
def decrement (key : κ) (entries : List (κ × Nat)) : Option (List (κ × Nat)) :=
  match entries.lookup key with
  | none => some entries
  | some count =>
    (checkedPred count).map fun left =>
      if left = 0 then erase key entries else AssocList.set key left entries

structure IsTally (cap : Nat) (entries : List (κ × Nat)) (items : List κ) : Prop where
  keys : (entries.map Prod.fst).Nodup
  counted : ∀ key, (entries.lookup key).getD 0 = items.count key
  positive : ∀ entry ∈ entries, entry.2 ≠ 0
  capped : ∀ key, items.count key ≤ cap

namespace IsTally

variable {cap : Nat} {entries : List (κ × Nat)} {items : List κ}

theorem nil : IsTally cap ([] : List (κ × Nat)) [] := ⟨List.nodup_nil, fun _ => rfl, nofun, fun _ => Nat.zero_le _⟩

section

variable (h : IsTally cap entries items)

include h

theorem perm {others : List κ} (hperm : items.Perm others) : IsTally cap entries others :=
  ⟨h.keys, fun key => (h.counted key).trans (hperm.count_eq key), h.positive,
    fun key => hperm.count_eq key ▸ h.capped key⟩

theorem set (key : κ) (others : List κ) (count : Nat) (hpos : count ≠ 0) (hcap : count ≤ cap)
    (hkey : others.count key = count) (hrest : ∀ other, other ≠ key → others.count other = items.count other) :
    IsTally cap (AssocList.set key count entries) others := by
  constructor
  case keys => exact keys_set h.keys key count
  case counted =>
    intro other
    rw [lookup_set]
    by_cases heq : other = key
    · simp [heq, hkey]
    · simp only [beq_eq_false_iff_ne.mpr heq, Bool.false_eq_true, if_false]
      rw [h.counted other, hrest other heq]
  case positive =>
    intro entry hentry
    rcases List.mem_cons.mp hentry with rfl | hold
    · exact hpos
    · exact h.positive entry (mem_erase hold).1
  case capped =>
    intro other
    by_cases heq : other = key
    · rw [heq, hkey]
      exact hcap
    · rw [hrest other heq]
      exact h.capped other

theorem increment {key : κ} (hroom : items.count key < cap) :
    IsTally cap (AssocList.set key ((entries.lookup key).getD 0 + 1) entries) (key :: items) := by
  apply h.set key
  · omega
  · rw [h.counted key]
    exact hroom
  · rw [List.count_cons_self, h.counted key]
  · intro other hne
    exact List.count_cons_of_ne (Ne.symm hne)

end

/-- An item that is counted can be taken off: no underflow, and no zero is left behind. -/
theorem decrement {key : κ} (h : IsTally cap entries (key :: items)) :
    ∃ next, Lib.decrement key entries = some next ∧ IsTally cap next items := by
  have hcount : (entries.lookup key).getD 0 = items.count key + 1 := by
    rw [h.counted key, List.count_cons_self]
  have hrest : ∀ other, other ≠ key → items.count other = (key :: items).count other := by
    intro other hne
    exact (List.count_cons_of_ne (Ne.symm hne)).symm
  have hcapped : ∀ other, items.count other ≤ cap := fun other => List.count_le_count_cons.trans (h.capped other)
  cases hlookup : entries.lookup key with
  | none => simp [hlookup] at hcount
  | some count =>
    obtain rfl : count = items.count key + 1 := by simpa [hlookup] using hcount
    simp only [Lib.decrement, hlookup, checkedPred, Option.map_some]
    by_cases hzero : items.count key = 0
    · refine ⟨erase key entries, by rw [if_pos hzero], ?_⟩
      constructor
      case keys => exact keys_erase h.keys key
      case counted =>
        intro other
        rw [lookup_erase]
        by_cases heq : other = key
        · simp [heq, hzero]
        · simp only [beq_eq_false_iff_ne.mpr heq, Bool.false_eq_true, if_false]
          rw [h.counted other, hrest other heq]
      case positive =>
        intro entry hentry
        exact h.positive entry (mem_erase hentry).1
      case capped => exact hcapped
    · exact ⟨_, by rw [if_neg hzero], h.set key items _ hzero (hcapped key) rfl hrest⟩

end IsTally

end

end Nyabase.Lib
