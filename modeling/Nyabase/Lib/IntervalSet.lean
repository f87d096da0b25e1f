import Mathlib.Data.List.Sort
import Mathlib.Tactic

/-!
# Sets of numbers as lists of inclusive ranges

`coalesce` sorts ranges and merges those that overlap or touch.  The numbers covered stay the same.
-/

namespace Nyabase.Lib
namespace IntervalSet

/-- The number lies in one of the ranges. -/
def Covers (ranges : List (Nat × Nat)) (x : Nat) : Prop :=
  ∃ range ∈ ranges, range.1 ≤ x ∧ x ≤ range.2

instance (ranges : List (Nat × Nat)) (x : Nat) : Decidable (Covers ranges x) :=
  inferInstanceAs (Decidable (∃ range ∈ ranges, range.1 ≤ x ∧ x ≤ range.2))

@[simp] theorem covers_nil (x : Nat) : Covers [] x ↔ False := by
  simp [Covers]

@[simp] theorem covers_cons (range : Nat × Nat) (ranges : List (Nat × Nat)) (x : Nat) :
    Covers (range :: ranges) x ↔ (range.1 ≤ x ∧ x ≤ range.2) ∨ Covers ranges x := by
  simp [Covers]

variable {ranges merged : List (Nat × Nat)}

/-- The order of ranges by first number, then by last. -/
def rangeLe (left right : Nat × Nat) : Bool :=
  decide (left.1 < right.1) || (left.1 == right.1 && decide (left.2 ≤ right.2))

/-- Add a range that starts no earlier than those before it; the latest merged range comes first. -/
def absorb (merged : List (Nat × Nat)) (range : Nat × Nat) : List (Nat × Nat) :=
  match merged with
  | [] => [range]
  | last :: rest =>
    if range.1 ≤ last.2 + 1 then (last.1, max last.2 range.2) :: rest else range :: last :: rest

/-- Sorted, with overlapping and adjacent ranges merged. -/
def coalesce (ranges : List (Nat × Nat)) : List (Nat × Nat) :=
  ((ranges.mergeSort rangeLe).foldl absorb []).reverse

theorem fst_le_of_rangeLe {left right : Nat × Nat} (h : rangeLe left right = true) : left.1 ≤ right.1 := by
  simp only [rangeLe, Bool.or_eq_true, decide_eq_true_eq, Bool.and_eq_true, beq_iff_eq] at h
  omega

theorem rangeLe_trans (a b c : Nat × Nat) (hab : rangeLe a b = true) (hbc : rangeLe b c = true) :
    rangeLe a c = true := by
  simp only [rangeLe, Bool.or_eq_true, decide_eq_true_eq, Bool.and_eq_true, beq_iff_eq] at *
  omega

theorem rangeLe_total (a b : Nat × Nat) : (rangeLe a b || rangeLe b a) = true := by
  simp only [rangeLe, Bool.or_eq_true, decide_eq_true_eq, Bool.and_eq_true, beq_iff_eq]
  omega

theorem pairwise_mergeSort_rangeLe (ranges : List (Nat × Nat)) :
    (ranges.mergeSort rangeLe).Pairwise fun left right => left.1 ≤ right.1 := by
  have hsorted := List.pairwise_mergeSort rangeLe_trans rangeLe_total ranges
  exact hsorted.imp fun h => fst_le_of_rangeLe h

/-- One range added: the numbers covered before, and its own. -/
theorem covers_absorb {range : Nat × Nat} (h : ∀ last ∈ merged.head?, last.1 ≤ range.1) (x : Nat) :
    Covers (absorb merged range) x ↔ Covers merged x ∨ (range.1 ≤ x ∧ x ≤ range.2) := by
  cases merged with
  | nil => simp [absorb]
  | cons last rest =>
    have hstart : last.1 ≤ range.1 := h last rfl
    simp only [absorb]
    split
    · simp only [covers_cons]
      by_cases hrest : Covers rest x
      · simp [hrest]
      · simp only [hrest, or_false]
        omega
    · simp only [covers_cons]
      tauto

/-- The latest merged range never starts after the range added. -/
theorem head_absorb_le {range : Nat × Nat} (h : ∀ last ∈ merged.head?, last.1 ≤ range.1) :
    ∀ last ∈ (absorb merged range).head?, last.1 ≤ range.1 := by
  cases merged with
  | nil => simp [absorb]
  | cons last rest =>
    have hstart : last.1 ≤ range.1 := h last rfl
    simp only [absorb]
    split
    · simpa using hstart
    · simp

theorem covers_foldl_absorb (hsorted : ranges.Pairwise fun left right => left.1 ≤ right.1)
    (h : ∀ range ∈ ranges, ∀ last ∈ merged.head?, last.1 ≤ range.1) (x : Nat) :
    Covers (ranges.foldl absorb merged) x ↔ Covers merged x ∨ Covers ranges x := by
  induction ranges generalizing merged with
  | nil => simp
  | cons range ranges ih =>
    obtain ⟨hfirst, hsorted⟩ := List.pairwise_cons.mp hsorted
    have hhead := h range List.mem_cons_self
    rw [List.foldl_cons, ih hsorted, covers_absorb hhead, covers_cons]
    · tauto
    · intro later hlater last hlast
      exact (head_absorb_le hhead last hlast).trans (hfirst later hlater)

/-- Merging ranges changes nothing about the numbers they cover. -/
theorem covers_coalesce (ranges : List (Nat × Nat)) (x : Nat) : Covers (coalesce ranges) x ↔ Covers ranges x := by
  have hmerged : Covers ((ranges.mergeSort rangeLe).foldl absorb []) x ↔
      Covers [] x ∨ Covers (ranges.mergeSort rangeLe) x :=
    covers_foldl_absorb (pairwise_mergeSort_rangeLe ranges) (by simp) x
  simp only [Covers, List.mem_mergeSort] at hmerged
  simp [coalesce, Covers, hmerged]

/-- Merged ranges stay within the bounds of the ranges. -/
theorem coalesce_le {low high : Nat} (h : ∀ range ∈ ranges, range.1 ≤ low ∧ range.2 ≤ high) :
    ∀ range ∈ coalesce ranges, range.1 ≤ low ∧ range.2 ≤ high := by
  simp only [coalesce, List.mem_reverse]
  refine List.foldlRecOn (motive := fun merged : List (Nat × Nat) => ∀ range ∈ merged, range.1 ≤ low ∧ range.2 ≤ high)
    _ _ (List.forall_mem_nil _) ?_
  intro merged hmerged range hrange
  have hbounds := h range (List.mem_mergeSort.mp hrange)
  cases merged with
  | nil => simpa [absorb] using hbounds
  | cons last rest =>
    obtain ⟨hlast, hrest⟩ := List.forall_mem_cons.mp hmerged
    simp only [absorb]
    split
    · exact List.forall_mem_cons.mpr ⟨⟨hlast.1, max_le hlast.2 hbounds.2⟩, hrest⟩
    · exact List.forall_mem_cons.mpr ⟨hbounds, hmerged⟩

end IntervalSet
end Nyabase.Lib
