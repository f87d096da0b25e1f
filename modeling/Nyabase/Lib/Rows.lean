import Mathlib.Data.List.Basic
import Mathlib.Data.List.Nodup
import Mathlib.Data.List.Perm.Subperm

/-!
# Tables as lists of rows

`UPDATE … WHERE` and `DELETE … WHERE` on a list, and what they do to counts and to a unique key.
-/

namespace Nyabase.Lib

open List

variable {α κ : Type}

/-- `UPDATE … SET … WHERE …`. -/
def updateWhere (rows : List α) (condition : α → Bool) (set : α → α) : List α :=
  rows.map fun row => if condition row then set row else row

/-- `DELETE … WHERE …`. -/
def deleteWhere (rows : List α) (condition : α → Bool) : List α :=
  rows.filter fun row => !condition row

variable {rows : List α} {condition : α → Bool} {set : α → α}

variable {row : α}

theorem mem_updateWhere :
    row ∈ updateWhere rows condition set ↔ ∃ old ∈ rows, (if condition old then set old else old) = row := by
  simp [updateWhere]

theorem mem_deleteWhere : row ∈ deleteWhere rows condition ↔ row ∈ rows ∧ condition row = false := by
  simp [deleteWhere]

theorem filter_deleteWhere {kept : α → Bool} (h : ∀ row, kept row = true → condition row = false) :
    (deleteWhere rows condition).filter kept = rows.filter kept := by
  rw [deleteWhere, filter_filter]
  refine filter_congr fun row _ => ?_
  cases hkept : kept row with
  | false => rfl
  | true => rw [h row hkept, Bool.not_false, Bool.and_self]

/-- A row the condition leaves out stays. -/
theorem mem_updateWhere_of_not (hrow : row ∈ rows) (hcondition : condition row = false) :
    row ∈ updateWhere rows condition set :=
  mem_updateWhere.mpr ⟨row, hrow, by simp [hcondition]⟩

/-- An update that changes no row. -/
theorem updateWhere_eq_self (h : ∀ row ∈ rows, condition row = true → set row = row) :
    updateWhere rows condition set = rows := by
  refine (map_congr_left fun row hrow => ?_).trans (map_id rows)
  split
  · exact h row hrow ‹_›
  · rfl

/-- Every updated row may count anew, and no other. -/
theorem countP_updateWhere_le (p : α → Bool) :
    (updateWhere rows condition set).countP p ≤ rows.countP p + rows.countP condition := by
  induction rows with
  | nil => simp [updateWhere]
  | cons row rows ih =>
    unfold updateWhere at ih ⊢
    rw [map_cons, countP_cons, countP_cons, countP_cons]
    by_cases hcondition : condition row = true
    · simp only [hcondition, if_true]
      split <;> omega
    · simp only [hcondition, Bool.false_eq_true, if_false]
      split <;> omega

theorem countP_deleteWhere_le (p : α → Bool) : (deleteWhere rows condition).countP p ≤ rows.countP p :=
  List.Sublist.countP_le filter_sublist

section

variable {key : α → κ}

/-- Updates of other columns keep the keys. -/
theorem map_key_updateWhere (hset : ∀ row, condition row = true → key (set row) = key row) :
    (updateWhere rows condition set).map key = rows.map key := by
  rw [updateWhere, map_map]
  apply map_congr_left
  intro row _
  show key (if condition row then set row else row) = key row
  split
  · rename_i hcondition
    exact hset row hcondition
  · rfl

section

variable (h : (rows.map key).Nodup)

include h

theorem nodup_map_key_updateWhere (hset : ∀ row, condition row = true → key (set row) = key row) :
    ((updateWhere rows condition set).map key).Nodup := by
  rw [map_key_updateWhere hset]
  exact h

theorem nodup_map_append_singleton (hfresh : ∀ other ∈ rows, key other ≠ key row) :
    ((rows ++ [row]).map key).Nodup := by
  rw [map_append, nodup_append]
  refine ⟨h, nodup_singleton _, ?_⟩
  intro value hvalue other hother
  obtain ⟨old, hold, rfl⟩ := mem_map.mp hvalue
  rw [map_singleton, mem_singleton] at hother
  rw [hother]
  exact hfresh old hold

theorem nodup_map_key_deleteWhere : ((deleteWhere rows condition).map key).Nodup :=
  h.sublist (filter_sublist.map key)

/-- Rows with a unique key are at most as many as the values the key takes. -/
theorem countP_le_length_of_key {values : List κ}
    (hkey : ∀ row ∈ rows, condition row = true → key row ∈ values) : rows.countP condition ≤ values.length := by
  have hnodup : ((rows.filter condition).map key).Nodup := h.sublist (filter_sublist.map key)
  have hsubset : (rows.filter condition).map key ⊆ values := by
    intro value hvalue
    obtain ⟨row, hrow, rfl⟩ := mem_map.mp hvalue
    obtain ⟨hmem, hcondition⟩ := mem_filter.mp hrow
    exact hkey row hmem hcondition
  calc rows.countP condition = ((rows.filter condition).map key).length := by
        rw [length_map, countP_eq_length_filter]
    _ ≤ values.length := (hnodup.subperm hsubset).length_le

/-- A unique key picks at most one row. -/
theorem countP_le_one_of_key {value : κ}
    (hkey : ∀ row, condition row = true → key row = value) : rows.countP condition ≤ 1 := by
  have hvalues : ∀ row ∈ rows, condition row = true → key row ∈ [value] := by
    intro row _ hcondition
    rw [hkey row hcondition]
    exact mem_singleton.mpr rfl
  exact countP_le_length_of_key h hvalues

/-- A unique key picks the one row that has it. -/
theorem countP_eq_one_of_key (hrow : row ∈ rows)
    (hcondition : condition row = true) (hkey : ∀ other, condition other = true → key other = key row) :
    rows.countP condition = 1 := by
  have hle := countP_le_one_of_key h hkey
  have hpos : 0 < rows.countP condition := countP_pos_iff.mpr ⟨row, hrow, hcondition⟩
  omega

theorem eq_of_key_eq {a b : α} (ha : a ∈ rows) (hb : b ∈ rows) (hkey : key a = key b) : a = b :=
  inj_on_of_nodup_map h ha hb hkey

/-- Looking a row up by its key finds it. -/
theorem find?_key_eq_some [BEq κ] [LawfulBEq κ] (hrow : row ∈ rows) :
    rows.find? (fun other => key other == key row) = some row := by
  cases hfound : rows.find? (fun other => key other == key row) with
  | none => exact absurd (beq_iff_eq.mpr rfl) (List.find?_eq_none.mp hfound row hrow)
  | some other =>
    have hkey := List.find?_some hfound
    rw [eq_of_key_eq h (List.mem_of_find?_eq_some hfound) hrow (beq_iff_eq.mp hkey)]

end

end

end Nyabase.Lib
