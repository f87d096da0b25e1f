import Mathlib.Data.List.Basic
import Mathlib.Tactic

/-!
# Association lists

A finite map as the list of its entries; `List.lookup` reads the first entry of a key.  `override` lays
one map over another, `erase` drops a key and `set` writes one.
-/

namespace Nyabase.Lib
namespace AssocList

open List

variable {κ α : Type} [BEq κ] [LawfulBEq κ]

/-- The entries of `new`, and those of `old` whose key `new` does not have. -/
def override (new old : List (κ × α)) : List (κ × α) :=
  new ++ old.filter fun entry => !(new.any fun other => other.1 == entry.1)

/-- The map without `key`. -/
def erase (key : κ) (entries : List (κ × α)) : List (κ × α) :=
  entries.filter fun entry => !(entry.1 == key)

variable {entries : List (κ × α)} {key : κ} {value : α}

theorem mem_of_lookup (h : entries.lookup key = some value) : (key, value) ∈ entries := by
  obtain ⟨before, after, rfl, -⟩ := lookup_eq_some_iff.mp h
  exact mem_append_right _ mem_cons_self

/-- Filtering on the key alone keeps or drops a key's entries together. -/
theorem lookup_filter_key (p : κ → Bool) (entries : List (κ × α)) (key : κ) :
    (entries.filter fun entry => p entry.1).lookup key = if p key then entries.lookup key else none := by
  induction entries with
  | nil => simp
  | cons entry entries ih =>
    obtain ⟨k, v⟩ := entry
    cases hk : key == k with
    | true =>
      obtain rfl := eq_of_beq hk
      cases hp : p key with
      | true => simp [hp]
      | false => simp [hp, ih]
    | false =>
      cases hp : p k with
      | true | false => simp [hp, lookup_cons, hk, ih]

/-- Changing the values changes what is looked up. -/
theorem lookup_map {γ : Type} (f : κ → α → γ) (entries : List (κ × α)) (key : κ) :
    (entries.map fun entry => (entry.1, f entry.1 entry.2)).lookup key = (entries.lookup key).map (f key) := by
  induction entries with
  | nil => rfl
  | cons entry entries ih =>
    obtain ⟨k, v⟩ := entry
    rw [map_cons, lookup_cons, lookup_cons]
    cases hk : key == k with
    | true =>
      rw [eq_of_beq hk]
      rfl
    | false => exact ih

theorem lookup_override (new old : List (κ × α)) (key : κ) :
    (override new old).lookup key = (new.lookup key).or (old.lookup key) := by
  rw [override, lookup_append, lookup_filter_key fun k => !(new.any fun other => other.1 == k)]
  cases hnew : new.lookup key with
  | some value => simp
  | none =>
    have hany : (new.any fun other => other.1 == key) = false := by
      rw [any_eq_false]
      intro entry hentry heq
      have hne := lookup_eq_none_iff.mp hnew entry hentry
      rw [eq_of_beq heq] at hne
      simp at hne
    simp [hany]

theorem lookup_erase (key key' : κ) (entries : List (κ × α)) :
    (erase key entries).lookup key' = if key' == key then none else entries.lookup key' := by
  rw [erase, lookup_filter_key fun k => !(k == key)]
  cases key' == key <;> simp

theorem mem_override {new old : List (κ × α)} {entry : κ × α} (h : entry ∈ override new old) :
    entry ∈ new ∨ (entry ∈ old ∧ new.lookup entry.1 = none) := by
  rw [override, mem_append, mem_filter] at h
  refine h.imp_right fun ⟨hmem, hkeep⟩ => ⟨hmem, ?_⟩
  rw [lookup_eq_none_iff]
  intro other hother
  simp only [Bool.not_eq_true', any_eq_false] at hkeep
  have hne := hkeep other hother
  rw [bne_iff_ne]
  intro heq
  exact hne (by rw [heq]; exact beq_self_eq_true other.1)

theorem mem_erase {entry : κ × α} (h : entry ∈ erase key entries) : entry ∈ entries ∧ entry.1 ≠ key := by
  rw [erase, mem_filter] at h
  simpa using h

/-! ## Maps without a repeated key -/

/-- The map with `value` at `key`. -/
def set (key : κ) (value : α) (entries : List (κ × α)) : List (κ × α) :=
  (key, value) :: erase key entries

theorem lookup_set (key key' : κ) (value : α) (entries : List (κ × α)) :
    (set key value entries).lookup key' = if key' == key then some value else entries.lookup key' := by
  rw [set, lookup_cons, lookup_erase]
  cases key' == key <;> rfl

omit [LawfulBEq κ] in
theorem keys_erase (h : (entries.map Prod.fst).Nodup) (key : κ) : ((erase key entries).map Prod.fst).Nodup :=
  h.sublist (filter_sublist.map Prod.fst)

theorem keys_set (h : (entries.map Prod.fst).Nodup) (key : κ) (value : α) :
    ((set key value entries).map Prod.fst).Nodup := by
  rw [set, map_cons, nodup_cons]
  refine ⟨?_, keys_erase h key⟩
  intro hmem
  obtain ⟨entry, hentry, heq⟩ := mem_map.mp hmem
  exact (mem_erase hentry).2 heq

theorem lookup_of_mem (h : (entries.map Prod.fst).Nodup) (hmem : (key, value) ∈ entries) :
    entries.lookup key = some value := by
  obtain ⟨before, after, rfl⟩ := append_of_mem hmem
  rw [map_append, nodup_append] at h
  refine lookup_eq_some_iff.mpr ⟨before, after, rfl, fun entry hentry => bne_iff_ne.mpr ?_⟩
  exact (h.2.2 _ (mem_map_of_mem hentry) key mem_cons_self).symm

theorem erase_of_lookup_none (h : entries.lookup key = none) : erase key entries = entries := by
  rw [erase, filter_eq_self]
  intro entry hentry
  rw [lookup_eq_none_iff] at h
  have hne := h entry hentry
  rw [bne_iff_ne] at hne
  simpa using fun heq : entry.1 = key => hne heq.symm

/-- A map without a repeated key is the entry of a key and the rest. -/
theorem perm_of_lookup (h : (entries.map Prod.fst).Nodup) (hlookup : entries.lookup key = some value) :
    entries.Perm ((key, value) :: erase key entries) := by
  obtain ⟨before, after, rfl, -⟩ := lookup_eq_some_iff.mp hlookup
  rw [(perm_middle.map Prod.fst).nodup_iff, map_cons, nodup_cons] at h
  have herase : erase key (before ++ (key, value) :: after) = before ++ after := by
    rw [erase, filter_append, filter_cons_of_neg (by simp), ← filter_append, filter_eq_self]
    intro entry hentry
    have hne : entry.1 ≠ key := fun heq => h.1 (mem_map.mpr ⟨entry, hentry, heq⟩)
    simpa using hne
  rw [herase]
  exact perm_middle

end AssocList
end Nyabase.Lib
