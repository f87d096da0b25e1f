import Nyabase.Lib.AssocList

/-!
# Queues by key

A map from keys to queues, in which a queue that runs empty leaves the map.  `items` is everything queued.
-/

namespace Nyabase.Lib
namespace QueueMap

open AssocList

variable {κ α : Type} [DecidableEq κ]

def items (queues : List (κ × List α)) : List α := queues.flatMap Prod.snd

def pushBack (key : κ) (item : α) (queues : List (κ × List α)) : List (κ × List α) :=
  AssocList.set key ((queues.lookup key).getD [] ++ [item]) queues

/-- Writes the queue of a key back after something was taken out of it. -/
def put (key : κ) (queue : List α) (queues : List (κ × List α)) : List (κ × List α) :=
  if queue.isEmpty then AssocList.erase key queues else AssocList.set key queue queues

/-- How many items are queued under a key. -/
def held (queues : List (κ × List α)) (key : κ) : Nat := ((queues.lookup key).map List.length).getD 0

theorem held_le {queues : List (κ × List α)} {bound : Nat} (h : ∀ entry ∈ queues, entry.2.length ≤ bound) (key : κ) :
    held queues key ≤ bound := by
  unfold held
  cases hlookup : queues.lookup key with
  | none => exact Nat.zero_le bound
  | some queue => exact h (key, queue) (mem_of_lookup hlookup)

theorem held_pushBack (key other : κ) (item : α) (queues : List (κ × List α)) :
    held (pushBack key item queues) other = held queues other + if other = key then 1 else 0 := by
  by_cases heq : other = key
  · subst heq
    cases hlookup : queues.lookup other <;> simp [held, pushBack, lookup_set, hlookup]
  · simp [held, pushBack, lookup_set, heq]

theorem held_put (key other : κ) (queue : List α) (queues : List (κ × List α)) :
    held (put key queue queues) other = if other = key then queue.length else held queues other := by
  by_cases heq : other = key <;> cases queue <;> simp [held, put, lookup_set, lookup_erase, heq]

section

variable {queues : List (κ × List α)} {queue : List α} {P : List α → Prop}

/-- What holds of every queue still does after one of them was written. -/
theorem each_set (h : ∀ entry ∈ queues, P entry.2) (key : κ) (hqueue : P queue) :
    ∀ entry ∈ AssocList.set key queue queues, P entry.2 := by
  intro entry hentry
  rcases List.mem_cons.mp hentry with rfl | hold
  · exact hqueue
  · exact h entry (mem_erase hold).1

theorem each_put (h : ∀ entry ∈ queues, P entry.2) (key : κ) (hqueue : P queue) :
    ∀ entry ∈ put key queue queues, P entry.2 := by
  unfold put
  split
  · exact fun entry hentry => h entry (mem_erase hentry).1
  · exact each_set h key hqueue

end

/-- Every item is in the queue of its own key, and no queue is empty. -/
structure WellKeyed (keyOf : α → κ) (queues : List (κ × List α)) : Prop where
  keys : (queues.map Prod.fst).Nodup
  nonempty : ∀ entry ∈ queues, entry.2 ≠ []
  keyed : ∀ entry ∈ queues, ∀ item ∈ entry.2, keyOf item = entry.1

namespace WellKeyed

variable {keyOf : α → κ} {queues : List (κ × List α)} {key : κ} {queue : List α}

omit [DecidableEq κ] in
theorem nil : WellKeyed keyOf [] := by
  constructor <;> simp

section

variable (h : WellKeyed keyOf queues)

include h

omit [DecidableEq κ] in
/-- The order in which a map lists its entries does not matter. -/
theorem perm {others : List (κ × List α)} (hperm : queues.Perm others) : WellKeyed keyOf others :=
  ⟨(hperm.map Prod.fst).nodup_iff.mp h.keys, fun entry hentry => h.nonempty entry (hperm.mem_iff.mpr hentry),
    fun entry hentry => h.keyed entry (hperm.mem_iff.mpr hentry)⟩

theorem erase (key : κ) : WellKeyed keyOf (AssocList.erase key queues) :=
  ⟨keys_erase h.keys key, fun entry hentry => h.nonempty entry (mem_erase hentry).1,
    fun entry hentry => h.keyed entry (mem_erase hentry).1⟩

theorem set (hne : queue ≠ []) (hkey : ∀ item ∈ queue, keyOf item = key) :
    WellKeyed keyOf (AssocList.set key queue queues) := by
  constructor
  case keys => exact keys_set h.keys key queue
  case nonempty => exact each_set (P := (· ≠ [])) h.nonempty key hne
  case keyed =>
    exact List.forall_mem_cons.mpr ⟨hkey, (h.erase key).keyed⟩

section

variable (hlookup : queues.lookup key = some queue)

include hlookup

theorem items_perm : (items queues).Perm (queue ++ items (AssocList.erase key queues)) :=
  (AssocList.perm_of_lookup h.keys hlookup).flatMap_right Prod.snd

theorem keyed_of_lookup : ∀ item ∈ queue, keyOf item = key :=
  h.keyed (key, queue) (mem_of_lookup hlookup)

omit hlookup in
theorem lookup_of_mem_items {item : α} (hitem : item ∈ items queues) :
    ∃ queue, queues.lookup (keyOf item) = some queue ∧ item ∈ queue := by
  obtain ⟨entry, hentry, hmem⟩ := List.mem_flatMap.mp hitem
  refine ⟨entry.2, ?_, hmem⟩
  rw [h.keyed entry hentry item hmem]
  exact lookup_of_mem h.keys hentry

omit hlookup in
theorem pushBack {item : α} : WellKeyed keyOf (QueueMap.pushBack (keyOf item) item queues) ∧
      (items (QueueMap.pushBack (keyOf item) item queues)).Perm (item :: items queues) := by
  cases hlookup : queues.lookup (keyOf item) with
  | none =>
    simp only [QueueMap.pushBack, hlookup, Option.getD_none, List.nil_append]
    constructor
    · exact h.set (by simp) (by simp)
    · rw [AssocList.set, AssocList.erase_of_lookup_none hlookup]
      exact List.Perm.refl _
  | some queue =>
    simp only [QueueMap.pushBack, hlookup, Option.getD_some]
    constructor
    · apply h.set (by simp)
      intro other hother
      rcases List.mem_append.mp hother with hold | hnew
      · exact h.keyed_of_lookup hlookup other hold
      · rw [List.mem_singleton.mp hnew]
    · have hbefore := h.items_perm hlookup
      show (queue ++ [item] ++ items (AssocList.erase (keyOf item) queues)).Perm _
      rw [List.append_assoc]
      exact List.perm_middle.trans (hbefore.symm.cons item)

/-- Part of a queue is written back. -/
theorem put {rest : List α} (hsub : ∀ item ∈ rest, item ∈ queue) : WellKeyed keyOf (QueueMap.put key rest queues) ∧
      (items (QueueMap.put key rest queues)).Perm (rest ++ items (AssocList.erase key queues)) := by
  cases rest with
  | nil => exact ⟨h.erase key, List.Perm.refl _⟩
  | cons item rest =>
    refine ⟨h.set (by simp) ?_, List.Perm.refl _⟩
    intro other hother
    exact h.keyed_of_lookup hlookup other (hsub other hother)

/-- One item is taken out of a queue: everything else stays queued. -/
theorem put_erased {item : α} {rest : List α}
    (hperm : queue.Perm (item :: rest)) : WellKeyed keyOf (QueueMap.put key rest queues) ∧
      (items queues).Perm (item :: items (QueueMap.put key rest queues)) := by
  obtain ⟨hkeyed, hitems⟩ := h.put hlookup fun other hother => hperm.mem_iff.mpr (List.mem_cons_of_mem item hother)
  refine ⟨hkeyed, ?_⟩
  calc (items queues).Perm (queue ++ items (AssocList.erase key queues)) := h.items_perm hlookup
    List.Perm _ (item :: (rest ++ items (AssocList.erase key queues))) := hperm.append_right _
    List.Perm _ (item :: items (QueueMap.put key rest queues)) := hitems.symm.cons item

end

end

end WellKeyed

end QueueMap
end Nyabase.Lib
