import Mathlib.Data.List.Basic

/-!
# Logs of events, newest first

A log grows at its head.  A moment is the length the log had then, so an event came since a moment when the
entries behind it are at least that many.
-/

namespace Nyabase.Lib

variable {α β : Type}

/-- `event` was logged since the log had `mark` entries. -/
def Since (log : List α) (mark : Nat) (event : α) : Prop :=
  ∃ newer older, log = newer ++ event :: older ∧ mark ≤ older.length

/-- `event` was never logged before the log had `mark` entries. -/
def OnlySince (log : List α) (mark : Nat) (event : α) : Prop :=
  ∀ newer older, log = newer ++ event :: older → mark ≤ older.length

/-- `late` was logged after `early`. -/
def After (log : List α) (late early : α) : Prop :=
  ∃ newer older, log = newer ++ late :: older ∧ early ∈ older

/-- Every event is right by the ones logged before it. -/
def EachAfter (Right : List α → α → Prop) : List α → Prop
  | [] => True
  | event :: older => Right older event ∧ EachAfter Right older

variable {log : List α} {mark : Nat} {event late early : α}

instance EachAfter.decidable {Right : List α → α → Prop} [∀ older event, Decidable (Right older event)] :
    ∀ log, Decidable (EachAfter Right log)
  | [] => .isTrue trivial
  | event :: older =>
    @instDecidableAnd (Right older event) (EachAfter Right older) inferInstance (EachAfter.decidable older)

/-- Events that are right after any others. -/
theorem EachAfter.append {Right : List α → α → Prop} {entries : List α} (h : EachAfter Right log)
    (hentries : ∀ event ∈ entries, ∀ older, Right older event) : EachAfter Right (entries ++ log) := by
  induction entries with
  | nil => exact h
  | cons event entries ih =>
    have hrest : EachAfter Right (entries ++ log) :=
      ih fun other hother => hentries other (List.mem_cons_of_mem event hother)
    exact ⟨hentries event List.mem_cons_self _, hrest⟩

variable {grown : List α}

theorem Since.suffix (h : Since log mark event) (hsuffix : log <:+ grown) : Since grown mark event := by
  obtain ⟨newer, older, rfl, hmark⟩ := h
  obtain ⟨entries, rfl⟩ := hsuffix
  exact ⟨entries ++ newer, older, by simp, hmark⟩

theorem OnlySince.cons (h : OnlySince log mark event) (hmark : mark ≤ log.length) (entry : α) :
    OnlySince (entry :: log) mark event := by
  intro newer older hsplit
  cases newer with
  | nil =>
    obtain ⟨-, rfl⟩ := List.cons.inj hsplit
    exact hmark
  | cons first newer =>
    obtain ⟨-, htail⟩ := List.cons.inj hsplit
    exact h newer older htail

/-- A log that grows logs nothing before the moment. -/
theorem OnlySince.suffix (h : OnlySince log mark event) (hmark : mark ≤ log.length) (hsuffix : log <:+ grown) :
    OnlySince grown mark event := by
  obtain ⟨entries, rfl⟩ := hsuffix
  induction entries with
  | nil => exact h
  | cons entry entries ih =>
    refine ih.cons ?_ entry
    rw [List.length_append]
    omega

/-- What was never logged was not logged too early. -/
theorem onlySince_of_not_mem (h : event ∉ log) : OnlySince log mark event := by
  rintro newer older rfl
  simp at h

section

variable (h : After log late early)

include h

theorem After.suffix (hsuffix : log <:+ grown) : After grown late early := by
  obtain ⟨newer, older, rfl, hearly⟩ := h
  obtain ⟨entries, rfl⟩ := hsuffix
  exact ⟨entries ++ newer, older, by simp, hearly⟩

theorem After.cons (entry : α) : After (entry :: log) late early :=
  h.suffix (List.suffix_cons ..)

omit h in
theorem After.head (h : early ∈ log) : After (late :: log) late early := ⟨[], log, rfl, h⟩

/-- An event after one that came since the moment came since the moment too. -/
theorem After.since (honly : OnlySince log mark early) : Since log mark late ∧ Since log mark early := by
  obtain ⟨newer, older, rfl, hearly⟩ := h
  obtain ⟨between, rest, rfl⟩ := List.mem_iff_append.mp hearly
  have hmark : mark ≤ rest.length := honly (newer ++ late :: between) rest (by simp)
  refine ⟨⟨newer, _, rfl, ?_⟩, ⟨newer ++ late :: between, rest, by simp, hmark⟩⟩
  rw [List.length_append, List.length_cons]
  omega

/-- The newest event that `f` recognises came after whatever an event that `f` recognises came after. -/
theorem After.newest {f : α → Option β} {value : β} (hlate : (f late).isSome = true)
    (hnewest : log.findSome? f = some value) : ∃ newest, f newest = some value ∧ After log newest early := by
  obtain ⟨newer, older, rfl, hearly⟩ := h
  rw [List.findSome?_append, List.findSome?_cons] at hnewest
  cases hnewer : newer.findSome? f with
  | none =>
    obtain ⟨found, hfound⟩ := Option.isSome_iff_exists.mp hlate
    simp only [hnewer, hfound, Option.none_or] at hnewest
    exact ⟨late, hfound.trans hnewest, newer, older, rfl, hearly⟩
  | some found =>
    obtain ⟨before, newest, after, rfl, hvalue, -⟩ := List.findSome?_eq_some_iff.mp hnewer
    simp only [hnewer, Option.some_or] at hnewest
    exact ⟨newest, hvalue.trans hnewest, before, after ++ late :: older, by simp, by simp [hearly]⟩

end

end Nyabase.Lib
