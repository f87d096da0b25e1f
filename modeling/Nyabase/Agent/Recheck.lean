import Mathlib.Tactic
import Nyabase.Lib.Transition

/-!
# Checks after ruleset changes: `recheckOnChanges` of `packages/agent/src/nft.ts`

A change arms the debounce timer, whose callback starts a check.  A change during the check sets a flag, and
the end of the check then acts as a change.  The last five fields are history that no step reads.
-/

namespace Nyabase.Agent

open Lib

structure Recheck where
  stopped : Bool
  /-- The delay of the pending timer. -/
  debounce : Option Nat
  checking : Bool
  changedDuringCheck : Bool
  failures : Nat
  /-- How many checks run. -/
  running : Nat
  /-- How many changes were reported. -/
  changes : Nat
  /-- How many of them before the last check started … -/
  started : Nat
  /-- … and before the last check that is over did. -/
  completed : Nat
  /-- How often, since the last change, the timer fired or a check ended. -/
  worked : Nat

inductive RecheckLabel where
  | change
  | timer
  | checked (present : Bool)
  | verified
  | stop

namespace Recheck

def initial : Recheck := ⟨false, none, false, false, 0, 0, 0, 0, 0, 0⟩

variable (state : Recheck)

def changed : Recheck :=
  if state.stopped || state.debounce.isSome then state
  else if state.checking then { state with changedDuringCheck := true }
  else { state with debounce := some (min (200 * 2 ^ state.failures) 60000) }

/-- The callback of a check. -/
def afterCheck (present : Bool) : Recheck :=
  let ended := { state with
    checking := false
    failures := if present then 0 else min (state.failures + 1) 16
    running := state.running - 1
    completed := state.started
    worked := state.worked + 1 }
  if ended.changedDuringCheck then { ended with changedDuringCheck := false }.changed else ended

def onVerified : Recheck :=
  if state.failures = 0 then state
  else if state.debounce.isSome then { state with failures := 0, debounce := none }.changed
  else { state with failures := 0 }

def step (state : Recheck) : RecheckLabel → Option Recheck
  | .change => if state.stopped then none else some { state with changes := state.changes + 1, worked := 0 }.changed
  | .timer =>
    if state.debounce.isSome then
      some { state with
        debounce := none, checking := true, running := state.running + 1, started := state.changes
        worked := state.worked + 1 }
    else none
  | .checked present => if 0 < state.running then some (state.afterCheck present) else none
  | .verified => if state.stopped then none else some state.onVerified
  | .stop => some { state with stopped := true, debounce := none }

/-! ## The invariant -/

/-- What is still to be done before the machine is at rest. -/
def remaining : Nat :=
  if state.debounce.isSome then 2 else if state.checking then (if state.changedDuringCheck then 3 else 1) else 0

/-- What the timer, the check and the flag say of each other. -/
structure Consistent : Prop where
  running : state.running = if state.checking then 1 else 0
  timer : state.debounce.isSome = true → state.checking = false
  flag : state.changedDuringCheck = true → state.checking = true
  started : state.started ≤ state.changes
  completed : state.checking = false → state.completed = state.started

structure Inv : Prop extends state.Consistent where
  /-- A change after the start of the last check waits for the timer or for the end of the check. -/
  noticed : state.stopped = false → state.started < state.changes →
    state.debounce.isSome = true ∨ state.checking = true ∧ state.changedDuringCheck = true
  bounded : state.worked + state.remaining ≤ 3

variable {state}

theorem Consistent.changed (h : state.Consistent)
    (hbounded : state.worked ≤ if state.checking then 0 else 1) : state.changed.Inv := by
  obtain ⟨hrunning, htimer, hflag, hstarted, hcompleted⟩ := h
  refine ⟨⟨?_, ?_, ?_, ?_, ?_⟩, ?_, ?_⟩ <;> grind [Recheck.changed, remaining]

theorem Inv.step {label : RecheckLabel} {next : Recheck} (h : state.Inv) (hstep : state.step label = some next) :
    next.Inv := by
  have ⟨⟨hrunning, htimer, hflag, hstarted, hcompleted⟩, hnoticed, hbounded⟩ := h
  cases label with
  | change =>
    obtain ⟨-, rfl⟩ := of_refusal hstep
    exact Consistent.changed ⟨hrunning, htimer, hflag, hstarted.trans (Nat.le_succ _), hcompleted⟩ (Nat.zero_le _)
  | timer =>
    -- the check that starts has seen every change
    obtain ⟨hpending, rfl⟩ := of_guard hstep
    refine ⟨⟨?_, ?_, ?_, le_rfl, ?_⟩, fun _ hlate => absurd hlate (lt_irrefl _), ?_⟩ <;> grind [remaining]
  | checked present =>
    obtain ⟨hsome, rfl⟩ := of_guard hstep
    unfold afterCheck
    dsimp only
    split
    · apply Consistent.changed
      · constructor <;> grind
      · grind [remaining]
    · refine ⟨⟨?_, ?_, ?_, ?_, ?_⟩, ?_, ?_⟩ <;> grind [remaining]
  | verified =>
    obtain ⟨-, rfl⟩ := of_refusal hstep
    unfold onVerified
    split
    · exact h
    · split
      · exact Consistent.changed ⟨hrunning, nofun, hflag, hstarted, hcompleted⟩ (by grind [remaining])
      · exact ⟨⟨hrunning, htimer, hflag, hstarted, hcompleted⟩, hnoticed, hbounded⟩
  | stop =>
    obtain rfl := Option.some.inj hstep
    refine ⟨⟨hrunning, nofun, hflag, hstarted, hcompleted⟩, nofun, ?_⟩
    grind [remaining]

/-- No change is missed and no two checks overlap.  While no check that started after the last change is over,
the timer or a check has something to do, which happens at most three times after a change. -/
theorem changes_never_missed {labels : List RecheckLabel} (hrun : run step initial labels = some state)
    (hlive : state.stopped = false) : (state.started < state.changes →
      state.debounce.isSome = true ∨ state.checking = true ∧ state.changedDuringCheck = true) ∧
    state.running ≤ 1 ∧ state.worked ≤ 3 ∧ (state.completed = state.changes ∨ (state.step .timer).isSome = true ∨
      ∀ present, (state.step (.checked present)).isSome = true) := by
  have hinitial : initial.Inv := ⟨⟨rfl, nofun, nofun, le_rfl, fun _ => rfl⟩, nofun, by decide⟩
  have hinv := run_invariant (fun _ _ _ => Inv.step) hinitial hrun
  have hbounded := hinv.bounded
  refine ⟨hinv.noticed hlive, ?_, by omega, ?_⟩
  · rw [hinv.running]
    split <;> decide
  by_cases hchecking : state.checking = true
  · exact .inr (.inr fun present => by simp [Recheck.step, hinv.running, hchecking])
  rw [Bool.not_eq_true] at hchecking
  rw [hinv.completed hchecking]
  obtain hlate | hdone := hinv.started.lt_or_eq
  · obtain hpending | ⟨hset, -⟩ := hinv.noticed hlive hlate
    · exact .inr (.inl (by simp [Recheck.step, hpending]))
    · exact absurd hset (by simp [hchecking])
  · exact .inl hdone

/-- A change during a check. -/
theorem change_during_check_noticed : ∃ state, run step initial [.change, .timer, .change] = some state ∧
    state.started < state.changes ∧
    (state.debounce.isSome = true ∨ state.checking = true ∧ state.changedDuringCheck = true) := by
  have hrun : run step initial [.change, .timer, .change] = some _ := rfl
  exact ⟨_, hrun, by decide, (changes_never_missed hrun rfl).1 (by decide)⟩

end Recheck
end Nyabase.Agent
