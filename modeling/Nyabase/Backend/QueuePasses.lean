import Nyabase.Lib.Transition

/-!
# Wake-ups of the reconcile queue: `packages/backend/src/reconcile/reconcile-worker.service.ts`

`runOnce` and the loop of `executeRunOnce`, cut at their awaits.  A call while a pass runs gets the promise of
that pass and asks for another round; the promise is taken down by `finishRun`, one turn after it has settled.
What the pass hands to the resource chains is left out: here it matters when the queue is listed.
-/

namespace Nyabase.Backend

open Lib

/-- The await of `executeRunOnce` at which the pass stands. -/
inductive PassPoint where
  | reaping
  /-- within `drainReadyQueue`, which started after this many calls of `runOnce` -/
  | listing (since : Nat)
  | arming
  | waiting
  /-- the promise has settled and `finishRun` has yet to run -/
  | settled (resolved : Bool)
  deriving DecidableEq

structure QueueWorker where
  runPromise : Option PassPoint
  rerunRequested : Bool
  aborted : Bool
  /-- a query has failed because the database driver is closed -/
  driverClosed : Bool
  /-- the calls of `runOnce` so far -/
  calls : Nat
  /-- how many of them came before the last full listing started -/
  listed : Nat
  /-- how many of them came before a pass last failed -/
  failed : Nat

inductive QueueLabel where
  | runOnce
  | reaped
  /-- `drainReadyQueue` returns, `more` when the page budget ran out -/
  | drained (more : Bool)
  /-- `armRetryTimer` returns, while chains are at work or not -/
  | armed (chains : Bool)
  | changed
  | threw (driverClosed : Bool)
  | finishRun
  | abort

namespace QueueWorker

def initial : QueueWorker := ⟨none, false, false, false, 0, 0, 0⟩

variable (worker : QueueWorker)

/-- The loop from its head to its first `await`. -/
def round : QueueWorker :=
  { worker with
    rerunRequested := false
    runPromise := some (if worker.aborted then .settled true else .reaping) }

/-- The condition of the loop. -/
def loop : QueueWorker :=
  if worker.rerunRequested && !worker.aborted then worker.round
  else { worker with runPromise := some (.settled true) }

def runOnce : QueueWorker :=
  let called := { worker with calls := worker.calls + 1 }
  if worker.aborted then called
  else if worker.runPromise.isSome then { called with rerunRequested := true }
  else called.round

def finishRun : QueueWorker :=
  let ended := { worker with runPromise := none, rerunRequested := false }
  if worker.rerunRequested && !worker.aborted then ended.round else ended

def step : QueueLabel → Option QueueWorker
  | .runOnce => some worker.runOnce
  | .reaped =>
    if worker.runPromise = some .reaping then some { worker with runPromise := some (.listing worker.calls) } else none
  | .drained more =>
    match worker.runPromise with
    | some (.listing since) =>
      if more then some { worker with rerunRequested := true }.loop
      -- an aborted listing returns as a full one does
      else some { worker with listed := if worker.aborted then worker.listed else since, runPromise := some .arming }
    | _ => none
  | .armed chains =>
    if worker.runPromise = some .arming then
      some (if chains then { worker with runPromise := some .waiting } else worker.loop)
    else none
  | .changed => if worker.runPromise = some .waiting then some { worker with rerunRequested := true }.loop else none
  | .threw driverClosed =>
    match worker.runPromise with
    | none | some (.settled _) => none
    | some _ =>
      if driverClosed then some { worker with driverClosed := true, runPromise := some (.settled true) }
      else some { worker with failed := worker.calls, runPromise := some (.settled false) }
  | .finishRun =>
    match worker.runPromise with
    | some (.settled _) => some worker.finishRun
    | _ => none
  | .abort => some { worker with aborted := true }

/-- Where the calls stand that no listing has served yet: the pass comes to them, or another round is asked for. -/
def Awaited : Option PassPoint → Prop
  | none => worker.calls ≤ worker.listed ∨ worker.calls ≤ worker.failed
  | some .reaping => True
  | some (.listing since) => worker.calls ≤ since ∨ worker.rerunRequested = true
  | some (.settled false) => worker.calls ≤ worker.failed ∨ worker.rerunRequested = true
  | some _ => worker.calls ≤ worker.listed ∨ worker.rerunRequested = true

/-- Until the worker is shut down, no call is forgotten. -/
def Inv : Prop := worker.aborted = false → worker.driverClosed = false → worker.Awaited worker.runPromise

variable {worker} {next : QueueWorker} {label : QueueLabel}

theorem inv_round : worker.round.Inv := by
  intro haborted _
  have haborted : worker.aborted = false := haborted
  simp [round, haborted, Awaited]

/-- The loop ends only when every call has been listed. -/
theorem inv_loop (h : worker.aborted = false → worker.driverClosed = false →
      worker.calls ≤ worker.listed ∨ worker.rerunRequested = true) : worker.loop.Inv := by
  unfold loop
  split
  · exact inv_round
  · exact h

theorem inv_step (hinv : worker.Inv) (hstep : worker.step label = some next) : next.Inv := by
  revert hstep
  fun_cases step worker label with
  | case1 =>
    rintro ⟨⟩
    fun_cases runOnce worker with
    | case1 _ haborted => exact fun hnot => absurd (haborted.symm.trans hnot) (by decide)
    | case2 _ _ hrunning =>
      intro _ _
      cases hpoint : worker.runPromise with
      | none => simp [hpoint] at hrunning
      | some point => rcases point with _ | _ | _ | _ | _ | _ <;> simp [Awaited]
    | case3 => exact inv_round
  | case2 =>
    rintro ⟨⟩
    exact fun _ _ => .inl (Nat.le_refl _)
  | case4 since hpoint =>
    rintro ⟨⟩
    exact inv_loop fun _ _ => .inr rfl
  | case5 more since hpoint =>
    rintro ⟨⟩ haborted hopen
    have hlisting := hinv haborted hopen
    have haborted : worker.aborted = false := haborted
    simpa [hpoint, Awaited, haborted] using hlisting
  | case7 chains hpoint =>
    rw [Inv, hpoint] at hinv
    rintro ⟨⟩
    cases chains with
    | true => exact hinv
    | false => exact inv_loop hinv
  | case9 =>
    rintro ⟨⟩
    exact inv_loop fun _ _ => .inr rfl
  | case13 =>
    rintro ⟨⟩
    exact fun _ => nofun
  | case14 =>
    rintro ⟨⟩
    exact fun _ _ => .inl (Nat.le_refl _)
  | case15 resolved hpoint =>
    rintro ⟨⟩
    unfold finishRun
    split
    · exact inv_round
    · intro haborted hopen
      have hserved := hinv haborted hopen
      cases resolved <;> simp_all [Awaited]
  | case17 =>
    rintro ⟨⟩
    exact nofun
  | _ => nofun

/-- While the worker is not shut down: when the promise of a pass resolves, every call so far was made before a
full listing started that is over by then, or `finishRun` starts another pass; and once no pass runs, every call
was made before such a listing or before a pass that failed. -/
theorem queue_wakes_not_lost {labels : List QueueLabel} (hrun : run step initial labels = some worker)
    (hopen : worker.aborted = false ∧ worker.driverClosed = false) :
    (worker.runPromise = some (.settled true) → ∀ call < worker.calls, call < worker.listed ∨
      ∃ next, worker.step .finishRun = some next ∧ next.runPromise = some .reaping) ∧
    (worker.runPromise = none → ∀ call < worker.calls, call < worker.listed ∨ call < worker.failed) := by
  have hinv : worker.Inv := run_invariant (fun _ _ _ => inv_step) (fun _ _ => .inl (Nat.le_refl _) : initial.Inv) hrun
  have hawaited := hinv hopen.1 hopen.2
  constructor
  · intro hpoint call hcall
    rw [hpoint] at hawaited
    rcases hawaited with hlisted | hrerun
    · exact .inl (Nat.lt_of_lt_of_le hcall hlisted)
    · exact .inr ⟨worker.finishRun, by simp [step, hpoint], by simp [finishRun, round, hrerun, hopen.1]⟩
  · intro hpoint call hcall
    rw [hpoint] at hawaited
    exact hawaited.imp (Nat.lt_of_lt_of_le hcall) (Nat.lt_of_lt_of_le hcall)

/-- A call after the last look at the flag: the promise it gets resolves without it, and another pass lists. -/
theorem late_call_listed_next : ∃ worker,
    run step initial [.runOnce, .reaped, .drained false, .armed false, .runOnce] = some worker ∧
      worker.runPromise = some (.settled true) ∧ (1 < worker.listed ∨
        ∃ next, worker.step .finishRun = some next ∧ next.runPromise = some .reaping) := by
  have hrun : run step initial [.runOnce, .reaped, .drained false, .armed false, .runOnce] = some _ := rfl
  exact ⟨_, hrun, rfl, (queue_wakes_not_lost hrun ⟨rfl, rfl⟩).1 rfl 1 (by decide)⟩

/-- A call after the shutdown is answered at once. -/
theorem call_after_abort_unserved : ∃ worker, run step initial [.abort, .runOnce] = some worker ∧
    worker.runPromise = none ∧ worker.calls = 1 ∧ worker.listed = 0 ∧ worker.failed = 0 :=
  ⟨_, rfl, rfl, rfl, rfl, rfl⟩

end QueueWorker

end Nyabase.Backend
