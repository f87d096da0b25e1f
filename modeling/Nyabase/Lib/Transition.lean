import Mathlib.Logic.Function.Basic
import Nyabase.Lib.Result

/-!
# Labelled transition systems

A system is a partial step function: a label that is not enabled in a state has no successor.  A run is a
list of labels.  What every step preserves, every run preserves.
-/

namespace Nyabase.Lib

variable {σ ℓ : Type}

/-- The state a run of labels leads to, if every label is enabled in turn. -/
def run (step : σ → ℓ → Option σ) (state : σ) : List ℓ → Option σ
  | [] => some state
  | label :: labels => (step state label).bind fun next => run step next labels

variable {step : σ → ℓ → Option σ}

theorem run_cons {state last : σ} {label : ℓ} {labels : List ℓ} : run step state (label :: labels) = some last ↔
      ∃ next, step state label = some next ∧ run step next labels = some last := by
  simp [run, Option.bind_eq_some_iff]

/-- An invariant of the steps is an invariant of the runs. -/
theorem run_invariant {Invariant : σ → Prop}
    (preserved : ∀ state label next, Invariant state → step state label = some next → Invariant next)
    {state last : σ} {labels : List ℓ} (start : Invariant state)
    (h : run step state labels = some last) : Invariant last := by
  induction labels generalizing state with
  | nil =>
    obtain rfl : state = last := Option.some.inj h
    exact start
  | cons label labels ih =>
    obtain ⟨next, hstep, hrun⟩ := run_cons.mp h
    exact ih (preserved state label next start hstep) hrun

/-- A system whose every label is enabled under the invariant completes every run. -/
theorem run_total {P : σ → Prop} (enabled : ∀ state label, P state → ∃ next, step state label = some next ∧ P next)
    {state : σ} (start : P state) (labels : List ℓ) : ∃ last, run step state labels = some last ∧ P last := by
  induction labels generalizing state with
  | nil => exact ⟨state, rfl, start⟩
  | cons label labels ih =>
    obtain ⟨next, hstep, hnext⟩ := enabled state label start
    obtain ⟨last, hlast, h⟩ := ih hnext
    exact ⟨last, run_cons.mpr ⟨next, hstep, hlast⟩, h⟩

/-- What an entry of a map is after one of its keys was set. -/
theorem update_eq_some {α κ : Type} [DecidableEq κ] {map : κ → Option α} {key other : κ} {value : Option α} {found : α}
    (h : Function.update map key value other = some found) :
    other = key ∧ value = some found ∨ other ≠ key ∧ map other = some found := by
  by_cases hother : other = key
  · subst hother
    rw [Function.update_self] at h
    exact .inl ⟨rfl, h⟩
  · rw [Function.update_of_ne hother] at h
    exact .inr ⟨hother, h⟩

end Nyabase.Lib
