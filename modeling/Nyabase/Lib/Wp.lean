/-!
# Weakest preconditions for programs with a state and errors

`EStateM ε σ` runs on a state and, unlike `ExceptT`, keeps the state it reached when it throws.  `wp`
says what a program guarantees from one start state: a condition on a normal end and one on a thrown
error.  A program's specification is a `wp` statement; `wp_bind` splits a sequence and `wp_mono`
weakens what was proved of a part to what the whole needs.
-/

namespace Nyabase.Lib

variable {ε σ α β : Type}

/-- From `s`, `program` ends normally in `post` or throws in `failure`. -/
def wp (program : EStateM ε σ α) (post : α → σ → Prop) (failure : ε → σ → Prop) (s : σ) : Prop :=
  match program s with
  | .ok a s' => post a s'
  | .error e s' => failure e s'

/-- Run a computation that does not touch the state. -/
def ofResult (result : Except ε α) : EStateM ε σ α := fun s =>
  match result with
  | .ok a => .ok a s
  | .error e => .error e s

section Rules

variable {post : β → σ → Prop} {failure : ε → σ → Prop} {s : σ}

theorem wp_pure (a : β) : wp (pure a : EStateM ε σ β) post failure s ↔ post a s := Iff.rfl

theorem wp_bind (first : EStateM ε σ α) (next : α → EStateM ε σ β) :
    wp (first >>= next) post failure s ↔ wp first (fun a s' => wp (next a) post failure s') failure s := by
  show (match EStateM.bind first next s with
    | .ok a s' => post a s'
    | .error e s' => failure e s') ↔ _
  unfold wp EStateM.bind
  cases first s <;> rfl

/-- Two programs that go on alike from wherever their common start ends. -/
theorem bind_apply_congr {first : EStateM ε σ α} {next next' : α → EStateM ε σ β}
    (h : wp first (fun a s' => next a s' = next' a s') (fun _ _ => True) s) :
    (first >>= next) s = (first >>= next') s := by
  show EStateM.bind first next s = EStateM.bind first next' s
  unfold wp at h
  unfold EStateM.bind
  cases hrun : first s with
  | ok a s' =>
    rw [hrun] at h
    exact h
  | error e s' => rfl

variable {program : EStateM ε σ β}

section

variable (h : wp program post failure s)

include h

theorem wp_mono {post' : β → σ → Prop} {failure' : ε → σ → Prop}
    (hpost : ∀ a s', post a s' → post' a s') (hfailure : ∀ e s', failure e s' → failure' e s') :
    wp program post' failure' s := by
  unfold wp at h ⊢
  cases hrun : program s with
  | ok a s' =>
    rw [hrun] at h
    exact hpost a s' h
  | error e s' =>
    rw [hrun] at h
    exact hfailure e s' h

omit h in
theorem wp_ofResult (result : Except ε β) : wp (ofResult result) post failure s ↔
      (∀ a, result = .ok a → post a s) ∧ (∀ e, result = .error e → failure e s) := by
  cases result with
  | ok a | error e => simp [wp, ofResult]

/-- What a specification says of a run that ended normally. -/
theorem wp_ok {b : β} {s' : σ} (hrun : program s = .ok b s') : post b s' := by
  unfold wp at h
  rwa [hrun] at h

/-- What a specification says of a run that threw. -/
theorem wp_error {e : ε} {s' : σ} (hrun : program s = .error e s') : failure e s' := by
  unfold wp at h
  rwa [hrun] at h

end

end Rules

end Nyabase.Lib
