import Mathlib.Data.List.Forall2

/-!
# Fallible computations

`Except` stands for Rust's `Result` and for a TypeScript function that may throw.  `ensure` is the
guard that returns early, `okOr` turns an absent value into an error, and the two inversion lemmas
peel a successful computation apart.
-/

namespace Nyabase.Lib

variable {ε α β : Type}

/-- Return early with `error` unless `condition` holds. -/
def ensure (condition : Bool) (error : ε) : Except ε Unit :=
  if condition then .ok () else .error error

/-- `Option::ok_or` (and `anyhow`'s `context` on an `Option`). -/
def okOr (value : Option α) (error : ε) : Except ε α :=
  match value with
  | some a => .ok a
  | none => .error error

variable {error : ε} {f : α → Option β} {items : List α} {results : List β}

@[simp] theorem ensure_eq_ok {condition : Bool} : ensure condition error = .ok () ↔ condition = true := by
  cases condition <;> simp [ensure]

@[simp] theorem okOr_eq_ok {value : Option α} {a : α} : okOr value error = .ok a ↔ value = some a := by
  cases value <;> simp [okOr]

/-- A sequence succeeds exactly when its first part does and hands its value to a second that does. -/
theorem bind_eq_ok {first : Except ε α} {next : α → Except ε β} {result : β} :
    (first >>= next) = .ok result ↔ ∃ value, first = .ok value ∧ next value = .ok result := by
  cases first with
  | error e | ok value => simp [bind, Except.bind]

theorem map_eq_ok {value : Except ε α} {f : α → β} {result : β} :
    value.map f = .ok result ↔ ∃ a, value = .ok a ∧ f a = result := by
  cases value with
  | error e | ok a => simp [Except.map]

theorem ensure_bind_eq_ok {condition : Bool} {f : Unit → Except ε β} {b : β} :
    (ensure condition error >>= f) = .ok b ↔ condition = true ∧ f () = .ok b := by
  rw [bind_eq_ok]
  constructor
  · rintro ⟨⟨⟩, hcondition, hnext⟩
    exact ⟨ensure_eq_ok.mp hcondition, hnext⟩
  · rintro ⟨hcondition, hnext⟩
    exact ⟨(), ensure_eq_ok.mpr hcondition, hnext⟩

/-- A step under a guard was taken, so the guard held. -/
theorem of_guard {condition : Prop} [Decidable condition] {value result : α}
    (h : (if condition then some value else none) = some result) : condition ∧ value = result := by
  obtain ⟨hcondition, h⟩ := Option.ite_none_right_eq_some.mp h
  exact ⟨hcondition, Option.some.inj h⟩

theorem of_refusal {condition : Prop} [Decidable condition] {value result : α}
    (h : (if condition then none else some value) = some result) : ¬condition ∧ value = result := by
  obtain ⟨hcondition, h⟩ := Option.ite_none_left_eq_some.mp h
  exact ⟨hcondition, Option.some.inj h⟩

/-! ## Optional results of a whole list -/

/-- The results of a list that all exist, each in its item's place. -/
theorem mapM_eq_some_iff :
    items.mapM f = some results ↔ List.Forall₂ (fun item result => f item = some result) items results := by
  induction items generalizing results with
  | nil => simp [eq_comm]
  | cons item items ih =>
    simp only [List.mapM_cons, List.forall₂_cons_left_iff, Option.bind_eq_bind, Option.bind_eq_some_iff, ih,
      Option.pure_def, Option.some.injEq, @eq_comm _ results]
    simp

theorem mem_of_mapM_eq_some (h : items.mapM f = some results) (result : β) :
    result ∈ results ↔ ∃ item ∈ items, f item = some result := by
  rw [mapM_eq_some_iff] at h
  induction h with
  | nil => simp
  | cons hfirst _ ih => simp [ih, hfirst, eq_comm]

theorem exists_of_mapM_eq_some (h : items.mapM f = some results) {item : α} (hitem : item ∈ items) :
    ∃ result, f item = some result := by
  rw [mapM_eq_some_iff] at h
  induction h with
  | nil => cases hitem
  | cons hfirst _ ih =>
    obtain rfl | hmem := List.mem_cons.mp hitem
    · exact ⟨_, hfirst⟩
    · exact ih hmem

theorem exists_mapM_eq_some (h : ∀ item ∈ items, ∃ result, f item = some result) :
    ∃ results, items.mapM f = some results := by
  induction items with
  | nil => exact ⟨[], rfl⟩
  | cons item items ih =>
    obtain ⟨first, hfirst⟩ := h item List.mem_cons_self
    obtain ⟨rest, hrest⟩ := ih fun other hother => h other (List.mem_cons_of_mem item hother)
    exact ⟨first :: rest, by rw [List.mapM_cons, hfirst, hrest]; rfl⟩

/-- A reader that takes more items gives what the narrower one gave. -/
theorem mapM_eq_some_of_imp {g : α → Option β} (hfg : ∀ item result, f item = some result → g item = some result)
    (h : items.mapM f = some results) : items.mapM g = some results := by
  rw [mapM_eq_some_iff] at h ⊢
  exact h.imp hfg

end Nyabase.Lib
