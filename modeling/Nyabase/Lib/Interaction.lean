import Mathlib.Data.List.Basic

/-!
# Programs that ask the world

A program computes, fails, or asks a question and goes on with the answer.  What it asks and what it is
answered is its history, newest exchange first; what else happens in the world between two questions shows
only in the answers.  `Ensures` is the weakest precondition of a program: under a contract, which says how
the world may answer and what a question needs of the history before it, every way through the program
respects the contract and ends as promised.
-/

namespace Nyabase.Lib

/-- A program whose question `q` has answers of type `R q`. -/
inductive Program {Q : Type} (R : Q → Type) (ε α : Type) : Type
  | done (value : α)
  | fail (error : ε)
  | ask (question : Q) (next : R question → Program R ε α)

/-- One question and its answer. -/
structure Exchange {Q : Type} (R : Q → Type) where
  question : Q
  answer : R question

variable {Q : Type} {R : Q → Type} {ε α β : Type}

namespace Program

/-- Go on with the value; a failure stays. -/
def bind : Program R ε α → (α → Program R ε β) → Program R ε β
  | done value, next => next value
  | fail error, _ => fail error
  | ask question answered, next => ask question fun answer => (answered answer).bind next

/-- Go on with the failure; a value stays. -/
def tryCatch : Program R ε α → (ε → Program R ε α) → Program R ε α
  | done value, _ => done value
  | fail error, handle => handle error
  | ask question answered, handle => ask question fun answer => (answered answer).tryCatch handle

instance : Monad (Program R ε) where
  pure := done
  bind := bind

instance : MonadExceptOf ε (Program R ε) where
  throw := fail
  tryCatch := tryCatch

/-- The answer that may be an error is thrown as one. -/
def ofExcept : Except ε α → Program R ε α
  | .ok value => done value
  | .error error => fail error

/-- Run the program only under a condition. -/
def when (condition : Bool) (program : Program R ε Unit) : Program R ε Unit :=
  if condition then program else done ()

/-- Run a program in a world that answers from the history. -/
def run (world : List (Exchange R) → (question : Q) → R question) :
    Program R ε α → List (Exchange R) → List (Exchange R) × Except ε α
  | done value, history => (history, .ok value)
  | fail error, history => (history, .error error)
  | ask question answered, history =>
    run world (answered (world history question)) (⟨question, world history question⟩ :: history)

end Program

/-- How the world answers a question after a history, and what the history must show before a question. -/
structure Contract {Q : Type} (R : Q → Type) where
  answers : List (Exchange R) → (question : Q) → R question → Prop
  asks : List (Exchange R) → Q → Prop

/-- Every question of the history was asked as the contract says. -/
def Contract.Respected (contract : Contract R) : List (Exchange R) → Prop
  | [] => True
  | exchange :: earlier => contract.asks earlier exchange.question ∧ contract.Respected earlier

theorem Contract.Respected.asked {contract : Contract R} {exchange : Exchange R} {later earlier : List (Exchange R)}
    (h : contract.Respected (later ++ exchange :: earlier)) : contract.asks earlier exchange.question := by
  induction later with
  | nil => exact h.1
  | cons newest later ih => exact ih h.2

/-- Every answer of the history was given as the contract says. -/
def Contract.Answered (contract : Contract R) : List (Exchange R) → Prop
  | [] => True
  | exchange :: earlier =>
    contract.answers earlier exchange.question exchange.answer ∧ contract.Answered earlier

instance Contract.decidableAnswered (contract : Contract R)
    [∀ earlier question answer, Decidable (contract.answers earlier question answer)] :
    DecidablePred contract.Answered
  | [] => isTrue trivial
  | _ :: earlier =>
    have := Contract.decidableAnswered contract earlier
    inferInstanceAs (Decidable (_ ∧ _))

theorem Contract.Answered.suffix {contract : Contract R} {history earlier : List (Exchange R)}
    (h : contract.Answered history) (hsuffix : earlier <:+ history) : contract.Answered earlier := by
  induction history with
  | nil =>
    rw [List.suffix_nil.mp hsuffix]
    trivial
  | cons exchange history ih =>
    obtain rfl | hrest := List.suffix_cons_iff.mp hsuffix
    · exact h
    · exact ih h.2 hrest

namespace Program

/-- Under the contract, whatever the world answers, the questions are asked as they must be, a value comes
with `post` and a failure with `failed`. -/
def Ensures (contract : Contract R) (post : List (Exchange R) → α → Prop)
    (failed : List (Exchange R) → ε → Prop) : Program R ε α → List (Exchange R) → Prop
  | done value, history => post history value
  | fail error, history => failed history error
  | ask question answered, history =>
    contract.asks history question ∧ ∀ answer, contract.answers history question answer →
        (answered answer).Ensures contract post failed (⟨question, answer⟩ :: history)

variable {contract : Contract R} {post post' : List (Exchange R) → α → Prop}
  {failed failed' : List (Exchange R) → ε → Prop} {history : List (Exchange R)}

variable {program : Program R ε α} {next : α → Program R ε β}

theorem ensures_bind {post : List (Exchange R) → β → Prop} : (program >>= next).Ensures contract post failed history ↔
      program.Ensures contract (fun later value => (next value).Ensures contract post failed later) failed history := by
  show (program.bind next).Ensures contract post failed history ↔ _
  induction program generalizing history with
  | done value | fail error => rfl
  | ask question answered ih => simp [Program.bind, Ensures, ih]

theorem ensures_tryCatch {handle : ε → Program R ε α} : (program.tryCatch handle).Ensures contract post failed history ↔
      program.Ensures contract post (fun later error => (handle error).Ensures contract post failed later) history := by
  induction program generalizing history with
  | done value | fail error => rfl
  | ask question answered ih => simp [Program.tryCatch, Ensures, ih]

theorem ensures_pure {value : α} :
    (pure value : Program R ε α).Ensures contract post failed history ↔ post history value := Iff.rfl

theorem ensures_ofExcept {value : Except ε α} : (ofExcept value : Program R ε α).Ensures contract post failed history ↔
      match value with
      | .ok value => post history value
      | .error error => failed history error := by
  cases value <;> rfl

theorem ensures_ite {condition : Prop} [Decidable condition] {yes no : Program R ε α}
    (hyes : condition → yes.Ensures contract post failed history)
    (hno : ¬ condition → no.Ensures contract post failed history) :
    (if condition then yes else no).Ensures contract post failed history := by
  split
  · exact hyes ‹_›
  · exact hno ‹_›

section

variable (h : program.Ensures contract post failed history)

include h

/-- A weaker promise is kept too; the promises may use that the history only grew. -/
theorem Ensures.mono (hpost : ∀ later value, history <:+ later → post later value → post' later value)
    (hfailed : ∀ later error, history <:+ later → failed later error → failed' later error) :
    program.Ensures contract post' failed' history := by
  induction program generalizing history with
  | done value => exact hpost history value (List.suffix_refl history) h
  | fail error => exact hfailed history error (List.suffix_refl history) h
  | ask question answered ih =>
    refine ⟨h.1, fun answer hanswer => ih answer (h.2 answer hanswer) ?_ ?_⟩
    · intro later value hgrown
      exact hpost later value ((List.suffix_cons _ history).trans hgrown)
    · intro later error hgrown
      exact hfailed later error ((List.suffix_cons _ history).trans hgrown)

/-- `Ensures` where nothing is promised of a failure. -/
def Promises (contract : Contract R) (post : List (Exchange R) → α → Prop) (program : Program R ε α)
    (history : List (Exchange R)) : Prop :=
  program.Ensures contract post (fun _ _ => True) history

theorem Ensures.promises : program.Promises contract post history :=
  h.mono (fun _ _ _ hpost => hpost) fun _ _ _ _ => trivial

end

theorem Promises.mono (h : program.Promises contract post history)
    (hpost : ∀ later value, history <:+ later → post later value → post' later value) :
    program.Promises contract post' history :=
  Ensures.mono h hpost fun _ _ _ _ => trivial

theorem Promises.bind {post' : List (Exchange R) → β → Prop} (h : program.Promises contract post history)
    (hnext : ∀ later value, post later value → (next value).Promises contract post' later) :
    (program >>= next).Promises contract post' history :=
  ensures_bind.mpr (Ensures.mono h (fun later value _ => hnext later value) fun _ _ _ _ => trivial)

/-- Where any question may be asked, all that is known of any end is that the history grew. -/
theorem ensures_grown (hasks : ∀ history question, contract.asks history question) :
    program.Ensures contract (fun later _ => history <:+ later) (fun later _ => history <:+ later) history := by
  induction program generalizing history with
  | done value | fail error => exact List.suffix_refl history
  | ask question answered ih =>
    refine ⟨hasks history question, fun answer _ => (ih answer).mono ?_ ?_⟩ <;>
      exact fun _ _ _ hgrown => (List.suffix_cons _ history).trans hgrown

/-! ### What a program can ask -/

/-- Whatever it is answered, the program asks only questions of this kind. -/
def Within (kind : Q → Prop) : Program R ε α → Prop
  | done _ => True
  | fail _ => True
  | ask question answered => kind question ∧ ∀ answer, (answered answer).Within kind

variable {kind : Q → Prop}

theorem within_pure (value : α) : (pure value : Program R ε α).Within kind := trivial

theorem within_throw (error : ε) : (throw error : Program R ε α).Within kind := trivial

theorem within_ofExcept (value : Except ε α) : (ofExcept value : Program R ε α).Within kind := by
  cases value <;> trivial

theorem Within.bind (h : program.Within kind) (hnext : ∀ value, (next value).Within kind) :
    (program >>= next).Within kind := by
  induction program with
  | done value => exact hnext value
  | fail error => trivial
  | ask question answered ih => exact ⟨h.1, fun answer => ih answer (h.2 answer)⟩

theorem Within.tryCatch {handle : ε → Program R ε α} (h : program.Within kind)
    (hhandle : ∀ error, (handle error).Within kind) : (program.tryCatch handle).Within kind := by
  induction program with
  | done value => trivial
  | fail error => exact hhandle error
  | ask question answered ih => exact ⟨h.1, fun answer => ih answer (h.2 answer)⟩

theorem Within.when {program : Program R ε Unit} (condition : Bool) (h : program.Within kind) :
    (Program.when condition program).Within kind := by
  cases condition with
  | true => exact h
  | false => trivial

theorem Within.ite {condition : Prop} [Decidable condition] {yes no : Program R ε α} (hyes : yes.Within kind)
    (hno : no.Within kind) : (if condition then yes else no).Within kind := by
  split
  · exact hyes
  · exact hno

/-- An invariant of the history under which questions of the kind may be asked, and which their answers
keep, holds however the program ends. -/
theorem Within.ensures {invariant : List (Exchange R) → Prop} (h : program.Within kind)
    (hasks : ∀ history question, kind question → invariant history → contract.asks history question)
    (hkeeps : ∀ history question answer, kind question → invariant history →
      contract.answers history question answer → invariant (⟨question, answer⟩ :: history))
    (hstart : invariant history) :
    program.Ensures contract (fun later _ => invariant later) (fun later _ => invariant later) history := by
  induction program generalizing history with
  | done value | fail error => exact hstart
  | ask question answered ih =>
    refine ⟨hasks history question h.1 hstart, fun answer hanswer => ?_⟩
    exact ih answer (h.2 answer) (hkeeps history question answer h.1 hstart hanswer)

/-! ### Runs -/

theorem suffix_run (world : List (Exchange R) → (question : Q) → R question) (program : Program R ε α)
    (history : List (Exchange R)) : history <:+ (program.run world history).1 := by
  induction program generalizing history with
  | done value | fail error => exact List.suffix_refl history
  | ask question answered ih => exact (List.suffix_cons _ history).trans (ih _ _)

/-- In a run whose answers are as the contract says, the questions are too, and it ends as promised. -/
theorem Ensures.run {world : List (Exchange R) → (question : Q) → R question}
    (h : program.Ensures contract post failed history) (hpast : contract.Respected history)
    (hanswered : contract.Answered (program.run world history).1) :
    contract.Respected (program.run world history).1 ∧ match (program.run world history).2 with
      | .ok value => post (program.run world history).1 value
      | .error error => failed (program.run world history).1 error := by
  induction program generalizing history with
  | done value | fail error => exact ⟨hpast, h⟩
  | ask question answered ih =>
    have hgrown : (⟨question, world history question⟩ :: history) <:+
        ((Program.ask question answered).run world history).1 := suffix_run world (answered _) _
    have hanswer := hanswered.suffix hgrown
    exact ih _ (h.2 _ hanswer.1) ⟨h.1, hpast⟩ hanswered

end Program
end Nyabase.Lib
