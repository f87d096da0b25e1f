import Nyabase.Agent.Firewall
import Nyabase.Lib.AssocList
import Nyabase.Lib.History

/-!
# The guest IPv6 guard: `packages/agent/src/ipv6-guard.ts`

`ensure` answers with a promise.  A call while no check runs starts one and gets its promise; any other call
gets the promise `queued`, whose callback runs once the running check is over and calls `ensure` again.
Promises are tickets here: a check, or a queued call that later became another ticket.

The class is cut at its awaits and at the two callbacks (`finally` and `then`).  The log is history that no
step reads.
-/

namespace Nyabase.Agent

open Lib Common List

/-- `text.includes(needle)`. -/
def includes (needle : String) (text : List Char) : Bool :=
  text.tails.any fun rest => needle.toList.isPrefixOf rest

/-- A line that drops guest IPv6. -/
def isGuardDrop (line : List Char) : Bool :=
  includes managedNicHostNamePrefix line && includes "ip6" line && "drop".toList.reverse.isPrefixOf line.reverse

/-- Does a listed table still drop guest IPv6 on every hook? -/
def guardTableIsComplete (listing : NftListing) : Bool :=
  let lines := (listing.splitOn '\n').map (trimBy isJsWhitespace)
  (["hook forward", "hook input", "hook output"].all fun hook => includes hook listing) &&
    decide (4 ≤ (lines.filter isGuardDrop).length)

inductive GuardTicket where
  | check (id : Nat)
  | queue (id : Nat)

/-- The await at which the running check stands; `finished` once it has returned. -/
inductive GuardPoint where
  | listing | applying | relisting
  | finished (present : Bool)

inductive GuardEvent where
  | started (id : Nat)
  | ended (id : Nat) (present : Bool)

structure Ipv6Guard where
  present : Bool
  lastError : Option String
  running : Option (Nat × GuardPoint)
  /-- The queued call and the check it waits for. -/
  queued : Option (Nat × Nat)
  /-- The checks whose promise is resolved. -/
  results : List (Nat × Bool)
  /-- What the queued calls became. -/
  resolved : List (Nat × GuardTicket)
  nextCheck : Nat
  nextQueue : Nat
  /-- `bridge nyabase_guard` as nft lists it. -/
  table : Option NftListing
  log : List GuardEvent

inductive GuardLabel where
  | ensure
  | tableChanged (table : Option NftListing)
  | listed (listing : Option NftListing)
  | listFailed (error : String)
  | nftApplied (table : NftListing)
  | nftFailed (error : String)
  /-- The `finally` callback. -/
  | cleared
  /-- The `then` callback of the queued call. -/
  | fired

namespace Ipv6Guard

def fresh (table : Option NftListing) : Ipv6Guard where
  present := false
  lastError := some "not verified yet"
  running := none
  queued := none
  results := []
  resolved := []
  nextCheck := 0
  nextQueue := 0
  table
  log := []

variable (guard : Ipv6Guard)

/-- The promise a call of `ensure` gets. -/
def ticket : GuardTicket :=
  match guard.running with
  | none => .check guard.nextCheck
  | some _ => .queue ((guard.queued.map Prod.fst).getD guard.nextQueue)

/-- A call of `ensure`. -/
def ensure : Ipv6Guard :=
  match guard.running with
  | none =>
    { guard with
      running := some (guard.nextCheck, .listing), nextCheck := guard.nextCheck + 1,
      log := .started guard.nextCheck :: guard.log }
  | some (check, _) =>
    if guard.queued.isSome then guard
    else { guard with queued := some (guard.nextQueue, check), nextQueue := guard.nextQueue + 1 }

/-- The queued call is no longer queued. -/
def unqueue : Ipv6Guard := { guard with queued := none }

/-- A queued call becomes another ticket. -/
def resolve (queue : Nat) (ticket : GuardTicket) : Ipv6Guard :=
  { guard with resolved := (queue, ticket) :: guard.resolved }

/-- The check returns. -/
def finish (check : Nat) (present : Bool) (error : Option String) : Ipv6Guard :=
  { guard with
    present, lastError := error, running := some (check, .finished present),
    log := .ended check present :: guard.log }

/-- The check fails with an exception. -/
def fail (check : Nat) (error : String) : Ipv6Guard :=
  guard.finish check false (some (String.ofList (error.toList.take 512)))

def complete (listing : Option NftListing) : Bool :=
  match listing with
  | none => false
  | some listing => guardTableIsComplete listing

def step (guard : Ipv6Guard) : GuardLabel → Option Ipv6Guard
  | .ensure => some guard.ensure
  | .tableChanged table => some { guard with table }
  | .listed listing =>
    match guard.running with
    | some (check, .listing) =>
      if complete listing then some { guard with running := some (check, .relisting) }
      else some { guard with running := some (check, .applying) }
    | some (check, .relisting) =>
      some (guard.finish check (complete listing)
        (if complete listing then none else some "guard table did not verify after apply"))
    | _ => none
  | .listFailed error =>
    match guard.running with
    | some (check, .listing) => some (guard.fail check error)
    | some (check, .relisting) => some (guard.fail check error)
    | _ => none
  | .nftApplied table =>
    match guard.running with
    | some (check, .applying) =>
      some { guard with table := some table, running := some (check, .relisting) }
    | _ => none
  | .nftFailed error =>
    match guard.running with
    | some (check, .applying) => some (guard.fail check error)
    | _ => none
  | .cleared =>
    match guard.running with
    | some (check, .finished present) =>
      some { guard with running := none, results := (check, present) :: guard.results }
    | _ => none
  | .fired =>
    match guard.queued with
    | some (queue, check) =>
      if (guard.results.lookup check).isSome then
        some (guard.unqueue.ensure.resolve queue guard.unqueue.ticket)
      else none
    | none => none

/-- The answer of a promise, if it has one; `fuel` bounds the queued calls it went through. -/
def answer (guard : Ipv6Guard) : Nat → GuardTicket → Option Bool
  | _, .check id => guard.results.lookup id
  | 0, .queue _ => none
  | fuel + 1, .queue id => (guard.resolved.lookup id).bind (guard.answer fuel)

/-- The value a caller awaits. -/
def result (ticket : GuardTicket) : Option Bool := guard.answer (guard.resolved.length) ticket

/-! ## Checks start after the calls they answer -/

variable {guard} {next : Ipv6Guard} {mark : Nat}

structure Wf (guard : Ipv6Guard) : Prop where
  started : ∀ id, .started id ∈ guard.log → id < guard.nextCheck
  running : ∀ id point, guard.running = some (id, point) → .started id ∈ guard.log
  finished : ∀ id present, guard.running = some (id, .finished present) →
    After guard.log (.ended id present) (.started id)
  results : ∀ id present, (id, present) ∈ guard.results → After guard.log (.ended id present) (.started id)
  queued : ∀ entry, guard.queued = some entry → guard.resolved.lookup entry.1 = none ∧ entry.1 < guard.nextQueue
  resolved : ∀ entry ∈ guard.resolved, entry.1 < guard.nextQueue

/-- The check behind the ticket has started since the moment, or will. -/
inductive Fresh (guard : Ipv6Guard) (mark : Nat) : GuardTicket → Prop where
  | check {id : Nat} (since : OnlySince guard.log mark (.started id)) : Fresh guard mark (.check id)
  | queued {entry : Nat × Nat} (waits : guard.queued = some entry) : Fresh guard mark (.queue entry.1)
  | resolved {id : Nat} {ticket : GuardTicket} (became : guard.resolved.lookup id = some ticket)
      (fresh : Fresh guard mark ticket) : Fresh guard mark (.queue id)

theorem wf_fresh (table : Option NftListing) : Wf (fresh table) := ⟨nofun, nofun, nofun, nofun, nofun, nofun⟩

@[simp] theorem ensure_resolved : guard.ensure.resolved = guard.resolved := by
  unfold Ipv6Guard.ensure
  split
  · rfl
  · split <;> rfl

theorem nextQueue_le_ensure : guard.nextQueue ≤ guard.ensure.nextQueue := by
  unfold Ipv6Guard.ensure
  split
  · exact le_refl _
  · split
    · exact le_refl _
    · exact Nat.le_succ _

/-- A call that finds nothing queued queues under a new number, if at all. -/
theorem unqueue_ensure_queued {entry : Nat × Nat} (h : guard.unqueue.ensure.queued = some entry) :
    entry.1 = guard.nextQueue := by
  unfold Ipv6Guard.ensure at h
  split at h
  · cases h
  · simp only [unqueue, Option.isSome_none, Bool.false_eq_true, if_false, Option.some.injEq] at h
    rw [← h]

theorem Wf.unqueue (h : Wf guard) : Wf guard.unqueue := { h with queued := nofun }

theorem Wf.ensure (h : Wf guard) : Wf guard.ensure := by
  unfold Ipv6Guard.ensure
  split
  · refine ⟨?_, ?_, nofun, ?_, h.queued, h.resolved⟩
    · intro id hmem
      show id < guard.nextCheck + 1
      rcases mem_cons.mp hmem with hhead | hmem
      · cases hhead
        omega
      · exact Nat.lt_succ_of_lt (h.started id hmem)
    · rintro id point ⟨⟩
      exact mem_cons_self ..
    · intro id present hmem
      exact (h.results id present hmem).cons _
  · split
    · exact h
    refine { h with queued := ?_, resolved := ?_ }
    · rintro entry ⟨⟩
      refine ⟨?_, Nat.lt_succ_self _⟩
      rw [lookup_eq_none_iff]
      intro entry hentry
      have hne : guard.nextQueue ≠ entry.1 := by
        have hlt := h.resolved entry hentry
        omega
      simpa using hne
    · intro entry hentry
      exact Nat.lt_succ_of_lt (h.resolved entry hentry)

theorem Wf.finish (h : Wf guard) {id : Nat} {point : GuardPoint} (hrunning : guard.running = some (id, point))
    (present : Bool) (error : Option String) : Wf (guard.finish id present error) := by
  have hafter : After (.ended id present :: guard.log) (.ended id present) (.started id) :=
    .head (h.running id point hrunning)
  refine ⟨?_, ?_, ?_, ?_, h.queued, h.resolved⟩
  · intro other hmem
    exact h.started other (by simpa [Ipv6Guard.finish] using hmem)
  · rintro other point' ⟨⟩
    exact mem_cons_of_mem _ (h.running id point hrunning)
  · rintro other present' ⟨⟩
    exact hafter
  · intro other present' hmem
    exact (h.results other present' hmem).cons _

/-- The running check goes on. -/
theorem Wf.goTo (h : Wf guard) {id : Nat} {point : GuardPoint}
    (hrunning : guard.running = some (id, point)) {point' : GuardPoint} {table : Option NftListing}
    (hpoint : ∀ present, point' ≠ .finished present) : Wf { guard with table, running := some (id, point') } := by
  refine { h with running := ?_, finished := ?_ }
  · rintro other point'' ⟨⟩
    exact h.running id point hrunning
  · rintro other present hfinished
    cases hfinished
    exact absurd rfl (hpoint present)

variable {queue : Nat} {label : GuardLabel} {ticket : GuardTicket}

theorem Wf.fired (h : Wf guard) {check : Nat} (hqueued : guard.queued = some (queue, check)) :
    Wf (guard.unqueue.ensure.resolve queue guard.unqueue.ticket) := by
  have hqueue := h.queued _ hqueued
  have hensure := h.unqueue.ensure
  have hnext : guard.nextQueue ≤ guard.unqueue.ensure.nextQueue := @nextQueue_le_ensure guard.unqueue
  refine { hensure with queued := ?_, resolved := ?_ }
  · intro entry hentry
    have hne : entry.1 ≠ queue := by
      have hid := unqueue_ensure_queued hentry
      omega
    refine ⟨?_, (hensure.queued entry hentry).2⟩
    show lookup entry.1 ((queue, _) :: _) = none
    rw [lookup_cons, beq_eq_false_iff_ne.mpr hne]
    exact (hensure.queued entry hentry).1
  · intro entry hentry
    rcases mem_cons.mp hentry with rfl | hentry
    · exact Nat.lt_of_lt_of_le hqueue.2 hnext
    · rw [ensure_resolved] at hentry
      exact Nat.lt_of_lt_of_le (h.resolved entry hentry) hnext

theorem Wf.step (h : Wf guard) (hstep : guard.step label = some next) : Wf next := by
  revert hstep
  fun_cases Ipv6Guard.step guard label with
  | case1 =>
    rintro ⟨⟩
    exact h.ensure
  | case2 =>
    rintro ⟨⟩
    exact { h with }
  | case3 listing id hrunning | case4 listing id hrunning | case10 table id hrunning =>
    rintro ⟨⟩
    exact h.goTo hrunning (by simp)
  | case5 listing id hrunning | case7 error id hrunning | case8 error id hrunning | case12 error id hrunning =>
    rintro ⟨⟩
    exact h.finish hrunning _ _
  | case14 id present hrunning =>
    rintro ⟨⟩
    refine { h with running := nofun, finished := nofun, results := ?_ }
    intro other present' hmem
    rcases mem_cons.mp hmem with hhead | hmem
    · cases hhead
      exact h.finished id present hrunning
    · exact h.results other present' hmem
  | case16 queue check hqueued =>
    rintro ⟨⟩
    exact h.fired hqueued
  | _ => nofun

/-! ## Tickets stay fresh -/

theorem log_suffix_ensure : guard.log <:+ guard.ensure.log := by
  unfold Ipv6Guard.ensure
  split
  · exact suffix_cons ..
  · split <;> exact suffix_refl _

theorem log_suffix_step (hstep : guard.step label = some next) : guard.log <:+ next.log := by
  unfold Ipv6Guard.step at hstep
  split at hstep
  all_goals try split at hstep
  all_goals try split at hstep
  all_goals cases hstep
  all_goals first
    | exact ⟨[], rfl⟩
    | exact ⟨[_], rfl⟩
    | exact log_suffix_ensure
    | exact @log_suffix_ensure guard.unqueue

theorem Fresh.mono (h : Fresh guard mark ticket) (hmark : mark ≤ guard.log.length) (hlog : guard.log <:+ next.log)
    (hqueued : ∀ entry, guard.queued = some entry → Fresh next mark (.queue entry.1))
    (hresolved : ∀ id ticket, guard.resolved.lookup id = some ticket → next.resolved.lookup id = some ticket) :
    Fresh next mark ticket := by
  induction h with
  | check since => exact .check (since.suffix hmark hlog)
  | queued waits => exact hqueued _ waits
  | resolved became _ ih => exact .resolved (hresolved _ _ became) ih

/-- The ticket of a call is fresh from the moment of the call on. -/
theorem fresh_ticket (h : Wf guard) (hmark : mark ≤ guard.log.length) : Fresh guard.ensure mark guard.ticket := by
  cases hrunning : guard.running with
  | none =>
    have hticket : guard.ticket = .check guard.nextCheck := by simp [ticket, hrunning]
    have hlog : guard.ensure.log = .started guard.nextCheck :: guard.log := by
      simp [Ipv6Guard.ensure, hrunning]
    have hnew : .started guard.nextCheck ∉ guard.log := fun hmem =>
      Nat.lt_irrefl _ (h.started _ hmem)
    rw [hticket]
    refine .check ?_
    rw [hlog]
    exact (onlySince_of_not_mem hnew).cons hmark _
  | some check =>
    have hticket : guard.ticket = .queue ((guard.queued.map Prod.fst).getD guard.nextQueue) := by
      simp [ticket, hrunning]
    rw [hticket]
    have hensure : guard.ensure.queued = some (guard.queued.getD (guard.nextQueue, check.1)) := by
      cases hqueued : guard.queued <;> simp [Ipv6Guard.ensure, hrunning, hqueued]
    revert hensure
    cases guard.queued <;> exact .queued

/-- A queued call that has become another ticket stays that ticket. -/
theorem lookup_resolve {id : Nat} {became other : GuardTicket} (hqueue : guard.resolved.lookup queue = none)
    (hother : guard.resolved.lookup id = some other) :
    (guard.resolve queue became).resolved.lookup id = some other := by
  have hne : id ≠ queue := by
    rintro rfl
    rw [hqueue] at hother
    cases hother
  show lookup id ((queue, became) :: guard.resolved) = some other
  rw [lookup_cons, beq_eq_false_iff_ne.mpr hne]
  exact hother

section

variable (h : Fresh guard mark ticket)

include h

theorem Fresh.ensure (hmark : mark ≤ guard.log.length) : Fresh guard.ensure mark ticket := by
  apply h.mono hmark log_suffix_ensure
  · intro entry hentry
    refine .queued ?_
    unfold Ipv6Guard.ensure
    split
    · exact hentry
    · simp [hentry]
  · intro id ticket hlookup
    rw [ensure_resolved]
    exact hlookup

theorem Fresh.resolve {became : GuardTicket} (hmark : mark ≤ guard.log.length)
    (hqueue : guard.resolved.lookup queue = none) : Fresh (guard.resolve queue became) mark ticket :=
  h.mono hmark (suffix_refl _) (fun _ hentry => .queued hentry) fun _ _ => lookup_resolve hqueue

theorem Fresh.fired (hwf : Wf guard) (hmark : mark ≤ guard.log.length) {check : Nat}
    (hqueued : guard.queued = some (queue, check)) :
    Fresh (guard.unqueue.ensure.resolve queue guard.unqueue.ticket) mark ticket := by
  have hlookup : guard.unqueue.ensure.resolved.lookup queue = none := by
    rw [ensure_resolved]
    exact (hwf.queued _ hqueued).1
  have hlog : guard.log <:+ guard.unqueue.ensure.log := @log_suffix_ensure guard.unqueue
  -- what the queued call becomes is fresh
  have hticket : Fresh (guard.unqueue.ensure.resolve queue guard.unqueue.ticket) mark
      guard.unqueue.ticket :=
    (fresh_ticket hwf.unqueue hmark).resolve (hmark.trans hlog.length_le) hlookup
  refine h.mono hmark hlog ?_ ?_
  · intro entry hentry
    obtain rfl := Option.some.inj (hqueued.symm.trans hentry)
    exact .resolved (by simp [Ipv6Guard.resolve]) hticket
  · intro id other hother
    exact lookup_resolve hlookup (by rwa [ensure_resolved])

theorem Fresh.step (hwf : Wf guard) (hmark : mark ≤ guard.log.length)
    (hstep : guard.step label = some next) : Fresh next mark ticket := by
  -- every label but two leaves the queued call and what became of earlier ones
  have hkeep : guard.log <:+ next.log → next.queued = guard.queued → next.resolved = guard.resolved →
      Fresh next mark ticket := by
    intro hlog hqueued hresolved
    apply h.mono hmark hlog
    · exact fun entry hentry => .queued (hqueued.trans hentry)
    · exact fun id became hbecame => hresolved ▸ hbecame
  cases label with
  | ensure =>
    cases hstep
    exact h.ensure hmark
  | fired =>
    simp only [Ipv6Guard.step] at hstep
    split at hstep
    · rename_i queue check hqueued
      split at hstep <;> cases hstep
      exact h.fired hwf hmark hqueued
    · cases hstep
  | _ =>
    refine hkeep (log_suffix_step hstep) ?_ ?_
    all_goals
      simp only [Ipv6Guard.step] at hstep
      repeat' split at hstep
      all_goals cases hstep
      all_goals rfl

/-- An answer to a fresh ticket is that of a check that started and ended since the moment. -/
theorem Fresh.answer {present : Bool} (hwf : Wf guard) (hresult : guard.result ticket = some present) :
    ∃ id, Since guard.log mark (.ended id present) ∧ Since guard.log mark (.started id) := by
  unfold result at hresult
  generalize guard.resolved.length = fuel at hresult
  induction h generalizing fuel with
  | @check id since =>
    have hlookup : guard.results.lookup id = some present := by
      cases fuel <;> exact hresult
    have hafter := hwf.results id present (AssocList.mem_of_lookup hlookup)
    exact ⟨id, hafter.since since⟩
  | @queued entry waits =>
    have hnone := (hwf.queued entry waits).1
    cases fuel with
    | zero => cases hresult
    | succ fuel => simp [Ipv6Guard.answer, hnone] at hresult
  | resolved became _ ih =>
    cases fuel with
    | zero => cases hresult
    | succ fuel =>
      simp only [Ipv6Guard.answer, became, Option.bind_some] at hresult
      exact ih fuel hresult

end

end Ipv6Guard

end Nyabase.Agent
