import Nyabase.Agent.FirewallPresent
import Nyabase.Lib.History

/-!
# What a check of the guest firewall has seen

A call of `check` waits for a check that starts after the call, even when it shares one with earlier calls.
Once that check has ended, `verified` is the answer of a verification that ended after it started.
-/

namespace Nyabase.Agent

open Lib Common List

/-- The answer of a verification. -/
def settledAnswer : FirewallEvent → Option Bool
  | .settled verified => some verified
  | _ => none

/-- An event that starts or ends no check and no verification. -/
def quietEvent : FirewallEvent → Bool
  | .settled _ => false
  | .started (.check _) => false
  | .ended (.checked _ _) => false
  | _ => true

/-- The check on whose behalf `verify` runs. -/
def callerCheck : VerifyCaller → Option Nat
  | .check id => some id
  | _ => none

def installCheck : InstallCaller → Option Nat
  | .verify caller => callerCheck caller
  | .fallback _ => none

def pointCheck : FirewallPoint → Option Nat
  | .listing _ caller => callerCheck caller
  | .applying _ caller => installCheck caller
  | .relisting _ caller => installCheck caller
  | .installed caller => installCheck caller
  | .installFailed _ caller => installCheck caller
  | .verified caller => callerCheck caller
  | _ => none

namespace FirewallWorld

variable {world next : FirewallWorld}

/-- A verification has ended since the check started. -/
def Answered (world : FirewallWorld) (id : Nat) : Prop :=
  ∃ verified, After world.log (.settled verified) (.started (.check id))

structure CheckHistory (world : FirewallWorld) : Prop where
  verified : world.verified = true → world.log.findSome? settledAnswer = some true
  queued : ∀ id, .check id ∈ world.queue → .started (.check id) ∉ world.log ∧ id < world.nextCheck
  distinct : world.queue.Pairwise fun earlier later => ∀ id, earlier = .check id → later ≠ .check id
  started : ∀ id, .started (.check id) ∈ world.log → id < world.nextCheck
  pending : ∀ id, world.pendingCheck = some id → .check id ∈ world.queue
  running : ∀ point id, world.running = some point → pointCheck point = some id → .started (.check id) ∈ world.log
  settled : ∀ id, world.running = some (.verified (.check id)) → world.Answered id
  ended : ∀ id verified, .ended (.checked id verified) ∈ world.log → world.Answered id

namespace CheckHistory

section

variable (h : CheckHistory world)

include h

/-- An event that starts no check, and ends one only after a verification. -/
theorem push {event : FirewallEvent} (hstarted : ∀ id, event ≠ .started (.check id))
    (hended : ∀ id verified, event = .ended (.checked id verified) → world.Answered id)
    (hverified : world.verified = true → (event :: world.log).findSome? settledAnswer = some true) :
    CheckHistory (world.record event) := { h with
  verified := hverified
  queued id hid := ⟨not_mem_cons_of_ne_of_not_mem (hstarted id).symm (h.queued id hid).1, (h.queued id hid).2⟩
  started id hmem := h.started id ((mem_cons.mp hmem).resolve_left (hstarted id).symm)
  running point id hrunning hpoint := mem_cons_of_mem _ (h.running point id hrunning hpoint)
  settled id hrunning := (h.settled id hrunning).imp fun _ hafter => hafter.cons _
  ended id verified hmem := by
    rcases mem_cons.mp hmem with hevent | hmem
    · exact (hended id verified hevent.symm).imp fun _ hafter => hafter.cons _
    · exact (h.ended id verified hmem).imp fun _ hafter => hafter.cons _ }

theorem record {event : FirewallEvent} (hevent : quietEvent event = true) : CheckHistory (world.record event) := by
  refine h.push ?_ ?_ fun hv => ?_
  · rintro id rfl
    cases hevent
  · rintro id verified rfl
    cases hevent
  · cases event with
    | settled verified => cases hevent
    | _ => exact h.verified hv

theorem settle (verified : Bool) (error : Option String) : CheckHistory (world.settle verified error) := by
  have hunverified : CheckHistory { world with verified := false } := { h with verified := nofun }
  have hpushed : CheckHistory ({ world with verified := false }.record (.settled verified)) :=
    hunverified.push nofun nofun nofun
  exact { hpushed with verified := fun hv => congrArg some hv }

/-- `verify` comes to its end. -/
theorem settleVerify (verified : Bool) (error : Option String)
    {caller : VerifyCaller} (hcheck : ∀ id, callerCheck caller = some id → .started (.check id) ∈ world.log) :
    CheckHistory ((world.settle verified error).await (.verified caller)) := by
  refine { h.settle verified error with running := ?_, settled := ?_ }
  · rintro point id ⟨⟩ hid
    exact mem_cons_of_mem _ (hcheck id hid)
  · rintro id ⟨⟩
    exact ⟨verified, .head (hcheck id rfl)⟩

/-- An operation that is no check ends. -/
theorem finish {outcome : FirewallOutcome}
    (houtcome : quietEvent (.ended outcome) = true) : CheckHistory (world.finish outcome) := by
  have hrecord := h.record houtcome
  exact { hrecord with running := nofun, settled := nofun }

/-- A check ends. -/
theorem finishCheck {id : Nat} (verified : Bool)
    (hrunning : world.running = some (.verified (.check id))) : CheckHistory (world.finish (.checked id verified)) := by
  have hpushed : CheckHistory (world.record (.ended (.checked id verified))) := by
    refine h.push nofun ?_ h.verified
    rintro _ _ ⟨⟩
    exact h.settled id hrunning
  exact { hpushed with running := nofun, settled := nofun }

theorem useDocument (document : Option FirewallDocument)
    (owner : Option String) : CheckHistory (world.useDocument document owner) := by
  have hrecord := h.record (rfl : quietEvent (.adopted document) = true)
  exact { hrecord with verified := nofun }

/-- A call other than `check`. -/
theorem enqueue {task : FirewallTask} (htask : ∀ id, task ≠ .check id) : CheckHistory (world.enqueue task) := { h with
  queued id hid := by
    rcases mem_append.mp hid with hold | hnew
    · exact h.queued id hold
    · exact absurd (mem_singleton.mp hnew).symm (htask id)
  distinct := by
    show (world.queue ++ [task]).Pairwise _
    rw [pairwise_append]
    refine ⟨h.distinct, pairwise_singleton .., ?_⟩
    intro earlier _ later hlater id _
    rw [mem_singleton.mp hlater]
    exact htask id
  pending id hid := mem_append_left _ (h.pending id hid) }

/-- A call of `check` that needs a check of its own. -/
theorem enqueueCheck : CheckHistory { world.enqueue (.check world.nextCheck) with
      pendingCheck := some world.nextCheck, nextCheck := world.nextCheck + 1 } := { h with
  queued id hid := by
    rcases mem_append.mp hid with hold | hnew
    · exact ⟨(h.queued id hold).1, Nat.lt_succ_of_lt (h.queued id hold).2⟩
    · cases mem_singleton.mp hnew
      refine ⟨fun hstarted => ?_, Nat.lt_succ_self _⟩
      exact Nat.lt_irrefl _ (h.started _ hstarted)
  distinct := by
    show (world.queue ++ [FirewallTask.check world.nextCheck]).Pairwise _
    rw [pairwise_append]
    refine ⟨h.distinct, pairwise_singleton .., ?_⟩
    rintro earlier hearlier later hlater id rfl hcheck
    rw [mem_singleton.mp hlater] at hcheck
    cases hcheck
    exact Nat.lt_irrefl _ (h.queued _ hearlier).2
  started id hid := Nat.lt_succ_of_lt (h.started id hid)
  pending id hid := by
    cases hid
    exact mem_append_right _ (mem_singleton.mpr rfl) }

/-- An operation that is no check leaves the queue. -/
theorem pop {task : FirewallTask} {queue : List FirewallTask}
    (hpops : world.Pops task queue) (htask : ∀ id, task ≠ .check id) : CheckHistory (world.popped task queue) := by
  obtain ⟨-, hqueue⟩ := hpops
  have hpopped : CheckHistory { world with queue } := by
    refine { h with queued := ?_, distinct := ?_, pending := ?_ }
    · exact fun id hid => h.queued id (by rw [hqueue]; exact mem_cons_of_mem _ hid)
    · have hdistinct := h.distinct
      rw [hqueue, pairwise_cons] at hdistinct
      exact hdistinct.2
    intro id hid
    have hmem := h.pending id hid
    rw [hqueue] at hmem
    rcases mem_cons.mp hmem with hhead | htail
    · exact absurd hhead.symm (htask id)
    · exact htail
  refine hpopped.record ?_
  cases task with
  | check id => exact absurd rfl (htask id)
  | _ => rfl

/-- A check leaves the queue: no other in the queue has its number. -/
theorem startCheck {id : Nat} {queue : List FirewallTask} (hqueue : world.queue = .check id :: queue) :
    CheckHistory ((world.popped (.check id) queue).startTask (.check id)) where
  verified hv := by
    show (.started (.check id) :: world.log).findSome? settledAnswer = some true
    exact h.verified hv
  queued other hother := by
    have hdistinct := h.distinct
    rw [hqueue, pairwise_cons] at hdistinct
    have hqueued := h.queued other (by rw [hqueue]; exact mem_cons_of_mem _ hother)
    refine ⟨?_, hqueued.2⟩
    intro hmem
    rcases mem_cons.mp hmem with hhead | hmem
    · cases hhead
      exact hdistinct.1 _ hother id rfl rfl
    · exact hqueued.1 hmem
  distinct := by
    have hdistinct := h.distinct
    rw [hqueue, pairwise_cons] at hdistinct
    exact hdistinct.2
  started other hmem := by
    rcases mem_cons.mp hmem with hhead | hmem
    · cases hhead
      exact (h.queued id (by simp [hqueue])).2
    · exact h.started other hmem
  pending other hother := by
    have hpending : (if world.pendingCheck = some id then none else world.pendingCheck) = some other := hother
    obtain ⟨hid, hpending⟩ := Option.ite_none_left_eq_some.mp hpending
    have hmem := h.pending other hpending
    rw [hqueue] at hmem
    rcases mem_cons.mp hmem with hhead | htail
    · cases hhead
      exact absurd hpending hid
    · exact htail
  running := by
    rintro point other ⟨⟩ hother
    obtain rfl : id = other := Option.some.inj hother
    exact mem_cons_self ..
  settled := nofun
  ended other answer hmem := by
    have hmem : .ended (.checked other answer) ∈ world.log := by
      rcases mem_cons.mp hmem with hhead | hmem
      · cases hhead
      · exact hmem
    exact (h.ended other answer hmem).imp fun _ hafter => hafter.cons _

end

end CheckHistory

theorem checkHistory_confirm (h : CheckHistory world) (document : FirewallDocument) (epoch : Nat) :
    CheckHistory (world.confirm document epoch) := by
  unfold confirm
  split
  · have hrecord := h.record (rfl : quietEvent (.confirmed document epoch) = true)
    exact { hrecord with running := nofun, settled := nofun }
  · exact { h with running := nofun, settled := nofun }

theorem quiet_ended {outcome : FirewallOutcome} (hend : ∀ id verified, outcome ≠ .checked id verified) :
    quietEvent (.ended outcome) = true := by
  cases outcome with
  | checked id verified => exact absurd rfl (hend id verified)
  | _ => rfl

theorem checkHistory_step {label : FirewallLabel} (h : CheckHistory world)
    (hstep : world.step label = some next) : CheckHistory next := by
  have hlisted : ∀ listing, CheckHistory (world.record (.listed listing)) := fun _ => h.record rfl
  have hlater : ∀ {point : FirewallPoint}, world.running = some point → ∀ id, pointCheck point = some id →
      ∀ event, .started (.check id) ∈ event :: world.log :=
    fun hrunning id hid event => mem_cons_of_mem event (h.running _ id hrunning hid)
  cases step_moves hstep with
  | call _ hcheck => exact h.enqueue hcheck
  | @issue document =>
    have hqueued : CheckHistory (world.enqueue (.apply document world.epoch)) := h.enqueue nofun
    exact hqueued.record rfl
  | shareCheck => exact h
  | newCheck => exact h.enqueueCheck
  | resetConfirmation | rulesetChanged => exact { h with }
  | restore hpops => exact { h.pop hpops nofun with running := nofun, settled := nofun }
  | startCheck hpops => exact h.startCheck hpops.2
  | startEnd hpops hcheck hend => exact (h.pop hpops hcheck).finish (quiet_ended hend)
  | inUse hpops => exact checkHistory_confirm (h.pop hpops nofun) _ _
  | apply hpops | rename hpops => exact { h.pop hpops nofun with running := nofun, settled := nofun }
  | @forget queue owner hpops =>
    have hpopped := h.pop hpops nofun
    have hrenamed : CheckHistory { world.popped (.setServerId owner) queue with owner } :=
      { hpopped with }
    exact { hrenamed.useDocument none none with running := nofun, settled := nofun }
  | readNothing => exact { h.useDocument none none with running := nofun, settled := nofun }
  | @read document owner => exact { h.useDocument (some document) (some owner) with running := nofun, settled := nofun }
  | checkPassed | renamed => exact { h with running := nofun, settled := nofun }
  | fallback => exact { h with running := by rintro _ _ ⟨⟩ ⟨⟩, settled := nofun }
  | finish hend => exact h.finish (quiet_ended hend)
  | finishCheck hrunning => exact h.finishCheck _ hrunning
  | written =>
    have hstored : CheckHistory { world with fileUnconfirmed := false } :=
      { h with }
    exact checkHistory_confirm (hstored.useDocument _ _) _ _
  | found hrunning | foreign hrunning => exact (hlisted _).settleVerify _ _ fun id hid => hlater hrunning id hid _
  | reinstall hrunning | mismatch hrunning | taken hrunning =>
    refine { hlisted _ with running := ?_, settled := nofun }
    rintro _ id ⟨⟩ hid
    exact hlater hrunning id hid _
  | nftApplied hrunning =>
    refine { h with running := ?_, settled := nofun }
    rintro _ id ⟨⟩ hid
    exact h.running _ id hrunning hid
  | installFailed hrunning =>
    refine { h with running := ?_, settled := nofun }
    rintro _ id ⟨⟩ hid
    rcases hrunning with hrunning | hrunning <;> exact h.running _ id hrunning hid
  | listFailed hrunning | installed hrunning | verifyFailed hrunning =>
    exact h.settleVerify _ _ fun id hid => h.running _ id hrunning hid
  | fellBack => exact (h.settle _ _).finish rfl

theorem CheckHistory.check (h : CheckHistory world) : CheckHistory world.check :=
  checkHistory_step h (rfl : world.step .check = some _)

/-! ## The log grows -/

theorem log_suffix_confirm (document : FirewallDocument) (epoch : Nat) :
    world.log <:+ (world.confirm document epoch).log := by
  fun_cases confirm world document epoch
  · exact ⟨[_], rfl⟩
  · exact ⟨[], rfl⟩

/-- No step forgets an event. -/
theorem log_suffix_step {label : FirewallLabel} (hstep : world.step label = some next) : world.log <:+ next.log := by
  cases step_moves hstep with
  | inUse | written =>
    refine List.IsSuffix.trans ?_ (log_suffix_confirm _ _)
    exact ⟨[_], rfl⟩
  | _ =>
    all_goals first
      | exact ⟨[], rfl⟩
      | exact ⟨[_], rfl⟩
      | exact ⟨[_, _], rfl⟩

theorem log_suffix_check : world.log <:+ world.check.log := log_suffix_step (rfl : world.step .check = some _)

/-! ## What the caller learns -/

/-- The check that answers a call has not started when the call is made. -/
theorem CheckHistory.checkId_not_started (h : CheckHistory world) : .started (.check world.checkId) ∉ world.log := by
  unfold checkId
  cases hpending : world.pendingCheck with
  | none => exact fun hstarted => Nat.lt_irrefl _ (h.started _ hstarted)
  | some id => exact (h.queued id (h.pending id hpending)).1

/-- After a check has ended, `verified` stands for a verification that ended after it started. -/
theorem CheckHistory.verified_since (h : CheckHistory world) {id : Nat} {answer : Bool}
    (hended : .ended (.checked id answer) ∈ world.log) (hverified : world.verified = true) :
    After world.log (.settled true) (.started (.check id)) := by
  obtain ⟨settled, hafter⟩ := h.ended id answer hended
  obtain ⟨newest, hnewest, hafter⟩ := hafter.newest rfl (h.verified hverified)
  cases newest with
  | settled verified =>
    obtain rfl : verified = true := Option.some.inj hnewest
    exact hafter
  | _ => cases hnewest

theorem verified_of_present (h : world.present = true) : world.verified = true := by
  unfold GuestFirewall.present at h
  split at h
  · cases h
  · simp only [Bool.and_eq_true] at h
    exact h.1.1

end FirewallWorld

end Nyabase.Agent
