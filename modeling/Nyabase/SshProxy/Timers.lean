import Nyabase.SshProxy.Control

/-!
# The timer task: `run_control_timers` of `tools/ssh-proxy/src/control.rs`

The timer task and the task of the control link share the snapshot store, the control plane and the runtime.
Here every operation of those is one step; what the runtime does to the connections is left out.  The timer task
reads the next deadline, sleeps until it or until something changes, and then looks again what to do.  A change
may wake it at any time.
-/

namespace Nyabase.SshProxy

open Lib

/-- The operations of `revoke_control_plane`. -/
inductive RevokePoint where
  | clear | clearSnapshot | revoke | disconnectInvalid
  deriving DecidableEq

/-- Where the task of the control link stands. -/
inductive LinkPoint where
  | idle
  -- `install_backend_snapshot`
  | storing (snapshot : ProxySnapshot) (wallNow epoch : Nat)
  | marking (generation : Nat)
  | loading
  | disconnectingInvalid
  | resuming
  | revoking (point : RevokePoint)
  -- `pause_control_plane`
  | pausing (hold : Nat)
  | aborting
  deriving DecidableEq

/-- Where the timer task stands. -/
inductive TimerPoint where
  | nextDeadline
  | sleeping (next : Option Nat)
  | readMode
  -- an authoritative control plane
  | readAdmit
  | readLease
  | expiring (generation deadline : Nat)
  -- a paused one
  | readHold
  | readStore (hold : Nat)
  | readReason
  | revoking (point : RevokePoint)
  deriving DecidableEq

structure TimerWorld where
  now : Nat
  /-- `SnapshotStore::current` -/
  held : Option RoutingSnapshot
  /-- When it was stored; no operation reads this. -/
  storedAt : Nat
  mode : ControlMode
  epoch : Nat
  holdDeadline : Option Nat
  admitting : Bool
  lastSnapshotGeneration : Nat
  link : LinkPoint
  timers : TimerPoint
  deriving DecidableEq

/-- What comes over the control link, and the start of a new one. -/
inductive LinkCommand where
  | install (snapshot : ProxySnapshot) (wallNow : Nat)
  | pause (hold : Nat)
  | disconnectAll
  | beginEpoch
  deriving DecidableEq

inductive TimerLabel where
  | tick (now : Nat)
  | command (command : LinkCommand)
  | link
  /-- a deadline is reached -/
  | wake
  /-- a change is noticed -/
  | notice
  | timers
  deriving DecidableEq

namespace TimerWorld

variable (world : TimerWorld)

def initial : TimerWorld :=
  { now := 0, held := none, storedAt := 0, mode := .empty, epoch := 0, holdDeadline := none, admitting := false,
    lastSnapshotGeneration := 0, link := .idle, timers := .nextDeadline }

/-! ## Operations -/

/-- `SnapshotStore::expire`: whether it removes the snapshot. -/
def expires (generation deadline : Nat) : Bool :=
  world.held.any fun current => current.generation == generation && current.deadline == deadline &&
    !current.isFresh world.now

/-- `ControlPlane::admit`. -/
def admits : Bool := decide (world.mode = .authoritative) && world.admitting

/-- `ControlPlane::pause`. -/
def pause (hold : Nat) : TimerWorld :=
  if world.mode = .authoritative then
    { world with mode := .paused, admitting := false, holdDeadline := some (world.now + hold) }
  else { world with admitting := false }

/-- `ControlPlane::resume_authoritative`. -/
def resumeAuthoritative : TimerWorld :=
  { world with mode := .authoritative, admitting := true, holdDeadline := none }

/-- `ControlPlane::paused_deadline`, once the hold is read. -/
def pausedDeadline (hold : Nat) : Nat :=
  match world.held with
  | some snapshot => min hold snapshot.deadline
  | none => hold

/-- `ControlPlane::next_deadline`. -/
def nextDeadline : Option Nat :=
  match world.mode with
  | .authoritative => if world.admitting then world.held.map RoutingSnapshot.deadline else none
  | .paused => world.holdDeadline.map world.pausedDeadline
  | .empty => none

/-- One operation of `revoke_control_plane`, and the next. -/
def revokeStep : RevokePoint → TimerWorld × Option RevokePoint
  | .clear => ({ world with held := none }, some .clearSnapshot)
  | .clearSnapshot => ({ world with lastSnapshotGeneration := 0 }, some .revoke)
  | .revoke => ({ world with mode := .empty, admitting := false, holdDeadline := none }, some .disconnectInvalid)
  | .disconnectInvalid => (world, none)

/-! ## The control link -/

def startCommand : LinkCommand → TimerWorld
  | .install snapshot wallNow =>
    if validSnapshotStaleAfterMs snapshot.staleAfterMs then
      { world with link := .storing snapshot wallNow world.epoch }
    else { world with link := .revoking .clear }
  | .pause hold => { world with link := .pausing hold }
  | .disconnectAll => world
  | .beginEpoch => { world with epoch := world.epoch + 1, admitting := false }

/-- `SnapshotStore::store`, and what follows its result. -/
def storeSnapshot (snapshot : ProxySnapshot) (wallNow epoch : Nat) : TimerWorld :=
  match RoutingSnapshot.fromSnapshotInEpoch snapshot epoch world.now wallNow with
  | .error _ => { world with link := .revoking .clear }
  | .ok routing =>
    if nonIncreasing routing world.held then { world with link := .idle }
    else { world with held := some routing, storedAt := world.now, link := .marking routing.generation }

def linkStep : Option TimerWorld :=
  match world.link with
  | .idle => none
  | .storing snapshot wallNow epoch => some (world.storeSnapshot snapshot wallNow epoch)
  | .marking generation => some { world with lastSnapshotGeneration := generation, link := .loading }
  | .loading => some { world with link := .disconnectingInvalid }
  | .disconnectingInvalid => some { world with link := .resuming }
  | .resuming => some { world.resumeAuthoritative with link := .idle }
  | .revoking point =>
    some { (world.revokeStep point).1 with link := (world.revokeStep point).2.elim .idle .revoking }
  | .pausing hold => some { world.pause hold with link := .aborting }
  | .aborting => some { world with link := .idle }

/-! ## The timers -/

def setTimers (timers : TimerPoint) : TimerWorld := { world with timers }

/-- What a mode makes the timer task look at. -/
def afterMode : TimerPoint :=
  match world.mode with
  | .authoritative => .readAdmit
  | .paused => .readHold
  | .empty => .nextDeadline

def timerStep : Option TimerWorld :=
  match world.timers with
  | .nextDeadline => some (world.setTimers (.sleeping world.nextDeadline))
  | .sleeping _ => none
  | .readMode => some (world.setTimers world.afterMode)
  | .readAdmit => some (world.setTimers (if world.admits then .readLease else .nextDeadline))
  | .readLease =>
    some (world.setTimers (world.held.elim .nextDeadline fun current =>
      .expiring current.generation current.deadline))
  | .expiring generation deadline =>
    if world.expires generation deadline then some { world with held := none, timers := .revoking .clear }
    else some (world.setTimers .nextDeadline)
  | .readHold => some (world.setTimers (world.holdDeadline.elim .nextDeadline .readStore))
  | .readStore hold =>
    some (world.setTimers (if world.pausedDeadline hold ≤ world.now then .readReason else .nextDeadline))
  | .readReason => some (world.setTimers (.revoking .clear))
  | .revoking point =>
    some { (world.revokeStep point).1 with
      timers := (world.revokeStep point).2.elim .nextDeadline .revoking }

/-- One step of the system. -/
def step : TimerLabel → Option TimerWorld
  | .tick now => if world.now ≤ now then some { world with now } else none
  | .command command => if world.link = .idle then some (world.startCommand command) else none
  | .link => world.linkStep
  | .wake =>
    match world.timers with
    | .sleeping (some deadline) => if deadline ≤ world.now then some (world.setTimers .readMode) else none
    | _ => none
  | .notice =>
    match world.timers with
    | .sleeping _ => some (world.setTimers .nextDeadline)
    | _ => none
  | .timers => world.timerStep

/-! ## Overlapping tasks -/

/-- An install has stored its snapshot and has not resumed yet. -/
def installing : Bool :=
  match world.link with
  | .marking _ | .loading | .disconnectingInvalid | .resuming => true
  | _ => false

/-- The timer task has been woken by a deadline and may yet clear the store or revoke. -/
def deciding : Bool :=
  match world.timers with
  | .nextDeadline | .sleeping _ | .revoking .disconnectInvalid => false
  | _ => true

/-- The timer task is woken by a deadline in the middle of an install, or an install stores its snapshot while
the timer task decides. -/
def overlaps : TimerLabel → Bool
  | .wake => world.installing
  | .link => world.deciding && match world.link with | .storing _ _ _ => true | _ => false
  | _ => false

/-- A step in which the timer task and an install do not get in each other's way. -/
def separateStep (label : TimerLabel) : Option TimerWorld :=
  if world.overlaps label then none else world.step label

/-! ## What the timer task knows -/

/-- A stored snapshot whose lease has not run out. -/
def Fresh (snapshot : RoutingSnapshot) : Prop := world.held = some snapshot ∧ snapshot.isFresh world.now = true

/-- The control plane has been paused since the last install, and the hold has passed. -/
def HoldPassed : Prop :=
  world.mode = .paused ∧ ∃ hold, world.holdDeadline = some hold ∧ world.storedAt ≤ hold ∧ hold ≤ world.now

/-- A fresh snapshot may be cleared because of the hold only. -/
def ClearAllowed : Prop := ∀ snapshot, world.Fresh snapshot → world.HoldPassed

/-- What holds where the timer task stands. -/
def TimersKnow : TimerPoint → Prop
  | .readHold => world.held ≠ none → world.mode = .paused
  | .readStore hold => world.held ≠ none → world.mode = .paused ∧ world.holdDeadline = some hold
  | .readReason | .revoking .clear => world.ClearAllowed
  | .revoking .clearSnapshot | .revoking .revoke => world.held = none
  | _ => True

/-- What holds where the link task stands. -/
def LinkKnows : LinkPoint → Prop
  | .revoking .clearSnapshot | .revoking .revoke => world.held = none
  | _ => True

structure Inv (world : TimerWorld) : Prop where
  stored : world.storedAt ≤ world.now
  hold : world.installing = false → ∀ hold, world.holdDeadline = some hold → world.storedAt ≤ hold
  apart : world.deciding = true → world.installing = false
  authorised : world.installing = false → world.held ≠ none → world.mode ≠ .empty
  link : world.LinkKnows world.link
  timers : world.TimersKnow world.timers

end TimerWorld

end Nyabase.SshProxy
