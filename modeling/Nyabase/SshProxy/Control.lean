import Nyabase.Lib.Transition
import Nyabase.SshProxy.Session

/-!
# The control plane: `tools/ssh-proxy/src/control.rs`

Two control tasks run next to the sessions.  The backend task installs the snapshots it receives, one after
the other, and revokes when one is not acceptable.  The timer task revokes when a lease or a hold runs out;
here it may decide to at any moment.  Their functions are cut at every lock and atomic access.  The mutex
around the map of connections is the only one held while others are taken, so that it is part of the state.
-/

namespace Nyabase.SshProxy

open Lib

/-- `valid_snapshot_stale_after_ms`. -/
def validSnapshotStaleAfterMs (value : Nat) : Bool :=
  decide (120000 ≤ value) && decide (value ≤ 300000)

/-- A run of `disconnect_invalid`: the snapshot it was given and the version that was, the version the
operation itself wrote, and whether admission is resumed afterwards. -/
structure Scan where
  own : Nat
  seen : Nat
  snapshot : Option RoutingSnapshot
  resume : Bool
  deriving DecidableEq

/-- Where a control task stands. -/
inductive ControlPoint where
  | idle
  -- `install_backend_snapshot`, `SnapshotStore::store`
  | storing (routing : RoutingSnapshot)
  | loading (own : Nat)
  | resumeMode (scan : Scan)
  | resumeAdmitting (scan : Scan)
  -- `SnapshotStore::expire`, `revoke_control_plane`
  | expiring (generation deadline : Nat)
  | clearing
  | revokeMode (own : Nat)
  | revokeAdmitting (own : Nat)
  -- `disconnect_invalid`
  | entering (scan : Scan)
  | collecting (scan : Scan) (point : MatchPoint) (todo found : List Nat)
  | aborting (scan : Option Scan) (point : AbortPoint) (todo : List Nat)
  | listing (scan : Scan)
  | bridging (scan : Scan) (todo : List Nat)
  | removing (scan : Scan) (connection : Nat) (children todo : List Nat)
  | removingHandle (scan : Scan) (connection child : Nat) (children todo : List Nat)
  -- `pause_control_plane`, `disconnect_all`
  | pausing
  | sweeping
  | disconnecting
  deriving DecidableEq

/-- Who holds the lock of the map of connections: a control task that collects, or the cleanup of a
connection that aborts it. -/
inductive Holder where
  | collector
  | cleanup (connection : Nat) (point : AbortPoint)
  deriving DecidableEq

structure World where
  plane : Plane
  connections : List Connection
  holder : Option Holder
  backend : ControlPoint
  timers : ControlPoint
  /-- The versions written by the installs and revokes that have returned. -/
  returned : List Nat
  deriving DecidableEq

def World.initial : World :=
  { plane := { now := 0, mode := .empty, epoch := 0, admitting := false, versions := [none] }
    connections := []
    holder := none
    backend := .idle
    timers := .idle
    returned := [] }

/-- What starts an operation of a control task. -/
inductive Command where
  | install (snapshot : ProxySnapshot) (wallNow : Nat)
  | pauseAdmit
  | disconnectAll
  | beginEpoch
  | expire
  | revoke

inductive Label where
  | tick (now : Nat)
  | accept
  | session (connection : Nat) (input : SessionInput)
  | bridge (connection child : Nat)
  | unregister (connection : Nat)
  | cleanup
  | backend (command : Option Command)
  | timers (command : Option Command)

/-! ## Access to the state -/

/-- `SnapshotStore` gets new contents. -/
def World.write (world : World) (contents : Option RoutingSnapshot) : World :=
  { world with plane := { world.plane with versions := world.plane.versions ++ [contents] } }

def World.setMode (world : World) (mode : ControlMode) : World :=
  { world with plane := { world.plane with mode } }

def World.setAdmitting (world : World) (admitting : Bool) : World :=
  { world with plane := { world.plane with admitting } }

def World.modify (world : World) (connection : Nat) (f : Connection → Connection) : World :=
  { world with connections := world.connections.modify connection f }

/-- The keys of the map of connections. -/
def World.registered (world : World) (p : Connection → Bool) : List Nat :=
  (List.range world.connections.length).filter fun id =>
    world.connections[id]?.any fun connection => connection.registered && p connection

/-- One lock of `authorization_matches` on a connection of the map. -/
def World.matchAt (world : World) (connection : Nat) (snapshot : Option RoutingSnapshot)
    (point : MatchPoint) : Option (MatchPoint ⊕ Bool) :=
  world.connections[connection]?.map fun c => c.matchStep snapshot point

/-! ## Control tasks -/

/-- Whether `SnapshotStore::store` ignores a snapshot. -/
def nonIncreasing (routing : RoutingSnapshot) (current : Option RoutingSnapshot) : Bool :=
  current.any fun current => decide (routing.epoch < current.epoch) ||
    routing.epoch == current.epoch && decide (routing.generation ≤ current.generation)

/-- The start of an operation. -/
def World.start (world : World) : Command → World × ControlPoint
  | .install snapshot wallNow =>
    if validSnapshotStaleAfterMs snapshot.staleAfterMs then
      match RoutingSnapshot.fromSnapshotInEpoch snapshot world.plane.epoch world.plane.now wallNow with
      | .ok routing => (world, .storing routing)
      | .error _ => (world, .clearing)
    else (world, .clearing)
  | .pauseAdmit => (world, .pausing)
  | .disconnectAll => (world, .disconnecting)
  | .beginEpoch =>
    ({ world with plane := { world.plane with epoch := world.plane.epoch + 1, admitting := false } }, .idle)
  | .expire =>
    match world.plane.held with
    | some current => (world, .expiring current.generation current.deadline)
    | none => (world, .idle)
  | .revoke => (world, .clearing)

/-- The end of `disconnect_invalid`. -/
def World.finish (world : World) (scan : Scan) : World × ControlPoint :=
  if scan.resume then (world, .resumeMode scan)
  else ({ world with returned := world.returned ++ [scan.own] }, .idle)

/-- One step of a control task; it waits where it needs a lock that is held. -/
def World.controlStep (world : World) : ControlPoint → Option (World × ControlPoint)
  | .idle => none
  | .storing routing =>
    if nonIncreasing routing world.plane.held then some (world, .idle)
    else some (world.write (some routing), .loading world.plane.versions.length)
  | .loading own =>
    some (world, .entering
      { own, seen := world.plane.version, snapshot := world.plane.held, resume := true })
  | .resumeMode scan => some (world.setMode .authoritative, .resumeAdmitting scan)
  | .resumeAdmitting scan =>
    some ({ world.setAdmitting true with returned := world.returned ++ [scan.own] }, .idle)
  | .expiring generation deadline =>
    if world.plane.held.any fun current => current.generation == generation &&
        current.deadline == deadline && !current.isFresh world.plane.now then
      some (world.write none, .clearing)
    else some (world, .idle)
  | .clearing => some (world.write none, .revokeMode world.plane.versions.length)
  | .revokeMode own => some (world.setMode .empty, .revokeAdmitting own)
  | .revokeAdmitting own =>
    some (world.setAdmitting false, .entering { own, seen := own, snapshot := none, resume := false })
  | .entering scan =>
    if world.holder.isNone then
      some ({ world with holder := some .collector }, .collecting scan .login (world.registered fun _ => true) [])
    else none
  | .collecting scan _ [] found =>
    some ({ world with holder := none }, .aborting (some scan) .check found)
  | .collecting scan point (id :: todo) found =>
    match world.matchAt id scan.snapshot point with
    | some (.inl point) => some (world, .collecting scan point (id :: todo) found)
    | some (.inr false) => some (world, .collecting scan .login todo (found ++ [id]))
    | _ => some (world, .collecting scan .login todo found)
  | .aborting none _ [] => some (world, .idle)
  | .aborting (some scan) _ [] =>
    if scan.snapshot.isSome then some (world, .listing scan) else some (world.finish scan)
  | .aborting scan point (id :: todo) =>
    match world.connections[id]?.bind fun connection => (connection.abortStep point).2 with
    | some next =>
      some (world.modify id fun c => (c.abortStep point).1, .aborting scan next (id :: todo))
    | none => some (world.modify id fun c => (c.abortStep point).1, .aborting scan .check todo)
  | .listing scan =>
    if world.holder.isNone then some (world, .bridging scan (world.registered fun _ => true))
    else none
  | .bridging scan [] => some (world.finish scan)
  | .bridging scan (id :: todo) =>
    some (world, .removing scan id ((world.connections[id]?.map fun connection =>
        (scan.snapshot.map connection.revokedBridges).getD []).getD []) todo)
  | .removing scan _ [] todo => some (world, .bridging scan todo)
  | .removing scan id (child :: children) todo =>
    some (world.modify id fun c => c.removeRoute child, .removingHandle scan id child children todo)
  | .removingHandle scan id child children todo =>
    some (world.modify id fun c => c.abortHandle child, .removing scan id children todo)
  | .pausing =>
    some ((if world.plane.mode = .authoritative then world.setMode .paused else world).setAdmitting false, .sweeping)
  | .sweeping =>
    if world.holder.isNone then
      some (world, .aborting none .check (world.registered fun c => !c.authenticatedAt))
    else none
  | .disconnecting =>
    if world.holder.isNone then
      some (world, .aborting none .check (world.registered fun _ => true))
    else none

/-- The commands of the backend task come over its link; the timer task expires and revokes. -/
def Command.forBackend : Command → Bool
  | .install _ _ | .pauseAdmit | .disconnectAll | .beginEpoch => true
  | .expire | .revoke => false

/-- A control task starts an operation when it is idle, and goes on otherwise. -/
def World.taskStep (world : World) (point : ControlPoint) (forBackend : Bool) :
    Option Command → Option (World × ControlPoint)
  | some command =>
    if point = .idle ∧ command.forBackend = forBackend then some (world.start command) else none
  | none => world.controlStep point

/-! ## The system -/

/-- One step of the system. -/
def World.step (world : World) : Label → Option World
  | .tick now =>
    if world.plane.now ≤ now then some { world with plane := { world.plane with now } } else none
  | .accept =>
    if world.holder.isNone then
      some { world with connections := world.connections ++ [Connection.new] }
    else none
  | .session id input => do
      let connection ← world.connections[id]?
      let next ← connection.sessionStep world.plane connection.session input
      some (world.modify id fun _ => next)
  | .bridge id child => do
      let connection ← world.connections[id]?
      let next ← connection.bridgeStep child
      some (world.modify id fun _ => next)
  | .unregister id => do
      let connection ← world.connections[id]?
      if world.holder.isNone && connection.registered then
        some { world.modify id fun c => { c with registered := false } with
          holder := some (.cleanup id .swap) }
      else none
  | .cleanup =>
    match world.holder with
    | some (.cleanup id point) =>
      some { world.modify id fun c => (c.abortStep point).1 with
        holder := (world.connections[id]?.bind fun c => (c.abortStep point).2).map (Holder.cleanup id) }
    | _ => none
  | .backend command => do
      let (world, point) ← world.taskStep world.backend true command
      some { world with backend := point }
  | .timers command => do
      let (world, point) ← world.taskStep world.timers false command
      some { world with timers := point }

/-- A state that some run of the system reaches. -/
def World.Reachable (world : World) : Prop :=
  ∃ labels, run World.step World.initial labels = some world

end Nyabase.SshProxy
