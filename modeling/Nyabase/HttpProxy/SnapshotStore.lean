import Nyabase.ProxyCommon.Clock
import Mathlib.Tactic

/-!
# The snapshot store: `tools/http-proxy/src/snapshot.rs`

The store holds the routing snapshot the proxy serves from, the generation high-water mark of the
control epoch and the epoch itself.  Every operation reads the clock, takes the state lock and works
under it; here each is a function of the clock readings it made before the lock and of the state it
finds there.

An `Arc<()>` is an identity: a route's incarnation and a control epoch are tokens, and `nextToken` is
the first one never handed out.  Instants are milliseconds of the monotone clock and do not overflow.
Certificates are not routed by: of the domain pools of a received snapshot only the error of the first
one that `DomainCert::from_pool` refuses is kept, which is all that `store` asks of them.
-/

namespace Nyabase.HttpProxy

open Lib ProxyCommon

/-- `MAX_SNAPSHOT_STALE_AFTER_MS`. -/
def maxSnapshotStaleAfterMs : Nat := 300000

structure Route where
  bindingId : String
  hostname : String
  domainPoolId : String
  routedIp : String
  targetPort : UInt16
  ownerId : String
  containerId : String
  containerName : String
  instanceName : String
  status : String
  deriving DecidableEq

/-- `Route::same_authority`: everything but the container's name and status. -/
def Route.sameAuthority (route other : Route) : Bool :=
  route.bindingId == other.bindingId && route.hostname == other.hostname &&
    route.domainPoolId == other.domainPoolId && route.ownerId == other.ownerId &&
    route.containerId == other.containerId && route.instanceName == other.instanceName &&
    route.routedIp == other.routedIp && route.targetPort == other.targetPort

/-- A snapshot as the Backend sends it. -/
structure ProxySnapshot where
  generation : Nat
  staleAfterMs : Nat
  validUntilMs : Nat
  routes : List Route
  poolError : Option String

structure AuthorizedRoute where
  route : Route
  incarnation : Nat

structure RouteAuthorization where
  route : Route
  incarnation : Nat
  deriving DecidableEq

/-- The routes are kept in the order received; a hostname's entry is the last one, as it is after
collecting into the hash map. -/
structure RoutingSnapshot where
  generation : Nat
  receivedAt : Nat
  deadline : Nat
  routes : List AuthorizedRoute

structure SnapshotLease where
  generation : Nat
  deadline : Nat
  controlEpoch : Nat

structure SnapshotState where
  current : Option RoutingSnapshot
  generationHighWater : Option Nat
  controlEpoch : Nat
  revision : Nat
  nextToken : Nat

def SnapshotState.initial : SnapshotState := ⟨none, none, 0, 0, 1⟩

/-! ## Routing snapshots -/

def RoutingSnapshot.get (snapshot : RoutingSnapshot) (hostname : String) : Option AuthorizedRoute :=
  snapshot.routes.reverse.find? fun authorized => authorized.route.hostname == hostname

def RoutingSnapshot.isFresh (snapshot : RoutingSnapshot) (now : Nat) : Bool :=
  now < snapshot.deadline

/-- `RoutingSnapshot::from_received`; the fresh incarnations start at `firstToken`. -/
def RoutingSnapshot.fromReceived (snapshot : ProxySnapshot) (receivedAt wallNow firstToken : Nat) :
    Except String RoutingSnapshot := do
  ensure (!(snapshot.staleAfterMs == 0 || decide (snapshot.staleAfterMs > maxSnapshotStaleAfterMs)))
    "invalid HTTP proxy snapshot staleAfterMs"
  let remaining ←
    absoluteSnapshotRemaining "HTTP proxy" snapshot.validUntilMs snapshot.staleAfterMs wallNow
  ensure snapshot.poolError.isNone (snapshot.poolError.getD "")
  pure
    { generation := snapshot.generation
      receivedAt
      deadline := receivedAt + remaining
      routes := snapshot.routes.zipIdx.map fun (route, index) => ⟨route, firstToken + index⟩ }

/-- The incarnation a received route is installed with after `previous`. -/
def AuthorizedRoute.inherit (previous : RoutingSnapshot) (current : AuthorizedRoute) :
    AuthorizedRoute :=
  match previous.get current.route.hostname with
  | some old =>
    if old.route.sameAuthority current.route then { current with incarnation := old.incarnation }
    else current
  | none => current

def RoutingSnapshot.inheritIncarnations (snapshot previous : RoutingSnapshot) : RoutingSnapshot :=
  { snapshot with routes := snapshot.routes.map (AuthorizedRoute.inherit previous) }

/-! ## Operations -/

/-- Some snapshot is held and it is no longer fresh. -/
def SnapshotState.isExpired (state : SnapshotState) (now : Nat) : Bool :=
  state.current.any fun current => !current.isFresh now

/-- The lazy expiry at the start of `load`, `authorize_route` and `authorization_deadline`. -/
def SnapshotState.dropExpired (state : SnapshotState) (now : Nat) : SnapshotState :=
  if state.isExpired now then { state with current := none, revision := state.revision + 1 }
  else state

/-- The part of `store` under the lock, for a received snapshot. -/
def SnapshotState.install (state : SnapshotState) (routing : RoutingSnapshot) : Option SnapshotLease × SnapshotState :=
  let expired := state.isExpired routing.receivedAt
  let current := if expired then none else state.current
  if state.generationHighWater.any fun highWater => decide (highWater ≥ routing.generation) then
    (none, { state with
      current
      revision := if expired then state.revision + 1 else state.revision })
  else
    let routing := match current with
      | some previous => routing.inheritIncarnations previous
      | none => routing
    (some ⟨routing.generation, routing.deadline, state.controlEpoch⟩, { state with
        current := some routing
        generationHighWater := some routing.generation
        revision := state.revision + 1
        nextToken := state.nextToken + routing.routes.length })

/-- `store`: the snapshot is received at `receivedAt`, checked at `checkedAt` and then installed under
the lock. -/
def SnapshotState.store (state : SnapshotState) (snapshot : ProxySnapshot)
    (receivedAt checkedAt wallNow : Nat) : Except String (Option SnapshotLease) × SnapshotState :=
  match RoutingSnapshot.fromReceived snapshot receivedAt wallNow state.nextToken with
  | .error e => (.error e, state)
  | .ok routing =>
    if !routing.isFresh checkedAt then
      (.error "HTTP proxy snapshot lease expired before installation", state)
    else (.ok (state.install routing).1, (state.install routing).2)

def SnapshotState.load (state : SnapshotState) (now : Nat) : Option RoutingSnapshot × SnapshotState :=
  ((state.dropExpired now).current, state.dropExpired now)

def SnapshotState.expire (state : SnapshotState) (now : Nat) (lease : SnapshotLease) : Bool × SnapshotState :=
  let shouldExpire := state.current.any fun current =>
    state.controlEpoch == lease.controlEpoch && current.generation == lease.generation &&
      current.deadline == lease.deadline && !current.isFresh now
  (shouldExpire, if shouldExpire then { state with current := none, revision := state.revision + 1 } else state)

def SnapshotState.beginControlEpoch (state : SnapshotState) : SnapshotState :=
  { state with
    generationHighWater := none
    controlEpoch := state.nextToken
    revision := state.revision + 1
    nextToken := state.nextToken + 1 }

def SnapshotState.clearEpoch (state : SnapshotState) : SnapshotState :=
  { state with
    current := none
    generationHighWater := none
    controlEpoch := state.nextToken
    revision := state.revision + 1
    nextToken := state.nextToken + 1 }

def SnapshotState.holdAfterDisconnect (state : SnapshotState) (now hold : Nat) : SnapshotState :=
  if hold = 0 then state.clearEpoch
  else
    match state.current with
    | some current =>
      if now + hold < current.deadline then
        { state with
          current := some { current with deadline := now + hold }
          revision := state.revision + 1 }
      else state
    | none => state

def SnapshotState.authorizeRoute (state : SnapshotState) (now : Nat) (hostname : String) :
    Option RouteAuthorization × SnapshotState :=
  let state := state.dropExpired now
  (state.current.bind fun snapshot =>
    (snapshot.get hostname).map fun current => ⟨current.route, current.incarnation⟩, state)

def SnapshotState.authorizationDeadline (state : SnapshotState) (now : Nat)
    (expected : RouteAuthorization) : Option Nat × SnapshotState :=
  let state := state.dropExpired now
  (state.current.bind fun snapshot =>
    ((snapshot.get expected.route.hostname).filter fun current =>
      current.incarnation == expected.incarnation).map fun _ => snapshot.deadline, state)

def SnapshotState.authorizationIsCurrent (state : SnapshotState) (now : Nat)
    (expected : RouteAuthorization) : Bool :=
  (state.authorizationDeadline now expected).1.isSome

/-! ## Runs -/

/-- An operation with the clock readings it made before it took the lock. -/
inductive Operation where
  | store (snapshot : ProxySnapshot) (receivedAt checkedAt wallNow : Nat)
  | load (readAt : Nat)
  | expire (readAt : Nat) (lease : SnapshotLease)
  | beginControlEpoch
  | holdAfterDisconnect (readAt hold : Nat)
  | clearEpoch
  | authorizeRoute (readAt : Nat) (hostname : String)
  | authorizationDeadline (readAt : Nat) (expected : RouteAuthorization)

/-- The state an operation leaves. -/
def Operation.perform (state : SnapshotState) : Operation → SnapshotState
  | .store snapshot receivedAt checkedAt wallNow =>
    (state.store snapshot receivedAt checkedAt wallNow).2
  | .load readAt => (state.load readAt).2
  | .expire readAt lease => (state.expire readAt lease).2
  | .beginControlEpoch => state.beginControlEpoch
  | .holdAfterDisconnect readAt hold => state.holdAfterDisconnect readAt hold
  | .clearEpoch => state.clearEpoch
  | .authorizeRoute readAt hostname => (state.authorizeRoute readAt hostname).2
  | .authorizationDeadline readAt expected => (state.authorizationDeadline readAt expected).2

/-- The monotone clock readings an operation makes before the lock, in order. -/
def Operation.readings : Operation → List Nat
  | .store _ receivedAt checkedAt _ => [receivedAt, checkedAt]
  | .load readAt => [readAt]
  | .expire readAt _ => [readAt]
  | .holdAfterDisconnect readAt _ => [readAt]
  | .authorizeRoute readAt _ => [readAt]
  | .authorizationDeadline readAt _ => [readAt]
  | .beginControlEpoch => []
  | .clearEpoch => []

/-- An operation that takes the lock at `time`. -/
structure Moment where
  time : Nat
  operation : Operation

/-- The clock is monotone: locks are taken in order of time, after the readings of their operation. -/
def Timely : Nat → List Moment → Prop
  | _, [] => True
  | now, moment :: rest =>
    now ≤ moment.time ∧ (∀ reading ∈ moment.operation.readings, reading ≤ moment.time) ∧ Timely moment.time rest

instance decidableTimely : (now : Nat) → (moments : List Moment) → Decidable (Timely now moments)
  | _, [] => inferInstanceAs (Decidable True)
  | now, moment :: rest =>
    have := decidableTimely moment.time rest
    inferInstanceAs (Decidable (now ≤ moment.time ∧
      (∀ reading ∈ moment.operation.readings, reading ≤ moment.time) ∧ Timely moment.time rest))

/-- The state after a run. -/
def runFrom (state : SnapshotState) (moments : List Moment) : SnapshotState :=
  moments.foldl (fun state moment => moment.operation.perform state) state

theorem runFrom_append (state : SnapshotState) (first second : List Moment) :
    runFrom state (first ++ second) = runFrom (runFrom state first) second :=
  List.foldl_append ..

end Nyabase.HttpProxy
