import Nyabase.SshProxy.Runtime

/-!
# Sessions: `tools/ssh-proxy/src/session.rs`

The handler of one SSH session, cut at every lock, atomic read and await.  A session reads the control plane
and the snapshot store and changes its own connection only.  It goes on after its connection was revoked
until somebody drops it, as the task that runs it is detached from the connection's future.
-/

namespace Nyabase.SshProxy

open Lib

inductive ControlMode where
  | empty
  | authoritative
  | paused
  deriving DecidableEq

/-- What sessions read: the clock, the control plane and the snapshot store.  `versions` are the contents
the store has had so far, the last one being current. -/
structure Plane where
  now : Nat
  mode : ControlMode
  epoch : Nat
  admitting : Bool
  versions : List (Option RoutingSnapshot)
  deriving DecidableEq

/-- `SnapshotStore::load`. -/
def Plane.held (plane : Plane) : Option RoutingSnapshot :=
  plane.versions.getLast?.join

/-- The version that `held` reads. -/
def Plane.version (plane : Plane) : Nat :=
  plane.versions.length - 1

/-- The held snapshot within its lease (`authorizing_snapshot`; also the last line of
`latest_snapshot`). -/
def Plane.fresh (plane : Plane) : Option RoutingSnapshot :=
  plane.held.filter fun snapshot => snapshot.isFresh plane.now

/-- `acceptable_login`. -/
def acceptableLogin (login : List Char) : Bool :=
  !login.isEmpty && decide (login.length ≤ 256) && login.all fun c => decide (0x20 ≤ c.toNat) && decide (c.toNat ≤ 0x7e)

/-- What happens to a session from outside: a client proved a key, a client asks for a target, an upstream
connection or a reply succeeds or not, or the session goes on by itself. -/
inductive SessionInput where
  | verifiedKey (login : List Char) (publicKey : PublicKey)
  | directTcpip (host : List Char) (port : Nat)
  | outcome (success : Bool)
  | go
  deriving DecidableEq

/-! ## Admission checks -/

/-- Where a session goes on when it is not rejected because of a pause. -/
def Purpose.proceed : Purpose → SessionPoint
  | .verify login publicKey => .readMode (.latest login publicKey)
  | .latest login publicKey => .loadLatest login publicKey
  | .succeed => .loadHeld
  | .openChannel host port => if port = 22 then .authorizeUser host else .ready

/-- Where it goes on when it is.  A key is then accepted without a look at it, and the session disconnected
in `auth_succeeded`. -/
def Purpose.paused : Purpose → SessionPoint
  | .verify _ _ => .readMode .succeed
  | .latest _ _ => .waiting
  | .succeed => .closing
  | .openChannel _ _ => .ready

/-- After `admit`: `latest_snapshot` rejects without it, `pause_rejecting` looks at the store. -/
def Purpose.afterAdmit : Purpose → Bool → SessionPoint
  | purpose, true => purpose.proceed
  | .latest _ _, false => .waiting
  | purpose, false => .readHeld purpose

/-! ## The handler -/

/-- What `auth_verified_key` makes of a verified key. -/
def Plane.identify (plane : Plane) (login : List Char) (publicKey : PublicKey) : Option Identity := do
  let snapshot ← plane.fresh
  let user ← (snapshot.findActiveUserByPublicKey publicKey).toOption
  some
    { login
      publicKey
      userId := user.id
      pinnedRoute := (snapshot.resolveLogin login).toOption.filter fun route =>
        route.userId == user.id }

/-- `authorized_user_id`. -/
def Plane.authorizedUserId (plane : Plane) (connection : Connection) : Option String := do
  let publicKey ← connection.sessionKey
  let expectedUserId ← connection.userId
  let snapshot ← plane.fresh
  let user ← (snapshot.findActiveUserByPublicKey publicKey).toOption
  if user.id == expectedUserId then some user.id else none

/-- The second half of `authorized_route_for_target`. -/
def Plane.routeFor (plane : Plane) (userId : String) (target : List Char) : Option OwnedResolvedRoute := do
  let snapshot ← plane.fresh
  (snapshot.resolveOwnedRouteForUserTarget userId target).toOption

def Connection.goTo (connection : Connection) (point : SessionPoint) : Connection :=
  { connection with session := point }

def Connection.sessionStep (plane : Plane) (connection : Connection) : SessionPoint → SessionInput → Option Connection
  -- admission checks
  | .readMode purpose, .go =>
    some (connection.goTo (if plane.mode = .authoritative then .readAdmitting purpose
      else purpose.afterAdmit false))
  | .readAdmitting purpose, .go => some (connection.goTo (purpose.afterAdmit plane.admitting))
  | .readHeld purpose, .go =>
    some (connection.goTo (if plane.held.isSome then purpose.paused else purpose.proceed))
  -- `auth_verified_key`
  | .waiting, .verifiedKey login publicKey =>
    some (if acceptableLogin login then connection.goTo (.readMode (.verify login publicKey))
      else connection)
  | .loadLatest login publicKey, .go =>
    match plane.identify login publicKey with
    | some identity => some (connection.goTo (.setLogin identity))
    | none => some (connection.goTo .waiting)
  | .setLogin identity, .go =>
    some { connection with login := some identity.login, session := .setPublicKey identity }
  | .setPublicKey identity, .go =>
    some { connection with publicKey := some identity.publicKey, session := .setUserId identity }
  | .setUserId identity, .go =>
    some { connection with userId := some identity.userId, session := .setPinnedRoute identity }
  | .setPinnedRoute identity, .go =>
    some { connection with
      pinnedRoute := identity.pinnedRoute, session := .setAuthenticatedAt identity }
  | .setAuthenticatedAt identity, .go =>
    some { connection with
      authenticatedAt := true, sessionKey := some identity.publicKey,
      session := .readMode .succeed }
  -- `auth_succeeded`
  | .loadHeld, .go =>
    some { connection with admittedAt := plane.version, session := .matching plane.held .login }
  | .matching current point, .go =>
    match connection.matchStep current point with
    | .inl point => some (connection.goTo (.matching current point))
    | .inr true => some (connection.goTo .ready)
    | .inr false => some (connection.goTo .closing)
  -- `channel_open_direct_tcpip`
  | .ready, .directTcpip host port => some (connection.goTo (.readMode (.openChannel host port)))
  | .authorizeUser host, .go =>
    match plane.authorizedUserId connection with
    | some userId => some (connection.goTo (.authorizeRoute host userId))
    | none => some (connection.goTo .ready)
  | .authorizeRoute host userId, .go =>
    match plane.routeFor userId host with
    | some route => some (connection.goTo (.checkChannels route))
    | none => some (connection.goTo .ready)
  | .checkChannels route, .go =>
    some (connection.goTo (if maxChannelsPerConnection ≤ connection.channels then .ready else .reserve route))
  | .reserve route, .go =>
    match connection.registerChildAbort with
    | some (connection, child) => some (connection.goTo (.connecting child route))
    | none => some (connection.goTo .ready)
  | .connecting child route, .outcome success =>
    some (connection.goTo (if success then .bind child route else .dropHandle child))
  | .bind child route, .go =>
    some ((connection.bindRoute child route).goTo (.recheckUser child route))
  | .recheckUser child route, .go =>
    match plane.authorizedUserId connection with
    | some userId => some (connection.goTo (.recheckRoute child route userId))
    | none => some (connection.goTo (.dropHandle child))
  | .recheckRoute child route userId, .go =>
    if (plane.routeFor userId route.routedIp).any fun current => current.sameAuthority route then
      some ((connection.modifyChild child fun c =>
        { c with stage := .checked route plane.version }).goTo (.accepting child))
    else some (connection.goTo (.dropHandle child))
  | .accepting child, .outcome true =>
    -- the reply went out: the bridge is spawned
    some ({ connection.modifyChild child fun c =>
        match c.stage with
        | .checked route version => { c with stage := .running route version }
        | _ => c with
      channels := connection.channels + 1 }.goTo .ready)
  | .accepting child, .outcome false => some (connection.goTo (.dropHandle child))
  -- the permit is dropped
  | .dropHandle child, .go => some ((connection.dropHandle child).goTo (.dropRoute child))
  | .dropRoute child, .go => some ((connection.removeRoute child).goTo .ready)
  | _, _ => none

end Nyabase.SshProxy
