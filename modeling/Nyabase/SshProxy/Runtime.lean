import Nyabase.SshProxy.Snapshot

/-!
# Connection state: `tools/ssh-proxy/src/runtime.rs`

A connection keeps what it was authenticated as, the abort handles of its child tasks and the routes of its
bridges.  Three kinds of task touch it: its own session, the bridges it spawned, and the control tasks that
revoke.  Each definition here is what one of them does while it holds one lock, so that a function of the
source that takes several locks is a sequence of them.

The maps of the source that are keyed by a child id are one list of children: `handle` says whether the
child's abort handle is in `child_abort_handles`, `bridgeRoute` is its entry of `bridge_routes`.  Versions
are indices into the sequence of contents the snapshot store has had.  They occur in the state for the
statements only; no definition reads them.
-/

namespace Nyabase.SshProxy

open Lib

/-- `MAX_CHANNELS_PER_CONNECTION`. -/
def maxChannelsPerConnection : Nat := 16

/-- `MAX_CHILD_TASKS_PER_CONNECTION`. -/
def maxChildTasksPerConnection : Nat := 64

/-! ## Children -/

/-- How far a child task has come: a permit without and with a bound route, one whose route was found
authorized again by a version of the store, a bridge that relays, one that has ended. -/
inductive ChildStage where
  | permit
  | bound (route : OwnedResolvedRoute)
  | checked (route : OwnedResolvedRoute) (version : Nat)
  | running (route : OwnedResolvedRoute) (version : Nat)
  | ended
  deriving DecidableEq

structure Child where
  stage : ChildStage
  handle : Bool
  aborted : Bool
  bridgeRoute : Option OwnedResolvedRoute
  deriving DecidableEq

/-- `ConnectionRouteInfo::still_authorized`. -/
def OwnedResolvedRoute.stillAuthorized (route : OwnedResolvedRoute) (snapshot : RoutingSnapshot) : Bool :=
  (snapshot.resolveOwnedRouteForUserIp route.userId route.routedIp).toOption.any
    fun current => route.sameAuthority current

/-! ## Sessions -/

/-- What `set_authenticated` is called with. -/
structure Identity where
  login : List Char
  publicKey : PublicKey
  userId : String
  pinnedRoute : Option OwnedResolvedRoute
  deriving DecidableEq

/-- Which admission check a session is in the middle of. -/
inductive Purpose where
  /-- `pause_rejecting` in `auth_verified_key` -/
  | verify (login : List Char) (publicKey : PublicKey)
  /-- `latest_snapshot` in `auth_verified_key` -/
  | latest (login : List Char) (publicKey : PublicKey)
  /-- `pause_rejecting` in `auth_succeeded` -/
  | succeed
  /-- `pause_rejecting` in `channel_open_direct_tcpip` -/
  | openChannel (host : List Char) (port : Nat)
  deriving DecidableEq

/-- Where `authorization_matches` stands: the lock it takes next, and what it has read. -/
inductive MatchPoint where
  | login
  | publicKey
  | userId (publicKey : PublicKey)
  | pinnedRoute (userId : String)
  deriving DecidableEq

/-- Where a session stands. -/
inductive SessionPoint where
  | waiting
  | readMode (purpose : Purpose)
  | readAdmitting (purpose : Purpose)
  | readHeld (purpose : Purpose)
  | loadLatest (login : List Char) (publicKey : PublicKey)
  | setLogin (identity : Identity)
  | setPublicKey (identity : Identity)
  | setUserId (identity : Identity)
  | setPinnedRoute (identity : Identity)
  | setAuthenticatedAt (identity : Identity)
  | loadHeld
  | matching (current : Option RoutingSnapshot) (point : MatchPoint)
  | ready
  | authorizeUser (host : List Char)
  | authorizeRoute (host : List Char) (userId : String)
  | checkChannels (route : OwnedResolvedRoute)
  | reserve (route : OwnedResolvedRoute)
  | connecting (child : Nat) (route : OwnedResolvedRoute)
  | bind (child : Nat) (route : OwnedResolvedRoute)
  | recheckUser (child : Nat) (route : OwnedResolvedRoute)
  | recheckRoute (child : Nat) (route : OwnedResolvedRoute) (userId : String)
  | accepting (child : Nat)
  | dropHandle (child : Nat)
  | dropRoute (child : Nat)
  | closing
  deriving DecidableEq

structure Connection where
  registered : Bool
  login : Option (List Char)
  publicKey : Option PublicKey
  userId : Option String
  pinnedRoute : Option OwnedResolvedRoute
  authenticatedAt : Bool
  revoked : Bool
  channels : Nat
  children : List Child
  /-- The session's own copy of the key (`ProxySshSession::authenticated_public_key`). -/
  sessionKey : Option PublicKey
  session : SessionPoint
  /-- The version of the store that `auth_succeeded` read. -/
  admittedAt : Nat
  deriving DecidableEq

/-- `ConnectionState::new`, registered. -/
def Connection.new : Connection :=
  { registered := true, login := none, publicKey := none, userId := none, pinnedRoute := none,
    authenticatedAt := false, revoked := false, channels := 0, children := [], sessionKey := none,
    session := .waiting, admittedAt := 0 }

/-! ## `authorization_matches` -/

/-- The user of a snapshot who holds a key, if there is exactly one and it is active. -/
def keyHolder (snapshot : Option RoutingSnapshot) (publicKey : PublicKey) : Option String :=
  snapshot.bind fun s => (s.findActiveUserByPublicKey publicKey).toOption.map RoutingUser.id

/-- One lock of `authorization_matches`: the answer, or the point it goes on from. -/
def Connection.matchStep (connection : Connection) (snapshot : Option RoutingSnapshot) : MatchPoint → MatchPoint ⊕ Bool
  | .login =>
    if connection.login.isNone then .inr true
    else if snapshot.isNone then .inr false
    else .inl .publicKey
  | .publicKey =>
    match connection.publicKey with
    | none => .inr false
    | some publicKey => .inl (.userId publicKey)
  | .userId publicKey =>
    match connection.userId with
    | none => .inr false
    | some userId =>
      if keyHolder snapshot publicKey == some userId then .inl (.pinnedRoute userId)
      else .inr false
  | .pinnedRoute userId =>
    match connection.pinnedRoute with
    | none => .inr true
    | some expected =>
      .inr (expected.userId == userId && snapshot.any fun s => expected.stillAuthorized s)

def Connection.pinnedMatches (connection : Connection) (snapshot : Option RoutingSnapshot) (userId : String) : Bool :=
  connection.pinnedRoute.all fun expected =>
    expected.userId == userId && snapshot.any fun s => expected.stillAuthorized s

def Connection.userMatches (connection : Connection) (snapshot : Option RoutingSnapshot)
    (publicKey : PublicKey) : Bool :=
  connection.userId.any fun userId =>
    keyHolder snapshot publicKey == some userId && connection.pinnedMatches snapshot userId

/-- `authorization_matches`, when the connection does not change meanwhile. -/
def Connection.authorizationMatches (connection : Connection) (snapshot : Option RoutingSnapshot) : Bool :=
  connection.login.isNone || snapshot.isSome && connection.publicKey.any (connection.userMatches snapshot)

/-- The answer from a point on, when the connection does not change meanwhile. -/
def Connection.matchFrom (connection : Connection) (snapshot : Option RoutingSnapshot) : MatchPoint → Bool
  | .login => connection.authorizationMatches snapshot
  | .publicKey => connection.publicKey.any (connection.userMatches snapshot)
  | .userId publicKey => connection.userMatches snapshot publicKey
  | .pinnedRoute userId => connection.pinnedMatches snapshot userId

/-! ## Aborting -/

/-- Where `abort_because` stands. -/
inductive AbortPoint where
  | check
  | swap
  | takeHandles
  | abortHandles (children : List Nat)
  deriving DecidableEq

def Connection.modifyChild (connection : Connection) (child : Nat) (f : Child → Child) : Connection :=
  { connection with children := connection.children.modify child f }

/-- The children whose abort handle is registered. -/
def Connection.handles (connection : Connection) : List Nat :=
  (List.range connection.children.length).filter fun id =>
    connection.children[id]?.any Child.handle

/-- One step of `abort_because`, of which `abort` is the part from `swap` on.  The next point is absent
when it has returned. -/
def Connection.abortStep (connection : Connection) : AbortPoint → Connection × Option AbortPoint
  | .check => (connection, if connection.revoked then none else some .swap)
  | .swap =>
    if connection.revoked then (connection, none)
    else ({ connection with revoked := true }, some .takeHandles)
  | .takeHandles =>
    ({ connection with children := connection.children.map fun c => { c with handle := false } },
      some (.abortHandles connection.handles))
  | .abortHandles [] => (connection, none)
  | .abortHandles (child :: rest) =>
    (connection.modifyChild child fun c => { c with aborted := true }, some (.abortHandles rest))

/-! ## Child tasks -/

/-- `register_child_abort`. -/
def Connection.registerChildAbort (connection : Connection) : Option (Connection × Nat) :=
  if connection.revoked || decide (maxChildTasksPerConnection ≤ connection.handles.length) then none
  else
    let child : Child := { stage := .permit, handle := true, aborted := false, bridgeRoute := none }
    some ({ connection with children := connection.children ++ [child] }, connection.children.length)

/-- `ChildTaskPermit::bind_route`. -/
def Connection.bindRoute (connection : Connection) (child : Nat) (route : OwnedResolvedRoute) : Connection :=
  connection.modifyChild child fun c => { c with stage := .bound route, bridgeRoute := some route }

/-- The first lock of `unregister_child_abort`; the child is over. -/
def Connection.dropHandle (connection : Connection) (child : Nat) : Connection :=
  connection.modifyChild child fun c => { c with stage := .ended, handle := false }

/-- Removing an entry of `bridge_routes`. -/
def Connection.removeRoute (connection : Connection) (child : Nat) : Connection :=
  connection.modifyChild child fun c => { c with bridgeRoute := none }

/-- Removing a child's abort handle and aborting it (`abort_revoked_bridges`). -/
def Connection.abortHandle (connection : Connection) (child : Nat) : Connection :=
  connection.modifyChild child fun c =>
    if c.handle then { c with handle := false, aborted := true } else c

/-- The bridges `abort_revoked_bridges` finds no longer authorized. -/
def Connection.revokedBridges (connection : Connection) (snapshot : RoutingSnapshot) : List Nat :=
  (List.range connection.children.length).filter fun id =>
    (connection.children[id]?.bind Child.bridgeRoute).any fun route =>
      !route.stillAuthorized snapshot

/-- What the task of a bridge does: it ends on its own or because it was aborted, then its cleanup takes
the locks of `unregister_child_abort`. -/
def Connection.bridgeStep (connection : Connection) (child : Nat) : Option Connection :=
  match connection.children[child]? with
  | some ⟨.running _ _, _, _, _⟩ =>
    some { connection.modifyChild child fun c => { c with stage := .ended } with
      channels := connection.channels - 1 }
  | some ⟨.ended, true, _, _⟩ => some (connection.dropHandle child)
  | some ⟨.ended, false, _, some _⟩ => some (connection.removeRoute child)
  | _ => none

end Nyabase.SshProxy
