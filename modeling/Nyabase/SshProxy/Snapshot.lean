import Nyabase.Lib.AsciiCase
import Nyabase.Lib.Text
import Nyabase.ProxyCommon.Clock

/-!
# Routing snapshots: `tools/ssh-proxy/src/snapshot.rs`

A routing snapshot says which users exist, which public keys they hold and which containers their
connections may reach.  A client asks for a target by routed IPv4 address or by container name, bare or
with the configured host suffix; the answer depends on the containers of the authenticated user.

Names, statuses and addresses are lists of characters, ids are strings.  The hash maps of the source
are the lists they are collected from, with a lookup that finds the last entry of an id.  Of a user's
authorized keys only those that parse are kept, as key data.
-/

namespace Nyabase.SshProxy

open Lib ProxyCommon

/-! ## Data -/

/-- The key data of a public key, comments ignored. -/
structure PublicKey where
  keyData : Nat
  deriving DecidableEq

structure RoutingUser where
  id : String
  username : List Char
  status : String
  publicKeys : List PublicKey
  deriving DecidableEq

structure ProxyServer where
  id : String
  slug : List Char
  status : List Char
  deriving DecidableEq

structure ProxyImage where
  id : String
  sshEnabled : Bool
  deriving DecidableEq

structure ProxyContainer where
  id : String
  ownerId : String
  serverId : String
  imageId : String
  name : List Char
  instanceName : String
  deriving DecidableEq

structure ProxyRoute where
  containerId : String
  serverId : String
  instanceName : String
  routedIp : Option (List Char)
  status : List Char
  sshStatus : List Char
  deriving DecidableEq

/-- A snapshot as the Backend sends it. -/
structure ProxySnapshot where
  generation : Nat
  staleAfterMs : Nat
  validUntil : Nat
  hostSuffix : List Char
  hostKeyParses : Bool
  users : List RoutingUser
  servers : List ProxyServer
  images : List ProxyImage
  containers : List ProxyContainer
  routes : List ProxyRoute
  deriving DecidableEq

structure RoutingSnapshot where
  epoch : Nat
  generation : Nat
  deadline : Nat
  hostSuffix : List Char
  users : List RoutingUser
  servers : List ProxyServer
  images : List ProxyImage
  containers : List ProxyContainer
  routes : List ProxyRoute
  deriving DecidableEq

structure OwnedResolvedRoute where
  userId : String
  username : List Char
  serverId : String
  serverSlug : List Char
  containerId : String
  containerName : List Char
  instanceName : String
  routedIp : List Char
  deriving DecidableEq

inductive RejectReason where
  | invalidLogin
  | userNotFound
  | userDisabled
  | serverNotFound
  | routeNotFound
  | ambiguousContainer
  | publicKeyRejected
  | ambiguousUser
  | invalidTarget
  deriving DecidableEq

/-- `OwnedResolvedRoute::same_authority`: everything but the container's name. -/
def OwnedResolvedRoute.sameAuthority (route other : OwnedResolvedRoute) : Bool :=
  route.userId == other.userId && route.username == other.username &&
    route.serverId == other.serverId && route.serverSlug == other.serverSlug &&
    route.containerId == other.containerId && route.instanceName == other.instanceName &&
    route.routedIp == other.routedIp

/-! ## Building a snapshot -/

/-- `RoutingSnapshot::from_snapshot_in_epoch`, at `now` on the monotone clock. -/
def RoutingSnapshot.fromSnapshotInEpoch (snapshot : ProxySnapshot) (epoch now wallNow : Nat) :
    Except String RoutingSnapshot := do
  let remaining ←
    absoluteSnapshotRemaining "SSH proxy" snapshot.validUntil snapshot.staleAfterMs wallNow
  ensure snapshot.hostKeyParses "failed to parse SSH proxy host private key"
  pure
    { epoch
      generation := snapshot.generation
      deadline := now + remaining
      hostSuffix := lower (trimBy (· == '.') snapshot.hostSuffix)
      users := snapshot.users
      servers := snapshot.servers
      images := snapshot.images
      containers := snapshot.containers
      routes := snapshot.routes }

def RoutingSnapshot.isFresh (snapshot : RoutingSnapshot) (now : Nat) : Bool :=
  now < snapshot.deadline

def RoutingSnapshot.server (snapshot : RoutingSnapshot) (id : String) : Option ProxyServer :=
  snapshot.servers.reverse.find? fun server => server.id == id

def RoutingSnapshot.image (snapshot : RoutingSnapshot) (id : String) : Option ProxyImage :=
  snapshot.images.reverse.find? fun image => image.id == id

def RoutingSnapshot.route (snapshot : RoutingSnapshot) (containerId : String) : Option ProxyRoute :=
  snapshot.routes.reverse.find? fun route => route.containerId == containerId

/-! ## IPv4 addresses -/

/-- One octet of an address: at most three digits, at most 255, no leading zero. -/
def parseOctet (text : List Char) : Option Nat :=
  if !text.isEmpty && decide (text.length ≤ 3) && text.all Char.isDigit &&
      !(decide (1 < text.length) && text.head? == some '0') &&
      decide (Nat.ofDigitChars 10 text 0 < 256) then
    some (Nat.ofDigitChars 10 text 0)
  else none

/-- `str::parse::<Ipv4Addr>`. -/
def parseIpv4 (text : List Char) : Option (Nat × Nat × Nat × Nat) :=
  match text.splitOn '.' with
  | [a, b, c, d] => do
      let a ← parseOctet a
      let b ← parseOctet b
      let c ← parseOctet c
      let d ← parseOctet d
      some (a, b, c, d)
  | _ => none

def isRoutableContainerIpv4 (value : List Char) : Bool :=
  (parseIpv4 value).any fun address =>
    !(address == (0, 0, 0, 0)) && !(address.1 == 127) && !(decide (224 ≤ address.1) && decide (address.1 ≤ 239)) &&
      address != (255, 255, 255, 255)

def ProxyRoute.isActive (route : ProxyRoute) : Bool :=
  route.instanceName != "" && route.routedIp.any isRoutableContainerIpv4 &&
    eqIgnoreAsciiCase route.status "running".toList && route.sshStatus == "running".toList

/-! ## Resolution -/

/-- `find_active_user_by_public_key`. -/
def RoutingSnapshot.findActiveUserByPublicKey (snapshot : RoutingSnapshot) (publicKey : PublicKey) :
    Except RejectReason RoutingUser :=
  match snapshot.users.filter fun user =>
      user.status == "active" && user.publicKeys.contains publicKey with
  | [] => .error .publicKeyRejected
  | [user] => .ok user
  | _ :: _ :: _ => .error .ambiguousUser

/-- The checks both resolutions make on a container: its image, its server and its route. -/
def RoutingSnapshot.activeRoute (snapshot : RoutingSnapshot) (container : ProxyContainer) :
    Option (ProxyServer × ProxyRoute) := do
  guard ((snapshot.image container.imageId).any (·.sshEnabled))
  let server ← snapshot.server container.serverId
  guard (eqIgnoreAsciiCase server.status "online".toList)
  let route ← snapshot.route container.id
  guard (route.serverId == container.serverId)
  guard (route.instanceName == container.instanceName)
  guard route.isActive
  some (server, route)

/-- One turn of the loop of `resolve_owned_route_for_user_ip`. -/
def RoutingSnapshot.candidate (snapshot : RoutingSnapshot) (userId : String) (routedIp : List Char)
    (container : ProxyContainer) : Option OwnedResolvedRoute := do
  guard (container.ownerId == userId)
  let (server, route) ← snapshot.activeRoute container
  let ip ← route.routedIp
  guard (ip == routedIp)
  some
    { userId
      username := ((snapshot.users.find? fun user => user.id == userId).map RoutingUser.username).getD []
      serverId := server.id
      serverSlug := server.slug
      containerId := container.id
      containerName := container.name
      instanceName := route.instanceName
      routedIp := ip }

/-- The only candidate, or why there is none. -/
def single {α : Type} : List α → Except RejectReason α
  | [] => .error .routeNotFound
  | [candidate] => .ok candidate
  | _ :: _ :: _ => .error .ambiguousContainer

def RoutingSnapshot.resolveOwnedRouteForUserIp (snapshot : RoutingSnapshot) (userId : String)
    (routedIp : List Char) : Except RejectReason OwnedResolvedRoute :=
  single (snapshot.containers.filterMap (snapshot.candidate userId routedIp))

/-- The text before a suffix (`str::strip_suffix`). -/
def stripSuffix (suffix text : List Char) : Option (List Char) :=
  if suffix.isSuffixOf text then some (text.take (text.length - suffix.length)) else none

/-- The label of a host: without the host suffix where it has one. -/
def RoutingSnapshot.hostLabel (snapshot : RoutingSnapshot) (host : List Char) : List Char :=
  if snapshot.hostSuffix.isEmpty then host
  else ((stripSuffix snapshot.hostSuffix host).bind (stripSuffix ['.'])).getD host

def RoutingSnapshot.containerNameForHost (snapshot : RoutingSnapshot) (target : List Char) : Option (List Char) :=
  let label := snapshot.hostLabel (lower (target.rdropWhile (· == '.')))
  if decide (1 ≤ label.length) && decide (label.length ≤ 63) &&
      label.all (fun c => c.isAlphanum || c == '-') && label.head?.any Char.isAlphanum then
    some label
  else none

/-- The routes the containers of a name resolve to, one for each container that has an address. -/
def RoutingSnapshot.resolvedByName (snapshot : RoutingSnapshot) (userId : String)
    (name : List Char) : List OwnedResolvedRoute :=
  ((((snapshot.containers.filter fun container =>
      container.ownerId == userId && eqIgnoreAsciiCase container.name name).filterMap
      fun container => snapshot.route container.id).filterMap ProxyRoute.routedIp).filterMap
      fun address => (snapshot.resolveOwnedRouteForUserIp userId address).toOption).filter
    fun route => eqIgnoreAsciiCase route.containerName name

def RoutingSnapshot.resolveOwnedRouteForUserTarget (snapshot : RoutingSnapshot) (userId : String)
    (target : List Char) : Except RejectReason OwnedResolvedRoute :=
  if (parseIpv4 target).isSome then snapshot.resolveOwnedRouteForUserIp userId target
  else do
    let name ← okOr (snapshot.containerNameForHost target) .invalidTarget
    single (snapshot.resolvedByName userId name)

/-- Why `channel_open_direct_tcpip` refuses a target. -/
inductive TargetRefusal where
  | permit
  | unauthorized (reason : RejectReason)
  deriving DecidableEq

/-- The target checks of `channel_open_direct_tcpip`: only port 22 is permitted. -/
def RoutingSnapshot.resolveTarget (snapshot : RoutingSnapshot) (userId : String)
    (host : List Char) (port : Nat) : Except TargetRefusal OwnedResolvedRoute := do
  ensure (port == 22) .permit
  (snapshot.resolveOwnedRouteForUserTarget userId host).mapError .unauthorized

/-! ## Logins -/

structure ParsedLogin where
  username : List Char
  serverSlug : Option (List Char)
  containerName : List Char

/-- `ParsedLogin::parse`, for a login that `acceptable_login` lets pass: printable ASCII, so that
trimming removes spaces and lower-casing is that of ASCII. -/
def ParsedLogin.parse (value : List Char) : Option ParsedLogin :=
  match ((lower (trimBy (· == ' ') value)).splitOn '.').filter fun part => !part.isEmpty with
  | [username, containerName] => some ⟨username, none, containerName⟩
  | [username, serverSlug, containerName] => some ⟨username, some serverSlug, containerName⟩
  | _ => none

/-- One turn of the loop of `resolve_login`, as the route `resolve_owned_route` makes of it. -/
def RoutingSnapshot.loginCandidate (snapshot : RoutingSnapshot) (user : RoutingUser)
    (login : ParsedLogin) (container : ProxyContainer) : Option OwnedResolvedRoute := do
  guard (container.ownerId == user.id)
  guard (eqIgnoreAsciiCase container.name login.containerName)
  let (server, route) ← snapshot.activeRoute container
  guard (login.serverSlug.all fun slug => eqIgnoreAsciiCase server.slug slug)
  some
    { userId := user.id
      username := user.username
      serverId := server.id
      serverSlug := server.slug
      containerId := container.id
      containerName := container.name
      instanceName := route.instanceName
      routedIp := route.routedIp.getD [] }

/-- `resolve_owned_route`: `resolve_login` and the route it names. -/
def RoutingSnapshot.resolveLogin (snapshot : RoutingSnapshot) (login : List Char) :
    Except RejectReason OwnedResolvedRoute := do
  let parsed ← okOr (ParsedLogin.parse login) .invalidLogin
  let user ← okOr (snapshot.users.find? fun user => eqIgnoreAsciiCase user.username parsed.username) .userNotFound
  ensure (user.status == "active") .userDisabled
  ensure (parsed.serverSlug.all fun slug =>
      snapshot.servers.any fun server => snapshot.server server.id == some server &&
        eqIgnoreAsciiCase server.slug slug) .serverNotFound
  single (snapshot.containers.filterMap (snapshot.loginCandidate user parsed))

end Nyabase.SshProxy
