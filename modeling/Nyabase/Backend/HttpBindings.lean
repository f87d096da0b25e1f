import Mathlib.Data.String.Basic
import Nyabase.Backend.HttpDomain
import Nyabase.Backend.ReconcileClaims
import Nyabase.Lib.History

/-!
# Bindings of hostnames

`http-proxy-bindings.service.ts` and `http-domain-pools.service.ts` of `packages/backend/src/http-proxy`, over
their tables with the constraints, indexes and triggers of the migrations.

The transactions are serializable, so each is one step, and one that fails leaves the tables as they are.  A
statement that violates a constraint fails where it stands.  Times are microseconds of the database's clock.
`clock_timestamp()` is read by every statement anew: a transaction carries its readings.  Readings of different
transactions need not be in the order the transactions take effect in; only one that sees a row gone began
after the row was deleted.
-/

namespace Nyabase.Backend

open Common Lib

/-! ## Tables -/

/-- The four certificate columns, which are all null or all set. -/
structure Certificate where
  certificatePem : String
  encryptedPrivateKeyPem : String
  certificateFingerprint : String
  certificateNotAfter : Nat
  deriving DecidableEq

structure DomainPoolRow where
  id : Uuid
  wildcardDomain : WildcardDomain
  enabled : Bool
  httpsEnabled : Bool
  certificate : Option Certificate
  deriving DecidableEq

structure BindingRow where
  id : Uuid
  hostname : Hostname
  domainPoolId : Uuid
  ownerId : Uuid
  containerId : Uuid
  targetPort : Nat
  deriving DecidableEq

/-- The state of a reservation with the columns it comes with. -/
inductive ReservationState where
  | active (bindingId : Uuid)
  | releasing (reusableAt : Nat)
  deriving DecidableEq

structure ReservationRow where
  hostname : Hostname
  ownerId : Uuid
  state : ReservationState
  releaseGeneration : Nat
  deriving DecidableEq

inductive Role where
  | user | userAdmin | admin
  deriving DecidableEq

def Role.rank : Role → Nat
  | .user => 0
  | .userAdmin => 1
  | .admin => 2

def roleAtLeast (role minimum : Role) : Bool := decide (minimum.rank ≤ role.rank)

structure UserRow where
  id : Uuid
  active : Bool
  role : Role
  deriving DecidableEq

structure ContainerOwner where
  id : Uuid
  ownerId : Uuid
  deriving DecidableEq

/-- What befell a hostname, with the reading of the clock. -/
inductive HostnameEvent where
  | bound (hostname : Hostname) (time : Nat)
  /-- its binding was renamed away, deleted or cascaded -/
  | released (hostname : Hostname) (time : Nat)
  /-- its reservation was deleted -/
  | collected (hostname : Hostname) (time : Nat)
  deriving DecidableEq

/-- The tables, and the history of the hostnames with the newest event first. -/
structure HttpDb where
  users : List UserRow
  containers : List ContainerOwner
  pools : List DomainPoolRow
  bindings : List BindingRow
  reservations : List ReservationRow
  history : List HostnameEvent
  deriving DecidableEq

inductive HttpError where
  /-- the request does not parse -/
  | invalidRequest
  | badRequest (code : Option String) (message : String)
  | conflict (code : Option String) (message : String)
  | notFound (message : String)
  | forbidden (code : Option String) (message : String)
  | uniqueViolation (constraint : String)
  | foreignKeyViolation (constraint : String)
  | checkViolation (constraint : String)
  deriving DecidableEq

def maxHttpProxyRoutes : Nat := 16 * 64
def maxHttpHostnameReservations : Nat := maxHttpProxyRoutes * 2
def maxHttpProxyBindingsPerUser : Nat := 32
def maxHttpHostnameReservationsPerUser : Nat := maxHttpProxyBindingsPerUser * 2
def hostnameReservationGcBatch : Nat := 256
def maxHttpProxyDomainPools : Nat := 16

/-- `CONTAINER_DELETE_PROXY_DRAIN_MS`, and the 360 seconds of the trigger. -/
def hostnameDrain : Nat := (300000 + 30000 + 30000) * 1000

def occupied : HttpError := .conflict none "Hostname is already occupied or draining"

/-- `catch (error) { if (isUniqueConstraintViolation(error)) throw … }`. -/
def onUniqueViolation {α : Type} (answer : HttpError) : Except HttpError α → Except HttpError α
  | .error (.uniqueViolation _) => .error answer
  | result => result

namespace ReservationRow

/-- The column of `http_hostname_active_binding_idx`. -/
def activeBinding (row : ReservationRow) : Option Uuid :=
  match row.state with
  | .active bindingId => some bindingId
  | .releasing _ => none

/-- `state = 'releasing' AND reusable_at <= clock_timestamp()`. -/
def expired (now : Nat) (row : ReservationRow) : Bool :=
  match row.state with
  | .active _ => false
  | .releasing reusableAt => decide (reusableAt ≤ now)

def reusableAt (row : ReservationRow) : Nat :=
  match row.state with
  | .active _ => 0
  | .releasing reusableAt => reusableAt

/-- `ORDER BY reusable_at, hostname`. -/
def sortsBefore (a b : ReservationRow) : Bool :=
  decide (a.reusableAt < b.reusableAt) ||
    (decide (a.reusableAt = b.reusableAt) && decide (a.hostname.text ≤ b.hostname.text))

/-- The condition of the updates that release a binding's hostname. -/
def heldBy (binding : BindingRow) (row : ReservationRow) : Bool :=
  decide (row.hostname = binding.hostname ∧ row.ownerId = binding.ownerId ∧ row.state = .active binding.id)

/-- What they set. -/
def drained (time : Nat) (row : ReservationRow) : ReservationRow :=
  { row with
    state := .releasing (time + hostnameDrain)
    releaseGeneration := row.releaseGeneration + 1 }

end ReservationRow

namespace HttpDb

variable (db : HttpDb)

def initial : HttpDb := ⟨[], [], [], [], [], []⟩

/-! ## Statements -/

def insertReservation (row : ReservationRow) : Except HttpError HttpDb := do
  ensure (db.reservations.all fun other => decide (other.hostname ≠ row.hostname))
    (.uniqueViolation "http_hostname_reservations_pkey")
  ensure (row.activeBinding.isNone || db.reservations.all fun other => decide (other.activeBinding ≠ row.activeBinding))
    (.uniqueViolation "http_hostname_active_binding_idx")
  ensure (db.users.any fun user => user.id == row.ownerId)
    (.foreignKeyViolation "http_hostname_reservations_owner_id_fkey")
  return { db with reservations := db.reservations ++ [row] }

/-- The constraints on a row of `http_proxy_bindings` beside the other rows. -/
def checkBinding (others : List BindingRow) (row : BindingRow) : Except HttpError Unit := do
  ensure (others.all fun other => decide (other.id ≠ row.id)) (.uniqueViolation "http_proxy_bindings_pkey")
  ensure (others.all fun other => decide (other.hostname ≠ row.hostname))
    (.uniqueViolation "http_proxy_bindings_hostname_key")
  ensure (db.pools.any fun pool => pool.id == row.domainPoolId)
    (.foreignKeyViolation "http_proxy_bindings_domain_pool_id_fkey")
  ensure (db.users.any fun user => user.id == row.ownerId) (.foreignKeyViolation "http_proxy_bindings_owner_id_fkey")
  ensure (db.containers.any fun container => container.id == row.containerId)
    (.foreignKeyViolation "http_proxy_bindings_container_id_fkey")
  ensure (decide (1 ≤ row.targetPort ∧ row.targetPort ≤ 65535))
    (.checkViolation "http_proxy_bindings_target_port_check")

def insertBinding (row : BindingRow) (time : Nat) : Except HttpError HttpDb := do
  db.checkBinding db.bindings row
  return { db with
    bindings := db.bindings ++ [row]
    history := .bound row.hostname time :: db.history }

/-- `UPDATE … WHERE id = …`: `old` becomes `row`. -/
def updateBindingRow (old row : BindingRow) (time : Nat) : Except HttpError HttpDb := do
  db.checkBinding (db.bindings.filter fun other => decide (other.id ≠ old.id)) row
  return { db with
    bindings := updateWhere db.bindings (fun other => decide (other.id = old.id)) fun _ => row
    history := if row.hostname = old.hostname then db.history else .bound row.hostname time :: db.history }

/-- The update of `releaseHostname` and of the trigger `drain_http_binding_hostname`. -/
def drain (binding : BindingRow) (time : Nat) : HttpDb :=
  { db with
    reservations := updateWhere db.reservations (·.heldBy binding) (·.drained time)
    history :=
      if db.reservations.any (·.heldBy binding) then .released binding.hostname time :: db.history
      else db.history }

/-- A row of `http_proxy_bindings` is deleted, after the trigger. -/
def deleteBindingRow (binding : BindingRow) (time : Nat) : HttpDb :=
  let drained := db.drain binding time
  { drained with bindings := deleteWhere drained.bindings fun row => decide (row.id = binding.id) }

/-! ## Hostnames -/

end HttpDb

/-- The readings of a transaction that reserves a hostname, and the rows it finds locked or not yet expired. -/
structure ReserveClock where
  selectAt : Nat
  untilDelete : Nat
  untilWrite : Nat
  skipped : List Hostname

def ReserveClock.deleteAt (clock : ReserveClock) : Nat := clock.selectAt + clock.untilDelete

def ReserveClock.writeAt (clock : ReserveClock) : Nat := clock.deleteAt + clock.untilWrite

namespace HttpDb

variable (db : HttpDb)

/-- The hostnames whose reservations `reserveHostname` selects for deletion. -/
def expiredHostnames (clock : ReserveClock) : List Hostname :=
  (((db.reservations.filter fun row =>
      row.expired clock.selectAt && decide (row.hostname ∉ clock.skipped)).insertionSort
    fun a b => a.sortsBefore b = true).take hostnameReservationGcBatch).map ReservationRow.hostname

def collectable (clock : ReserveClock) (row : ReservationRow) : Bool :=
  decide (row.hostname ∈ db.expiredHostnames clock) && row.expired clock.deleteAt

def collectExpired (clock : ReserveClock) : HttpDb :=
  { db with
    reservations := deleteWhere db.reservations (db.collectable clock)
    history := ((db.reservations.filter (db.collectable clock)).map fun row =>
      HostnameEvent.collected row.hostname clock.deleteAt) ++ db.history }

def ownedReservations (ownerId : Uuid) : Nat := db.reservations.countP fun row => row.ownerId == ownerId

/-- The checks of `reserveHostname` once it has collected. -/
def checkFree (hostname : Hostname) (ownerId : Uuid) : Except HttpError Unit := do
  ensure (db.bindings.all (fun row => decide (row.hostname ≠ hostname)) &&
    db.reservations.all fun row => decide (row.hostname ≠ hostname)) occupied
  ensure (decide (db.reservations.length < maxHttpHostnameReservations))
    (.conflict (some "HTTP_HOSTNAME_RESERVATION_CAPACITY_REACHED")
      "At most 2048 active or draining hostnames are supported")
  ensure (decide (db.ownedReservations ownerId < maxHttpHostnameReservationsPerUser))
    (.conflict (some "HTTP_HOSTNAME_RESERVATION_USER_LIMIT_REACHED")
      ("At most 64 active or draining hostnames per user; " ++ "released hostnames become free again after they drain"))

def reserveHostname (hostname : Hostname) (ownerId bindingId : Uuid) (clock : ReserveClock) :
    Except HttpError HttpDb := do
  let swept := db.collectExpired clock
  swept.checkFree hostname ownerId
  onUniqueViolation occupied (swept.insertReservation ⟨hostname, ownerId, .active bindingId, 0⟩)

def releaseHostname (binding : BindingRow) (time : Nat) : Except HttpError HttpDb := do
  ensure (db.reservations.countP (·.heldBy binding) == 1)
    (.conflict none "Hostname reservation identity is missing or inconsistent")
  return db.drain binding time

/-! ## Bindings -/

/-- `enabledPoolForHostname`. -/
def enabledPoolForHostname (hostname : Hostname) : Except HttpError DomainPoolRow := do
  let pools := db.pools.insertionSort fun a b => a.wildcardDomain.text ≤ b.wildcardDomain.text
  ensure (pools.all fun row => hostnameCoversWildcardDomain hostname.text row.wildcardDomain.text == some false)
    (.badRequest (some "HTTP_PROXY_HOSTNAME_COVERS_DOMAIN_POOL")
      "Hostname is the domain of a wildcard domain pool or a parent of one")
  match pools.find? fun row =>
      row.enabled && hostnameMatchesHttpProxyWildcard hostname.text row.wildcardDomain.text with
  | some pool => return pool
  | none => .error (.badRequest none "Hostname is not under an enabled wildcard domain pool")

def assertRequesterActive (requesterId : Uuid) : Except HttpError Unit :=
  ensure (db.users.any fun user => user.id == requesterId && user.active)
    (.forbidden none "Current user is no longer active")

/-- The container of the request, when it is the requester's own. -/
def ownContainer (containerId requesterId : Uuid) : Except HttpError Unit :=
  ensure (db.containers.any fun container => container.id == containerId && container.ownerId == requesterId)
    (.notFound "Container not found")

def ownedBindings (ownerId : Uuid) : Nat := db.bindings.countP fun row => row.ownerId == ownerId

end HttpDb

structure CreateBindingRequest where
  hostname : List Char
  containerId : Uuid
  targetPort : Nat

structure PatchBindingRequest where
  hostname : Option (List Char)
  containerId : Option Uuid
  targetPort : Option Nat

/-- `z.string().trim().min(1).max(253)`. -/
def parseHostnameText (value : List Char) : Except HttpError (List Char) := do
  let trimmed := trimBy isJsWhitespace value
  ensure (decide (1 ≤ trimmed.length ∧ trimmed.length ≤ 253)) .invalidRequest
  return trimmed

def parsePort (port : Nat) : Except HttpError Unit :=
  ensure (decide (1 ≤ port ∧ port ≤ 65535)) .invalidRequest

def parseHttpProxyHostname (value : List Char) : Except HttpError Hostname :=
  match normalizeHttpProxyHostname value with
  | some hostname => .ok hostname
  | none => .error (.badRequest (some "INVALID_HTTP_PROXY_HOSTNAME")
      "hostname must be a valid ASCII DNS hostname without a wildcard")

inductive ListScope where
  | mine | all
  deriving DecidableEq

structure UserActor where
  userId : Uuid
  role : Role

namespace HttpDb

variable (db : HttpDb)

def createBinding (requesterId : Uuid) (input : CreateBindingRequest) (bindingId : Uuid) (clock : ReserveClock) :
    Except HttpError HttpDb := do
  let text ← parseHostnameText input.hostname
  parsePort input.targetPort
  let hostname ← parseHttpProxyHostname text
  ensure (decide (db.bindings.length < maxHttpProxyRoutes))
    (.conflict (some "HTTP_PROXY_BINDING_CAPACITY_REACHED") "At most 1024 HTTP proxy bindings are supported")
  ensure (decide (db.ownedBindings requesterId < maxHttpProxyBindingsPerUser))
    (.conflict (some "HTTP_PROXY_BINDING_USER_LIMIT_REACHED") "At most 32 HTTP proxy bindings per user")
  let pool ← db.enabledPoolForHostname hostname
  db.ownContainer input.containerId requesterId
  db.assertRequesterActive requesterId
  let reserved ← db.reserveHostname hostname requesterId bindingId clock
  onUniqueViolation occupied (reserved.insertBinding
    ⟨bindingId, hostname, pool.id, requesterId, input.containerId, input.targetPort⟩ clock.writeAt)

/-- The hostname a patch asks for. -/
def nextHostname (binding : BindingRow) : Option (List Char) → Except HttpError Hostname
  | none => .ok binding.hostname
  | some text => if text = binding.hostname.text then .ok binding.hostname else parseHttpProxyHostname text

/-- The hostname of a binding is claimed anew, and the old one released. -/
def renameBinding (binding : BindingRow) (hostname : Hostname) (clock : ReserveClock) (releasedAt : Nat) :
    Except HttpError (HttpDb × Uuid) := do
  let pool ← db.enabledPoolForHostname hostname
  let reserved ← db.reserveHostname hostname binding.ownerId binding.id clock
  let released ← reserved.releaseHostname binding releasedAt
  return (released, pool.id)

/-- The hostname a binding is to have is its own or is claimed, with the pool it lies in. -/
def claimHostname (binding : BindingRow) (hostname : Hostname) (clock : ReserveClock) (releasedAt : Nat) :
    Except HttpError (HttpDb × Uuid) :=
  if hostname = binding.hostname then .ok (db, binding.domainPoolId)
  else db.renameBinding binding hostname clock releasedAt

def updateBinding (requesterId id : Uuid) (input : PatchBindingRequest) (clock : ReserveClock)
    (releasedAt : Nat) : Except HttpError HttpDb := do
  let text ← input.hostname.mapM parseHostnameText
  input.targetPort.forM parsePort
  ensure (input.hostname.isSome || input.containerId.isSome || input.targetPort.isSome) .invalidRequest
  match db.bindings.find? fun row => decide (row.id = id) with
  | none => .error (.notFound "Binding not found")
  | some binding => do
      ensure (decide (binding.ownerId = requesterId)) (.notFound "Binding not found")
      db.assertRequesterActive requesterId
      let hostname ← nextHostname binding text
      let (claimed, poolId) ← db.claimHostname binding hostname clock releasedAt
      input.containerId.forM fun containerId => claimed.ownContainer containerId requesterId
      onUniqueViolation occupied (claimed.updateBindingRow binding
        { binding with
          hostname
          domainPoolId := poolId
          containerId := input.containerId.getD binding.containerId
          targetPort := input.targetPort.getD binding.targetPort } clock.writeAt)

def deleteBinding (actor : UserActor) (id : Uuid) (scope : ListScope) (releasedAt drainedAt : Nat) :
    Except HttpError HttpDb := do
  ensure (decide (scope = .mine) || roleAtLeast actor.role .userAdmin)
    (.forbidden none "scope=all requires the user_admin role")
  match db.bindings.find? fun row => decide (row.id = id) with
  | none => .error (.notFound "Binding not found")
  | some binding => do
      ensure (!(decide (scope = .mine) && decide (binding.ownerId ≠ actor.userId))) (.notFound "Binding not found")
      db.assertRequesterActive actor.userId
      let released ← db.releaseHostname binding releasedAt
      return released.deleteBindingRow binding drainedAt

/-- `DELETE FROM control.containers`, which cascades to the bindings; each row has its own reading. -/
def deleteContainer (id : Uuid) (drainedAt : Uuid → Nat) : HttpDb :=
  let cascaded := (db.bindings.filter fun row => decide (row.containerId = id)).foldl
    (fun db row => db.deleteBindingRow row (drainedAt row.id)) db
  { cascaded with containers := deleteWhere cascaded.containers fun container => decide (container.id = id) }

end HttpDb

/-! ## Domain pools -/

structure CreateDomainPoolRequest where
  wildcardDomain : List Char
  enabled : Option Bool
  httpsEnabled : Option Bool
  certificatePem : Option String
  privateKeyPem : Option String

/-- A certificate or key in a patch may be given as null. -/
structure PatchDomainPoolRequest where
  wildcardDomain : Option (List Char)
  enabled : Option Bool
  httpsEnabled : Option Bool
  certificatePem : Option (Option String)
  privateKeyPem : Option (Option String)

/-- What the checks of certificates answer in a transaction. -/
structure CertificateChecks where
  /-- `validateCertificate`, the checks of the key, and the columns to store. -/
  fields : String → String → WildcardDomain → Except HttpError Certificate
  validateCertificate : String → WildcardDomain → Except HttpError Unit

/-- `certificateFields`; empty texts are as good as none. -/
def certificateFields (checks : CertificateChecks) (certificatePem privateKeyPem : Option String)
    (wildcardDomain : WildcardDomain) : Except HttpError (Option Certificate) :=
  match certificatePem.filter (· ≠ ""), privateKeyPem.filter (· ≠ "") with
  | none, none => .ok none
  | some certificate, some key => (checks.fields certificate key wildcardDomain).map some
  | _, _ => .error (.badRequest none "Both certificatePem and privateKeyPem are required when configuring HTTPS")

/-- `z.string().trim().min(1).max(255)`, then `parseHttpProxyWildcardDomain`. -/
def parseWildcardDomain (value : List Char) : Except HttpError WildcardDomain := do
  let trimmed := trimBy isJsWhitespace value
  ensure (decide (1 ≤ trimmed.length ∧ trimmed.length ≤ 255)) .invalidRequest
  match normalizeHttpProxyWildcardDomain trimmed with
  | some domain => return domain
  | none => .error (.badRequest (some "INVALID_HTTP_PROXY_WILDCARD_DOMAIN")
      "wildcardDomain must be a valid ASCII DNS wildcard domain")

def duplicateDomainPoolConflict : HttpError :=
  .conflict (some "HTTP_PROXY_DOMAIN_POOL_EXISTS") "A domain pool already owns this wildcard domain"

def overlappingDomainPoolConflict (other : WildcardDomain) : HttpError :=
  .conflict (some "HTTP_PROXY_DOMAIN_POOL_OVERLAP")
    ("A domain pool may not contain or lie under another pool (" ++ String.ofList other.text ++ "): " ++
      "a hostname in the outer pool would be a parent domain of the inner pool's sites")

def httpsNeedsCertificate : HttpError :=
  .badRequest none "HTTPS requires a valid certificate and private key"

namespace HttpDb

variable (db : HttpDb)

def assertActorRole (actorId : Uuid) (minimum : Role) : Except HttpError Unit :=
  ensure (db.users.any fun user => user.id == actorId && user.active && roleAtLeast user.role minimum)
    (.forbidden (some "ROLE_REQUIRED") "The actor does not hold the required role: admin")

/-- The loop of `assertDisjointFromOtherPools`. -/
def assertDisjoint (wildcardDomain : WildcardDomain) : List DomainPoolRow → Except HttpError Unit
  | [] => .ok ()
  | pool :: pools => do
      ensure (decide (pool.wildcardDomain ≠ wildcardDomain)) duplicateDomainPoolConflict
      ensure (wildcardDomainsOverlap pool.wildcardDomain.text wildcardDomain.text == some false)
        (overlappingDomainPoolConflict pool.wildcardDomain)
      assertDisjoint wildcardDomain pools

/-- The constraints on a row of `http_domain_pools` beside the other rows. -/
def checkPool (others : List DomainPoolRow) (row : DomainPoolRow) : Except HttpError Unit := do
  ensure (others.all fun other => decide (other.id ≠ row.id)) (.uniqueViolation "http_domain_pools_pkey")
  ensure (others.all fun other => decide (other.wildcardDomain ≠ row.wildcardDomain))
    (.uniqueViolation "http_domain_pools_wildcard_domain_key")
  ensure (row.certificate.isSome || !row.httpsEnabled) (.checkViolation "http_domain_pools_tls_shape_check")

def createDomainPool (actorId : Uuid) (input : CreateDomainPoolRequest) (id : Uuid) (checks : CertificateChecks) :
    Except HttpError HttpDb := do
  let wildcardDomain ← parseWildcardDomain input.wildcardDomain
  let certificate ← certificateFields checks input.certificatePem input.privateKeyPem wildcardDomain
  ensure (!input.httpsEnabled.getD false || certificate.isSome) httpsNeedsCertificate
  db.assertActorRole actorId .admin
  assertDisjoint wildcardDomain db.pools
  ensure (decide (db.pools.length < maxHttpProxyDomainPools))
    (.conflict (some "HTTP_PROXY_DOMAIN_POOL_CAPACITY_REACHED") "At most 16 HTTP domain pools are supported")
  let row : DomainPoolRow := ⟨id, wildcardDomain, input.enabled.getD true, input.httpsEnabled.getD false, certificate⟩
  onUniqueViolation duplicateDomainPoolConflict (checkPool db.pools row)
  return { db with pools := db.pools ++ [row] }

/-- The wildcard domain a patch leaves. -/
def nextWildcardDomain (current : DomainPoolRow) (value : Option (List Char)) : Except HttpError WildcardDomain := do
  match value with
  | none => return current.wildcardDomain
  | some value =>
    let next ← parseWildcardDomain value
    if next = current.wildcardDomain then return current.wildcardDomain
    else
      assertDisjoint next (db.pools.filter fun pool => decide (pool.id ≠ current.id))
      ensure (db.bindings.all fun row => decide (row.domainPoolId ≠ current.id))
        (.conflict none "Domain pool wildcard cannot change while bindings exist")
      return next

/-- The certificate a patch leaves. -/
def nextCertificate (current : DomainPoolRow) (input : PatchDomainPoolRequest) (wildcardDomain : WildcardDomain)
    (checks : CertificateChecks) : Except HttpError (Option Certificate) := do
  match input.certificatePem, input.privateKeyPem with
  | some certificatePem, some privateKeyPem =>
    certificateFields checks certificatePem privateKeyPem wildcardDomain
  | none, none =>
    current.certificate.forM fun certificate =>
      checks.validateCertificate certificate.certificatePem wildcardDomain
    return current.certificate
  | _, _ => .error (.badRequest none "certificatePem and privateKeyPem must be updated together")

def updateDomainPool (actorId id : Uuid) (input : PatchDomainPoolRequest) (checks : CertificateChecks) :
    Except HttpError HttpDb := do
  ensure (input.wildcardDomain.isSome || input.enabled.isSome || input.httpsEnabled.isSome ||
    input.certificatePem.isSome || input.privateKeyPem.isSome) .invalidRequest
  db.assertActorRole actorId .admin
  match db.pools.find? fun pool => decide (pool.id = id) with
  | none => .error (.notFound "Domain pool not found")
  | some current =>
    let wildcardDomain ← db.nextWildcardDomain current input.wildcardDomain
    let certificate ← nextCertificate current input wildcardDomain checks
    let httpsEnabled := input.httpsEnabled.getD current.httpsEnabled
    ensure (!httpsEnabled || certificate.isSome) httpsNeedsCertificate
    let row : DomainPoolRow :=
      ⟨current.id, wildcardDomain, input.enabled.getD current.enabled, httpsEnabled, certificate⟩
    onUniqueViolation duplicateDomainPoolConflict (checkPool (db.pools.filter fun pool => decide (pool.id ≠ id)) row)
    return { db with pools := updateWhere db.pools (fun pool => decide (pool.id = id)) fun _ => row }

def deleteDomainPool (actorId id : Uuid) : Except HttpError HttpDb := do
  db.assertActorRole actorId .admin
  ensure (db.pools.any fun pool => decide (pool.id = id)) (.notFound "Domain pool not found")
  ensure (db.bindings.all fun row => decide (row.domainPoolId ≠ id)) (.conflict none "Domain pool still has bindings")
  return { db with pools := deleteWhere db.pools fun pool => decide (pool.id = id) }

/-! ## Users and containers -/

/-- A user is created, or has a new status or role. -/
def putUser (user : UserRow) : HttpDb :=
  { db with users := user :: deleteWhere db.users fun other => decide (other.id = user.id) }

/-- The owners of containers, bindings and reservations cannot be deleted. -/
def deleteUser (id : Uuid) : Except HttpError HttpDb := do
  ensure (db.containers.all (fun row => decide (row.ownerId ≠ id)) &&
      db.bindings.all (fun row => decide (row.ownerId ≠ id)) &&
      db.reservations.all fun row => decide (row.ownerId ≠ id))
    (.foreignKeyViolation "owner_id_fkey")
  return { db with users := deleteWhere db.users fun user => decide (user.id = id) }

def createContainer (container : ContainerOwner) : Except HttpError HttpDb := do
  ensure (db.containers.all fun other => decide (other.id ≠ container.id)) (.uniqueViolation "containers_pkey")
  ensure (db.users.any fun user => user.id == container.ownerId) (.foreignKeyViolation "containers_owner_id_fkey")
  return { db with containers := db.containers ++ [container] }

end HttpDb

/-! ## Runs -/

inductive HttpLabel where
  | createBinding (requesterId : Uuid) (input : CreateBindingRequest) (bindingId : Uuid) (clock : ReserveClock)
  | updateBinding (requesterId id : Uuid) (input : PatchBindingRequest) (clock : ReserveClock) (releasedAt : Nat)
  | deleteBinding (actor : UserActor) (id : Uuid) (scope : ListScope) (releasedAt drainedAt : Nat)
  | deleteContainer (id : Uuid) (drainedAt : Uuid → Nat)
  | createDomainPool (actorId : Uuid) (input : CreateDomainPoolRequest) (id : Uuid) (checks : CertificateChecks)
  | updateDomainPool (actorId id : Uuid) (input : PatchDomainPoolRequest) (checks : CertificateChecks)
  | deleteDomainPool (actorId id : Uuid)
  | putUser (user : UserRow)
  | deleteUser (id : Uuid)
  | createContainer (container : ContainerOwner)

namespace HttpDb

variable (db : HttpDb)

/-- What a transaction leaves. -/
def commit : Except HttpError HttpDb → HttpDb
  | .ok next => next
  | .error _ => db

def transact : HttpLabel → Except HttpError HttpDb
  | .createBinding requesterId input bindingId clock => db.createBinding requesterId input bindingId clock
  | .updateBinding requesterId id input clock releasedAt => db.updateBinding requesterId id input clock releasedAt
  | .deleteBinding actor id scope releasedAt drainedAt => db.deleteBinding actor id scope releasedAt drainedAt
  | .deleteContainer id drainedAt => .ok (db.deleteContainer id drainedAt)
  | .createDomainPool actorId input id checks => db.createDomainPool actorId input id checks
  | .updateDomainPool actorId id input checks => db.updateDomainPool actorId id input checks
  | .deleteDomainPool actorId id => db.deleteDomainPool actorId id
  | .putUser user => .ok (db.putUser user)
  | .deleteUser id => db.deleteUser id
  | .createContainer container => db.createContainer container

/-- Every reservation of the hostname that is gone was deleted before the reading. -/
def collectedBefore (value : List Char) (now : Nat) : Bool :=
  db.history.all fun
    | .collected hostname time =>
      !decide (normalizeHttpProxyHostname (trimBy isJsWhitespace value) = some hostname) || decide (time ≤ now)
    | _ => true

/-- A transaction that reserves a hostname sees what was deleted before it began. -/
def begins : HttpLabel → Bool
  | .createBinding _ input _ clock => db.collectedBefore input.hostname clock.selectAt
  | .updateBinding _ _ input clock _ => input.hostname.all fun value => db.collectedBefore value clock.selectAt
  | _ => true

def step (label : HttpLabel) : Option HttpDb :=
  if db.begins label then some (db.commit (db.transact label)) else none

end HttpDb

/-- Certificates that no check accepts. -/
def CertificateChecks.refusing : CertificateChecks where
  fields := fun _ _ _ => .error (.badRequest none "Invalid certificate PEM")
  validateCertificate := fun _ _ => .error (.badRequest none "Invalid certificate PEM")

/-- An administrator makes two pools, and a third that is refused; a user binds a hostname of the first. -/
def firstBinding : List HttpLabel := [.putUser ⟨1, true, .admin⟩, .putUser ⟨2, true, .user⟩, .createContainer ⟨7, 2⟩,
  .createDomainPool 1 ⟨"Example.com.".toList, none, none, none, none⟩ 10 .refusing,
  .createDomainPool 1 ⟨"*.example.org".toList, none, none, none, none⟩ 11 .refusing,
  .createDomainPool 1 ⟨"*.a.example.com".toList, none, none, none, none⟩ 12 .refusing,
  .createBinding 2 ⟨"A.example.com".toList, 7, 80⟩ 20 ⟨1000000, 1, 1, []⟩]

end Nyabase.Backend
