import Nyabase.Backend.ReconcileClaims

/-!
# The grace ledger: `packages/backend/src/access/access-lapse.repository.ts` and `access-lapse.processor.ts`

A user who owns something on a server, a storage pool or a shared backend without a current grant is in a
grace that begins with a row of `control.access_lapses`.  Replicas sweep the pairs: each leases a pair, reads
it afresh, and does the one thing it is due for, in several transactions.

A transaction is one step.  Those that read coverage take the IAM lock, which IAM writes take too, so
nothing changes coverage between that read and the commit; but the views compare with `now()`, the time at
which the transaction began, and it may have waited for the lock since.  What users own, and which grants
they hold, may change in any way between steps; so may whether a pair is exposed.  A pass may take up any
pair: what its scan returns is read again under the lease.

Times of the database are microseconds; a `Date` of the processor is in whole milliseconds.
-/

namespace Nyabase.Backend

open Lib

/-! ## Coverage -/

structure ServerGrant where
  id : Uuid
  userId : Uuid
  serverId : Uuid
  expiresAt : Option Nat

/-- A data-disk grant; it is current while its server grant is. -/
structure StoragePoolGrant where
  userId : Uuid
  poolId : Uuid
  serverGrantId : Uuid

structure SharedBackendGrant where
  userId : Uuid
  sharedBackendId : Uuid
  expiresAt : Option Nat

/-- The tables of `iam` that the views of effective access read. -/
structure AccessPolicy where
  activeUsers : List Uuid
  serverGrants : List ServerGrant
  storagePoolGrants : List StoragePoolGrant
  sharedBackendGrants : List SharedBackendGrant

/-- `expires_at IS NULL OR expires_at > now()`. -/
def current (expiresAt : Option Nat) (now : Nat) : Bool :=
  match expiresAt with
  | none => true
  | some time => decide (now < time)

/-- `AccessLapseResourceKind`. -/
inductive LapseKind where
  | server | storagePool | sharedBackend
  deriving DecidableEq

structure LapseKey where
  userId : Uuid
  kind : LapseKind
  resourceId : Uuid
  deriving DecidableEq

namespace AccessPolicy

variable (policy : AccessPolicy)

/-- A row of `iam.effective_server_access`. -/
def serverAccess (userId serverId : Uuid) (now : Nat) : Bool :=
  policy.serverGrants.any fun grant =>
    grant.userId == userId && grant.serverId == serverId && current grant.expiresAt now

/-- A row of `iam.effective_pool_access`. -/
def poolAccess (userId poolId : Uuid) (now : Nat) : Bool :=
  policy.storagePoolGrants.any fun pool =>
    pool.userId == userId && pool.poolId == poolId && policy.serverGrants.any fun grant =>
        grant.id == pool.serverGrantId && current grant.expiresAt now

/-- A row of `iam.effective_shared_backend_access`. -/
def sharedBackendAccess (userId sharedBackendId : Uuid) (now : Nat) : Bool :=
  policy.sharedBackendGrants.any fun grant =>
    grant.userId == userId && grant.sharedBackendId == sharedBackendId && current grant.expiresAt now

/-- `isCovered`, in a transaction that began at `now`. -/
def isCovered (key : LapseKey) (now : Nat) : Bool :=
  decide (key.userId ∈ policy.activeUsers) && match key.kind with
    | .server => policy.serverAccess key.userId key.resourceId now
    | .storagePool => policy.poolAccess key.userId key.resourceId now
    | .sharedBackend => policy.sharedBackendAccess key.userId key.resourceId now

/-- What `deleteUserPermanently` leaves of the policy; a deleted user is not active. -/
def withoutUser (userId : Uuid) : AccessPolicy where
  activeUsers := policy.activeUsers.filter (· != userId)
  serverGrants := deleteWhere policy.serverGrants fun grant => grant.userId == userId
  storagePoolGrants := deleteWhere policy.storagePoolGrants fun pool => pool.userId == userId
  sharedBackendGrants := deleteWhere policy.sharedBackendGrants fun grant => grant.userId == userId

/-- What the deletion of a server and its pools leaves of the policy. -/
def withoutServer (serverId : Uuid) (poolIds : List Uuid) : AccessPolicy where
  activeUsers := policy.activeUsers
  serverGrants := deleteWhere policy.serverGrants fun grant => grant.serverId == serverId
  storagePoolGrants := deleteWhere policy.storagePoolGrants fun pool => decide (pool.poolId ∈ poolIds)
  sharedBackendGrants := policy.sharedBackendGrants

end AccessPolicy

/-! ## The ledger and what a pair is due for -/

/-- A row of `control.access_lapses`.  `serial` tells the row from a later one of the same pair; the program
has no such column. -/
structure LapseRow where
  key : LapseKey
  lapsedAt : Nat
  stoppedAt : Option Nat
  purgedAt : Option Nat
  serial : Nat

/-- A timestamp as the `Date` it is read as. -/
def toDate (time : Nat) : Nat := time / 1000

/-- `GRANT_EXPIRY_GRACE_DAYS`. -/
def grantExpiryGraceDays : Nat := 14

/-- `ACCESS_LAPSE_GRACE_MS`. -/
def accessLapseGraceMs : Nat := grantExpiryGraceDays * 24 * 60 * 60 * 1000

/-- The ledger row of a candidate, as `Date`s. -/
structure Lapse where
  lapsedAt : Nat
  stoppedAt : Option Nat
  purgedAt : Option Nat
  deriving DecidableEq

def LapseRow.toLapse (row : LapseRow) : Lapse where
  lapsedAt := toDate row.lapsedAt
  stoppedAt := row.stoppedAt.map toDate
  purgedAt := row.purgedAt.map toDate

structure LapseCandidate extends LapseKey where
  covered : Bool
  exposed : Bool
  destroyBlocked : Bool
  lapse : Option Lapse
  now : Nat
  deriving DecidableEq

def purgeDeadline (lapsedAt : Nat) : Nat := lapsedAt + accessLapseGraceMs

inductive LapseWork where
  | clear | lapse | stop | purge | detach | none

def lapseWork (candidate : LapseCandidate) : LapseWork :=
  if candidate.covered then
    if candidate.lapse.isSome then .clear
    else if candidate.destroyBlocked then .detach else .none
  else
    match candidate.lapse with
    | none => .lapse
    | some lapse =>
      if purgeDeadline lapse.lapsedAt ≤ candidate.now then
        if lapse.purgedAt = none then .purge
        else if candidate.kind ≠ .server ∧ candidate.exposed then .detach else .none
      else if lapse.stoppedAt = none ∨ candidate.exposed then .stop else .none

/-! ## Replicas -/

/-- What a replica that has leased a pair does next. -/
inductive LapsePhase where
  /-- `inspect` -/
  | inspecting
  /-- `clear` -/
  | clearing
  /-- `openLapse` -/
  | opening (candidate : LapseCandidate)
  /-- `enforce`, before `isCoveredNow` -/
  | enforcing (candidate : LapseCandidate)
  /-- `enforce`, while containers are stopped or volumes detached -/
  | stopping (candidate : LapseCandidate)
  /-- `markStopped` -/
  | marking (candidate : LapseCandidate)
  /-- `purgeResources`, before `isCoveredNow` -/
  | purging (candidate : LapseCandidate)
  /-- `purgeResources`, while volumes are detached -/
  | unplugging (candidate : LapseCandidate)
  /-- `purgeIfUncovered` -/
  | deleting (candidate : LapseCandidate)
  /-- `detachAfterPurge` -/
  | detaching (candidate : LapseCandidate)
  /-- the lease is released -/
  | finished
  deriving DecidableEq

/-- A call of `handle` that has its lease.  `lost` is the flag of the lease guard; `since` is when the
phase was entered. -/
structure LapseHandle where
  key : LapseKey
  lost : Bool
  since : Nat
  phase : LapsePhase

/-- The lease of a pair. -/
def LapseKey.claimKey (key : LapseKey) : ClaimKey := ⟨.accessLapse, key.userId, key.resourceId⟩

/-- The phase that does what a candidate is due for. -/
def LapseCandidate.phase (candidate : LapseCandidate) : LapsePhase :=
  match lapseWork candidate with
  | .clear => .clearing
  | .lapse => .opening candidate
  | .stop => .enforcing candidate
  | .purge => .purging candidate
  | .detach => .detaching candidate
  | .none => .finished

/-- `lapseAndAct`, once the row is there. -/
def LapseCandidate.openedPhase (candidate : LapseCandidate) : LapsePhase :=
  match lapseWork candidate with
  | .stop => .enforcing candidate
  | .purge => .purging candidate
  | .detach => .detaching candidate
  | .clear | .lapse | .none => .finished

/-! ## Steps -/

/-- What happened to the ledger rows, for the statements below: a row was opened; a row was removed, with
whether its pair was covered and whether something was owned there at that commit; a purge committed, with
the row it was recorded in and whether its pair was covered at that commit. -/
inductive LapseEvent where
  | opened (serial : Nat) (key : LapseKey) (lapsedAt : Nat)
  | removed (serial : Nat) (key : LapseKey) (covered owned : Bool)
  | purged (serial : Nat) (key : LapseKey) (lapsedAt time : Nat) (covered : Bool)
  deriving DecidableEq

structure LapseWorld where
  /-- The database clock. -/
  clock : Nat
  policy : AccessPolicy
  /-- The pairs of `OWNED`. -/
  owned : List LapseKey
  lapses : List LapseRow
  claims : List ClaimRow
  /-- The call each replica has under way. -/
  handles : String → Option LapseHandle
  /-- Newest first. -/
  log : List LapseEvent

inductive LapseLabel where
  | tick (time : Nat)
  /-- An IAM write: grants, groups, users. -/
  | setPolicy (policy : AccessPolicy)
  /-- Containers and volumes come and go. -/
  | setOwned (owned : List LapseKey)
  | deleteUserPermanently (userId : Uuid)
  | deleteServer (serverId : Uuid) (poolIds : List Uuid)
  | deleteStale
  | claim (worker : String) (key : LapseKey) (appNow : Nat)
  | renew (worker : String)
  | renewFails (worker : String)
  | reapExpired
  | inspect (worker : String) (exposed destroyBlocked : Bool)
  | openLapse (worker : String) (began : Nat)
  | clear (worker : String) (began : Nat)
  /-- `isCoveredNow`, where the phase asks for it. -/
  | isCoveredNow (worker : String)
  /-- The reversible work of the phase is done. -/
  | acted (worker : String)
  | markStopped (worker : String)
  | purgeIfUncovered (worker : String) (began : Nat)
  /-- The work of the phase fails, or its transaction does. -/
  | fail (worker : String)
  | release (worker : String)
  /-- The replica is gone, or could not release its lease. -/
  | abandon (worker : String)

namespace LapseWorld

def initial (clock : Nat) (policy : AccessPolicy) (owned : List LapseKey) : LapseWorld where
  clock
  policy
  owned
  lapses := []
  claims := []
  handles := fun _ => none
  log := []

variable (world : LapseWorld)

def setHandle (worker : String) (handle : Option LapseHandle) : LapseWorld :=
  { world with handles := Function.update world.handles worker handle }

/-- The call goes on to another phase. -/
def enter (worker : String) (handle : LapseHandle) (phase : LapsePhase) : LapseWorld :=
  world.setHandle worker (some { handle with phase, since := world.clock })

/-- `inspect`: nothing when nothing is owned there. -/
def inspectPair (key : LapseKey) (exposed destroyBlocked : Bool) : Option LapseCandidate :=
  if key ∈ world.owned then
    some { key with
      covered := world.policy.isCovered key world.clock
      exposed, destroyBlocked
      lapse := (world.lapses.find? fun row => row.key == key).map LapseRow.toLapse
      now := toDate world.clock }
  else none

/-- Rows are deleted. -/
def removeRows (condition : LapseRow → Bool) : LapseWorld :=
  { world with
    lapses := deleteWhere world.lapses condition
    log := (world.lapses.filter condition).map (fun row =>
      .removed row.serial row.key (world.policy.isCovered row.key world.clock)
        (decide (row.key ∈ world.owned))) ++ world.log }

/-- `INSERT … ON CONFLICT DO NOTHING`. -/
def insertLapse (key : LapseKey) : LapseWorld :=
  if world.lapses.any fun row => row.key == key then world
  else
    { world with
      lapses := ⟨key, world.clock, none, none, world.log.length⟩ :: world.lapses
      log := .opened world.log.length key world.clock :: world.log }

/-- The rows `markIn` sets `stopped_at` of. -/
def stops (key : LapseKey) (row : LapseRow) : Bool := row.key == key && row.stoppedAt == none

/-- The rows `markIn` sets `purged_at` of. -/
def purges (key : LapseKey) (row : LapseRow) : Bool := row.key == key && row.purgedAt == none

def markStoppedRows (key : LapseKey) : LapseWorld :=
  { world with
    lapses := updateWhere world.lapses (stops key) fun row => { row with stoppedAt := some world.clock } }

/-- `purged_at` is set, and the deletes are queued in the same transaction. -/
def markPurgedRow (key : LapseKey) (row : LapseRow) : LapseWorld :=
  { world with
    lapses := updateWhere world.lapses (purges key) fun row => { row with purgedAt := some world.clock }
    log := .purged row.serial key row.lapsedAt world.clock (world.policy.isCovered key world.clock) :: world.log }

/-- The ledger rows of a server and of its pools. -/
def atServer (serverId : Uuid) (poolIds : List Uuid) (key : LapseKey) : Bool :=
  match key.kind with
  | .server => key.resourceId == serverId
  | .storagePool => decide (key.resourceId ∈ poolIds)
  | .sharedBackend => false

/-- A transaction of a phase begins in that phase. -/
def Began (handle : LapseHandle) (began : Nat) : Prop := handle.since ≤ began ∧ began ≤ world.clock

instance (handle : LapseHandle) (began : Nat) : Decidable (world.Began handle began) :=
  inferInstanceAs (Decidable (_ ∧ _))

/-- `openLapse`, and what `lapseAndAct` makes of its result. -/
def openLapse (worker : String) (handle : LapseHandle) (candidate : LapseCandidate) (began : Nat) : LapseWorld :=
  if world.policy.isCovered handle.key began then world.enter worker handle .finished
  else
    let next := world.insertLapse handle.key
    let lapse := (next.lapses.find? fun row => row.key == handle.key).map LapseRow.toLapse
    -- `assertOwned`
    if handle.lost then next.enter worker handle .finished
    else next.enter worker handle { candidate with lapse }.openedPhase

def clear (worker : String) (handle : LapseHandle) (began : Nat) : LapseWorld :=
  if world.policy.isCovered handle.key began then
    (world.removeRows fun row => row.key == handle.key).enter worker handle .finished
  else world.enter worker handle .finished

/-- The phase after the look at coverage; `purgeResources` does not look at that of a server, and
`detachAfterPurge` only where there is a row. -/
def lookedPhase (covered : Bool) : LapsePhase → Option LapsePhase
  | .enforcing candidate => some (if covered then .clearing else .stopping candidate)
  | .purging candidate =>
    some (if candidate.kind ≠ .server ∧ covered then .clearing else .unplugging candidate)
  | .detaching candidate => some (if candidate.lapse.isSome ∧ covered then .clearing else .finished)
  | _ => none

/-- The phase after the reversible work, with `assertOwned`. -/
def actedPhase (lost : Bool) : LapsePhase → Option LapsePhase
  | .stopping candidate => some (if lost then .finished else .marking candidate)
  | .unplugging candidate => some (if lost then .finished else .deleting candidate)
  | _ => none

/-- `purgeIfUncovered`.  The purge ends with `assertOwned`, which takes the transaction back. -/
def purgeIfUncovered (worker : String) (handle : LapseHandle) (began : Nat) : LapseWorld :=
  if world.policy.isCovered handle.key began then world.enter worker handle .finished
  else
    match world.lapses.find? (purges handle.key) with
    | none => world.enter worker handle .finished
    | some row =>
      if handle.lost then world.enter worker handle .finished
      else (world.markPurgedRow handle.key row).enter worker handle .finished

/-- `renew` of the lease guard. -/
def renewLease (worker : String) (handle : LapseHandle) : LapseWorld :=
  if handle.lost then world
  else if world.claims.any (renews handle.key.claimKey worker world.clock) then
    { world with claims := renew world.claims handle.key.claimKey worker world.clock }
  else world.setHandle worker (some { handle with lost := true })

def claimPair (worker : String) (key : LapseKey) (appNow : Nat) : LapseWorld :=
  match claimInTransaction world.claims ⟨key.claimKey, none, worker⟩ appNow
      ⟨world.clock, world.clock, world.clock⟩ with
  | some (claims, some _) =>
    { world with claims }.setHandle worker (some ⟨key, false, world.clock, .inspecting⟩)
  | some (claims, none) => { world with claims }
  | none => world

/-- What a replica that has leased a pair does. -/
def handleStep (worker : String) (handle : LapseHandle) : LapseLabel → Option LapseWorld
  | .renew _ => some (world.renewLease worker handle)
  | .renewFails _ => some (world.setHandle worker (some { handle with lost := true }))
  | .inspect _ exposed destroyBlocked =>
    if handle.phase = .inspecting then
      match world.inspectPair handle.key exposed destroyBlocked with
      | some candidate => some (world.enter worker handle candidate.phase)
      | none => some (world.enter worker handle .finished)
    else none
  | .openLapse _ began =>
    match handle.phase with
    | .opening candidate =>
      if world.Began handle began then some (world.openLapse worker handle candidate began) else none
    | _ => none
  | .clear _ began =>
    if handle.phase = .clearing ∧ world.Began handle began then some (world.clear worker handle began)
    else none
  | .isCoveredNow _ =>
    (lookedPhase (world.policy.isCovered handle.key world.clock) handle.phase).map (world.enter worker handle)
  | .acted _ => (actedPhase handle.lost handle.phase).map (world.enter worker handle)
  | .markStopped _ =>
    match handle.phase with
    | .marking _ => some ((world.markStoppedRows handle.key).enter worker handle .finished)
    | _ => none
  | .purgeIfUncovered _ began =>
    match handle.phase with
    | .deleting _ =>
      if world.Began handle began then some (world.purgeIfUncovered worker handle began) else none
    | _ => none
  | .fail _ => some (world.enter worker handle .finished)
  | .release _ =>
    if handle.phase = .finished then
      some ({ world with claims := Backend.release world.claims handle.key.claimKey worker }.setHandle worker none)
    else none
  | .abandon _ => some (world.setHandle worker none)
  | _ => none

end LapseWorld

/-- The replica whose call a label belongs to. -/
def LapseLabel.worker? : LapseLabel → Option String
  | .renew worker | .renewFails worker | .inspect worker _ _ | .openLapse worker _ | .clear worker _
  | .isCoveredNow worker | .acted worker | .markStopped worker | .purgeIfUncovered worker _
  | .fail worker | .release worker | .abandon worker => some worker
  | _ => none

namespace LapseWorld

variable (world : LapseWorld)

/-- What belongs to no call under way. -/
def outsideStep : LapseLabel → Option LapseWorld
  | .tick time => if world.clock ≤ time then some { world with clock := time } else none
  | .setPolicy policy => some { world with policy }
  | .setOwned owned => some { world with owned }
  | .deleteUserPermanently userId =>
    if world.owned.any fun key => key.userId == userId then none
    else
      some { world.removeRows fun row => row.key.userId == userId with
        policy := world.policy.withoutUser userId }
  | .deleteServer serverId poolIds =>
    -- the containers and volumes there go first, in the same transaction
    some { { world with owned := world.owned.filter fun key => !atServer serverId poolIds key }.removeRows
        (fun row => atServer serverId poolIds row.key) with
      policy := world.policy.withoutServer serverId poolIds }
  | .deleteStale => some (world.removeRows fun row => decide (row.key ∉ world.owned))
  | .claim worker key appNow =>
    if world.handles worker = none then some (world.claimPair worker key appNow) else none
  | .reapExpired => some { world with claims := Backend.reapExpired world.claims world.clock }
  | _ => none

def step (label : LapseLabel) : Option LapseWorld :=
  match label.worker? with
  | some worker => (world.handles worker).bind fun handle => world.handleStep worker handle label
  | none => world.outsideStep label

end LapseWorld

end Nyabase.Backend
