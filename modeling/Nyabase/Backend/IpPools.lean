import Nyabase.Backend.ReconcileClaims
import Nyabase.Common.Ipv4

/-!
# IP pools and the addresses claimed from them

`packages/backend/src/ip-pools/ip-pools.service.ts`, and `findAvailableAddress`, `allocateAddress` and `admit`
of `packages/backend/src/containers`.

Every statement is a step.  A creation is a serializable transaction: it reads the tables as they were when
its first statement began, which may then wait for a row lock, and it fails when it touches a row that has
changed since.  A patch or a deletion of a pool is a read-committed one: each statement reads what is committed
when it begins.  Row locks and advisory locks are held to the end of the transaction; a step that has to wait
for one is not enabled.  What a transaction writes is there when it commits.  PostgreSQL may refuse a commit,
or any statement, of a serializable transaction over its conflicts with others; here any transaction may be
rolled back at any time.

Requests and the database keep addresses and CIDRs in canonical form, so they are numbers here.
-/

namespace Nyabase.Backend

open Lib

/-! ## Addresses -/

/-- A CIDR in canonical form. -/
structure Ipv4Cidr where
  network : Nat
  prefixLen : Nat
  prefixLen_le : prefixLen ≤ 32
  aligned : network % 2 ^ (32 - prefixLen) = 0
  bounded : network + 2 ^ (32 - prefixLen) ≤ 2 ^ 32
  deriving DecidableEq

namespace Ipv4Cidr

variable (cidr : Ipv4Cidr)

def size : Nat := 2 ^ (32 - cidr.prefixLen)

def broadcast : Nat := cidr.network + cidr.size - 1

/-- `isUsableHostInCidr`. -/
def isUsableHost (address : Nat) : Bool := decide (cidr.network < address ∧ address < cidr.broadcast)

/-- `ipv4CidrContains`. -/
def contains (inner : Ipv4Cidr) : Bool :=
  decide (cidr.prefixLen ≤ inner.prefixLen ∧ cidr.network ≤ inner.network ∧ inner.broadcast ≤ cidr.broadcast)

/-- `ipv4CidrsOverlap`. -/
def overlaps (other : Ipv4Cidr) : Bool :=
  decide (cidr.network ≤ other.broadcast ∧ other.network ≤ cidr.broadcast)

end Ipv4Cidr

/-- The search of `findAvailableAddress`.  `number & mask` is a signed number in JavaScript, and `ipv4Text`
reads the low 32 bits of what is added to it.  `seed` is the number in the first eight digits of the id. -/
def searchAddress (allocation : Ipv4Cidr) (occupied : List Nat) (seed : Nat) : Option Nat :=
  let network : Int := Common.toInt32 allocation.network
  let total := allocation.size
  let start := seed % max total 1
  (List.range (min total 65536)).findSome? fun offset =>
    let candidate := Common.toUint32 (network + ((start + offset) % total : Nat))
    if candidate = Common.toUint32 network ∨ candidate = allocation.broadcast ∨ candidate ∈ occupied then
      none
    else some candidate

/-! ## Tables -/

structure IpPool where
  id : Uuid
  name : String
  cidr : Ipv4Cidr
  allocationCidr : Ipv4Cidr
  gateway : Nat
  reservedIps : List Nat
  revision : Nat
  deriving DecidableEq

inductive NetworkClaimState where
  | active | releasing
  deriving DecidableEq

/-- A row of `control.container_network_claims`; times are microseconds. -/
structure NetworkClaim where
  id : Uuid
  containerId : Option Uuid
  serverId : Uuid
  networkKey : Ipv4Cidr
  address : Nat
  state : NetworkClaimState
  reusableAt : Option Nat
  deriving DecidableEq

namespace NetworkClaim

/-- `state = 'releasing' AND reusable_at <= now`, with a time of the application in milliseconds. -/
def reusable (now : Nat) (claim : NetworkClaim) : Bool :=
  decide (claim.state = .releasing) && claim.reusableAt.any fun time => decide (time ≤ now * 1000)

/-- What `findAvailableAddress` counts as occupied. -/
def occupies (now : Nat) (claim : NetworkClaim) : Bool :=
  decide (claim.state = .active) || claim.reusableAt.any fun time => decide (now < time / 1000)

/-- What the pool service counts as claimed. -/
def counts (now : Nat) (claim : NetworkClaim) : Bool :=
  decide (claim.state = .active) ||
    (decide (claim.state = .releasing) && claim.reusableAt.any fun time => decide (now * 1000 < time))

/-- `releaseContainerState`. -/
def released (time : Nat) (claim : NetworkClaim) : NetworkClaim :=
  { claim with containerId := none, state := .releasing, reusableAt := some (time + 360000000) }

end NetworkClaim

instance : LawfulBEq (Uuid × Uuid) := inferInstance

structure IpTables where
  /-- In the order of `created_at` and `id`. -/
  pools : List IpPool
  /-- `infra.ip_pool_servers`: pool and server. -/
  members : List (Uuid × Uuid)
  claims : List NetworkClaim

namespace IpTables

variable (tables : IpTables)

def listForServer (serverId : Uuid) : List IpPool :=
  tables.pools.filter fun pool => decide ((pool.id, serverId) ∈ tables.members)

def listServerIds (poolId : Uuid) : List Uuid :=
  (tables.members.filter fun member => member.1 == poolId).map Prod.snd

def claimsOf (network : Ipv4Cidr) : List NetworkClaim :=
  tables.claims.filter fun claim => decide (claim.networkKey = network)

/-- `countClaimsForNetwork`. -/
def countClaims (network : Ipv4Cidr) (serverId : Option Uuid) (now : Nat) : Nat :=
  (tables.claimsOf network).countP fun claim =>
    claim.counts now && serverId.all fun server => claim.serverId == server

def listClaimAddresses (network : Ipv4Cidr) (now : Nat) : List Nat :=
  ((tables.claimsOf network).filter (NetworkClaim.counts now)).map NetworkClaim.address

end IpTables

/-! ## Patches and deletions of pools -/

structure CreateIpPoolRequest where
  name : String
  cidr : Ipv4Cidr
  allocationCidr : Ipv4Cidr
  gateway : Nat
  reservedIps : List Nat
  serverIds : List Uuid

structure PatchIpPoolRequest where
  expectedRevision : Nat
  name : Option String
  cidr : Option Ipv4Cidr
  allocationCidr : Option Ipv4Cidr
  gateway : Option Nat
  reservedIps : Option (List Nat)
  serverIds : Option (List Uuid)

/-- A statement of a pool transaction that lets it go on or refuses it. -/
inductive PoolCheck where
  /-- `countClaimsForNetwork` is zero. -/
  | unclaimed (network : Ipv4Cidr)
  /-- `lockIpPoolTopology` -/
  | lockTopology
  /-- `assertNoCidrOverlap` -/
  | disjoint (cidr : Ipv4Cidr) (excludeId : Uuid)
  /-- `listClaimAddresses` has none of the addresses to block. -/
  | addressesFree (network : Ipv4Cidr) (addresses : List Nat)
  /-- `listClaimAddresses` are all usable in the new range. -/
  | claimsUsable (network allocation : Ipv4Cidr)
  | serversExist (serverIds : List Uuid)
  /-- `listServerIds`; each server that is to be removed is then looked at. -/
  | membership (poolId : Uuid) (network : Ipv4Cidr) (serverIds : List Uuid)
  /-- `countClaimsForNetwork` of one server is zero. -/
  | serverUnclaimed (network : Ipv4Cidr) (serverId : Uuid)
  deriving DecidableEq

/-- What a pool transaction writes in the end. -/
inductive PoolWrite where
  | update (next : IpPool) (serverIds : Option (List Uuid))
  | delete

namespace PatchIpPoolRequest

variable (input : PatchIpPoolRequest) (current : IpPool)

/-- The row `update` writes. -/
def next : IpPool where
  id := current.id
  name := input.name.getD current.name
  cidr := input.cidr.getD current.cidr
  allocationCidr := input.allocationCidr.getD current.allocationCidr
  gateway := input.gateway.getD current.gateway
  reservedIps := input.reservedIps.getD current.reservedIps
  revision := input.expectedRevision + 1

def changesNetwork : Bool :=
  input.cidr.isSome || input.allocationCidr.isSome || input.gateway.isSome || input.reservedIps.isSome

/-- The values of the new row fit together. -/
def wellFormed : Bool :=
  !input.changesNetwork || ((input.next current).cidr.isUsableHost (input.next current).gateway &&
      (input.next current).cidr.contains (input.next current).allocationCidr &&
      (input.next current).reservedIps.all (input.next current).cidr.isUsableHost)

def newlyBlocked : List Nat :=
  (if (input.next current).gateway = current.gateway then [] else [(input.next current).gateway]) ++
    (input.next current).reservedIps.filter fun address => decide (address ∉ current.reservedIps)

def cidrChecks : List PoolCheck :=
  if input.cidr.isSome ∧ (input.next current).cidr ≠ current.cidr then
    [.unclaimed current.cidr, .lockTopology, .disjoint (input.next current).cidr current.id]
  else []

def blockedChecks : List PoolCheck :=
  if input.newlyBlocked current = [] then []
  else [.addressesFree current.cidr (input.newlyBlocked current)]

def allocationChecks : List PoolCheck :=
  if input.allocationCidr.isSome ∧ (input.next current).allocationCidr ≠ current.allocationCidr then
    [.claimsUsable current.cidr (input.next current).allocationCidr]
  else []

def memberChecks : List PoolCheck :=
  match input.serverIds with
  | none => []
  | some serverIds => [.serversExist serverIds, .membership current.id current.cidr serverIds]

/-- The statements of `patch` between the lock on the row and the writes. -/
def checks : List PoolCheck :=
  (if input.changesNetwork then
    input.cidrChecks current ++ input.blockedChecks current ++ input.allocationChecks current
  else []) ++ input.memberChecks current

end PatchIpPoolRequest

/-! ## Transactions -/

inductive IpLock where
  | server (id : Uuid)
  | network (key : Ipv4Cidr)
  | pool (id : Uuid)
  | topology
  | claim (id : Uuid)
  deriving DecidableEq

/-- What a creation does next. -/
inductive CreationPhase where
  /-- waits for the row of the server -/
  | targets
  /-- `listForServer` -/
  | listing
  /-- the advisory lock of the first pool's network -/
  | locking (pools : List IpPool)
  /-- the deletion of claims that may be used again -/
  | reusing (pool : IpPool) (rest : List IpPool)
  /-- the claims of the network, `FOR UPDATE` -/
  | selecting (pool : IpPool) (rest : List IpPool)
  /-- the insertion of the claim -/
  | inserting (pool : IpPool) (address : Nat)
  /-- the commit -/
  | inserted (pool : IpPool) (address : Nat)
  deriving DecidableEq

/-- A serializable transaction of `create`. -/
structure Creation where
  serverId : Uuid
  containerId : Uuid
  claimId : Uuid
  snapshot : IpTables
  /-- The claims it has deleted. -/
  deleted : List Uuid
  phase : CreationPhase

/-- A read-committed transaction of `patch` or `delete`, with the row it has locked. -/
structure PoolTx where
  current : IpPool
  checks : List PoolCheck
  write : PoolWrite

inductive IpTx where
  | creation (creation : Creation)
  | pool (tx : PoolTx)

structure IpWorld extends IpTables where
  servers : List Uuid
  locks : IpLock → Option Nat
  txs : Nat → Option IpTx

inductive IpLabel where
  | createPool (id : Uuid) (request : CreateIpPoolRequest)
  | patch (tx : Nat) (poolId : Uuid) (input : PatchIpPoolRequest)
  | delete (tx : Nat) (poolId : Uuid)
  | check (tx : Nat) (now : Nat)
  | commitPool (tx : Nat)
  | create (tx : Nat) (serverId containerId claimId : Uuid)
  | lockServer (tx : Nat)
  | listForServer (tx : Nat)
  | lockNetwork (tx : Nat)
  | deleteReusable (tx : Nat) (now : Nat)
  | selectClaims (tx : Nat) (now : Nat)
  | insertClaim (tx : Nat)
  | commitCreation (tx : Nat)
  | rollback (tx : Nat)
  | releaseContainer (containerId : Uuid) (time : Nat)

/-- `id` without its dashes, the first eight hexadecimal digits: the high 32 of 128 bits. -/
def addressSeed (id : Uuid) : Nat := id / 2 ^ 96

namespace Creation

variable (creation : Creation)

/-- The claims of a network that the transaction sees. -/
def visible (network : Ipv4Cidr) : List NetworkClaim :=
  (creation.snapshot.claimsOf network).filter fun claim => decide (claim.id ∉ creation.deleted)

/-- `findAvailableAddress`, once the claims are read. -/
def findAvailableAddress (pool : IpPool) (now : Nat) : Option Nat :=
  let occupied := ((creation.visible pool.cidr).filter (NetworkClaim.occupies now)).map NetworkClaim.address
  searchAddress pool.allocationCidr (occupied ++ pool.gateway :: pool.reservedIps) (addressSeed creation.containerId)

/-- The claim `insert` writes. -/
def newClaim (pool : IpPool) (address : Nat) : NetworkClaim where
  id := creation.claimId
  containerId := some creation.containerId
  serverId := creation.serverId
  networkKey := pool.cidr
  address
  state := .active
  reusableAt := none

end Creation

namespace IpWorld

variable (world : IpWorld)

def initial (servers : List Uuid) : IpWorld where
  pools := []
  members := []
  claims := []
  servers
  locks := fun _ => none
  txs := fun _ => none

/-- The lock is free, or the transaction has it already. -/
def available (tx : Nat) (lock : IpLock) : Bool :=
  world.locks lock == none || world.locks lock == some tx

def acquire (tx : Nat) (lock : IpLock) : IpWorld :=
  { world with locks := Function.update world.locks lock (some tx) }

def acquireAll (tx : Nat) (locks : List IpLock) : IpWorld :=
  { world with locks := fun lock => if lock ∈ locks then some tx else world.locks lock }

def setTx (tx : Nat) (state : IpTx) : IpWorld :=
  { world with txs := Function.update world.txs tx (some state) }

/-- The end of a transaction: its locks are released. -/
def finish (tx : Nat) : IpWorld :=
  { world with
    locks := fun lock => if world.locks lock = some tx then none else world.locks lock
    txs := Function.update world.txs tx none }

def setTables (tables : IpTables) : IpWorld := { world with toIpTables := tables }

/-! ### Pools -/

/-- `create`.  Its statements take the topology lock, look at the pools under it and insert; nothing another
transaction does in between changes what it has read, so it is one step. -/
def createPool (id : Uuid) (request : CreateIpPoolRequest) : Option IpWorld :=
  if world.locks .topology = none ∧ request.cidr.contains request.allocationCidr ∧
      request.cidr.isUsableHost request.gateway ∧ request.reservedIps.all request.cidr.isUsableHost ∧
      world.pools.all (fun pool => decide (pool.id ≠ id ∧ pool.name ≠ request.name ∧ pool.cidr ≠ request.cidr) &&
        !request.cidr.overlaps pool.cidr) ∧
      (∀ server ∈ request.serverIds, server ∈ world.servers) then
    some (world.setTables { world.toIpTables with
      pools := world.pools ++ [⟨id, request.name, request.cidr, request.allocationCidr, request.gateway,
        request.reservedIps, 1⟩]
      members := world.members ++ request.serverIds.map fun server => (id, server) })
  else none

/-- `findByIdForUpdate`, and what `patch` and `delete` make of the row. -/
def lockPool (tx : Nat) (poolId : Uuid) (start : IpPool → Option PoolTx) : Option IpWorld :=
  if world.txs tx = none ∧ world.available tx (.pool poolId) then
    match (world.pools.find? fun pool => pool.id == poolId).bind start with
    | some state => some ((world.acquire tx (.pool poolId)).setTx tx (.pool state))
    | none => some world
  else none

/-- `patch`, after the row is locked. -/
def startPatch (input : PatchIpPoolRequest) (current : IpPool) : Option PoolTx :=
  if current.revision = input.expectedRevision ∧ input.wellFormed current then
    some ⟨current, input.checks current, .update (input.next current) input.serverIds⟩
  else none

/-- `delete`, after the row is locked. -/
def startDelete (current : IpPool) : Option PoolTx :=
  some ⟨current, [.unclaimed current.cidr], .delete⟩

/-- One check: the ones it leads to, or nothing when it refuses. -/
def runCheck (now : Nat) : PoolCheck → Option (List PoolCheck)
  | .unclaimed network => if world.countClaims network none now = 0 then some [] else none
  | .lockTopology => some []
  | .disjoint cidr excludeId =>
    if world.pools.all fun pool => pool.id == excludeId || !cidr.overlaps pool.cidr then some [] else none
  | .addressesFree network addresses =>
    if (world.listClaimAddresses network now).any fun address => decide (address ∈ addresses) then none
    else some []
  | .claimsUsable network allocation =>
    if (world.listClaimAddresses network now).all allocation.isUsableHost then some [] else none
  | .serversExist serverIds =>
    if serverIds.all fun server => decide (server ∈ world.servers) then some [] else none
  | .membership poolId network serverIds =>
    some (((world.listServerIds poolId).filter fun server => decide (server ∉ serverIds)).map
      (.serverUnclaimed network))
  | .serverUnclaimed network serverId =>
    if world.countClaims network (some serverId) now = 0 then some [] else none

/-- The statement that takes the topology lock. -/
def takeTopology (tx : Nat) (check : PoolCheck) : IpWorld :=
  if check = .lockTopology then world.acquire tx .topology else world

def check (tx : Nat) (state : PoolTx) (now : Nat) : Option IpWorld :=
  match state.checks with
  | [] => none
  | first :: rest =>
    if first = .lockTopology ∧ world.available tx .topology = false then none
    else
      match world.runCheck now first with
      | some more => some ((world.takeTopology tx first).setTx tx (.pool { state with checks := more ++ rest }))
      | none => some (world.finish tx)

/-- `replaceServers`. -/
def replaceServers (poolId : Uuid) (serverIds : Option (List Uuid)) : List (Uuid × Uuid) :=
  match serverIds with
  | none => world.members
  | some serverIds =>
    (world.members.filter fun member => member.1 != poolId) ++ serverIds.map fun server => (poolId, server)

/-- The tables after the writes of a pool transaction; nothing when a unique index refuses them. -/
def writePool (state : PoolTx) : Option IpTables :=
  match state.write with
  | .update next serverIds =>
    if world.pools.all fun pool =>
        pool.id == next.id || decide (pool.cidr ≠ next.cidr ∧ pool.name ≠ next.name) then
      some { world.toIpTables with
        pools := updateWhere world.pools (fun pool => pool.id == next.id) fun _ => next
        members := world.replaceServers next.id serverIds }
    else none
  | .delete =>
    some { world.toIpTables with
      pools := deleteWhere world.pools fun pool => pool.id == state.current.id
      members := world.members.filter fun member => member.1 != state.current.id }

def commitPool (tx : Nat) (state : PoolTx) : Option IpWorld :=
  if state.checks = [] then
    match world.writePool state with
    | some tables => some ((world.setTables tables).finish tx)
    | none => some (world.finish tx)
  else none

/-! ### Creations -/

def enter (tx : Nat) (creation : Creation) (phase : CreationPhase) : IpWorld :=
  world.setTx tx (.creation { creation with phase })

/-- A serializable transaction locks rows of its snapshot: it waits for those that others hold, and fails
when one of them is no longer as it was. -/
def lockClaims (tx : Nat) (claims : List NetworkClaim) (go : IpWorld → IpWorld) : Option IpWorld :=
  if claims.all fun claim => world.available tx (.claim claim.id) then
    if claims.all fun claim => decide (claim ∈ world.claims) then
      some (go (world.acquireAll tx (claims.map fun claim => .claim claim.id)))
    else some (world.finish tx)
  else none

/-- The next pool of `allocateAddress`, if there is one. -/
def nextPool (tx : Nat) (creation : Creation) (pools : List IpPool) : IpWorld :=
  if pools = [] then world.finish tx else world.enter tx creation (.locking pools)

def creationStep (tx : Nat) (creation : Creation) : IpLabel → Option IpWorld
  | .lockServer _ =>
    if creation.phase = .targets ∧ world.available tx (.server creation.serverId) then
      some ((world.acquire tx (.server creation.serverId)).enter tx creation .listing)
    else none
  | .listForServer _ =>
    if creation.phase = .listing then
      some (world.nextPool tx creation (creation.snapshot.listForServer creation.serverId))
    else none
  | .lockNetwork _ =>
    match creation.phase with
    | .locking (pool :: rest) =>
      if world.available tx (.network pool.cidr) then
        some ((world.acquire tx (.network pool.cidr)).enter tx creation (.reusing pool rest))
      else none
    | _ => none
  | .deleteReusable _ now =>
    match creation.phase with
    | .reusing pool rest =>
      let reusable := (creation.visible pool.cidr).filter (NetworkClaim.reusable now)
      world.lockClaims tx reusable fun locked =>
        locked.enter tx { creation with deleted := reusable.map NetworkClaim.id ++ creation.deleted }
          (.selecting pool rest)
    | _ => none
  | .selectClaims _ now =>
    match creation.phase with
    | .selecting pool rest =>
      world.lockClaims tx (creation.visible pool.cidr) fun locked =>
        match creation.findAvailableAddress pool now with
        | some address => locked.enter tx creation (.inserting pool address)
        | none => locked.nextPool tx creation rest
    | _ => none
  | .insertClaim _ =>
    match creation.phase with
    | .inserting pool address =>
      -- the unique indexes of the claims
      if world.claims.any fun claim => decide (claim.id ∉ creation.deleted) &&
          decide (claim.id = creation.claimId ∨ claim.networkKey = pool.cidr ∧ claim.address = address) then
        some (world.finish tx)
      else some (world.enter tx creation (.inserted pool address))
    | _ => none
  | .commitCreation _ =>
    match creation.phase with
    | .inserted pool address =>
      some ((world.setTables { world.toIpTables with
        claims := creation.newClaim pool address ::
          deleteWhere world.claims fun claim => decide (claim.id ∈ creation.deleted) }).finish tx)
    | _ => none
  | .rollback _ => some (world.finish tx)
  | _ => none

def poolStep (tx : Nat) (state : PoolTx) : IpLabel → Option IpWorld
  | .check _ now => world.check tx state now
  | .commitPool _ => world.commitPool tx state
  | .rollback _ => some (world.finish tx)
  | _ => none

end IpWorld

/-- The transaction under way a label belongs to. -/
def IpLabel.tx? : IpLabel → Option Nat
  | .check tx _ | .commitPool tx | .lockServer tx | .listForServer tx | .lockNetwork tx
  | .deleteReusable tx _ | .selectClaims tx _ | .insertClaim tx | .commitCreation tx | .rollback tx => some tx
  | _ => none

namespace IpWorld

variable (world : IpWorld)

def outsideStep : IpLabel → Option IpWorld
  | .createPool id request => world.createPool id request
  | .patch tx poolId input => world.lockPool tx poolId (startPatch input)
  | .delete tx poolId => world.lockPool tx poolId startDelete
  | .create tx serverId containerId claimId =>
    if world.txs tx = none then
      some (world.setTx tx (.creation ⟨serverId, containerId, claimId, world.toIpTables, [], .targets⟩))
    else none
  | .releaseContainer containerId time =>
    -- one statement of its own transaction; it waits for rows that a creation has locked
    if (world.claims.filter fun claim => claim.containerId == some containerId).all
        fun claim => world.locks (.claim claim.id) == none then
      some (world.setTables { world.toIpTables with
        claims := updateWhere world.claims (fun claim => claim.containerId == some containerId)
          (NetworkClaim.released time) })
    else none
  | _ => none

def step (label : IpLabel) : Option IpWorld :=
  match label.tx? with
  | none => world.outsideStep label
  | some tx =>
    match world.txs tx with
    | none => none
    | some (.creation creation) => world.creationStep tx creation label
    | some (.pool state) => world.poolStep tx state label

end IpWorld

end Nyabase.Backend
