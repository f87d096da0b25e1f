import Nyabase.Lib.QueueMap
import Nyabase.Lib.Tally
import Nyabase.ProxyCommon.IpAddr

/-!
# The connection limiter

A listener takes a permit for every connection it accepts.  The limiter counts the permits of each client (an
IPv4 address or an IPv6 /64), of each IPv6 /48 and of the whole listener, and queues a pending slot for every
connection that is not established yet.  When the pending pool is full a light source may evict the oldest slot of
the heaviest one.

A hash map is the list of its entries in the order an iteration yields them.  Subtractions are checked: an
operation that would underflow has no result.  Slot ids are natural numbers.
-/

namespace Nyabase.ProxyCommon

open Lib

inductive ClientBucket where
  | v4 (octets : Octets)
  | v6Prefix64 (prefix64 : UInt64)
  deriving DecidableEq

/-- The upper 64 bits of the address. -/
def v6Prefix64 (segments : List UInt16) : UInt64 :=
  (segments.take 4).foldl (fun bits segment => bits <<< 16 ||| segment.toUInt64) 0

def ClientBucket.of : IpAddr → ClientBucket
  | .v4 octets => .v4 octets
  | .v6 segments =>
    match toIpv4Mapped segments.val with
    | some octets => .v4 octets
    | none => .v6Prefix64 (ProxyCommon.v6Prefix64 segments.val)

/-- The /48 of a native IPv6 client; IPv4 has none. -/
def ClientBucket.site : ClientBucket → Option UInt64
  | .v4 _ => none
  | .v6Prefix64 prefix64 => some (prefix64 >>> 16)

inductive PendingSource where
  | v4 (octets : Octets)
  | v6Site (site : UInt64)
  deriving DecidableEq

/-- What pending slots are shared fairly between. -/
def ClientBucket.pendingSource : ClientBucket → PendingSource
  | .v4 octets => .v4 octets
  | .v6Prefix64 prefix64 => .v6Site (prefix64 >>> 16)

inductive LimitRejection where
  | global
  | perClient
  | perSite
  | pending

structure LimitSettings where
  global : Nat
  perClient : Nat
  perSite : Nat
  pending : Nat

structure PendingSlot where
  id : Nat
  bucket : ClientBucket
  deriving DecidableEq

def PendingSlot.source (slot : PendingSlot) : PendingSource := slot.bucket.pendingSource

structure Counts where
  clients : List (ClientBucket × Nat)
  sites : List (UInt64 × Nat)
  pendingTotal : Nat
  /-- pending slots per source, oldest first -/
  pendingSources : List (PendingSource × List PendingSlot)

structure ConnectionPermit where
  bucket : ClientBucket
  pending : Option PendingSlot

structure ConnectionLimiter where
  settings : LimitSettings
  /-- what the semaphore still has to give -/
  available : Nat
  counts : Counts
  nextPendingId : Nat
  evictedTotal : Nat
  /-- the ids of the slots whose `evicted` flag is set -/
  evicted : List Nat

namespace ConnectionLimiter

def new (settings : LimitSettings) : ConnectionLimiter where
  settings := settings
  available := settings.global
  counts := ⟨[], [], 0, []⟩
  nextPendingId := 1
  evictedTotal := 0
  evicted := []

end ConnectionLimiter

/-- `max_by_key`: the last entry with the largest value. -/
def heaviest : List (PendingSource × Nat) → Option (PendingSource × Nat) → Option (PendingSource × Nat)
  | [], best => best
  | entry :: rest, none => heaviest rest (some entry)
  | entry :: rest, some best => heaviest rest (if best.2 ≤ entry.2 then some entry else some best)

/-- Removes the oldest pending slot of the source that holds the most, if it holds at least two more than the
newcomer's. -/
def heaviestVictim (counts : Counts) (newcomerPending : Nat) : Option PendingSlot × Counts :=
  match heaviest (counts.pendingSources.map fun entry => (entry.1, entry.2.length)) none with
  | none => (none, counts)
  | some (source, held) =>
    if held ≤ newcomerPending + 1 then (none, counts)
    else
      match counts.pendingSources.lookup source with
      | none => (none, counts)
      | some queue =>
        (queue.head?, { counts with pendingSources := QueueMap.put source queue.tail counts.pendingSources })

namespace ConnectionLimiter

/-- Gives the newcomer its slot and counts it. -/
def enter (limiter : ConnectionLimiter) (bucket : ClientBucket) : ConnectionLimiter × ConnectionPermit :=
  let slot : PendingSlot := ⟨limiter.nextPendingId, bucket⟩
  let counts := limiter.counts
  ({ limiter with
      nextPendingId := limiter.nextPendingId + 1
      counts :=
        { clients := AssocList.set bucket ((counts.clients.lookup bucket).getD 0 + 1) counts.clients
          sites :=
            match bucket.site with
            | none => counts.sites
            | some site => AssocList.set site ((counts.sites.lookup site).getD 0 + 1) counts.sites
          pendingTotal := counts.pendingTotal + 1
          pendingSources := QueueMap.pushBack bucket.pendingSource slot counts.pendingSources } },
    { bucket := bucket, pending := some slot })

/-- Makes room in a full pending pool. -/
def evict (limiter : ConnectionLimiter) (victim : PendingSlot) (counts : Counts) : Option ConnectionLimiter :=
  (checkedPred counts.pendingTotal).map fun total =>
    { limiter with
      counts := { counts with pendingTotal := total }
      evicted := victim.id :: limiter.evicted
      evictedTotal := limiter.evictedTotal + 1 }

/-- `none` is an underflow.  A refusal after the semaphore gave its permit drops that permit again. -/
def tryAcquire (limiter : ConnectionLimiter) (ip : IpAddr) :
    Option (ConnectionLimiter × Except LimitRejection ConnectionPermit) :=
  let bucket := ClientBucket.of ip
  let counts := limiter.counts
  if limiter.settings.perClient ≤ (counts.clients.lookup bucket).getD 0 then
    some (limiter, .error .perClient)
  else if bucket.site.any fun site => decide (limiter.settings.perSite ≤ (counts.sites.lookup site).getD 0) then
    some (limiter, .error .perSite)
  else
    match checkedPred limiter.available with
    | none => some (limiter, .error .global)
    | some available =>
      let limiter := { limiter with available := available }
      if limiter.settings.pending ≤ counts.pendingTotal then
        let sourcePending := ((counts.pendingSources.lookup bucket.pendingSource).map List.length).getD 0
        match heaviestVictim counts sourcePending with
        | (none, counts) =>
          some ({ limiter with counts := counts, available := limiter.available + 1 }, .error .pending)
        | (some victim, counts) =>
          (limiter.evict victim counts).map fun limiter =>
            ((limiter.enter bucket).1, .ok (limiter.enter bucket).2)
      else some ((limiter.enter bucket).1, .ok (limiter.enter bucket).2)

/-- Takes a dropped permit out of the counts. -/
def release (limiter : ConnectionLimiter) (bucket : ClientBucket) : Option ConnectionLimiter := do
  let clients ← decrement bucket limiter.counts.clients
  let sites ←
    match bucket.site with
    | none => some limiter.counts.sites
    | some site => decrement site limiter.counts.sites
  some { limiter with counts := { limiter.counts with clients := clients, sites := sites } }

/-- Releases a pending slot unless an eviction already did. -/
def releasePending (limiter : ConnectionLimiter) (slot : PendingSlot) : Option ConnectionLimiter :=
  match limiter.counts.pendingSources.lookup slot.source with
  | none => some limiter
  | some queue =>
    match queue.findIdx? fun queued => queued.id == slot.id with
    | none => some limiter
    | some index =>
      (checkedPred limiter.counts.pendingTotal).map fun total =>
        { limiter with
          counts :=
            { limiter.counts with
              pendingSources := QueueMap.put slot.source (queue.eraseIdx index) limiter.counts.pendingSources
              pendingTotal := total } }

/-- The drop of what a permit holds of the pending pool, if it still holds it. -/
def dropSlot (limiter : ConnectionLimiter) : Option PendingSlot → Option ConnectionLimiter
  | none => some limiter
  | some slot => limiter.releasePending slot

/-- The drop of a permit: its slot, its counts, and then its place in the semaphore. -/
def dropPermit (limiter : ConnectionLimiter) (permit : ConnectionPermit) : Option ConnectionLimiter := do
  let limiter ← limiter.dropSlot permit.pending
  let limiter ← limiter.release permit.bucket
  some { limiter with available := limiter.available + 1 }

end ConnectionLimiter

/-! ## The limiter and the permits its callers hold -/

structure LimitWorld where
  limiter : ConnectionLimiter
  permits : List ConnectionPermit
  /-- the pending slots moved out of their permits and not dropped yet -/
  moved : List PendingSlot

def LimitWorld.init (settings : LimitSettings) : LimitWorld := ⟨.new settings, [], []⟩

/-- What the callers do.  A permit and a moved slot are given by their place among the live ones; a place that
holds nothing does nothing. -/
inductive LimitCall where
  | tryAcquire (ip : IpAddr)
  | markEstablished (permit : Nat)
  | takePending (permit : Nat)
  | dropMoved (slot : Nat)
  | dropPermit (permit : Nat)
  /-- the map of queues yields its entries in another order -/
  | rehash (order : List (PendingSource × List PendingSlot))

namespace LimitWorld

/-- The slots somebody still holds, in a permit or moved out of one. -/
def liveSlots (world : LimitWorld) : List PendingSlot :=
  world.permits.filterMap ConnectionPermit.pending ++ world.moved

/-- The next state; `none` is an underflow. -/
def step (world : LimitWorld) : LimitCall → Option LimitWorld
  | .tryAcquire ip =>
    (world.limiter.tryAcquire ip).map fun
      | (limiter, .ok permit) => { world with limiter := limiter, permits := permit :: world.permits }
      | (limiter, .error _) => { world with limiter := limiter }
  | .markEstablished index =>
    match world.permits[index]? with
    | none => some world
    | some permit =>
      (world.limiter.dropSlot permit.pending).map fun limiter =>
        { world with
          limiter := limiter
          permits := world.permits.set index { permit with pending := none } }
  | .takePending index =>
    match world.permits[index]? with
    | none => some world
    | some permit =>
      some { world with
        permits := world.permits.set index { permit with pending := none }
        moved := permit.pending.toList ++ world.moved }
  | .dropMoved index =>
    match world.moved[index]? with
    | none => some world
    | some slot =>
      (world.limiter.releasePending slot).map fun limiter =>
        { world with limiter := limiter, moved := world.moved.eraseIdx index }
  | .dropPermit index =>
    match world.permits[index]? with
    | none => some world
    | some permit =>
      (world.limiter.dropPermit permit).map fun limiter =>
        { world with limiter := limiter, permits := world.permits.eraseIdx index }
  | .rehash order =>
    if order.Perm world.limiter.counts.pendingSources then
      some { world with
        limiter := { world.limiter with counts := { world.limiter.counts with pendingSources := order } } }
    else some world

end LimitWorld

end Nyabase.ProxyCommon
