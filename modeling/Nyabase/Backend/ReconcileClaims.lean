import Nyabase.Lib.Rows
import Nyabase.Lib.Transition

/-!
# Reconcile leases: `packages/backend/src/reconcile/reconcile-claim.repository.ts`

`control.reconcile_claims` as a list of rows.  Each call is one transaction, so a step is a whole call; the
database clock goes on within it, and every statement of `claim` reads it anew.  The clock of the
application, which `claim` compares a lease with, may show anything.

Ids are UUIDs as the database compares them, times are microseconds.
-/

namespace Nyabase.Backend

open Lib

/-- A UUID by its 128-bit value. -/
abbrev Uuid := Nat

/-- `VOLUME_DESTROY_PLACEMENT_ID`: `00000000-0000-4000-8000-000000000001`. -/
def volumeDestroyPlacementId : Uuid := 0x00000000000040008000000000000001

/-- `MAX_ACTIVE_CLAIMS_PER_SERVER`. -/
def maxActiveClaimsPerServer : Nat := 8

/-- `interval '60 seconds'`. -/
def leaseInterval : Nat := 60000000

inductive ClaimResource where
  | container | volume | imageAssignment | server | accessLapse
  deriving DecidableEq

/-- The primary key of a lease. -/
@[ext] structure ClaimKey where
  resourceType : ClaimResource
  resourceId : Uuid
  placementServerId : Uuid
  deriving DecidableEq

structure ClaimRow where
  key : ClaimKey
  serverId : Option Uuid
  workerId : String
  leaseExpiresAt : Nat
  claimedAt : Nat
  deriving DecidableEq

namespace ClaimRow

def live (time : Nat) (row : ClaimRow) : Bool := decide (time < row.leaseExpiresAt)

/-- `reconcile_claims_placement_shape_check`. -/
def placementShape (row : ClaimRow) : Bool :=
  (row.key.placementServerId == volumeDestroyPlacementId && row.serverId == none &&
      decide (row.key.resourceType = .volume)) ||
    (decide (row.key.resourceType = .accessLapse) && row.serverId == none) ||
    (decide (row.key.resourceType ≠ .accessLapse) && row.key.placementServerId != volumeDestroyPlacementId &&
      row.serverId == some row.key.placementServerId)

end ClaimRow

structure ClaimInput where
  key : ClaimKey
  serverId : Option Uuid
  workerId : String

/-- The database clock at the statements of one `claim`. -/
structure ClaimClock where
  exclusion : Nat
  capacity : Nat
  write : Nat

variable (rows : List ClaimRow)

/-- Is there a live lease of the volume on the other side: destroy against every other placement, and every
other placement against destroy? -/
def volumeExcluded (key : ClaimKey) (time : Nat) : Bool :=
  decide (key.resourceType = .volume) && rows.any fun row =>
    decide (row.key.resourceType = .volume) && row.key.resourceId == key.resourceId && row.live time &&
      if key.placementServerId == volumeDestroyPlacementId then
        row.key.placementServerId != volumeDestroyPlacementId
      else row.key.placementServerId == volumeDestroyPlacementId

def serverAtCapacity (serverId : Option Uuid) (time : Nat) : Bool :=
  match serverId with
  | none => false
  | some server =>
    decide (maxActiveClaimsPerServer ≤ rows.countP fun row => row.serverId == some server && row.live time)

/-- The rows a renewal extends: the worker's own lease while it is live. -/
def renews (key : ClaimKey) (workerId : String) (time : Nat) (row : ClaimRow) : Bool :=
  row.key == key && row.workerId == workerId && row.live time

def extendLease (time : Nat) (row : ClaimRow) : ClaimRow :=
  { row with leaseExpiresAt := time + leaseInterval }

def renew (key : ClaimKey) (workerId : String) (time : Nat) : List ClaimRow :=
  updateWhere rows (renews key workerId time) (extendLease time)

/-- The rows a claim takes over: the lease of this key once it has expired. -/
def recycles (key : ClaimKey) (time : Nat) (row : ClaimRow) : Bool := row.key == key && !row.live time

/-- The lease a claim writes. -/
def claimedRow (input : ClaimInput) (time : Nat) : ClaimRow where
  key := input.key
  serverId := input.serverId
  workerId := input.workerId
  leaseExpiresAt := time + leaseInterval
  claimedAt := time

/-- A statement that writes a lease of the wrong shape fails, and the transaction with it. -/
def checked (input : ClaimInput) (written : List ClaimRow) : Option (List ClaimRow) :=
  if (claimedRow input 0).placementShape then some written else none

/-- `claim`: the rows after it, and the lease it returns; `none` when the transaction fails. -/
def claimInTransaction (input : ClaimInput) (appNow : Nat) (clock : ClaimClock) :
    Option (List ClaimRow × Option ClaimRow) :=
  if volumeExcluded rows input.key clock.exclusion then some (rows, none)
  else
    match rows.find? fun row => row.key == input.key with
    | some current =>
      -- milliseconds of the application clock
      if appNow < current.leaseExpiresAt / 1000 then
        if current.workerId != input.workerId then some (rows, none)
        else
          some (renew rows input.key input.workerId clock.write,
            (rows.find? (renews input.key input.workerId clock.write)).map (extendLease clock.write))
      else if serverAtCapacity rows input.serverId clock.capacity then some (rows, none)
      else if rows.any (recycles input.key clock.write) then
        (checked input (updateWhere rows (recycles input.key clock.write)
          fun _ => claimedRow input clock.write)).map fun written =>
            (written, some (claimedRow input clock.write))
      else some (rows, none)
    | none =>
      if serverAtCapacity rows input.serverId clock.capacity then some (rows, none)
      else (checked input (claimedRow input clock.write :: rows)).map fun written =>
        (written, some (claimedRow input clock.write))

def release (key : ClaimKey) (workerId : String) : List ClaimRow :=
  deleteWhere rows fun row => row.key == key && row.workerId == workerId

def reapExpired (time : Nat) : List ClaimRow := deleteWhere rows fun row => !row.live time

/-! ## Runs -/

structure ClaimState where
  claims : List ClaimRow
  /-- The database clock. -/
  now : Nat
  deriving DecidableEq

inductive ClaimLabel where
  | claim (input : ClaimInput) (appNow : Nat) (clock : ClaimClock)
  | renew (key : ClaimKey) (workerId : String) (time : Nat)
  | release (key : ClaimKey) (workerId : String)
  | reapExpired (time : Nat)
  | tick (time : Nat)

/-- One call of any worker.  The database clock does not go back. -/
def ClaimState.step (state : ClaimState) : ClaimLabel → Option ClaimState
  | .claim input appNow clock =>
    if state.now ≤ clock.exclusion ∧ clock.exclusion ≤ clock.capacity ∧ clock.capacity ≤ clock.write then
      match claimInTransaction state.claims input appNow clock with
      | some (claims, _) => some { claims, now := clock.write }
      | none => some { state with now := clock.write }
    else none
  | .renew key workerId time =>
    if state.now ≤ time then some { claims := renew state.claims key workerId time, now := time } else none
  | .release key workerId => some { state with claims := release state.claims key workerId }
  | .reapExpired time =>
    if state.now ≤ time then some { claims := reapExpired state.claims time, now := time } else none
  | .tick time => if state.now ≤ time then some { state with now := time } else none

def ClaimState.initial (now : Nat) : ClaimState where
  claims := []
  now

end Nyabase.Backend
