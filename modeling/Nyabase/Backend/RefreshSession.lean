import Mathlib.Data.List.Sort
import Nyabase.Lib.Rows
import Nyabase.Lib.Transition

/-!
# Browser sessions and their refresh tokens: `packages/backend/src/iam/iam-auth.repository.ts`

Each call is one read-committed transaction, and every statement of it is a step of its own: others may come
in between.  A `SELECT … FOR UPDATE` chooses its rows from what is committed when it begins, then locks them
one by one; a row that another transaction holds is waited for, and a row that has changed meanwhile is
looked at again.  What a transaction writes is there when it commits.

Times are milliseconds, as the `Date`s of the repository are.  A token stands for its hash, and hashes do
not collide: the token of a login is new, and a successor is determined by its session, its predecessor and
the request.  A request id stands for its hash, too.
-/

namespace Nyabase.Backend

open Lib

/-! ## Tokens and rows -/

/-- The token a login hands out, or the successor `deriveRotatedRefreshToken` makes of a token. -/
inductive Token where
  | issued (session : Nat)
  | rotated (session : Nat) (previous : Token) (requestId : Nat)
  deriving DecidableEq

/-- The parameters of `RefreshRotationInput` that are the same for every call. -/
structure RefreshConfig where
  idleMs : Nat
  absoluteMs : Nat
  reuseGraceMs : Nat
  retainedAncestors : Nat
  ancestorMinimumAgeMs : Nat
  maximumSessions : Nat
  retained_pos : 0 < retainedAncestors
  maximum_pos : 0 < maximumSessions

structure SessionUser where
  id : Nat
  active : Bool
  passwordHash : String
  authVersion : Nat

/-- `LoginCredentialSnapshot`. -/
structure LoginCredentialSnapshot where
  passwordHash : String
  authVersion : Nat

/-- The columns of the predecessor; they are all null or all set. -/
structure Predecessor where
  hash : Token
  requestId : Nat
  rotatedAt : Nat
  deriving DecidableEq

/-- A row of `iam.refresh_tokens`. -/
structure SessionRow where
  id : Nat
  userId : Nat
  hash : Token
  predecessor : Option Predecessor
  expiresAt : Nat
  revoked : Bool
  createdAt : Nat
  deriving DecidableEq

/-- A row of `iam.refresh_token_ancestors`. -/
structure AncestorRow where
  hash : Token
  sessionId : Nat
  retiredAt : Nat
  deriving DecidableEq

/-- Not revoked, and not expired at a time. -/
def SessionRow.live (row : SessionRow) (now : Nat) : Bool := !row.revoked && decide (now < row.expiresAt)

/-- What a call presents. -/
structure RefreshInput where
  hash : Token
  requestId : Nat

inductive RefreshResult where
  | invalid
  | superseded
  | throttled (retryAfterMs : Nat)
  | reused (userId sessionId : Nat)
  | recovered (sessionId : Nat) (token : Token) (expiresInMs : Nat)
  | rotated (sessionId : Nat) (token : Token) (expiresInMs : Nat)
  deriving DecidableEq

/-! ## What one statement computes -/

/-- `expires_at > now`, of one user, but for the session to preserve. -/
def SessionRow.trims (row : SessionRow) (userId now : Nat) (preserved : Option Nat) : Bool :=
  row.userId == userId && row.live now && preserved != some row.id

/-- `ORDER BY created_at, id`. -/
def createdBefore (a b : SessionRow) : Bool :=
  decide (a.createdAt < b.createdAt) || (a.createdAt == b.createdAt && decide (a.id ≤ b.id))

/-- The rows `trimRefreshSessions` selects, by id. -/
def trimCandidates (sessions : List SessionRow) (userId now : Nat) (preserved : Option Nat) : List Nat :=
  ((sessions.filter fun row => row.trims userId now preserved).insertionSort
    fun a b => createdBefore a b = true).map SessionRow.id

/-- The sessions that are too many: the oldest ones. -/
def overflow (active : List Nat) (keepCount : Nat) : List Nat := active.take (active.length - keepCount)

/-- `REFRESH_SESSION_PURGE_BATCH_SIZE`. -/
def refreshSessionPurgeBatchSize : Nat := 128

/-- `ORDER BY expires_at, id`. -/
def expiresBefore (a b : SessionRow) : Bool :=
  decide (a.expiresAt < b.expiresAt) || (a.expiresAt == b.expiresAt && decide (a.id ≤ b.id))

/-- `purgeExpiredRefreshSessions`: one batch of expired rows and one of revoked rows, without those that
are locked. -/
def purgeCandidates (sessions : List SessionRow) (locked : Nat → Bool) (now : Nat) : List Nat :=
  let expired := ((sessions.filter fun row => decide (row.expiresAt ≤ now) && !locked row.id).insertionSort
    fun a b => expiresBefore a b = true).take refreshSessionPurgeBatchSize
  let revoked := ((sessions.filter fun row => row.revoked && !locked row.id).insertionSort
    fun a b => a.id ≤ b.id).take refreshSessionPurgeBatchSize
  (expired ++ revoked).map SessionRow.id

/-- `ORDER BY retired_at DESC, hash DESC`; `order` is the order of the hash texts. -/
def retiredAfter (order : Token → Nat) (a b : AncestorRow) : Prop :=
  b.retiredAt < a.retiredAt ∨ (b.retiredAt = a.retiredAt ∧ order b.hash ≤ order a.hash)

instance (order : Token → Nat) : DecidableRel (retiredAfter order) :=
  fun _ _ => inferInstanceAs (Decidable (_ ∨ _))

def newestAncestors (order : Token → Nat) (ancestors : List AncestorRow) (sessionId : Nat) : List AncestorRow :=
  (ancestors.filter fun row => row.sessionId == sessionId).insertionSort (retiredAfter order)

/-- `rotationThrottleMs`: how long until the ancestor that a rotation evicts is old enough. -/
def rotationThrottleMs (config : RefreshConfig) (order : Token → Nat) (ancestors : List AncestorRow)
    (sessionId now : Nat) : Nat :=
  match (newestAncestors order ancestors sessionId)[config.retainedAncestors - 1]? with
  | none => 0
  | some evicted => evicted.retiredAt + config.ancestorMinimumAgeMs - now

/-- `INSERT … ON CONFLICT (hash) DO NOTHING`. -/
def insertAncestor (ancestors : List AncestorRow) (row : AncestorRow) : List AncestorRow :=
  if ancestors.any fun other => other.hash == row.hash then ancestors else row :: ancestors

/-- `retireRefreshHash`: record the hash and drop all but the newest of the session. -/
def retireRefreshHash (order : Token → Nat) (ancestors : List AncestorRow) (retired : AncestorRow)
    (keepCount : Nat) : List AncestorRow :=
  let inserted := insertAncestor ancestors retired
  let forgotten := (newestAncestors order inserted retired.sessionId).drop keepCount
  deleteWhere inserted fun row =>
    row.sessionId == retired.sessionId && forgotten.any fun other => other.hash == row.hash

/-- The row of a new login. -/
def loginRow (config : RefreshConfig) (id userId now : Nat) : SessionRow where
  id
  userId
  hash := .issued id
  predecessor := none
  expiresAt := now + min config.idleMs config.absoluteMs
  revoked := false
  createdAt := now

/-- The successor of what was presented. -/
def RefreshInput.successor (input : RefreshInput) (sessionId : Nat) : Token :=
  .rotated sessionId input.hash input.requestId

/-- The expiry a rotation moves a session to. -/
def rotatedExpiry (config : RefreshConfig) (row : SessionRow) (now : Nat) : Nat :=
  min (now + config.idleMs) (row.createdAt + config.absoluteMs)

def rotateRow (config : RefreshConfig) (input : RefreshInput) (now : Nat) (row : SessionRow) : SessionRow :=
  { row with
    hash := input.successor row.id
    predecessor := some { hash := input.hash, requestId := input.requestId, rotatedAt := now }
    expiresAt := rotatedExpiry config row now }

/-- `resolveRetiredRefreshToken`, once the session is locked: the answer of a token that is not current. -/
def resolveRetired (config : RefreshConfig) (input : RefreshInput) (row : SessionRow) (userActive : Bool)
    (now : Nat) : RefreshResult :=
  match row.predecessor with
  | some predecessor =>
    if predecessor.hash == input.hash then
      if predecessor.requestId == input.requestId then
        if !userActive || decide (row.expiresAt ≤ now) || row.hash != input.successor row.id then .invalid
        else .recovered row.id (input.successor row.id) (row.expiresAt - now)
      else if now - predecessor.rotatedAt < config.reuseGraceMs then .superseded
      else .reused row.userId row.id
    else .reused row.userId row.id
  | none => .reused row.userId row.id

def RefreshResult.isReused : RefreshResult → Bool
  | .reused _ _ => true
  | _ => false

/-! ## Transactions -/

/-- How far a transaction has come.  `active` are the rows a trim has locked so far, `todo` those it has
yet to lock. -/
inductive SessionPhase where
  | loginLocked (userId : Nat)
  | loginTimed (userId now : Nat)
  | loginPurged (userId now : Nat) (purged : List Nat)
  | loginTrim (userId now : Nat) (purged active todo : List Nat)
  | currentScanned (input : RefreshInput) (candidate : Option (Nat × Bool))
  | rotateLocked (input : RefreshInput) (row : SessionRow)
  | rotateTimed (input : RefreshInput) (row : SessionRow) (now : Nat)
  | rotateTrim (input : RefreshInput) (row : SessionRow) (now : Nat) (active todo : List Nat)
  | retiredScanning (input : RefreshInput)
  | retiredScanned (input : RefreshInput) (candidate : Nat) (userActive : Bool)
  | retiredLocked (input : RefreshInput) (row : SessionRow) (userActive : Bool)

/-- A refresh call that was answered.  `retiredIn` is the session that had the presented token among its
retired ones at that moment, `deleted` whether that session is gone after it. -/
structure RefreshAnswer where
  input : RefreshInput
  now : Nat
  retiredIn : Option SessionRow
  result : RefreshResult
  deleted : Bool

/-- The committed session tables and the clock of the database.  `next` is the id of the next session;
`retirements` and `answers` keep what has happened. -/
structure RefreshTables where
  clock : Nat
  sessions : List SessionRow
  ancestors : List AncestorRow
  next : Nat
  retirements : List AncestorRow
  answers : List RefreshAnswer

/-- The tables, the transactions under way and the rows they have locked. -/
structure RefreshWorld extends RefreshTables where
  users : List SessionUser
  transactions : Nat → Option SessionPhase
  locks : Nat → Option Nat
  userLocks : Nat → Option Nat

inductive RefreshLabel where
  | tick (time : Nat)
  /-- A user is added or changed. -/
  | setUser (user : SessionUser)
  /-- A session ends by a logout or a revocation. -/
  | remove (sessionId : Nat)
  | login (transaction userId : Nat) (snapshot : Option LoginCredentialSnapshot)
  | refresh (transaction : Nat) (input : RefreshInput)
  /-- The next statement of a transaction. -/
  | advance (transaction : Nat)
  /-- A transaction fails: nothing of it is written. -/
  | abort (transaction : Nat)

namespace RefreshTables

def find (tables : RefreshTables) (sessionId : Nat) : Option SessionRow :=
  tables.sessions.find? fun row => row.id == sessionId

/-- Delete sessions; their ancestors go with them. -/
def deleteSessions (tables : RefreshTables) (ids : List Nat) : RefreshTables :=
  { tables with
    sessions := deleteWhere tables.sessions fun row => ids.contains row.id
    ancestors := deleteWhere tables.ancestors fun row => ids.contains row.sessionId }

/-- The session that has a token among its retired ones. -/
def retiredIn (tables : RefreshTables) (hash : Token) : Option SessionRow :=
  (tables.ancestors.find? fun row => row.hash == hash).bind fun row => tables.find row.sessionId

/-- Note an answer, as the tables were and as they are now. -/
def note (before after : RefreshTables) (input : RefreshInput) (now : Nat) (result : RefreshResult) : RefreshTables :=
  { after with answers :=
      { input, now, retiredIn := before.retiredIn input.hash, result
        deleted := (before.retiredIn input.hash).elim false fun row => (after.find row.id).isNone } ::
        after.answers }

/-- What `issueRefreshSession` commits. -/
def issue (config : RefreshConfig) (tables : RefreshTables) (userId now : Nat) (purged active : List Nat) :
    RefreshTables :=
  let trimmed := tables.deleteSessions (purged ++ overflow active (config.maximumSessions - 1))
  { trimmed with
    sessions := loginRow config tables.next userId now :: trimmed.sessions
    next := tables.next + 1 }

/-- The row a rotation updates. -/
def isCurrent (input : RefreshInput) (sessionId : Nat) (row : SessionRow) : Bool :=
  row.id == sessionId && row.hash == input.hash

/-- What `rotateRefreshSession` writes for a token that was current. -/
def rotate (config : RefreshConfig) (order : Token → Nat) (tables : RefreshTables) (input : RefreshInput)
    (row : SessionRow) (now : Nat) (active : List Nat) : RefreshTables :=
  let trimmed := tables.deleteSessions (overflow active (config.maximumSessions - 1))
  let retired : AncestorRow := { hash := input.hash, sessionId := row.id, retiredAt := now }
  { trimmed with
    ancestors := retireRefreshHash order trimmed.ancestors retired config.retainedAncestors
    sessions := updateWhere trimmed.sessions (isCurrent input row.id) (rotateRow config input now)
    retirements := retired :: tables.retirements }

/-- What `rotateRefreshSession` returns for it. -/
def rotationResult (config : RefreshConfig) (tables : RefreshTables) (input : RefreshInput)
    (row : SessionRow) (now : Nat) (active : List Nat) : RefreshResult :=
  let trimmed := tables.deleteSessions (overflow active (config.maximumSessions - 1))
  if trimmed.sessions.any (isCurrent input row.id) then
    .rotated row.id (input.successor row.id) (rotatedExpiry config row now - now)
  else .invalid

/-- What `resolveRetiredRefreshToken` writes: a session whose token was reused is deleted. -/
def resolve (tables : RefreshTables) (row : SessionRow) (result : RefreshResult) : RefreshTables :=
  if result.isReused then tables.deleteSessions [row.id] else tables

end RefreshTables

namespace RefreshWorld

def userActive (world : RefreshWorld) (userId : Nat) : Bool :=
  (world.users.find? fun user => user.id == userId).elim false SessionUser.active

/-- Another transaction holds the row. -/
def heldByOther (world : RefreshWorld) (transaction sessionId : Nat) : Bool :=
  (world.locks sessionId).elim false fun owner => owner != transaction

def setPhase (world : RefreshWorld) (transaction : Nat) (phase : SessionPhase) : RefreshWorld :=
  { world with transactions := Function.update world.transactions transaction (some phase) }

def lock (world : RefreshWorld) (transaction : Nat) (sessionIds : List Nat) : RefreshWorld :=
  { world with locks := fun id => if sessionIds.contains id then some transaction else world.locks id }

/-- The transaction commits what it has written, and its locks are free. -/
def commit (world : RefreshWorld) (transaction : Nat) (tables : RefreshTables) : RefreshWorld where
  toRefreshTables := tables
  users := world.users
  transactions := Function.update world.transactions transaction none
  locks id := if world.locks id = some transaction then none else world.locks id
  userLocks id := if world.userLocks id = some transaction then none else world.userLocks id

/-- A refresh call commits and answers. -/
def answer (world : RefreshWorld) (transaction : Nat) (tables : RefreshTables) (input : RefreshInput)
    (now : Nat) (result : RefreshResult) : RefreshWorld :=
  world.commit transaction (world.toRefreshTables.note tables input now result)

/-- The next row of a trim: `none` while another transaction holds it, or whether it is still one. -/
def trimLock (world : RefreshWorld) (transaction sessionId userId now : Nat) (preserved : Option Nat) : Option Bool :=
  if world.heldByOther transaction sessionId then none
  else some ((world.find sessionId).elim false fun row => row.trims userId now preserved)

/-- The next statement of a transaction. -/
def advance (config : RefreshConfig) (order : Token → Nat) (world : RefreshWorld) (transaction : Nat) :
    SessionPhase → Option RefreshWorld
  | .loginLocked userId => some (world.setPhase transaction (.loginTimed userId world.clock))
  | .loginTimed userId now =>
    let purged := purgeCandidates world.sessions (fun id => (world.locks id).isSome) now
    some ((world.lock transaction purged).setPhase transaction (.loginPurged userId now purged))
  | .loginPurged userId now purged =>
    some (world.setPhase transaction
      (.loginTrim userId now purged [] (trimCandidates world.sessions userId now none)))
  | .loginTrim userId now purged active (id :: todo) =>
    (world.trimLock transaction id userId now none).map fun stays =>
      if stays then
        (world.lock transaction [id]).setPhase transaction (.loginTrim userId now purged (active ++ [id]) todo)
      else world.setPhase transaction (.loginTrim userId now purged active todo)
  | .loginTrim userId now purged active [] =>
    some (world.commit transaction (world.issue config userId now purged active))
  | .currentScanned input none => some (world.setPhase transaction (.retiredScanning input))
  | .currentScanned input (some (id, userActive)) =>
    if world.heldByOther transaction id then none
    else
      match world.find id with
      | some row =>
        if row.hash == input.hash && !row.revoked then
          if userActive then
            some ((world.lock transaction [id]).setPhase transaction (.rotateLocked input row))
          else some (world.answer transaction world.toRefreshTables input world.clock .invalid)
        else some (world.setPhase transaction (.retiredScanning input))
      | none => some (world.setPhase transaction (.retiredScanning input))
  | .rotateLocked input row =>
    -- the time is sampled only after the row lock
    let now := world.clock
    let throttle := rotationThrottleMs config order world.ancestors row.id now
    if row.expiresAt ≤ now ∨ row.createdAt + config.absoluteMs ≤ now then
      some (world.answer transaction (world.deleteSessions [row.id]) input now .invalid)
    else if 0 < throttle then
      some (world.answer transaction world.toRefreshTables input now (.throttled throttle))
    else some (world.setPhase transaction (.rotateTimed input row now))
  | .rotateTimed input row now =>
    some (world.setPhase transaction
      (.rotateTrim input row now [] (trimCandidates world.sessions row.userId now (some row.id))))
  | .rotateTrim input row now active (id :: todo) =>
    (world.trimLock transaction id row.userId now (some row.id)).map fun stays =>
      if stays then
        (world.lock transaction [id]).setPhase transaction (.rotateTrim input row now (active ++ [id]) todo)
      else world.setPhase transaction (.rotateTrim input row now active todo)
  | .rotateTrim input row now active [] =>
    some (world.answer transaction (world.rotate config order input row now active) input now
      (world.rotationResult config input row now active))
  | .retiredScanning input =>
    match world.retiredIn input.hash with
    | some row =>
      if row.revoked then
        some (world.answer transaction world.toRefreshTables input world.clock .invalid)
      else some (world.setPhase transaction (.retiredScanned input row.id (world.userActive row.userId)))
    | none => some (world.answer transaction world.toRefreshTables input world.clock .invalid)
  | .retiredScanned input id userActive =>
    if world.heldByOther transaction id then none
    else
      match world.find id with
      | some row =>
        if row.revoked then
          some (world.answer transaction world.toRefreshTables input world.clock .invalid)
        else some ((world.lock transaction [id]).setPhase transaction (.retiredLocked input row userActive))
      | none => some (world.answer transaction world.toRefreshTables input world.clock .invalid)
  | .retiredLocked input row userActive =>
    let result := resolveRetired config input row userActive world.clock
    some (world.answer transaction (world.resolve row result) input world.clock result)

def step (config : RefreshConfig) (order : Token → Nat) (world : RefreshWorld) : RefreshLabel → Option RefreshWorld
  | .tick time => if world.clock ≤ time then some { world with clock := time } else none
  | .setUser user =>
    if (world.userLocks user.id).isSome then none
    else some { world with users := user :: world.users.filter fun other => other.id != user.id }
  | .remove sessionId =>
    if (world.locks sessionId).isSome then none
    else some { world with toRefreshTables := world.deleteSessions [sessionId] }
  | .login transaction userId snapshot =>
    if (world.transactions transaction).isSome || (world.userLocks userId).isSome then none
    else
      match world.users.find? fun user => user.id == userId with
      | none => some world
      | some user =>
        if !user.active then some world
        else if snapshot.elim false fun credentials =>
            credentials.passwordHash != user.passwordHash || credentials.authVersion != user.authVersion then some world
        else some ({ world with
          userLocks := Function.update world.userLocks userId (some transaction) }.setPhase transaction
            (.loginLocked userId))
  | .refresh transaction input =>
    if (world.transactions transaction).isSome then none
    else
      let current := world.sessions.find? fun row => row.hash == input.hash && !row.revoked
      some (world.setPhase transaction (.currentScanned input
        (current.map fun row => (row.id, world.userActive row.userId))))
  | .advance transaction =>
    (world.transactions transaction).bind (world.advance config order transaction)
  | .abort transaction => some (world.commit transaction world.toRefreshTables)

/-- Nobody has logged in yet. -/
def initial (users : List SessionUser) (clock : Nat) : RefreshWorld where
  clock
  sessions := []
  ancestors := []
  next := 0
  retirements := []
  answers := []
  users
  transactions _ := none
  locks _ := none
  userLocks _ := none

end RefreshWorld

end Nyabase.Backend
