import Nyabase.Backend.HttpBindings

/-!
# Administration of users: `iam/administration.ts` and `users/users.service.ts`

Every administrative call is a transaction of statements on `iam.users` under PostgreSQL's rules.  The IAM policy lock
is one advisory lock; `FOR UPDATE` and `UPDATE` lock a row; both are held until the transaction ends.  A read-committed
statement sees what is committed when it runs.  The other levels see what was committed when their first statement
was issued, even if that statement then waits for a lock.

The columns are the role and the status; an update of other columns writes neither.  A check that only refuses
(capacity, names, resources still owned) is an abort, which may happen at any time.
-/

namespace Nyabase.Backend

open Lib

inductive UserStatus where
  | active
  | disabled
  | deleting
  | deleted
  deriving DecidableEq

structure IamUser where
  id : Uuid
  role : Role
  status : UserStatus
  deriving DecidableEq

inductive IsolationLevel where
  | readCommitted
  | repeatableRead
  | serializable
  deriving DecidableEq

/-- The authority columns of an `updateUser` request. -/
structure UserPatch where
  role : Option Role
  status : Option UserStatus
  deriving DecidableEq

inductive IamWrite where
  | insert (user : IamUser)
  | update (id : Uuid) (patch : UserPatch)
  deriving DecidableEq

inductive IamStatement where
  | lockIamPolicy
  /-- `SELECT ... FOR UPDATE`, which refuses a missing row and these statuses -/
  | selectForUpdate (id : Uuid) (refused : List UserStatus)
  /-- the `SELECT` of `assertActorRole` -/
  | actorRole (actor : Uuid) (minimum : Role)
  /-- the `SELECT` of `assertCanAdministerUser` -/
  | targetRole (target : Uuid)
  /-- the first `SELECT` of `assertNotLastAdministrator`; for a patch only where it disables or demotes -/
  | lastTarget (id : Uuid) (patch : Option UserPatch)
  /-- `hasActiveAdministrator` without this user -/
  | otherAdministrator (id : Uuid)
  /-- `hasActiveAdministrator`, where one makes the call return -/
  | noAdministrator
  /-- the row of `promoteBootstrapAdmin` -/
  | promotable (id : Uuid)
  | write (write : IamWrite)
  deriving DecidableEq

inductive IamCall where
  /-- `createUser`; without an actor it is the bootstrap's -/
  | createUser (actor : Option Uuid) (id : Uuid) (role : Role)
  | updateUser (actor id : Uuid) (patch : UserPatch)
  | deleteUserPermanently (actor id : Uuid)
  | promoteBootstrapAdmin (id : Uuid)
  /-- any other write behind `assertActorRole` -/
  | guarded (isolation : IsolationLevel) (actor : Uuid) (minimum : Role)
  /-- any other write behind `assertCanAdministerUser` -/
  | guardedTarget (isolation : IsolationLevel) (actor target : Uuid)
  deriving DecidableEq

def assertActorRole (actor : Uuid) (minimum : Role) : List IamStatement :=
  [.lockIamPolicy, .actorRole actor minimum]

def assertCanAdministerUser (actor target : Uuid) : List IamStatement :=
  assertActorRole actor .userAdmin ++ [.targetRole target]

def assertNotLastAdministrator (id : Uuid) (patch : Option UserPatch) : List IamStatement :=
  [.lockIamPolicy, .lastTarget id patch, .otherAdministrator id]

namespace IamCall

/-- The statements of a call that commits. -/
def statements : IamCall → List IamStatement
  | .createUser actor id role =>
    .lockIamPolicy :: (match actor with
      | some actor => assertActorRole actor (if role = .user then .userAdmin else .admin)
      | none => []) ++ [.write (.insert ⟨id, role, .active⟩)]
  | .updateUser actor id patch =>
    .selectForUpdate id [.deleted, .deleting] :: assertCanAdministerUser actor id ++
      (if patch.role.isSome then assertActorRole actor .admin else []) ++
      assertNotLastAdministrator id (some patch) ++ [.write (.update id patch)]
  | .deleteUserPermanently actor id =>
    assertCanAdministerUser actor id ++ [.selectForUpdate id [.deleted]] ++ assertNotLastAdministrator id none ++
      [.write (.update id ⟨none, some .deleted⟩)]
  | .promoteBootstrapAdmin id =>
    [.lockIamPolicy, .noAdministrator, .promotable id, .write (.update id ⟨some .admin, none⟩)]
  | .guarded _ actor minimum => assertActorRole actor minimum
  | .guardedTarget _ actor target => assertCanAdministerUser actor target

/-- `updateUser` refuses the statuses of the `DELETE` endpoint. -/
def accepted : IamCall → Bool
  | .updateUser _ _ patch => decide (patch.status ≠ some .deleted ∧ patch.status ≠ some .deleting)
  | _ => true

def isolation : IamCall → IsolationLevel
  | .guarded isolation _ _ | .guardedTarget isolation _ _ => isolation
  | _ => .readCommitted

/-- Whose authority the call needs, and the least role. -/
def guard : IamCall → Option (Uuid × Role)
  | .createUser actor _ role => actor.map fun actor => (actor, if role = .user then .userAdmin else .admin)
  | .updateUser actor _ patch => some (actor, if patch.role.isSome then .admin else .userAdmin)
  | .deleteUserPermanently actor _ => some (actor, .userAdmin)
  | .promoteBootstrapAdmin _ => none
  | .guarded _ actor minimum => some (actor, minimum)
  | .guardedTarget _ actor _ => some (actor, .userAdmin)

/-- Whom `assertCanAdministerUser` of the call is about. -/
def administers : IamCall → Option Uuid
  | .updateUser _ id _ | .deleteUserPermanently _ id | .guardedTarget _ _ id => some id
  | _ => none

end IamCall

/-! ## Statements -/

abbrev IamUsers := List IamUser

namespace IamUsers

def row (users : IamUsers) (id : Uuid) : Option IamUser := users.find? fun user => user.id == id

def isActiveAdmin (user : IamUser) : Bool := decide (user.role = .admin) && decide (user.status = .active)

/-- `hasActiveAdministrator`. -/
def hasActiveAdministrator (users : IamUsers) (excluded : Option Uuid) : Bool :=
  users.any fun user => isActiveAdmin user && decide (some user.id ≠ excluded)

/-- The user is active and holds at least this role. -/
def holds (users : IamUsers) (actor : Uuid) (minimum : Role) : Bool :=
  (users.row actor).any fun user => decide (user.status = .active) && roleAtLeast user.role minimum

end IamUsers

/-- What a transaction has read. -/
structure IamLocals where
  user : Option IamUser
  actorRole : Option Role
  lastTarget : Bool

def IamLocals.empty : IamLocals := ⟨none, none, false⟩

/-- The patch disables the user or changes the role. -/
def UserPatch.removes (patch : UserPatch) (user : IamUser) : Bool :=
  decide (user.status = .active ∧ patch.status ≠ none ∧ patch.status ≠ some .active) ||
    decide (patch.role ≠ none ∧ patch.role ≠ some user.role)

/-- What a statement reads of these users; `none` is a refusal. -/
def IamStatement.eval (locals : IamLocals) (users : IamUsers) : IamStatement → Option IamLocals
  | .lockIamPolicy | .write _ => some locals
  | .selectForUpdate id refused =>
    match users.row id with
    | none => none
    | some user => if user.status ∈ refused then none else some { locals with user := some user }
  | .actorRole actor minimum =>
    if users.holds actor minimum then some { locals with actorRole := (users.row actor).map IamUser.role } else none
  | .targetRole target =>
    if locals.actorRole ≠ some .admin ∧ (users.row target).map IamUser.role = some .admin then none else some locals
  | .lastTarget id patch =>
    some { locals with
      lastTarget := patch.all (fun patch => locals.user.any patch.removes) &&
        (users.row id).any IamUsers.isActiveAdmin }
  | .otherAdministrator id =>
    if locals.lastTarget && !users.hasActiveAdministrator (some id) then none else some locals
  | .noAdministrator => if users.hasActiveAdministrator none then none else some locals
  | .promotable id =>
    if (users.row id).any fun user => decide (user.status = .active) && decide (user.role ≠ .admin) then some locals
    else none

def IamStatement.writes : IamStatement → List IamWrite
  | .write entry => [entry]
  | _ => []

def IamStatement.locksRow : IamStatement → Option Uuid
  | .selectForUpdate id _ | .write (.update id _) => some id
  | _ => none

def UserPatch.apply (patch : UserPatch) (user : IamUser) : IamUser :=
  { user with role := patch.role.getD user.role, status := patch.status.getD user.status }

def IamWrite.apply (users : IamUsers) : IamWrite → IamUsers
  | .insert user => users ++ [user]
  | .update id patch => users.map fun user => if user.id = id then patch.apply user else user

/-- The primary key. -/
def IamWrite.keyFree (users : IamUsers) : IamWrite → Bool
  | .insert user => (users.row user.id).isNone
  | .update _ _ => true

/-! ## Transactions -/

structure IamTx where
  call : IamCall
  todo : List IamStatement
  locals : IamLocals
  /-- what the first statement fixed, above read committed -/
  snapshot : Option IamUsers
  writes : List IamWrite
  /-- the committed users when it obtained the IAM lock; no operation reads this -/
  atLock : Option IamUsers

structure IamWorld where
  users : IamUsers
  iamLock : Option Nat
  rowLocks : Uuid → Option Nat
  txs : Nat → Option IamTx

inductive IamLabel where
  | begin (call : IamCall)
  /-- the first statement is issued -/
  | issue
  | statement
  | commit
  | abort
  deriving DecidableEq

namespace IamWorld

variable (world : IamWorld)

def init (users : IamUsers) : IamWorld := ⟨users, none, fun _ => none, fun _ => none⟩

def setTx (tx : Nat) (state : Option IamTx) : IamWorld :=
  { world with txs := fun other => if other = tx then state else world.txs other }

/-- The end of a transaction. -/
def finish (tx : Nat) : IamWorld :=
  { world.setTx tx none with
    iamLock := if world.iamLock = some tx then none else world.iamLock
    rowLocks := fun id => if world.rowLocks id = some tx then none else world.rowLocks id }

/-- The locks a statement needs are free, or the transaction has them. -/
def grants (tx : Nat) (statement : IamStatement) : Bool :=
  (decide (statement ≠ .lockIamPolicy) || decide (world.iamLock = none) || decide (world.iamLock = some tx)) &&
    statement.locksRow.all fun id => decide (world.rowLocks id = none) || decide (world.rowLocks id = some tx)

/-- What the transaction's statements see. -/
def visible (state : IamTx) : IamUsers :=
  if state.call.isolation = .readCommitted then world.users else state.snapshot.getD world.users

/-- A statement that runs. -/
def advance (tx : Nat) (state : IamTx) (statement : IamStatement) (rest : List IamStatement) (locals : IamLocals) :
    IamWorld :=
  { world.setTx tx (some { state with
      todo := rest
      locals := locals
      writes := state.writes ++ statement.writes
      atLock := if statement = .lockIamPolicy then state.atLock.or (some world.users) else state.atLock }) with
    iamLock := if statement = .lockIamPolicy then some tx else world.iamLock
    rowLocks := fun id => if statement.locksRow = some id then some tx else world.rowLocks id }

def step (tx : Nat) : IamLabel → Option IamWorld
  | .begin call =>
    if world.txs tx = none ∧ call.accepted then
      some (world.setTx tx (some ⟨call, call.statements, .empty, none, [], none⟩))
    else none
  | .issue => do
      let state ← world.txs tx
      if state.call.isolation ≠ .readCommitted ∧ state.snapshot = none then
        some (world.setTx tx (some { state with snapshot := some world.users }))
      else none
  | .statement => do
      let state ← world.txs tx
      match state.todo with
      | [] => none
      | statement :: rest =>
        if (state.call.isolation = .readCommitted ∨ state.snapshot ≠ none) ∧ world.grants tx statement then
          match statement.eval state.locals (world.visible state) with
          | none => some (world.finish tx)
          | some locals => some (world.advance tx state statement rest locals)
        else none
  | .commit => do
      let state ← world.txs tx
      if state.todo = [] ∧ state.writes.all (IamWrite.keyFree world.users) then
        some { world.finish tx with users := state.writes.foldl IamWrite.apply world.users }
      else none
  | .abort => (world.txs tx).map fun _ => world.finish tx

/-- A step of some transaction. -/
def move (label : Nat × IamLabel) : Option IamWorld := world.step label.1 label.2

end IamWorld

end Nyabase.Backend
