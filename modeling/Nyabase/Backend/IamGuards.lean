import Nyabase.Backend.IamPolicy

/-!
# What the guards of the administration are worth

Every transaction that writes `iam.users` holds the IAM lock when it commits, so from the moment a transaction has that
lock the users stay as they are until it ends.  What a read-committed call writes is therefore what its statements make
of one state of the users: the one it commits against.
-/

namespace Nyabase.Backend

open Lib List Option

/-! ## Statements against users that stay as they are -/

namespace IamStatement

/-- What statements write if the users stay as they are. -/
def outcome (users : IamUsers) : IamLocals → List IamStatement → Option (List IamWrite)
  | _, [] => some []
  | locals, statement :: rest =>
      (statement.eval locals users).bind fun locals =>
        (outcome users locals rest).map (statement.writes ++ ·)

variable {users : IamUsers} {locals : IamLocals} {statement : IamStatement} {pre rest : List IamStatement}
  {writes : List IamWrite}

theorem outcome_cons (h : outcome users locals (statement :: rest) = some writes) :
    ∃ next more, statement.eval locals users = some next ∧ outcome users next rest = some more ∧
      writes = statement.writes ++ more := by
  obtain ⟨next, hnext, hrest⟩ := bind_eq_some_iff.mp h
  obtain ⟨more, hmore, rfl⟩ := map_eq_some_iff.mp hrest
  exact ⟨next, more, hnext, hmore, rfl⟩

/-- Only `FOR UPDATE` reads the user that a patch is compared with. -/
theorem eval_user {next : IamLocals} (h : statement.eval locals users = some next)
    (hother : ∀ id refused, statement ≠ .selectForUpdate id refused) : next.user = locals.user := by
  cases statement <;> simp only [eval] at h
  case selectForUpdate id refused => exact absurd rfl (hother id refused)
  all_goals
    try split at h
    all_goals cases h
    all_goals rfl

/-- The statements after some others go through as well. -/
theorem outcome_append (h : outcome users locals (pre ++ rest) = some writes) :
    ∃ next more, outcome users next rest = some more ∧
      ((∀ id refused, .selectForUpdate id refused ∉ pre) → next.user = locals.user) := by
  induction pre generalizing locals writes with
  | nil => exact ⟨locals, writes, h, fun _ => rfl⟩
  | cons statement pre ih =>
    obtain ⟨middle, more, hmiddle, hmore, -⟩ := outcome_cons h
    obtain ⟨next, more, hnext, huser⟩ := ih hmore
    refine ⟨next, more, hnext, fun hnone => ?_⟩
    rw [huser fun id refused hmem => hnone id refused (mem_cons_of_mem _ hmem)]
    exact eval_user hmiddle fun id refused heq => hnone id refused (heq ▸ mem_cons_self)

/-- What is written does not depend on what is read. -/
theorem outcome_writes {statements : List IamStatement} (h : outcome users locals statements = some writes) :
    writes = statements.flatMap IamStatement.writes := by
  induction statements generalizing locals writes with
  | nil => simpa [outcome] using h.symm
  | cons statement rest ih =>
    obtain ⟨next, more, -, hmore, rfl⟩ := outcome_cons h
    rw [ih hmore, flatMap_cons]

theorem holds_of_mem {statements : List IamStatement} {actor : Uuid} {minimum : Role}
    (h : outcome users locals statements = some writes) (hmem : .actorRole actor minimum ∈ statements) :
    users.holds actor minimum = true := by
  obtain ⟨pre, rest, rfl⟩ := append_of_mem hmem
  obtain ⟨next, more, hnext, -⟩ := outcome_append h
  obtain ⟨after, _, hafter, _⟩ := outcome_cons hnext
  by_contra hnot
  simp [eval, hnot] at hafter

/-- `assertCanAdministerUser`: an admin, or a target that is none. -/
theorem administers_of_outcome {actor target : Uuid}
    (h : outcome users locals (assertCanAdministerUser actor target ++ rest) = some writes) :
    users.holds actor .admin = true ∨ ∀ user, users.row target = some user → user.role ≠ .admin := by
  obtain ⟨_, _, _, h, -⟩ := outcome_cons h
  obtain ⟨next, _, hnext, h, -⟩ := outcome_cons h
  obtain ⟨_, _, htarget, _⟩ := outcome_cons h
  simp only [eval] at hnext htarget
  split at hnext
  · next hholds =>
    cases hnext
    by_cases hadmin : (users.row actor).map IamUser.role = some .admin
    · left
      cases hrow : users.row actor <;> simp_all [IamUsers.holds, roleAtLeast]
    · right
      intro user huser htargetAdmin
      simp [hadmin, huser, htargetAdmin] at htarget
  · cases hnext

/-- `assertNotLastAdministrator`: no active admin, or another one. -/
theorem notLast_of_outcome {id : Uuid} {patch : Option UserPatch}
    (h : outcome users locals (assertNotLastAdministrator id patch ++ rest) = some writes)
    (hpatch : ∀ change ∈ patch, locals.user.any change.removes = true)
    (hadmin : (users.row id).any IamUsers.isActiveAdmin = true) : users.hasActiveAdministrator (some id) = true := by
  obtain ⟨_, _, hlock, h, -⟩ := outcome_cons h
  cases hlock
  obtain ⟨_, _, hlast, h, -⟩ := outcome_cons h
  cases hlast
  obtain ⟨_, _, hother, _⟩ := outcome_cons h
  have hall : patch.all (fun change => locals.user.any change.removes) = true := by
    cases patch <;> simp_all
  by_contra hnone
  simp [eval, hall, hadmin, hnone] at hother

end IamStatement

attribute [local simp] IamCall.statements assertActorRole assertCanAdministerUser assertNotLastAdministrator
  IamStatement.writes

def IamCall.outcome (call : IamCall) (users : IamUsers) : Option (List IamWrite) :=
  IamStatement.outcome users .empty call.statements

/-! ## What a call may write -/

/-- What anybody but an admin may write: a plain new user, or columns other than the role of a user who is no admin. -/
def IamWrite.Harmless (users : IamUsers) : IamWrite → Prop
  | .insert user => user.role = .user
  | .update id patch => (∀ user, users.row id = some user → user.role ≠ .admin) ∧ patch.role = none

/-- Who asked for the call. -/
def IamCall.actor (call : IamCall) : Option Uuid := call.guard.map Prod.fst

namespace IamCall

open IamStatement

variable {call : IamCall} {users : IamUsers} {writes : List IamWrite}

theorem holds_of_outcome (h : call.outcome users = some writes) {actor : Uuid} {minimum : Role}
    (hguard : call.guard = some (actor, minimum)) : users.holds actor minimum = true := by
  apply holds_of_mem h
  cases call with
  | createUser asker id role =>
    obtain ⟨actor, rfl, heq⟩ := map_eq_some_iff.mp hguard
    cases heq
    simp
  | updateUser actor id patch =>
    cases hguard
    by_cases hrole : patch.role.isSome <;> simp [hrole]
  | promoteBootstrapAdmin id => cases hguard
  | _ =>
    cases hguard
    simp

/-- Behind `assertCanAdministerUser` there is an admin, or a target that is none. -/
theorem administers_of_call (h : call.outcome users = some writes) {actor target : Uuid} {minimum : Role}
    (hguard : call.guard = some (actor, minimum)) (htarget : call.administers = some target) :
    users.holds actor .admin = true ∨ ∀ user, users.row target = some user → user.role ≠ .admin := by
  cases call with
  | updateUser asker id patch =>
    cases hguard
    cases htarget
    obtain ⟨next, more, _, hnext, _⟩ := outcome_cons h
    exact administers_of_outcome hnext
  | deleteUserPermanently asker id | guardedTarget isolation asker id =>
    cases hguard
    cases htarget
    exact administers_of_outcome h
  | createUser | promoteBootstrapAdmin | guarded => cases htarget

/-- Without an active admin behind it a call writes nothing that matters. -/
theorem harmless_of_outcome (h : call.outcome users = some writes) {actor : Uuid} (hactor : call.actor = some actor)
    (hnot : users.holds actor .admin = false) : ∀ write ∈ writes, write.Harmless users := by
  obtain ⟨⟨asked, minimum⟩, hguard, rfl⟩ := map_eq_some_iff.mp hactor
  have hholds := holds_of_outcome h hguard
  rw [outcome_writes h]
  cases call with
  | createUser asker id role =>
    obtain ⟨actor, rfl, heq⟩ := map_eq_some_iff.mp hguard
    cases heq
    by_cases hrole : role = .user
    · simp [IamWrite.Harmless, hrole]
    · simp [hrole, hnot] at hholds
  | updateUser asker id patch =>
    have htarget := (administers_of_call h hguard rfl).resolve_left (by simp [hnot])
    cases hguard
    have hrole : patch.role = none := by
      by_contra hsome
      rw [if_pos (isSome_iff_ne_none.mpr hsome), hnot] at hholds
      cases hholds
    simp [IamWrite.Harmless, hrole]
    exact htarget
  | deleteUserPermanently actor id =>
    have htarget := (administers_of_call h hguard rfl).resolve_left (by simp [hnot])
    simp [IamWrite.Harmless]
    exact htarget
  | promoteBootstrapAdmin id => cases hguard
  | guarded isolation actor minimum => simp
  | guardedTarget isolation actor target =>
    simp

end IamCall

/-! ## The last administrator -/

variable {users : IamUsers}

theorem IamUsers.hasActiveAdministrator_iff {excluded : Option Uuid} : users.hasActiveAdministrator excluded = true ↔
      ∃ user ∈ users, isActiveAdmin user = true ∧ some user.id ≠ excluded := by
  simp [hasActiveAdministrator]

variable {user : IamUser}

/-- An update leaves an active admin if the row stays one or is not the only one. -/
theorem IamUsers.update_keeps (hids : (users.map IamUser.id).Nodup) {id : Uuid} {patch : UserPatch}
    (hrow : ∀ user, users.row id = some user → isActiveAdmin user = true →
      isActiveAdmin (patch.apply user) = true ∨ users.hasActiveAdministrator (some id) = true)
    (h : users.hasActiveAdministrator none = true) :
    ((IamWrite.update id patch).apply users).hasActiveAdministrator none = true := by
  have hother : users.hasActiveAdministrator (some id) = true →
      ((IamWrite.update id patch).apply users).hasActiveAdministrator none = true := by
    intro hsome
    obtain ⟨user, hmem, hadmin, hne⟩ := hasActiveAdministrator_iff.mp hsome
    refine hasActiveAdministrator_iff.mpr ⟨user, mem_map.mpr ⟨user, hmem, ?_⟩, hadmin, by simp⟩
    rw [if_neg fun heq : user.id = id => hne (by rw [heq])]
  obtain ⟨user, hmem, hadmin, -⟩ := hasActiveAdministrator_iff.mp h
  by_cases hid : user.id = id
  · subst hid
    rcases hrow user (find?_key_eq_some hids hmem) hadmin with hkept | hsome
    · exact hasActiveAdministrator_iff.mpr
        ⟨patch.apply user, mem_map.mpr ⟨user, hmem, by rw [if_pos rfl]⟩, hkept, by simp⟩
    · exact hother hsome
  · exact hother (hasActiveAdministrator_iff.mpr ⟨user, hmem, hadmin, by simpa using hid⟩)

theorem UserPatch.apply_isActiveAdmin {patch : UserPatch} (hremoves : patch.removes user = false)
    (hadmin : IamUsers.isActiveAdmin user = true) : IamUsers.isActiveAdmin (patch.apply user) = true := by
  obtain ⟨role, status⟩ := patch
  cases role <;> cases status <;> simp_all [removes, IamUsers.isActiveAdmin, apply]

namespace IamCall

open IamStatement

variable {call : IamCall} {users : IamUsers} {writes : List IamWrite}

/-- A call that commits leaves an active admin where there was one. -/
theorem outcome_keepsAdministrator (hids : (users.map IamUser.id).Nodup) (h : call.outcome users = some writes)
    (hadmin : users.hasActiveAdministrator none = true) :
    IamUsers.hasActiveAdministrator (writes.foldl IamWrite.apply users) none = true := by
  have hwrites := outcome_writes h
  cases call with
  | createUser asker id role =>
    have hone : writes = [.insert ⟨id, role, .active⟩] := by
      cases asker <;> simpa using hwrites
    obtain ⟨user, hmem, huser, -⟩ := IamUsers.hasActiveAdministrator_iff.mp hadmin
    rw [hone]
    exact IamUsers.hasActiveAdministrator_iff.mpr ⟨user, mem_append_left _ hmem, huser, by simp⟩
  | updateUser asker id patch =>
    have hone : writes = [.update id patch] := by
      cases hrole : patch.role <;> simpa [hrole] using hwrites
    rw [hone]
    refine IamUsers.update_keeps hids ?_ hadmin
    intro user hrow huser
    -- the row that was locked is the row that is read
    obtain ⟨locals, more, hselect, hrest, -⟩ := outcome_cons h
    have hlocals : locals.user = some user := by
      simp only [eval, hrow] at hselect
      split at hselect <;> cases hselect
      rfl
    by_cases hremoves : patch.removes user = true
    · right
      rw [append_eq, append_eq, append_eq, append_assoc] at hrest
      obtain ⟨next, last, hlast, hsame⟩ := outcome_append hrest
      refine notLast_of_outcome hlast ?_ (by simp [hrow, huser])
      intro change hchange
      obtain rfl : patch = change := some.inj hchange
      rw [hsame (by cases patch.role <;> simp), hlocals]
      simpa using hremoves
    · exact .inl (patch.apply_isActiveAdmin (by simpa using hremoves) huser)
  | deleteUserPermanently asker id =>
    have hone : writes = [.update id ⟨none, some .deleted⟩] := by
      simpa using hwrites
    rw [hone]
    refine IamUsers.update_keeps hids ?_ hadmin
    intro user hrow huser
    right
    rw [outcome, statements, append_assoc] at h
    obtain ⟨next, last, hlast, -⟩ := outcome_append h
    exact notLast_of_outcome hlast (by simp) (by simp [hrow, huser])
  | promoteBootstrapAdmin id =>
    have hone : writes = [.update id ⟨some .admin, none⟩] := by simpa using hwrites
    rw [hone]
    refine IamUsers.update_keeps hids ?_ hadmin
    intro user _ huser
    left
    simp_all [IamUsers.isActiveAdmin, UserPatch.apply]
  | guarded isolation asker minimum =>
    obtain rfl : writes = [] := by simpa using hwrites
    exact hadmin
  | guardedTarget isolation asker target =>
    obtain rfl : writes = [] := by
      simpa using hwrites
    exact hadmin

end IamCall

/-! ## Transactions -/

/-- Where a transaction without the IAM lock stands: at its start, or `updateUser` with the row it has locked. -/
def IamTx.BeforeLock (state : IamTx) : Prop :=
  state.writes = [] ∧ (state.todo = state.call.statements ∧ state.locals = .empty ∨
    ∃ actor id patch user, state.call = .updateUser actor id patch ∧ user.id = id ∧
      state.todo = state.call.statements.tail ∧ state.locals = { IamLocals.empty with user := some user } ∧
      user.status ∉ [.deleted, .deleting])

structure IamTx.Inv (world : IamWorld) (tx : Nat) (state : IamTx) : Prop where
  before : state.atLock = none → state.BeforeLock
  locked : ∀ users, state.atLock = some users → world.iamLock = some tx ∧ users = world.users
  row : state.call.isolation = .readCommitted → ∀ user, state.locals.user = some user →
    world.rowLocks user.id = some tx ∧ world.users.row user.id = some user
  outcome : state.call.isolation = .readCommitted →
    state.call.outcome world.users = (IamStatement.outcome world.users state.locals state.todo).map (state.writes ++ ·)
  written : state.writes ++ state.todo.flatMap IamStatement.writes = state.call.statements.flatMap IamStatement.writes
  writesRow : ∀ id patch, .update id patch ∈ state.writes → world.rowLocks id = some tx
  accepted : state.call.accepted = true

namespace IamWorld

structure Inv (world : IamWorld) : Prop where
  ids : (world.users.map IamUser.id).Nodup
  txs : ∀ tx state, world.txs tx = some state → state.Inv world tx

variable {world next : IamWorld} {tx other : Nat} {state : IamTx} {label : IamLabel}

/-- A transaction that keeps its locks, while the users stay as they are. -/
theorem inv_frame (h : state.Inv world tx) (husers : next.users = world.users)
    (hlock : world.iamLock = some tx → next.iamLock = some tx)
    (hrows : ∀ id, world.rowLocks id = some tx → next.rowLocks id = some tx) : state.Inv next tx := { h with
  locked users hat := ⟨hlock (h.locked users hat).1, husers ▸ (h.locked users hat).2⟩
  row hlevel user huser := ⟨hrows _ (h.row hlevel user huser).1, husers ▸ (h.row hlevel user huser).2⟩
  outcome hlevel := husers ▸ h.outcome hlevel
  writesRow id patch hwrite := hrows id (h.writesRow id patch hwrite) }

theorem inv_finish (hother : other ≠ tx) (h : state.Inv world other) : state.Inv (world.finish tx) other := by
  refine inv_frame h rfl ?_ ?_
  · intro hlock
    simp [finish, hlock, hother]
  · intro id hlock
    simp [finish, hlock, hother]

variable {statement : IamStatement} {rest : List IamStatement} {locals : IamLocals} {users : IamUsers}

/-- A statement takes no lock that another transaction has. -/
theorem inv_advance_other (hother : other ≠ tx) (h : state.Inv world other) {mine : IamTx}
    (hgrants : world.grants tx statement = true) : state.Inv (world.advance tx mine statement rest locals) other := by
  simp only [grants, Bool.and_eq_true, Bool.or_eq_true, decide_eq_true_eq] at hgrants
  refine inv_frame h rfl ?_ ?_
  · intro hlock
    show (if statement = .lockIamPolicy then some tx else world.iamLock) = some other
    split
    · next hstatement => simp [hstatement, hlock, hother] at hgrants
    · exact hlock
  · intro id hid
    show (if statement.locksRow = some id then some tx else world.rowLocks id) = some other
    split
    · next hlocks =>
      have hfree := hgrants.2
      rw [hlocks] at hfree
      simp [hid, hother] at hfree
    · exact hid

theorem row_id {id : Uuid} (h : users.row id = some user) : user.id = id := by
  have hfound := List.find?_some h
  simpa using hfound

/-- Before its IAM lock a transaction only reads the row it updates. -/
theorem beforeLock_advance (hbefore : state.BeforeLock) (htodo : state.todo = statement :: rest)
    (heval : statement.eval state.locals users = some locals) (hother : statement ≠ .lockIamPolicy) :
    ({ state with todo := rest, locals := locals, writes := state.writes ++ statement.writes } : IamTx).BeforeLock := by
  obtain ⟨hwrites, ⟨hall, hempty⟩ | ⟨actor, id, patch, user, hcall, -, htail, -⟩⟩ := hbefore
  · rw [hall] at htodo
    cases hcall : state.call <;> rw [hcall] at htodo <;> simp only [IamCall.statements, assertCanAdministerUser,
      assertActorRole, cons_append, List.cons.injEq] at htodo <;> obtain ⟨rfl, rfl⟩ := htodo
    case updateUser actor id patch =>
      simp only [IamStatement.eval] at heval
      split at heval
      · cases heval
      next user hrow =>
      split at heval
      · cases heval
      next hstatus =>
      cases heval
      refine ⟨by simp [hwrites], .inr ⟨actor, id, patch, user, rfl, row_id hrow, ?_⟩⟩
      refine ⟨by simp, ?_, hstatus⟩
      rw [hempty]
    all_goals exact absurd rfl hother
  · rw [hcall] at htail
    rw [htail] at htodo
    obtain ⟨rfl, -⟩ := List.cons.inj htodo
    exact absurd rfl hother

theorem inv_advance (h : state.Inv world tx) (htodo : state.todo = statement :: rest)
    (heval : statement.eval state.locals (world.visible state) = some locals) :
    ({ state with
        todo := rest
        locals := locals
        writes := state.writes ++ statement.writes
        atLock := if statement = .lockIamPolicy then state.atLock.or (some world.users) else state.atLock } : IamTx).Inv
      (world.advance tx state statement rest locals) tx := by
  have hkept : ∀ id, world.rowLocks id = some tx →
      (if statement.locksRow = some id then some tx else world.rowLocks id) = some tx := by
    intro id hid
    split
    · rfl
    · exact hid
  constructor
  case before =>
    intro hnone
    by_cases hlock : statement = .lockIamPolicy
    · simp [hlock] at hnone
    · rw [if_neg hlock] at hnone
      exact beforeLock_advance (h.before hnone) htodo heval hlock
  case locked =>
    intro users husers
    by_cases hlock : statement = .lockIamPolicy
    · refine ⟨by simp [advance, hlock], ?_⟩
      show users = world.users
      cases hat : state.atLock with
      | none => simpa [hlock, hat] using husers.symm
      | some old =>
        obtain rfl : old = users := by simpa [hlock, hat] using husers
        exact (h.locked old hat).2
    · rw [if_neg hlock] at husers
      obtain ⟨hheld, hsame⟩ := h.locked users husers
      exact ⟨by simp [advance, hlock, hheld], hsame⟩
  case row =>
    intro hlevel user huser
    have hvisible : world.visible state = world.users := if_pos hlevel
    by_cases hselect : ∃ id refused, statement = .selectForUpdate id refused
    · obtain ⟨id, refused, rfl⟩ := hselect
      simp only [IamStatement.eval, hvisible] at heval
      split at heval
      · cases heval
      next found hfound =>
      split at heval <;> cases heval
      obtain rfl : found = user := some.inj huser
      obtain rfl := row_id hfound
      exact ⟨if_pos rfl, hfound⟩
    · have hsame : locals.user = state.locals.user :=
        IamStatement.eval_user heval fun id refused heq => hselect ⟨id, refused, heq⟩
      obtain ⟨hheld, hrow⟩ := h.row hlevel user (hsame ▸ huser)
      exact ⟨hkept _ hheld, hrow⟩
  case outcome =>
    intro hlevel
    have hbefore := h.outcome hlevel
    have hvisible : world.visible state = world.users := if_pos hlevel
    rw [htodo, IamStatement.outcome, ← hvisible, heval, bind_some, Option.map_map] at hbefore
    rw [hvisible] at hbefore
    refine hbefore.trans ?_
    simp only [Function.comp_def, ← append_assoc]
    rfl
  case written =>
    rw [append_assoc, ← flatMap_cons, ← htodo]
    exact h.written
  case writesRow =>
    intro id patch hwrite
    rcases mem_append.mp hwrite with hold | hnew
    · exact hkept id (h.writesRow id patch hold)
    · cases statement <;> simp only [IamStatement.writes, not_mem_nil, mem_singleton] at hnew
      subst hnew
      exact if_pos rfl
  case accepted => exact h.accepted

/-! ## Commits -/

theorem row_foldl {writes : List IamWrite}
    (hother : ∀ id patch, .update id patch ∈ writes → id ≠ user.id) (hrow : users.row user.id = some user) :
    IamUsers.row (writes.foldl IamWrite.apply users) user.id = some user := by
  induction writes generalizing users with
  | nil => exact hrow
  | cons write rest ih =>
    refine ih (fun id patch hmem => hother id patch (mem_cons_of_mem _ hmem)) ?_
    cases write with
    | insert added => exact List.find?_append.trans (by rw [show users.find? _ = some user from hrow]; rfl)
    | update id patch =>
      have hne : id ≠ user.id := hother id patch mem_cons_self
      obtain ⟨hid, before, after, rfl, hbefore⟩ := List.find?_eq_some_iff_append.mp hrow
      refine List.find?_eq_some_iff_append.mpr ⟨hid, _, _, map_append.trans (by
        rw [map_cons, if_neg hne.symm]), ?_⟩
      intro mapped hmapped
      obtain ⟨found, hfound, rfl⟩ := mem_map.mp hmapped
      have hkeeps : (if found.id = id then patch.apply found else found).id = found.id := by split <;> rfl
      rw [hkeeps]
      exact hbefore found hfound

theorem ids_apply {write : IamWrite} (hids : (users.map IamUser.id).Nodup) (hfree : write.keyFree users = true) :
    ((write.apply users).map IamUser.id).Nodup := by
  cases write with
  | insert user =>
    have hnew : user.id ∉ users.map IamUser.id := by
      simpa [IamWrite.keyFree, IamUsers.row] using hfree
    simpa [IamWrite.apply, nodup_append] using ⟨hids, fun found hfound heq => hnew (heq ▸ mem_map_of_mem hfound)⟩
  | update id patch =>
    have hkeeps : (IamUser.id ∘ fun user => if user.id = id then patch.apply user else user) = IamUser.id := by
      funext user
      show (if user.id = id then patch.apply user else user).id = user.id
      split <;> rfl
    rw [IamWrite.apply, List.map_map, hkeeps]
    exact hids

/-- A transaction that may commit writes what its call makes of the committed users, or nothing. -/
theorem ready_writes (h : state.Inv world tx) (htodo : state.todo = []) :
    state.call.outcome world.users = some state.writes ∨ state.writes = [] := by
  by_cases hlevel : state.call.isolation = .readCommitted
  · left
    simpa [htodo, IamStatement.outcome] using h.outcome hlevel
  · right
    have hwritten := h.written
    cases hcall : state.call <;> simp [hcall, IamCall.isolation] at hlevel <;> simpa [htodo, hcall] using hwritten

theorem writes_cases {call : IamCall} {writes : List IamWrite} (h : call.outcome users = some writes) :
    writes = [] ∨ ∃ write, writes = [write] := by
  rw [IamStatement.outcome_writes h]
  cases call with
  | createUser actor => cases actor <;> simp
  | updateUser actor id patch =>
    cases hrole : patch.role <;> simp [hrole]
  | _ => simp

/-- Whoever has no IAM lock does not notice other users' changes. -/
theorem inv_commit_other (hother : other ≠ tx) (h : state.Inv world other) {mine : IamTx} (hmine : mine.Inv world tx) :
    state.Inv { world.finish tx with users := mine.writes.foldl IamWrite.apply world.users } other := by
  have hend := inv_finish hother h
  by_cases hnil : mine.writes = []
  · rw [hnil]
    exact hend
  -- the committer has the IAM lock
  have hlock : world.iamLock = some tx := by
    cases hat : mine.atLock with
    | none => exact absurd (hmine.before hat).1 hnil
    | some users => exact (hmine.locked users hat).1
  have hnone : state.atLock = none := by
    cases hat : state.atLock with
    | none => rfl
    | some users => exact absurd (some.inj (((h.locked users hat).1.symm).trans hlock)) hother
  have hrow : state.call.isolation = .readCommitted → ∀ user, state.locals.user = some user →
      (world.finish tx).rowLocks user.id = some other ∧
        IamUsers.row (mine.writes.foldl IamWrite.apply world.users) user.id = some user := by
    intro hlevel user huser
    refine ⟨(hend.row hlevel user huser).1, row_foldl ?_ (h.row hlevel user huser).2⟩
    rintro id patch hmem rfl
    have hheld := hmine.writesRow _ patch hmem
    rw [(h.row hlevel user huser).1] at hheld
    exact hother (some.inj hheld)
  constructor
  case before => exact h.before
  case locked => exact fun users husers => absurd (hnone.symm.trans husers) (by simp)
  case row => exact hrow
  case outcome =>
    intro hlevel
    obtain ⟨hwrites, ⟨htodo, hlocals⟩ | ⟨actor, id, patch, user, hcall, rfl, htodo, hlocals, hstatus⟩⟩ := h.before hnone
    · simp [IamCall.outcome, hwrites, htodo, hlocals]
    have hfound := (hrow hlevel user (by rw [hlocals])).2
    simp only [hwrites, htodo, hlocals, hcall, IamCall.outcome, IamCall.statements, cons_append, tail_cons,
      List.nil_append, Option.map_id']
    rw [IamStatement.outcome, IamStatement.eval]
    simp only [hfound, if_neg hstatus, IamStatement.writes, List.nil_append, Option.map_id', bind_some]
  case written => exact h.written
  case writesRow => exact hend.writesRow
  case accepted => exact h.accepted

/-! ## Runs -/

theorem commit_inv (h : world.step tx .commit = some next) :
    ∃ state, world.txs tx = some state ∧ state.todo = [] ∧ state.writes.all (IamWrite.keyFree world.users) = true ∧
      next = { world.finish tx with users := state.writes.foldl IamWrite.apply world.users } := by
  obtain ⟨state, hstate, hrest⟩ := bind_eq_some_iff.mp h
  split at hrest
  · next hready => exact ⟨state, hstate, hready.1, hready.2, (some.inj hrest).symm⟩
  · cases hrest

theorem setTx_txs {value : Option IamTx} {found : IamTx} (h : (world.setTx tx value).txs other = some found) :
    other = tx ∧ value = some found ∨ other ≠ tx ∧ world.txs other = some found := by
  by_cases heq : other = tx
  · exact .inl ⟨heq, by simpa [setTx, heq] using h⟩
  · exact .inr ⟨heq, by simpa [setTx, heq] using h⟩

theorem Inv.finish (h : world.Inv) : (world.finish tx).Inv := by
  refine ⟨h.ids, fun other state hstate => ?_⟩
  rcases setTx_txs hstate with ⟨_, hnone⟩ | ⟨hne, hstate⟩
  · cases hnone
  · exact inv_finish hne (h.txs other state hstate)

/-- Only a transaction's own state is set. -/
theorem Inv.setTx (h : world.Inv) (hstate : state.Inv world tx) : (world.setTx tx (some state)).Inv := by
  refine ⟨h.ids, fun other found hfound => ?_⟩
  rcases setTx_txs hfound with ⟨rfl, heq⟩ | ⟨_, hfound⟩
  · cases heq
    exact inv_frame hstate rfl id fun _ => id
  · exact inv_frame (h.txs other found hfound) rfl id fun _ => id

theorem Inv.step (h : world.Inv) (hstep : world.step tx label = some next) : next.Inv := by
  cases label with
  | «begin» call =>
    simp only [IamWorld.step] at hstep
    split at hstep <;> cases hstep
    next hbegin =>
    exact h.setTx ⟨fun _ => ⟨rfl, .inl ⟨rfl, rfl⟩⟩, by simp, by simp [IamLocals.empty], by simp [IamCall.outcome],
      rfl, by simp, hbegin.2⟩
  | issue =>
    obtain ⟨state, hstate, hrest⟩ := bind_eq_some_iff.mp hstep
    split at hrest <;> cases hrest
    have hold := h.txs tx state hstate
    exact h.setTx { hold with }
  | statement =>
    obtain ⟨state, hstate, hrest⟩ := bind_eq_some_iff.mp hstep
    split at hrest
    · cases hrest
    next statement rest htodo =>
    split at hrest
    next hgranted =>
      split at hrest <;> cases hrest
      · exact h.finish
      next locals heval =>
      refine ⟨h.ids, fun other found hfound => ?_⟩
      rcases setTx_txs hfound with ⟨rfl, heq⟩ | ⟨hne, hfound⟩
      · cases heq
        exact inv_advance (h.txs _ state hstate) htodo heval
      · exact inv_advance_other hne (h.txs other found hfound) hgranted.2
    · cases hrest
  | commit =>
    obtain ⟨state, hstate, htodo, hfree, rfl⟩ := commit_inv hstep
    have hmine := h.txs tx state hstate
    constructor
    case ids =>
      rcases ready_writes hmine htodo with hout | hnil
      · rcases writes_cases hout with hnil | ⟨write, hone⟩
        · simpa [hnil] using h.ids
        · simp only [hone, all_cons, all_nil, Bool.and_true, foldl_cons, foldl_nil] at hfree ⊢
          exact ids_apply h.ids hfree
      · simpa [hnil] using h.ids
    case txs =>
      intro other found hfound
      rcases setTx_txs hfound with ⟨_, hnone⟩ | ⟨hne, hfound⟩
      · cases hnone
      · exact inv_commit_other hne (h.txs other found hfound) hmine
  | abort =>
    obtain ⟨_, _, rfl⟩ := map_eq_some_iff.mp hstep
    exact h.finish

variable {trace : List (Nat × IamLabel)}

theorem inv_of_run (hids : (users.map IamUser.id).Nodup)
    (hrun : run move (init users) trace = some world) : world.Inv :=
  run_invariant (fun _ label _ h hstep => h.step hstep) ⟨hids, fun _ _ h => by cases h⟩ hrun

/-- Every call takes the IAM lock. -/
theorem atLock_of_ready (h : state.Inv world tx) (htodo : state.todo = []) : state.atLock = some world.users := by
  cases hat : state.atLock with
  | some users => rw [(h.locked users hat).2]
  | none =>
    obtain ⟨-, ⟨hall, -⟩ | ⟨actor, id, patch, user, hcall, -, hall, -⟩⟩ := h.before hat
    · rw [htodo] at hall
      cases hcall : state.call <;> simp [hcall] at hall
    · simp [htodo, hcall] at hall

/-- A guarded transaction at read committed commits only if its actor has the role in the users that were committed
when it obtained the IAM lock, which are those it commits against; behind `assertCanAdministerUser` the actor is an
admin there, or the target is none. -/
theorem guarded_commit_authorised {users : IamUsers} (hids : (users.map IamUser.id).Nodup)
    (hrun : run move (init users) trace = some world)
    (hstate : world.txs tx = some state) {actor : Uuid} {minimum : Role}
    (hguard : state.call.guard = some (actor, minimum)) (hlevel : state.call.isolation = .readCommitted)
    (hcommit : world.step tx .commit = some next) :
    state.atLock = some world.users ∧ world.users.holds actor minimum = true ∧
      ∀ target, state.call.administers = some target → world.users.holds actor .admin = true ∨
        ∀ user, world.users.row target = some user → user.role ≠ .admin := by
  have hinv := (inv_of_run hids hrun).txs tx state hstate
  obtain ⟨found, hfound, htodo, -⟩ := commit_inv hcommit
  obtain rfl : state = found := some.inj (hstate.symm.trans hfound)
  have hout := hinv.outcome hlevel
  rw [htodo] at hout
  exact ⟨atLock_of_ready hinv htodo, IamCall.holds_of_outcome hout hguard,
    fun target htarget => IamCall.administers_of_call hout hguard htarget⟩

/-- Two admins, one of whom is about to demote the other. -/
def demotion : Option IamWorld :=
  run move (init [⟨1, .admin, .active⟩, ⟨2, .admin, .active⟩])
    ((0, .begin (.updateUser 1 2 ⟨some .user, none⟩)) :: List.replicate 10 (0, .statement))

theorem demotion_authorised :
    ∃ world next, demotion = some world ∧ world.step 0 .commit = some next ∧ world.users.holds 1 .admin = true ∧
      (world.users.holds 1 .admin = true ∨ ∀ user, world.users.row 2 = some user → user.role ≠ .admin) := by
  have hready : (demotion.bind fun world => (world.txs 0).bind fun state => (world.step 0 .commit).map fun _ =>
      (state.call.guard, state.call.isolation, state.call.administers)) =
      some (some (1, .admin), .readCommitted, some 2) := by decide +kernel
  obtain ⟨world, hworld, hready⟩ := bind_eq_some_iff.mp hready
  obtain ⟨state, hstate, hready⟩ := bind_eq_some_iff.mp hready
  obtain ⟨next, hnext, heq⟩ := map_eq_some_iff.mp hready
  simp only [Prod.mk.injEq] at heq
  obtain ⟨hguard, hlevel, htarget⟩ := heq
  obtain ⟨-, hholds, htargets⟩ := guarded_commit_authorised (by decide) hworld hstate hguard hlevel hnext
  exact ⟨world, next, hworld, hnext, hholds, htargets 2 htarget⟩

/-- A serializable write of the other admin waits for the lock; the demotion commits, and then the write. -/
theorem serializable_guard_passes_demotion : (demotion.bind fun world => (run move world
        [(1, .begin (.guarded .serializable 2 .admin)), (1, .issue), (0, .commit), (1, .statement),
          (1, .statement)]).bind fun world => (world.txs 1).bind fun state => (world.step 1 .commit).map fun _ =>
        (state.call.guard, state.atLock.map fun users => users.holds 2 .admin)) =
      some (some (2, .admin), some false) := by
  decide +kernel

theorem step_users (h : world.step tx label = some next) (hother : label ≠ .commit) : next.users = world.users := by
  cases label with
  | commit => exact absurd rfl hother
  | «begin» call =>
    simp only [step] at h
    split at h <;> cases h
    rfl
  | issue =>
    obtain ⟨state, _, h⟩ := bind_eq_some_iff.mp h
    split at h <;> cases h
    rfl
  | statement =>
    obtain ⟨state, _, h⟩ := bind_eq_some_iff.mp h
    split at h
    · cases h
    · split at h
      · split at h <;> cases h <;> rfl
      · cases h
  | abort =>
    obtain ⟨_, _, rfl⟩ := map_eq_some_iff.mp h
    rfl

/-- An active admin remains. -/
theorem step_keepsAdministrator (h : world.Inv) (hstep : world.step tx label = some next)
    (hadmin : world.users.hasActiveAdministrator none = true) : next.users.hasActiveAdministrator none = true := by
  by_cases hcommit : label = .commit
  · subst hcommit
    obtain ⟨state, hstate, htodo, -, rfl⟩ := commit_inv hstep
    rcases ready_writes (h.txs tx state hstate) htodo with hout | hnil
    · exact IamCall.outcome_keepsAdministrator h.ids hout hadmin
    · simpa [hnil] using hadmin
  · rw [step_users hstep hcommit]
    exact hadmin

/-- Once there is an active admin there always is one.  The commit of a call by anybody who is no active admin then
writes no admin's row, no other role of an existing user, and no new user above plain user. -/
theorem administrators_remain_and_nobody_climbs {users : IamUsers} (hids : (users.map IamUser.id).Nodup)
    (hrun : run move (init users) trace = some world) :
    (world.users.hasActiveAdministrator none = true → ∀ later last, run move world later = some last →
      last.users.hasActiveAdministrator none = true) ∧
    ∀ tx state actor next, world.txs tx = some state → state.call.actor = some actor →
      world.users.holds actor .admin = false → world.step tx .commit = some next →
      next.users = state.writes.foldl IamWrite.apply world.users ∧
        ∀ write ∈ state.writes, write.Harmless world.users := by
  have hinv := inv_of_run hids hrun
  constructor
  · intro hadmin later last hlater
    have hkept : ∀ state label next, IamWorld.Inv state ∧ state.users.hasActiveAdministrator none = true →
        move state label = some next → next.Inv ∧ next.users.hasActiveAdministrator none = true :=
      fun _ _ _ h hstep => ⟨h.1.step hstep, step_keepsAdministrator h.1 hstep h.2⟩
    exact (run_invariant hkept ⟨hinv, hadmin⟩ hlater).2
  · intro tx state actor next hstate hactor hnot hcommit
    obtain ⟨found, hfound, htodo, -, rfl⟩ := commit_inv hcommit
    obtain rfl : state = found := some.inj (hstate.symm.trans hfound)
    refine ⟨rfl, ?_⟩
    rcases ready_writes (hinv.txs tx state hstate) htodo with hout | hnil
    · exact IamCall.harmless_of_outcome hout hactor hnot
    · simp [hnil]

/-- A user administrator is about to disable a plain user. -/
def disabling : Option IamWorld :=
  run move (init [⟨1, .admin, .active⟩, ⟨2, .userAdmin, .active⟩, ⟨3, .user, .active⟩])
    ((0, .begin (.updateUser 2 3 ⟨none, some .disabled⟩)) :: List.replicate 8 (0, .statement))

theorem disabling_leaves_administrator : ∃ world state last, disabling = some world ∧ world.txs 0 = some state ∧
      run move world [(0, .commit)] = some last ∧ last.users.hasActiveAdministrator none = true ∧
      last.users = state.writes.foldl IamWrite.apply world.users ∧
      state.writes = [.update 3 ⟨none, some .disabled⟩] ∧ ∀ write ∈ state.writes, write.Harmless world.users := by
  have hready : (disabling.bind fun world => (world.txs 0).bind fun state => (world.step 0 .commit).map fun _ =>
      (world.users.hasActiveAdministrator none, state.call.actor, world.users.holds 2 .admin, state.writes)) =
      some (true, some 2, false, [.update 3 ⟨none, some .disabled⟩]) := by decide +kernel
  obtain ⟨world, hworld, hready⟩ := bind_eq_some_iff.mp hready
  obtain ⟨state, hstate, hready⟩ := bind_eq_some_iff.mp hready
  obtain ⟨last, hlast, heq⟩ := map_eq_some_iff.mp hready
  simp only [Prod.mk.injEq] at heq
  obtain ⟨hadmin, hactor, hnot, hwrites⟩ := heq
  have hcommitted : run move world [(0, .commit)] = some last := by simpa [run, move] using hlast
  obtain ⟨hremains, hharmless⟩ := administrators_remain_and_nobody_climbs (by decide) hworld
  obtain ⟨husers, hall⟩ := hharmless 0 state 2 last hstate hactor hnot hlast
  exact ⟨world, state, last, hworld, hstate, hcommitted, hremains hadmin _ _ hcommitted, husers, hwrites, hall⟩

/-- A call that runs alone, all its statements at once. -/
def Alone (users next : IamUsers) : Prop :=
  ∃ call : IamCall, call.accepted = true ∧ ∃ writes ∈ call.outcome users,
    writes.all (IamWrite.keyFree users) = true ∧ next = writes.foldl IamWrite.apply users

/-- However transactions interleave, calls that run alone, one after another, lead to the same users. -/
theorem interleavings_serializable (users : { users : IamUsers // (users.map IamUser.id).Nodup }) :
    { found | ∃ trace world, run move (init users) trace = some world ∧ world.users = found } ⊆
      { found | Relation.ReflTransGen Alone users found } := by
  rintro _ ⟨trace, world, hrun, rfl⟩
  have hstart : (init users).Inv := inv_of_run users.2 (show run move _ [] = _ from rfl)
  refine (@run_invariant _ _ _ (fun world => world.Inv ∧ Relation.ReflTransGen Alone users world.users)
    ?_ _ _ _ ⟨hstart, .refl⟩ hrun).2
  rintro world ⟨tx, label⟩ next ⟨hinv, hserial⟩ hstep
  refine ⟨hinv.step hstep, ?_⟩
  by_cases hcommit : label = .commit
  · subst hcommit
    obtain ⟨state, hstate, htodo, hfree, rfl⟩ := commit_inv hstep
    have hmine := hinv.txs tx state hstate
    rcases ready_writes hmine htodo with hout | hnil
    · exact hserial.tail ⟨_, hmine.accepted, _, hout, hfree, rfl⟩
    · simpa [hnil] using hserial
  · rwa [step_users hstep hcommit]

end IamWorld

end Nyabase.Backend
