import Nyabase.Backend.IamPolicy

/-!
# Console sessions and the authority they were created under

`createExecSession` checks the access in a transaction, creates the session in memory and writes the audit entry; the
browser then claims the session over a socket.  A change of the user's role, status or password is committed first and
signalled afterwards (`afterCommit`), by a step of the user's generation.  A session remembers the generation of its
creation, not that of its access check.

The store is shared with other keys, so a new key may find it full at any time.  What a session carries for the exec
(command, size, whether an administrator opened it) is left out.
-/

namespace Nyabase.Backend

open Lib Option Function

structure ConsoleUser where
  role : Role
  status : UserStatus
  authVersion : Nat

/-- A container with its route, as far as a console reads them. -/
structure ConsoleContainer where
  ownerId : Uuid
  /-- the owner's grant covers the server -/
  granted : Bool
  serverId : Uuid
  instanceName : String
  active : Bool
  running : Bool

/-- `createExecSession` after its access check. -/
structure ExecRequest where
  actorId : Uuid
  authVersion : Nat
  containerId : Uuid
  /-- the changes of the actor committed when the access was checked; no operation reads this -/
  checked : Nat
  sessionId : Option Nat

structure ConsoleSession where
  sessionId : Nat
  actorId : Uuid
  authVersion : Nat
  containerId : Uuid
  serverId : Uuid
  instanceName : String
  revocationGeneration : Nat
  claimed : Bool
  expiresAt : Nat
  /-- that of its request; no operation reads this -/
  checked : Nat

structure EphemeralEntry (α : Type) where
  value : α
  expiresAt : Nat

structure ConsoleWorld where
  now : Nat
  users : Uuid → ConsoleUser
  containers : Uuid → Option ConsoleContainer
  generations : Uuid → Nat
  /-- committed changes whose `revoke` has not run -/
  due : List Uuid
  requests : Nat → Option ExecRequest
  /-- `randomUUID`: an id never used before -/
  nextSession : Nat
  sessions : Nat → Option (EphemeralEntry ConsoleSession)
  claims : Nat → Option (EphemeralEntry Uuid)
  /-- the user and the version a socket has authenticated with -/
  sockets : Nat → Option (Uuid × Nat)
  /-- how often a user's authority was changed; no operation reads this -/
  changes : Uuid → Nat
  /-- the sessions claimed so far; no operation reads this -/
  claimedIds : List Nat

inductive ConsoleLabel where
  | tick (now : Nat)
  /-- `updateUser` or a change of the own password commits -/
  | update (user : Uuid) (role : Role) (status : UserStatus) (password : Bool)
  | delete (user : Uuid)
  | revoke (user : Uuid)
  | setContainer (id : Uuid) (container : Option ConsoleContainer)
  /-- the access check of a request commits; `admin` is the scope `all` -/
  | check (request : Nat) (actorId : Uuid) (authVersion : Nat) (containerId : Uuid) (admin : Bool)
  | create (request : Nat) (stored : Bool)
  | audit (request : Nat) (written : Bool)
  | validate (socket : Nat) (user : Uuid) (version : Nat)
  | claim (socket id : Nat) (claimStored sessionStored : Bool)
  /-- `claim` reads the container -/
  | settle (id : Nat)
  | release (id : Nat)

def unclaimedTtlMs : Nat := 60000

def claimedTtlMs : Nat := 30 * 60000

namespace ConsoleWorld

variable (world : ConsoleWorld)

def initial (users : Uuid → ConsoleUser) (containers : Uuid → Option ConsoleContainer) : ConsoleWorld :=
  ⟨0, users, containers, fun _ => 0, [], fun _ => none, 0, fun _ => none, fun _ => none, fun _ => none, fun _ => 0, []⟩

/-- `EphemeralStore.get`. -/
def live {α : Type} (entries : Nat → Option (EphemeralEntry α)) (id : Nat) : Option α :=
  ((entries id).filter fun entry => decide (world.now < entry.expiresAt)).map EphemeralEntry.value

def isRevoked (session : ConsoleSession) : Bool :=
  decide (world.generations session.actorId ≠ session.revocationGeneration)

def released (id : Nat) : ConsoleWorld :=
  { world with
    sessions := update world.sessions id none
    claims := update world.claims id none }

/-- The commit of a user's row; a change of the authority leaves a signal to give. -/
def commitUser (id : Uuid) (row : ConsoleUser) (signal : Bool) : ConsoleWorld :=
  let next := { world with users := update world.users id row }
  if signal then
    { next with
      due := id :: world.due
      changes := update world.changes id (world.changes id + 1) }
  else next

/-- `assertCanAccess` and `enforceInTransaction`. -/
def admits (actorId : Uuid) (container : ConsoleContainer) (admin : Bool) : Bool :=
  container.running &&
    if admin then
      decide ((world.users actorId).status = .active) && roleAtLeast (world.users actorId).role .userAdmin
    else decide (container.ownerId = actorId) && container.granted

def newSession (request : ExecRequest) (container : ConsoleContainer) : ConsoleSession where
  sessionId := world.nextSession
  actorId := request.actorId
  authVersion := request.authVersion
  containerId := request.containerId
  serverId := container.serverId
  instanceName := container.instanceName
  revocationGeneration := world.generations request.actorId
  claimed := false
  expiresAt := world.now + unclaimedTtlMs
  checked := request.checked

/-- The session that `claim` finds and accepts. -/
def claimable (id : Nat) (actorId : Uuid) (authVersion : Nat) : Option ConsoleSession :=
  (world.live world.sessions id).filter fun session =>
    decide (session.sessionId = id) && decide (session.actorId = actorId) &&
      decide (session.authVersion = authVersion) && !world.isRevoked session && !session.claimed

/-- What `claim` does before it reads the container, and whether it has the session. -/
def claim (id : Nat) (actorId : Uuid) (authVersion : Nat) (claimStored sessionStored : Bool) : ConsoleWorld × Bool :=
  match world.claimable id actorId authVersion with
  | none => (world, false)
  | some session =>
    if (world.live world.claims id).isSome || !claimStored then (world, false)
    else if sessionStored then
      let expiresAt := world.now + claimedTtlMs
      ({ world with
          sessions := update world.sessions id (some ⟨{ session with claimed := true, expiresAt }, expiresAt⟩)
          claims := update world.claims id (some ⟨actorId, expiresAt⟩)
          claimedIds := id :: world.claimedIds }, true)
    else (world.released id, false)

def step : ConsoleLabel → Option ConsoleWorld
  | .tick now => if world.now ≤ now then some { world with now } else none
  | .update id role status password =>
    let old := world.users id
    let securityChanged := password || decide (status ≠ old.status)
    if old.status ∉ [.deleted, .deleting] ∧ status ∉ [.deleted, .deleting] then
      some (world.commitUser id
        ⟨role, status, if securityChanged then old.authVersion + 1 else old.authVersion⟩
        (securityChanged || decide (role ≠ old.role)))
    else none
  | .delete id =>
    if (world.users id).status = .deleted then none
    else some (world.commitUser id { world.users id with status := .deleted } true)
  | .revoke user =>
    if user ∈ world.due then
      some { world with
        due := world.due.erase user
        generations := update world.generations user (world.generations user + 1) }
    else none
  | .setContainer id container => some { world with containers := update world.containers id container }
  | .check request actorId authVersion containerId admin => do
      let container ← world.containers containerId
      if world.requests request = none ∧ world.admits actorId container admin then
        some { world with
          requests := update world.requests request
            (some ⟨actorId, authVersion, containerId, world.changes actorId, none⟩) }
      else none
  | .create index stored => do
      let request ← world.requests index
      let container ← world.containers request.containerId
      if request.sessionId = none ∧ container.active ∧ container.running ∧ stored then
        let session := world.newSession request container
        some { world with
          nextSession := world.nextSession + 1
          requests := update world.requests index (some { request with sessionId := some world.nextSession })
          sessions := update world.sessions world.nextSession (some ⟨session, session.expiresAt⟩) }
      else none
  | .audit index written => do
      let request ← world.requests index
      let id ← request.sessionId
      if written then some world else some (world.released id)
  | .validate socket user version =>
    if (world.users user).status = .active ∧ (world.users user).authVersion = version then
      some { world with sockets := update world.sockets socket (some (user, version)) }
    else none
  | .claim socket id claimStored sessionStored => do
      let (actorId, authVersion) ← world.sockets socket
      some (world.claim id actorId authVersion claimStored sessionStored).1
  | .settle id => do
      let ⟨session, _⟩ ← world.sessions id
      if (world.containers session.containerId).any fun container =>
          decide (container.serverId = session.serverId) && container.active &&
            decide (container.instanceName = session.instanceName) && container.running then some world
      else some (world.released id)
  | .release id => some (world.released id)

/-! ## What every run keeps -/

/-- A session is created while every signal given for its actor is for a change its access check saw; a claim is made
while no committed change of the claimant waits for its signal. -/
def signalled : ConsoleLabel → Bool
  | .create index _ =>
    (world.requests index).all fun request => decide (world.generations request.actorId ≤ request.checked)
  | .claim socket _ _ _ => (world.sockets socket).all fun credential => decide (credential.1 ∉ world.due)
  | _ => true

def signalledStep (world : ConsoleWorld) (label : ConsoleLabel) : Option ConsoleWorld :=
  if world.signalled label then world.step label else none

/-- A stored session: its generation is not beyond its check, and it waits for its first claim or was claimed. -/
structure SessionInv (changes : Uuid → Nat) (claimedIds : List Nat) (nextSession id : Nat)
    (entry : EphemeralEntry ConsoleSession) : Prop where
  used : id < nextSession
  generation : entry.value.revocationGeneration ≤ entry.value.checked
  checked : entry.value.checked ≤ changes entry.value.actorId
  unclaimed : entry.value.claimed = false → id ∉ claimedIds ∧ entry.expiresAt = entry.value.expiresAt

structure Inv (world : ConsoleWorld) : Prop where
  signals : ∀ user, world.changes user = world.generations user + world.due.count user
  requests : ∀ index request, world.requests index = some request → request.checked ≤ world.changes request.actorId
  sessions : ∀ id entry, world.sessions id = some entry →
    SessionInv world.changes world.claimedIds world.nextSession id entry
  claimed : ∀ id ∈ world.claimedIds, id < world.nextSession

variable {world} {next : ConsoleWorld}

theorem Inv.released (h : world.Inv) (id : Nat) : (world.released id).Inv := { h with
  sessions := by
    intro other entry hentry
    rcases update_eq_some hentry with ⟨-, hnone⟩ | ⟨-, hentry⟩
    · cases hnone
    · exact h.sessions other entry hentry }

theorem Inv.commitUser (h : world.Inv) (id : Uuid) (row : ConsoleUser) (signal : Bool) :
    (world.commitUser id row signal).Inv := by
  cases signal with
  | false => exact { h with }
  | true =>
    have hgrow : ∀ user, world.changes user ≤ update world.changes id (world.changes id + 1) user := by
      intro user
      by_cases hsame : user = id
      · subst hsame
        rw [update_self]
        omega
      · rw [update_of_ne hsame]
    refine ⟨fun user => ?_, fun index request hrequest => (h.requests index request hrequest).trans (hgrow _),
      fun other entry hentry => ?_, h.claimed⟩
    · show update world.changes id (world.changes id + 1) user =
        world.generations user + (id :: world.due).count user
      have hsignals := h.signals user
      by_cases hsame : user = id
      · subst hsame
        rw [update_self, List.count_cons_self]
        omega
      · rw [update_of_ne hsame, List.count_cons_of_ne (Ne.symm hsame)]
        exact hsignals
    · have hold := h.sessions other entry hentry
      exact { hold with checked := hold.checked.trans (hgrow _) }

variable {id : Nat} {actorId : Uuid} {authVersion : Nat} {claimStored sessionStored : Bool}

theorem claimable_spec {session : ConsoleSession} (h : world.claimable id actorId authVersion = some session) :
    ∃ expiresAt, world.sessions id = some ⟨session, expiresAt⟩ ∧ world.now < expiresAt ∧ session.actorId = actorId ∧
      world.generations actorId = session.revocationGeneration ∧ session.claimed = false := by
  simp only [claimable, live, filter_eq_some_iff, map_eq_some_iff, Bool.and_eq_true, decide_eq_true_eq,
    Bool.not_eq_true', isRevoked, decide_eq_false_iff_not, not_not] at h
  obtain ⟨⟨entry, ⟨hentry, hfresh⟩, rfl⟩, ⟨⟨⟨⟨-, rfl⟩, -⟩, hgeneration⟩, hclaimed⟩⟩ := h
  exact ⟨entry.expiresAt, hentry, hfresh, rfl, hgeneration, hclaimed⟩

theorem Inv.claim (h : world.Inv) (id : Nat) (actorId : Uuid) (authVersion : Nat) (claimStored sessionStored : Bool) :
    (world.claim id actorId authVersion claimStored sessionStored).1.Inv := by
  unfold ConsoleWorld.claim
  split
  · exact h
  next session hsession =>
  obtain ⟨expiresAt, hentry, -⟩ := claimable_spec hsession
  have hinv := h.sessions id _ hentry
  split
  · exact h
  split
  · refine ⟨h.signals, h.requests, fun other entry hentry => ?_, ?_⟩
    · rcases update_eq_some hentry with ⟨rfl, hvalue⟩ | ⟨hother, hentry⟩
      · cases hvalue
        exact { hinv with unclaimed := nofun }
      · have hold := h.sessions other entry hentry
        refine ⟨hold.used, hold.generation, hold.checked, fun hunclaimed => ⟨?_, (hold.unclaimed hunclaimed).2⟩⟩
        simpa [hother] using (hold.unclaimed hunclaimed).1
    · exact List.forall_mem_cons.mpr ⟨hinv.used, h.claimed⟩
  · exact h.released id

theorem Inv.revoke (h : world.Inv) {user : Uuid} (hdue : user ∈ world.due) :
    ({ world with
      due := world.due.erase user
      generations := update world.generations user (world.generations user + 1) } : ConsoleWorld).Inv := by
  refine { h with signals := fun other => ?_ }
  show world.changes other = update world.generations user (world.generations user + 1) other +
    (world.due.erase user).count other
  have hsignals := h.signals other
  by_cases hsame : other = user
  · subst hsame
    have hpositive := List.count_pos_iff.mpr hdue
    rw [update_self, List.count_erase_self]
    omega
  · rw [update_of_ne hsame, List.count_erase_of_ne hsame]
    exact hsignals

theorem Inv.create (h : world.Inv) {index : Nat} {request : ExecRequest} {container : ConsoleContainer}
    (hrequest : world.requests index = some request)
    (hsignalled : world.generations request.actorId ≤ request.checked) :
    ({ world with
      nextSession := world.nextSession + 1
      requests := update world.requests index (some { request with sessionId := some world.nextSession })
      sessions := update world.sessions world.nextSession
        (some ⟨world.newSession request container, (world.newSession request container).expiresAt⟩) } :
      ConsoleWorld).Inv := by
  have hchecked := h.requests index request hrequest
  refine ⟨h.signals, fun other entry hentry => ?_, fun id entry hentry => ?_, fun id hid => ?_⟩
  · rcases update_eq_some hentry with ⟨-, hvalue⟩ | ⟨-, hentry⟩
    · cases hvalue
      exact hchecked
    · exact h.requests other entry hentry
  · rcases update_eq_some hentry with ⟨rfl, hvalue⟩ | ⟨-, hentry⟩
    · cases hvalue
      refine ⟨Nat.lt_succ_self _, hsignalled, hchecked, fun _ => ⟨fun hmem => ?_, rfl⟩⟩
      exact absurd (h.claimed _ hmem) (Nat.lt_irrefl _)
    · have hold := h.sessions id entry hentry
      exact { hold with used := Nat.lt_succ_of_lt hold.used }
  · exact Nat.lt_succ_of_lt (h.claimed id hid)

theorem Inv.step (h : world.Inv) {label : ConsoleLabel} (hstep : world.signalledStep label = some next) :
    next.Inv := by
  obtain ⟨hsignalled, hstep⟩ := ite_none_right_eq_some.mp hstep
  cases label with
  | tick now =>
    obtain ⟨-, rfl⟩ := of_guard hstep
    exact { h with }
  | update user role status password =>
    obtain ⟨-, rfl⟩ := of_guard hstep
    exact h.commitUser _ _ _
  | delete user =>
    obtain ⟨-, rfl⟩ := of_refusal hstep
    exact h.commitUser _ _ _
  | revoke user =>
    obtain ⟨hdue, rfl⟩ := of_guard hstep
    exact h.revoke hdue
  | setContainer id container =>
    cases hstep
    exact { h with }
  | check index actorId authVersion containerId admin =>
    obtain ⟨container, -, hstep⟩ := bind_eq_some_iff.mp hstep
    split at hstep <;> cases hstep
    refine { h with requests := fun other request hrequest => ?_ }
    rcases update_eq_some hrequest with ⟨-, hvalue⟩ | ⟨-, hrequest⟩
    · cases hvalue
      exact Nat.le_refl _
    · exact h.requests other request hrequest
  | create index stored =>
    obtain ⟨request, hrequest, hstep⟩ := bind_eq_some_iff.mp hstep
    obtain ⟨container, -, hstep⟩ := bind_eq_some_iff.mp hstep
    split at hstep <;> cases hstep
    exact h.create hrequest (by simpa [signalled, hrequest] using hsignalled)
  | audit index written =>
    obtain ⟨request, -, hstep⟩ := bind_eq_some_iff.mp hstep
    obtain ⟨id, -, hstep⟩ := bind_eq_some_iff.mp hstep
    split at hstep <;> cases hstep
    · exact h
    · exact h.released id
  | validate socket user version =>
    obtain ⟨-, rfl⟩ := of_guard hstep
    exact { h with }
  | claim socket id claimStored sessionStored =>
    obtain ⟨credential, -, hstep⟩ := bind_eq_some_iff.mp hstep
    cases hstep
    exact h.claim _ _ _ _ _
  | settle id =>
    obtain ⟨⟨session, _⟩, -, hstep⟩ := bind_eq_some_iff.mp hstep
    dsimp only at hstep
    split at hstep <;> cases hstep
    · exact h
    · exact h.released id
  | release id =>
    cases hstep
    exact h.released id

variable {users : Uuid → ConsoleUser} {containers : Uuid → Option ConsoleContainer} {trace : List ConsoleLabel}

/-- In every run whose steps all meet the condition, a claim has a session only for its actor, before it expires, for
the first time, and if no change of the actor's authority was committed since the access check. -/
theorem claim_needs_unchanged_authority
    (hrun : run signalledStep (initial users containers) trace = some world) {socket : Nat}
    (hsocket : world.sockets socket = some (actorId, authVersion))
    (hsignalled : world.signalled (.claim socket id claimStored sessionStored) = true)
    (hclaim : (world.claim id actorId authVersion claimStored sessionStored).2 = true) :
    ∃ session, world.sessions id = some ⟨session, session.expiresAt⟩ ∧ world.now < session.expiresAt ∧
      session.actorId = actorId ∧ id ∉ world.claimedIds ∧ session.checked = world.changes actorId := by
  have h : world.Inv := run_invariant (fun _ _ _ hinv hstep => hinv.step hstep)
    ⟨fun _ => rfl, by simp [initial], by simp [initial], by simp [initial]⟩ hrun
  unfold claim at hclaim
  split at hclaim
  · cases hclaim
  next session hsession =>
  obtain ⟨expiresAt, hentry, hfresh, rfl, hgeneration, hunclaimed⟩ := claimable_spec hsession
  have hinv := h.sessions id _ hentry
  obtain ⟨hfirst, hexpires⟩ := hinv.unclaimed hunclaimed
  obtain rfl : expiresAt = session.expiresAt := hexpires
  refine ⟨session, hentry, hfresh, rfl, hfirst, ?_⟩
  -- no signal is due, so the generation counts the changes
  have hnone : session.actorId ∉ world.due := by simpa [signalled, hsocket] using hsignalled
  have hchanges := h.signals session.actorId
  rw [List.count_eq_zero.mpr hnone] at hchanges
  have hlow : session.revocationGeneration ≤ session.checked := hinv.generation
  have hhigh : session.checked ≤ world.changes session.actorId := hinv.checked
  omega

/-- User 1 is an administrator, user 2 the owner of the one container. -/
def sampleConsole : ConsoleWorld :=
  initial (fun user => ⟨if user = 1 then .admin else .user, .active, 0⟩)
    fun _ => some ⟨2, true, 9, "nyabase-1", true, true⟩

/-- The owner opens a console with a token of that version. -/
def ownerConsole (version : Nat) : List ConsoleLabel :=
  [.check 0 2 version 7 false, .create 0 true, .audit 0 true, .tick 5, .validate 0 2 version]

/-- They have changed their password before. -/
def changedOwnerConsole : List ConsoleLabel :=
  [.update 2 .user .active true, .revoke 2] ++ ownerConsole 1

theorem owner_console_unchanged :
    ∃ world session, run signalledStep sampleConsole changedOwnerConsole = some world ∧ world.changes 2 = 1 ∧
      world.sessions 0 = some ⟨session, session.expiresAt⟩ ∧ session.checked = world.changes 2 := by
  have hready : (run signalledStep sampleConsole changedOwnerConsole).map (fun world => (world.changes 2,
      world.sockets 0, world.signalled (.claim 0 0 true true), (world.claim 0 2 1 true true).2)) =
    some (1, some (2, 1), true, true) := by decide +kernel
  obtain ⟨world, hworld, hready⟩ := map_eq_some_iff.mp hready
  simp only [Prod.mk.injEq] at hready
  obtain ⟨hchanges, hsocket, hsignalled, hclaim⟩ := hready
  obtain ⟨session, hsession, -, -, -, hchecked⟩ :=
    claim_needs_unchanged_authority hworld hsocket hsignalled hclaim
  exact ⟨world, session, hworld, hchanges, hsession, hchecked⟩

/-- An administrator is demoted, and that is signalled, between the check and the creation; and a password is changed,
which is not signalled yet, before the claim. -/
theorem claims_after_change :
    ((run step sampleConsole [.check 0 1 0 7 true, .update 1 .user .active false, .revoke 1, .create 0 true,
        .audit 0 true, .validate 0 1 0]).map fun world =>
      ((world.claim 0 1 0 true true).2, (world.sessions 0).map (fun entry => entry.value.checked), world.changes 1)) =
      some (true, some 0, 1) ∧
    ((run step sampleConsole (ownerConsole 0 ++ [.update 2 .user .active true])).map fun world =>
      ((world.claim 0 2 0 true true).2, (world.sessions 0).map (fun entry => entry.value.checked), world.changes 2)) =
      some (true, some 0, 1) := by
  constructor <;> decide +kernel

end ConsoleWorld

end Nyabase.Backend
