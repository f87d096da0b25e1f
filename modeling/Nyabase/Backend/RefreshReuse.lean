import Nyabase.Backend.RefreshTables

/-!
# Reuse of a refresh token is caught

The invariant has two parts.  What holds of the tables does not depend on who runs; it is kept by every
commit.  What a transaction relies on between its statements is kept by the steps of the others, because they
write only rows they have locked (`Frame`).
-/

namespace Nyabase.Backend

open Lib RefreshTables List Option Function

namespace RefreshWorld

variable {config : RefreshConfig} {order : Token → Nat} {world next before after : RefreshWorld}

/-! ## What a transaction relies on -/

/-- The row is as the transaction has read it, and locked. -/
def Holds (world : RefreshWorld) (transaction : Nat) (row : SessionRow) : Prop :=
  row ∈ world.sessions ∧ world.locks row.id = some transaction

/-- The rows are locked. -/
def HoldsAll (world : RefreshWorld) (transaction : Nat) (ids : List Nat) : Prop :=
  ∀ id ∈ ids, world.locks id = some transaction

/-- The login has its user locked, and sampled its time. -/
def LogsIn (world : RefreshWorld) (transaction userId now : Nat) : Prop :=
  world.userLocks userId = some transaction ∧ now ≤ world.clock

/-- The live sessions of a user are among these. -/
def Covers (world : RefreshWorld) (userId now : Nat) (ids : List Nat) : Prop :=
  ∀ row ∈ world.sessions, row.userId = userId → row.live now = true → row.id ∈ ids

/-- The rotation may go on: the token is current, and what it evicts is old enough. -/
def Rotates (config : RefreshConfig) (order : Token → Nat) (world : RefreshWorld) (transaction : Nat)
    (input : RefreshInput) (row : SessionRow) (now : Nat) : Prop :=
  world.Holds transaction row ∧ row.hash = input.hash ∧ now ≤ world.clock ∧
    rotationThrottleMs config order world.ancestors row.id now = 0

/-- What a transaction knows at each point. -/
def PhaseInv (config : RefreshConfig) (order : Token → Nat) (world : RefreshWorld) (transaction : Nat) :
    SessionPhase → Prop
  | .loginLocked userId => world.LogsIn transaction userId 0
  | .loginTimed userId now => world.LogsIn transaction userId now
  | .loginPurged userId now purged => world.LogsIn transaction userId now ∧ world.HoldsAll transaction purged
  | .loginTrim userId now purged active todo =>
    world.LogsIn transaction userId now ∧ world.HoldsAll transaction (purged ++ active) ∧
      world.Covers userId now (active ++ todo)
  | .currentScanned _ _ => True
  | .rotateLocked input row => world.Holds transaction row ∧ row.hash = input.hash
  | .rotateTimed input row now => Rotates config order world transaction input row now
  | .rotateTrim input row now active _ =>
    Rotates config order world transaction input row now ∧ world.HoldsAll transaction active ∧
      ∀ id ∈ active, id ≠ row.id
  | .retiredScanning _ => True
  | .retiredScanned input id _ => id = input.hash.root
  | .retiredLocked input row _ => world.Holds transaction row ∧ row.id = input.hash.root

structure Inv (config : RefreshConfig) (order : Token → Nat) (world : RefreshWorld) : Prop where
  tables : TablesInv config world.toRefreshTables
  phases : ∀ transaction phase, world.transactions transaction = some phase →
    PhaseInv config order world transaction phase

/-! ## What a step leaves to the others -/

/-- A step of a transaction, or of nobody: what the others have locked stays as it is, and a session they
have not seen live does not become live, but for a new one of a user whose row the step has locked. -/
structure Frame (actor : Option Nat) (before after : RefreshWorld) : Prop where
  clock : before.clock ≤ after.clock
  transactions : ∀ other, some other ≠ actor → after.transactions other = before.transactions other
  locks : ∀ id other, some other ≠ actor → before.locks id = some other → after.locks id = some other
  userLocks : ∀ id other, some other ≠ actor → before.userLocks id = some other → after.userLocks id = some other
  sessions : ∀ row ∈ before.sessions, ∀ other, some other ≠ actor → before.locks row.id = some other →
    row ∈ after.sessions
  ancestors : ∀ id other, some other ≠ actor → before.locks id = some other →
    after.ancestors.filter (fun row => row.sessionId == id) = before.ancestors.filter fun row => row.sessionId == id
  live : ∀ row ∈ after.sessions, (before.userLocks row.userId = actor ∧ actor.isSome = true) ∨
    ∃ old ∈ before.sessions, old.id = row.id ∧ old.userId = row.userId ∧
      ∀ now ≤ before.clock, row.live now = true → old.live now = true

namespace Frame

variable {actor : Option Nat} {other : Nat}

section

variable (h : Frame actor before after)

include h

section

variable (hother : some other ≠ actor)

include hother

theorem holds {row : SessionRow} (hholds : before.Holds other row) : after.Holds other row :=
  ⟨h.sessions row hholds.1 other hother hholds.2, h.locks row.id other hother hholds.2⟩

theorem holdsAll {ids : List Nat} (hholds : before.HoldsAll other ids) : after.HoldsAll other ids :=
  fun id hid => h.locks id other hother (hholds id hid)

variable {now : Nat}

theorem logsIn {userId : Nat} (hlogs : before.LogsIn other userId now) : after.LogsIn other userId now :=
  ⟨h.userLocks userId other hother hlogs.1, hlogs.2.trans h.clock⟩

theorem rotates {input : RefreshInput} {row : SessionRow}
    (hrotates : Rotates config order before other input row now) : Rotates config order after other input row now := by
  obtain ⟨hholds, hcurrent, hnow, hthrottle⟩ := hrotates
  refine ⟨h.holds hother hholds, hcurrent, hnow.trans h.clock, ?_⟩
  have hsame : newestAncestors order after.ancestors row.id = newestAncestors order before.ancestors row.id := by
    rw [newestAncestors, newestAncestors, h.ancestors row.id other hother hholds.2]
  rw [rotationThrottleMs, hsame]
  exact hthrottle

/-- A login's trim has seen every session of its user that is live. -/
theorem covers {userId : Nat} {ids : List Nat}
    (hlogs : before.LogsIn other userId now) (hcovers : before.Covers userId now ids) :
    after.Covers userId now ids := by
  intro row hrow huser hlive
  rcases h.live row hrow with ⟨hlocked, -⟩ | ⟨old, hold, hid, hsame, hwas⟩
  · rw [huser, hlogs.1] at hlocked
    exact absurd hlocked hother
  · rw [← hid]
    exact hcovers old hold (hsame.trans huser) (hwas now hlogs.2 hlive)

/-- What a transaction relies on is kept by the steps of the others. -/
theorem phase {phase : SessionPhase}
    (hphase : PhaseInv config order before other phase) : PhaseInv config order after other phase := by
  cases phase with
  | loginLocked userId | loginTimed userId now => exact h.logsIn hother hphase
  | loginPurged userId now purged => exact ⟨h.logsIn hother hphase.1, h.holdsAll hother hphase.2⟩
  | loginTrim userId now purged active todo =>
    exact ⟨h.logsIn hother hphase.1, h.holdsAll hother hphase.2.1, h.covers hother hphase.1 hphase.2.2⟩
  | currentScanned input candidate | retiredScanning input => trivial
  | rotateLocked input row | retiredLocked input row userActive => exact ⟨h.holds hother hphase.1, hphase.2⟩
  | rotateTimed input row now => exact h.rotates hother hphase
  | rotateTrim input row now active todo =>
    exact ⟨h.rotates hother hphase.1, h.holdsAll hother hphase.2.1, hphase.2.2⟩
  | retiredScanned input id userActive => exact hphase

end

/-- A step keeps the invariant if it keeps it of the tables and of the transaction that takes it. -/
theorem inv (hbefore : Inv config order before)
    (htables : TablesInv config after.toRefreshTables) (hactor : ∀ transaction phase, actor = some transaction →
      after.transactions transaction = some phase → PhaseInv config order after transaction phase) :
    Inv config order after := by
  refine ⟨htables, fun transaction phase hphase => ?_⟩
  by_cases hown : some transaction = actor
  · exact hactor transaction phase hown.symm hphase
  · rw [h.transactions transaction hown] at hphase
    exact h.phase hown (hbefore.phases transaction phase hphase)

end

/-- The step of a transaction that leaves the tables as they are. -/
theorem inv_setPhase {transaction : Nat} {phase : SessionPhase}
    (h : Frame (some transaction) before (after.setPhase transaction phase)) (hbefore : Inv config order before)
    (htables : after.toRefreshTables = before.toRefreshTables)
    (hphase : PhaseInv config order (after.setPhase transaction phase) transaction phase) :
    Inv config order (after.setPhase transaction phase) := by
  refine h.inv hbefore (htables ▸ hbefore.tables) ?_
  rintro _ other ⟨⟩ hother
  cases (update_self _ _ _).symm.trans hother
  exact hphase

end Frame

/-! ### Steps that only lock -/

theorem frame_setPhase (world : RefreshWorld) (transaction : Nat) (phase : SessionPhase) :
    Frame (some transaction) world (world.setPhase transaction phase) where
  clock := le_refl _
  transactions _ hother := update_of_ne (fun heq => hother (congrArg some heq)) _ _
  locks _ _ _ hlock := hlock
  userLocks _ _ _ hlock := hlock
  sessions _ hrow _ _ _ := hrow
  ancestors _ _ _ _ := rfl
  live row hrow := .inr ⟨row, hrow, rfl, rfl, fun _ _ hlive => hlive⟩

variable {transaction userId now id : Nat} {ids active : List Nat} {phase : SessionPhase} {tables : RefreshTables}
  {row : SessionRow} {input : RefreshInput}

/-- Free rows are locked, or rows the transaction has locked already. -/
theorem frame_lock (phase : SessionPhase) (hfree : ∀ id ∈ ids, world.heldByOther transaction id = false) :
    Frame (some transaction) world ((world.lock transaction ids).setPhase transaction phase) :=
  { frame_setPhase world transaction phase with
  locks id other hother hlock := by
    show (if ids.contains id then some transaction else world.locks id) = some other
    rw [if_neg, hlock]
    intro hmem
    have hown := hfree id (contains_iff_mem.mp hmem)
    rw [heldByOther, hlock, elim_some, bne_eq_false_iff_eq] at hown
    exact hother (congrArg some hown) }

/-- The invariant after a statement that writes nothing. -/
theorem Inv.setPhase (h : Inv config order world)
    (hphase : PhaseInv config order (world.setPhase transaction phase) transaction phase) :
    Inv config order (world.setPhase transaction phase) :=
  (frame_setPhase world transaction phase).inv_setPhase h rfl hphase

theorem Inv.lock (h : Inv config order world) (hfree : ∀ id ∈ ids, world.heldByOther transaction id = false)
    (hphase : PhaseInv config order ((world.lock transaction ids).setPhase transaction phase) transaction phase) :
    Inv config order ((world.lock transaction ids).setPhase transaction phase) :=
  (frame_lock phase hfree).inv_setPhase h rfl hphase

theorem Inv.lockRow (h : Inv config order world) (hfree : world.heldByOther transaction id = false)
    (hphase : PhaseInv config order ((world.lock transaction [id]).setPhase transaction phase) transaction phase) :
    Inv config order ((world.lock transaction [id]).setPhase transaction phase) := by
  refine h.lock (fun other hother => ?_) hphase
  rw [mem_singleton.mp hother]
  exact hfree

/-- A login begins with the lock of its user. -/
theorem Inv.login (h : Inv config order world) (hfree : world.userLocks userId = none) :
    Inv config order ({ world with
      userLocks := update world.userLocks userId (some transaction) }.setPhase transaction
        (.loginLocked userId)) := by
  set locked : RefreshWorld := { world with
    userLocks := update world.userLocks userId (some transaction) } with hlocked
  have hframe : Frame (some transaction) world (locked.setPhase transaction (.loginLocked userId)) := {
    frame_setPhase world transaction (.loginLocked userId) with
    userLocks := by
      intro id other _ hlock
      have hid : id ≠ userId := by
        rintro rfl
        rw [hfree] at hlock
        cases hlock
      exact (update_of_ne hid _ _).trans hlock }
  exact hframe.inv_setPhase h rfl ⟨update_self _ _ _, Nat.zero_le _⟩

/-! ### Commits -/

/-- A commit: what it writes leaves the rows of the others as they are. -/
theorem frame_commit (hclock : tables.clock = world.clock)
    (hsessions : ∀ row ∈ world.sessions, ∀ other, other ≠ transaction →
      world.locks row.id = some other → row ∈ tables.sessions)
    (hancestors : ∀ id other, other ≠ transaction → world.locks id = some other →
      tables.ancestors.filter (fun row => row.sessionId == id) = world.ancestors.filter fun row => row.sessionId == id)
    (hlive : ∀ row ∈ tables.sessions, world.userLocks row.userId = some transaction ∨
      ∃ old ∈ world.sessions, old.id = row.id ∧ old.userId = row.userId ∧
      ∀ now ≤ world.clock, row.live now = true → old.live now = true) :
    Frame (some transaction) world (world.commit transaction tables) where
  clock := hclock.ge
  transactions other hother := update_of_ne (fun heq => hother (congrArg some heq)) _ _
  locks id other hother hlock := by
    show (if world.locks id = some transaction then none else world.locks id) = some other
    rw [if_neg (by rw [hlock]; exact hother), hlock]
  userLocks id other hother hlock := by
    show (if world.userLocks id = some transaction then none else world.userLocks id) = some other
    rw [if_neg (by rw [hlock]; exact hother), hlock]
  sessions row hrow other hother hlock :=
    hsessions row hrow other (fun heq => hother (congrArg some heq)) hlock
  ancestors id other hother hlock := hancestors id other (fun heq => hother (congrArg some heq)) hlock
  live row hrow := (hlive row hrow).imp_left fun hlocked => ⟨hlocked, rfl⟩

theorem Inv.commit (h : Inv config order world)
    (hframe : Frame (some transaction) world (world.commit transaction tables)) (htables : TablesInv config tables) :
    Inv config order (world.commit transaction tables) := by
  refine hframe.inv h htables ?_
  rintro _ phase ⟨⟩ hphase
  cases (update_self _ _ _).symm.trans hphase

/-- A commit of tables that differ in what is noted only. -/
theorem frame_commit_same (hclock : tables.clock = world.clock) (hsessions : tables.sessions = world.sessions)
    (hancestors : tables.ancestors = world.ancestors) :
    Frame (some transaction) world (world.commit transaction tables) := by
  refine frame_commit hclock ?_ ?_ ?_
  · intro row hrow _ _ _
    rw [hsessions]
    exact hrow
  · intro _ _ _ _
    rw [hancestors]
  · intro row hrow
    rw [hsessions] at hrow
    exact .inr ⟨row, hrow, rfl, rfl, fun _ _ hlive => hlive⟩

theorem Holds.all (h : world.Holds transaction row) : world.HoldsAll transaction [row.id] := by
  intro id hid
  rw [mem_singleton.mp hid]
  exact h.2

theorem HoldsAll.not_mem {other : Nat} (h : world.HoldsAll transaction ids) (hother : other ≠ transaction)
    (hlock : world.locks id = some other) : id ∉ ids := by
  intro hmem
  rw [h id hmem, some.injEq] at hlock
  exact hother hlock.symm

/-- A commit that deletes sessions the transaction has locked. -/
theorem frame_commit_delete (hclock : tables.clock = world.clock)
    (hsessions : tables.sessions = (world.deleteSessions ids).sessions)
    (hancestors : tables.ancestors = (world.deleteSessions ids).ancestors) (hheld : world.HoldsAll transaction ids) :
    Frame (some transaction) world (world.commit transaction tables) := by
  refine frame_commit hclock ?_ ?_ ?_
  · intro row hrow other hother hlock
    rw [hsessions]
    exact mem_deleteSessions.mpr ⟨hrow, hheld.not_mem hother hlock⟩
  · intro id other hother hlock
    rw [hancestors, filter_deleteSessions_ancestors (hheld.not_mem hother hlock)]
  · intro row hrow
    rw [hsessions] at hrow
    exact .inr ⟨row, (mem_deleteSessions.mp hrow).1, rfl, rfl, fun _ _ hlive => hlive⟩

/-! ### Trims -/

theorem free_of_purgeCandidates (h : id ∈ purgeCandidates world.sessions (fun id => (world.locks id).isSome) now) :
    world.heldByOther transaction id = false := by
  have hfree : (world.locks id).isSome = false := by
    simp only [purgeCandidates, List.mem_map, mem_append] at h
    obtain ⟨row, hrow | hrow, rfl⟩ := h
    all_goals
      have hmem := mem_of_mem_take hrow
      rw [mem_insertionSort, mem_filter, Bool.and_eq_true, Bool.not_eq_true'] at hmem
      exact hmem.2.2
  rw [isSome_eq_false_iff, isNone_iff_eq_none] at hfree
  rw [heldByOther, hfree]
  rfl

/-- What the lock of the next row tells. -/
theorem trimLock_eq_some {sessionId : Nat} {preserved : Option Nat} {stays : Bool}
    (h : world.trimLock transaction sessionId userId now preserved = some stays) :
    world.heldByOther transaction sessionId = false ∧
      ((world.find sessionId).elim false fun row => row.trims userId now preserved) = stays := by
  obtain ⟨hheld, h⟩ := ite_none_left_eq_some.mp h
  exact ⟨Bool.eq_false_iff.mpr hheld, some.inj h⟩

theorem locks_lock (h : id ∈ ids) : (world.lock transaction ids).locks id = some transaction :=
  if_pos (contains_iff_mem.mpr h)

theorem HoldsAll.lock {held : List Nat} (h : world.HoldsAll transaction held) :
    (world.lock transaction ids).HoldsAll transaction (held ++ ids) := by
  intro id hid
  by_cases hnew : id ∈ ids
  · exact locks_lock hnew
  rcases mem_append.mp hid with hold | hin
  · show (if ids.contains id then some transaction else world.locks id) = some transaction
    rw [if_neg (fun hmem => hnew (contains_iff_mem.mp hmem))]
    exact h id hold
  · exact absurd hin hnew

/-! ### The statements of a login -/

theorem Inv.loginTrim {purged todo : List Nat} (h : Inv config order world)
    (hphase : PhaseInv config order world transaction (.loginTrim userId now purged active (id :: todo)))
    (hstep : world.advance config order transaction (.loginTrim userId now purged active (id :: todo)) = some next) :
    Inv config order next := by
  obtain ⟨hlogs, hheld, hcovers⟩ := hphase
  obtain ⟨stays, hlock, rfl⟩ := map_eq_some_iff.mp hstep
  obtain ⟨hfree, hstays⟩ := trimLock_eq_some hlock
  cases stays with
  | true =>
    refine h.lockRow hfree ⟨hlogs, ?_, ?_⟩
    · rw [← append_assoc]
      exact hheld.lock
    · intro row hrow huser hlive
      simpa using hcovers row hrow huser hlive
  | false =>
    refine h.setPhase ⟨hlogs, hheld, fun row hrow huser hlive => ?_⟩
    have hmem := hcovers row hrow huser hlive
    -- the row that was looked at again is not a live session of the user
    have hid : row.id ≠ id := by
      rintro rfl
      rw [show world.find row.id = some row from find_eq h.tables hrow] at hstays
      rw [elim_some, SessionRow.trims, huser, hlive] at hstays
      simp at hstays
    simp only [mem_append, mem_cons] at hmem ⊢
    tauto

theorem Inv.issued {purged : List Nat} (h : Inv config order world)
    (hphase : PhaseInv config order world transaction (.loginTrim userId now purged active [])) :
    Inv config order (world.commit transaction (world.issue config userId now purged active)) := by
  obtain ⟨hlogs, hheld, hcovers⟩ := hphase
  rw [append_nil] at hcovers
  have hall : world.HoldsAll transaction (purged ++ overflow active (config.maximumSessions - 1)) := by
    refine fun id hid => hheld id ?_
    rw [mem_append] at hid ⊢
    exact hid.imp_right mem_of_mem_take
  refine h.commit (frame_commit rfl ?_ ?_ ?_) (h.tables.issue hlogs.2 hcovers)
  · intro row hrow other hother hlock
    exact mem_cons_of_mem _ (mem_deleteSessions.mpr ⟨hrow, hall.not_mem hother hlock⟩)
  · intro id other hother hlock
    exact filter_deleteSessions_ancestors (hall.not_mem hother hlock)
  · intro row hrow
    rcases mem_cons.mp hrow with rfl | hold
    · exact .inl hlogs.1
    · exact .inr ⟨row, (mem_deleteSessions.mp hold).1, rfl, rfl, fun _ _ hlive => hlive⟩

/-! ### The statements of a refresh -/

/-- An answer that writes nothing. -/
theorem Inv.answerSame {result : RefreshResult} (h : Inv config order world)
    (hanswer : ∀ row, world.retiredIn input.hash = some row →
      AnswerOk config { input, now, retiredIn := some row, result
                        deleted := (world.find row.id).isNone }) :
    Inv config order (world.answer transaction world.toRefreshTables input now result) :=
  h.commit (frame_commit_same rfl rfl rfl) (h.tables.note hanswer)

theorem Inv.answerUnretired {result : RefreshResult} (h : Inv config order world)
    (hnone : world.retiredIn input.hash = none) :
    Inv config order (world.answer transaction world.toRefreshTables input now result) :=
  h.answerSame fun row hrow => by simp [hnone] at hrow

/-- The lookup of a token that is not current. -/
theorem Inv.retiredScanning (h : Inv config order world)
    (hstep : world.advance config order transaction (.retiredScanning input) = some next) : Inv config order next := by
  simp only [advance] at hstep
  split at hstep
  · rename_i row hretired
    obtain ⟨hrow, hroot, -⟩ := retiredIn_mem h.tables hretired
    rw [h.tables.unrevoked row hrow, if_neg (by simp)] at hstep
    cases hstep
    exact h.setPhase hroot
  · rename_i hnone
    cases hstep
    exact h.answerUnretired hnone

variable {userActive : Bool}

theorem Inv.retiredScanned (h : Inv config order world) (hroot : id = input.hash.root)
    (hstep : world.advance config order transaction (.retiredScanned input id userActive) = some next) :
    Inv config order next := by
  simp only [advance] at hstep
  split at hstep
  · cases hstep
  rename_i hheld
  split at hstep
  · rename_i row hfound
    obtain ⟨hrow, hid⟩ := find_mem hfound
    rw [h.tables.unrevoked row hrow, if_neg (by simp)] at hstep
    cases hstep
    exact h.lockRow (Bool.eq_false_iff.mpr hheld) ⟨⟨hrow, locks_lock (mem_singleton.mpr hid)⟩, hid.trans hroot⟩
  · rename_i hnone
    cases hstep
    -- the session is gone, and its retired tokens with it
    refine h.answerSame fun row hrow => ?_
    obtain ⟨hmem, hid, -⟩ := retiredIn_mem h.tables hrow
    rw [hroot, ← hid, find_eq h.tables hmem] at hnone
    cases hnone

/-- What is answered to a retired token, case by case. -/
theorem resolveRetired_ok {deleted : Bool}
    (hdeleted : (resolveRetired config input row userActive now).isReused = true → deleted = true) :
    AnswerOk config { input, now, retiredIn := some row
                      result := resolveRetired config input row userActive now, deleted } := by
  rintro _ ⟨⟩
  revert hdeleted
  fun_cases resolveRetired config input row userActive now with
  | case1 predecessor hpredecessor hhash hrequest =>
    exact fun _ => ⟨predecessor, hpredecessor, eq_of_beq hhash, eq_of_beq hrequest⟩
  | case2 predecessor hpredecessor hhash hrequest hvalid =>
    rw [Bool.or_eq_true, bne_iff_ne, not_or, not_not] at hvalid
    exact fun _ => ⟨rfl, ⟨predecessor, hpredecessor, eq_of_beq hhash, eq_of_beq hrequest⟩, rfl, hvalid.2.symm⟩
  | case3 predecessor hpredecessor hhash _ hgrace =>
    exact fun _ => ⟨predecessor, hpredecessor, eq_of_beq hhash, hgrace⟩
  | case4 | case5 | case6 => exact fun hdeleted => ⟨rfl, hdeleted rfl⟩

section

variable (h : Inv config order world)

include h

theorem Inv.retiredLocked (hholds : world.Holds transaction row) (hroot : row.id = input.hash.root)
    (hstep : world.advance config order transaction (.retiredLocked input row userActive) = some next) :
    Inv config order next := by
  simp only [advance, some.injEq] at hstep
  rw [← hstep]
  set result := resolveRetired config input row userActive world.clock with hresult
  have hsame : ∀ other, world.retiredIn input.hash = some other → other = row := by
    intro other hother
    obtain ⟨hmem, hid, -⟩ := retiredIn_mem h.tables hother
    exact eq_of_key_eq h.tables.ids hmem hholds.1 (hid.trans hroot.symm)
  by_cases hreused : result.isReused = true
  · rw [RefreshTables.resolve, if_pos hreused]
    have htables := h.tables.deleteSessions [row.id]
    refine h.commit (frame_commit_delete rfl rfl rfl hholds.all) (htables.note fun other hother => ?_)
    obtain rfl := hsame other hother
    refine resolveRetired_ok fun _ => ?_
    rw [isNone_iff_eq_none, RefreshTables.find, List.find?_eq_none]
    intro left hleft
    have hid := (mem_deleteSessions.mp hleft).2
    simpa using hid
  · rw [RefreshTables.resolve, if_neg hreused]
    refine h.answerSame fun other hother => ?_
    obtain rfl := hsame other hother
    exact resolveRetired_ok fun htrue => absurd htrue hreused

/-- The token was current when its session was locked. -/
theorem Inv.currentScanned {candidate : Option (Nat × Bool)}
    (hstep : world.advance config order transaction (.currentScanned input candidate) = some next) :
    Inv config order next := by
  have hmiss : Inv config order (world.setPhase transaction (.retiredScanning input)) := h.setPhase trivial
  cases candidate with
  | none =>
    cases hstep
    exact hmiss
  | some candidate =>
    simp only [advance] at hstep
    split at hstep
    · cases hstep
    rename_i hheld
    split at hstep
    · rename_i row hfound
      obtain ⟨hrow, hid⟩ := find_mem hfound
      split at hstep
      · rename_i hcurrent
        rw [Bool.and_eq_true, beq_iff_eq] at hcurrent
        split at hstep
        · cases hstep
          exact h.lockRow (Bool.eq_false_iff.mpr hheld) ⟨⟨hrow, locks_lock (mem_singleton.mpr hid)⟩, hcurrent.1⟩
        · cases hstep
          exact h.answerUnretired (retiredIn_current h.tables hrow hcurrent.1)
      · cases hstep
        exact hmiss
    · cases hstep
      exact hmiss

theorem Inv.rotateLocked (hholds : world.Holds transaction row) (hcurrent : row.hash = input.hash)
    (hstep : world.advance config order transaction (.rotateLocked input row) = some next) : Inv config order next := by
  have hnone := retiredIn_current h.tables hholds.1 hcurrent
  simp only [advance] at hstep
  split at hstep
  · cases hstep
    refine h.commit (frame_commit_delete rfl rfl rfl hholds.all)
      ((h.tables.deleteSessions [row.id]).note fun other hother => ?_)
    rw [hnone] at hother
    cases hother
  · split at hstep
    · cases hstep
      exact h.answerUnretired hnone
    · rename_i hthrottle
      cases hstep
      exact h.setPhase ⟨hholds, hcurrent, le_refl _, Nat.eq_zero_of_not_pos hthrottle⟩

theorem Inv.rotateTrim {todo : List Nat}
    (hphase : PhaseInv config order world transaction (.rotateTrim input row now active (id :: todo)))
    (hstep : world.advance config order transaction (.rotateTrim input row now active (id :: todo)) = some next) :
    Inv config order next := by
  obtain ⟨hrotates, hheld, hother⟩ := hphase
  obtain ⟨stays, hlock, rfl⟩ := map_eq_some_iff.mp hstep
  obtain ⟨hfree, hstays⟩ := trimLock_eq_some hlock
  cases stays with
  | true =>
    have hid : id ≠ row.id := by
      cases hfound : world.find id with
      | none =>
        rw [hfound] at hstays
        cases hstays
      | some found =>
        rw [hfound, elim_some, SessionRow.trims, Bool.and_eq_true, bne_iff_ne] at hstays
        rw [← (find_mem hfound).2]
        exact fun heq => hstays.2 (congrArg some heq.symm)
    refine h.lockRow hfree ⟨⟨⟨hrotates.1.1, ?_⟩, hrotates.2⟩, hheld.lock, ?_⟩
    · show (if [id].contains row.id then some transaction else world.locks row.id) = some transaction
      split
      · rfl
      · exact hrotates.1.2
    · exact forall_mem_append.mpr ⟨hother, forall_mem_singleton.mpr hid⟩
  | false => exact h.setPhase ⟨hrotates, hheld, hother⟩

/-- A rotation commits while its session has not expired. -/
theorem Inv.rotated (hlive : world.clock < row.expiresAt)
    (hphase : PhaseInv config order world transaction (.rotateTrim input row now active []))
    (hstep : world.advance config order transaction (.rotateTrim input row now active []) = some next) :
    Inv config order next := by
  obtain ⟨⟨hholds, hcurrent, hnow, hthrottle⟩, hheld, hother⟩ := hphase
  cases hstep
  have htables := h.tables.rotate hholds.1 hcurrent hnow hlive hthrottle hother
  have hnone := retiredIn_current h.tables hholds.1 hcurrent
  have hown : row.id ∉ overflow active (config.maximumSessions - 1) := TablesInv.not_mem_overflow hother
  have hmem : row ∈ (world.deleteSessions (overflow active (config.maximumSessions - 1))).sessions :=
    mem_deleteSessions.mpr ⟨hholds.1, hown⟩
  have hkept : ∀ id other, other ≠ transaction → world.locks id = some other →
      id ∉ overflow active (config.maximumSessions - 1) ∧ id ≠ row.id := by
    intro id other hdifferent hlock
    exact ⟨fun hover => hheld.not_mem hdifferent hlock (mem_of_mem_take hover),
      fun hid => hholds.all.not_mem hdifferent hlock (mem_singleton.mpr hid)⟩
  have hupdate (other : SessionRow) : other ∈ (world.rotate config order input row now active).sessions ↔
      (other ∈ (world.deleteSessions (overflow active (config.maximumSessions - 1))).sessions ∧
        other.id ≠ row.id) ∨ other = rotateRow config input now row :=
    (h.tables.deleteSessions _).mem_updateCurrent hmem hcurrent
  refine h.commit (frame_commit rfl ?_ ?_ ?_) (htables.note fun other hretired => ?_)
  · intro old hold other hdifferent hlock
    obtain ⟨hover, hid⟩ := hkept old.id other hdifferent hlock
    exact (hupdate old).mpr (.inl ⟨mem_deleteSessions.mpr ⟨hold, hover⟩, hid⟩)
  · intro id other hdifferent hlock
    obtain ⟨hover, hid⟩ := hkept id other hdifferent hlock
    exact (filter_retireRefreshHash_other hid).trans (filter_deleteSessions_ancestors hover)
  · intro other hin
    right
    rcases (hupdate other).mp hin with ⟨hold, -⟩ | rfl
    · exact ⟨other, (mem_deleteSessions.mp hold).1, rfl, rfl, fun _ _ hwas => hwas⟩
    · refine ⟨row, hholds.1, rfl, rfl, fun time htime _ => ?_⟩
      rw [SessionRow.live, h.tables.unrevoked row hholds.1]
      simpa using lt_of_le_of_lt htime hlive
  · rw [hnone] at hretired
    cases hretired

theorem Inv.advance (hphase : PhaseInv config order world transaction phase)
    (hpunctual : ∀ input row now active, phase = .rotateTrim input row now active [] → world.clock < row.expiresAt)
    (hstep : world.advance config order transaction phase = some next) : Inv config order next := by
  cases phase with
  | loginLocked userId =>
    cases hstep
    exact h.setPhase ⟨hphase.1, le_refl _⟩
  | loginTimed userId now =>
    cases hstep
    refine h.lock (fun id hid => free_of_purgeCandidates hid) ⟨hphase, fun id hid => ?_⟩
    exact locks_lock hid
  | loginPurged userId now purged =>
    cases hstep
    refine h.setPhase ⟨hphase.1, ?_, fun row hrow huser hlive => ?_⟩
    · rw [append_nil]
      exact hphase.2
    · refine mem_map_of_mem ?_
      rw [mem_insertionSort, mem_filter]
      exact ⟨hrow, by simp [SessionRow.trims, huser, hlive]⟩
  | loginTrim userId now purged active todo =>
    cases todo with
    | nil =>
      cases hstep
      exact h.issued hphase
    | cons id todo => exact h.loginTrim hphase hstep
  | currentScanned input candidate => exact h.currentScanned hstep
  | rotateLocked input row => exact h.rotateLocked hphase.1 hphase.2 hstep
  | rotateTimed input row now =>
    cases hstep
    exact h.setPhase ⟨hphase, nofun, nofun⟩
  | rotateTrim input row now active todo =>
    cases todo with
    | nil => exact h.rotated (hpunctual input row now active rfl) hphase hstep
    | cons id todo => exact h.rotateTrim hphase hstep
  | retiredScanning input => exact h.retiredScanning hstep
  | retiredScanned input id userActive => exact h.retiredScanned hphase hstep
  | retiredLocked input row userActive => exact h.retiredLocked hphase.1 hphase.2 hstep

end

/-! ## Runs -/

/-- A rotation commits before its session expires. -/
def punctual (world : RefreshWorld) : RefreshLabel → Bool
  | .advance transaction =>
    match world.transactions transaction with
    | some (.rotateTrim _ row _ _ []) => decide (world.clock < row.expiresAt)
    | _ => true
  | _ => true

/-- A step in which no rotation is overtaken by the expiry of its session. -/
def punctualStep (config : RefreshConfig) (order : Token → Nat) (world : RefreshWorld)
    (label : RefreshLabel) : Option RefreshWorld :=
  if world.punctual label then world.step config order label else none

/-- A step of nobody that keeps the locked sessions. -/
theorem frame_tables (hclock : world.clock ≤ tables.clock)
    (hsessions : ∀ row ∈ world.sessions, world.locks row.id ≠ none → row ∈ tables.sessions)
    (hancestors : ∀ id, world.locks id ≠ none → tables.ancestors.filter (fun row => row.sessionId == id) =
        world.ancestors.filter fun row => row.sessionId == id)
    (hsubset : ∀ row ∈ tables.sessions, row ∈ world.sessions) :
    Frame none world { world with toRefreshTables := tables } where
  clock := hclock
  transactions _ _ := rfl
  locks _ _ _ hlock := hlock
  userLocks _ _ _ hlock := hlock
  sessions row hrow _ _ hlock := hsessions row hrow (by rw [hlock]; simp)
  ancestors id _ _ hlock := hancestors id (by rw [hlock]; simp)
  live row hrow := .inr ⟨row, hsubset row hrow, rfl, rfl, fun _ _ hlive => hlive⟩

theorem Inv.step {label : RefreshLabel} (h : Inv config order world)
    (hstep : world.punctualStep config order label = some next) : Inv config order next := by
  obtain ⟨hpunctual, hstep⟩ := ite_none_right_eq_some.mp hstep
  cases label with
  | tick time =>
    obtain ⟨hle, rfl⟩ := of_guard hstep
    exact Frame.inv (frame_tables hle (fun _ hrow _ => hrow) (fun _ _ => rfl) fun _ hrow => hrow) h
      (h.tables.tick hle) nofun
  | setUser user =>
    obtain ⟨-, rfl⟩ := of_refusal hstep
    exact ⟨h.tables, h.phases⟩
  | remove sessionId =>
    obtain ⟨hlocked, rfl⟩ := of_refusal hstep
    have hfree : ∀ id, world.locks id ≠ none → id ∉ [sessionId] := by
      intro id hid hmem
      rw [mem_singleton.mp hmem] at hid
      exact hlocked (isSome_iff_ne_none.mpr hid)
    refine Frame.inv (frame_tables (le_refl _) ?_ ?_ ?_) h (h.tables.deleteSessions _) nofun
    · exact fun row hrow hid => mem_deleteSessions.mpr ⟨hrow, hfree row.id hid⟩
    · exact fun id hid => filter_deleteSessions_ancestors (hfree id hid)
    · exact fun row hrow => (mem_deleteSessions.mp hrow).1
  | login transaction userId snapshot =>
    simp only [RefreshWorld.step] at hstep
    split at hstep
    · cases hstep
    rename_i hidle
    rw [Bool.or_eq_true, not_or] at hidle
    split at hstep
    · cases hstep
      exact h
    split at hstep
    · cases hstep
      exact h
    split at hstep
    · cases hstep
      exact h
    cases hstep
    exact h.login (by simpa using hidle.2)
  | refresh transaction input =>
    obtain ⟨-, rfl⟩ := of_refusal hstep
    exact h.setPhase trivial
  | advance transaction =>
    obtain ⟨phase, hphase, hadvance⟩ := bind_eq_some_iff.mp hstep
    refine h.advance (h.phases transaction phase hphase) ?_ hadvance
    rintro input row now active rfl
    simpa [punctual, hphase] using hpunctual
  | abort transaction =>
    cases hstep
    exact h.commit (frame_commit_same rfl rfl rfl) h.tables

theorem inv_initial (users : List SessionUser) (clock : Nat) : Inv config order (initial users clock) where
  tables :=
    { ids := nodup_nil
      fresh := nofun
      root := nofun
      unrevoked := nofun
      expiry := nofun
      chain := nofun
      hashes := nodup_nil
      kept := fun _ => Nat.zero_le _
      live := fun _ => Nat.zero_le _
      past := nofun
      remembered := nofun
      answered := nofun }
  phases _ _ hphase := by cases hphase

/-- What the sessions owe in every state. -/
structure SessionsSafe (config : RefreshConfig) (world : RefreshWorld) : Prop where
  /-- A session is one row with one current token, and no two sessions share one. -/
  ids : (world.sessions.map SessionRow.id).Nodup
  hashes : (world.sessions.map SessionRow.hash).Nodup
  /-- A retired token yields nothing but the successor of its own rotation, while that is current; outside
  the grace of the immediate predecessor its session is deleted. -/
  reuse : ∀ answer ∈ world.answers, AnswerOk config answer
  /-- A token is not forgotten while it is young. -/
  remembered : ∀ retired ∈ world.retirements, world.clock < retired.retiredAt + config.ancestorMinimumAgeMs →
    (∃ row ∈ world.sessions, row.id = retired.sessionId) → retired ∈ world.ancestors
  kept : ∀ sessionId, (world.ancestors.countP fun row => row.sessionId == sessionId) ≤ config.retainedAncestors
  expiry : ∀ row ∈ world.sessions, row.expiresAt ≤ row.createdAt + config.absoluteMs
  live : ∀ userId, (world.sessions.countP fun row => row.userId == userId && row.live world.clock) ≤
    config.maximumSessions

theorem Inv.safe (h : Inv config order world) : SessionsSafe config world where
  ids := h.tables.ids
  hashes := by
    -- a token belongs to the session it goes back to
    refine List.Nodup.of_map Token.root ?_
    rw [List.map_map]
    have hroots : world.sessions.map (Token.root ∘ SessionRow.hash) = world.sessions.map SessionRow.id :=
      List.map_congr_left fun row hrow => h.tables.root row hrow
    rw [hroots]
    exact h.tables.ids
  reuse := h.tables.answered
  remembered := h.tables.remembered
  kept := h.tables.kept
  expiry := h.tables.expiry
  live := h.tables.live

/-- Every state of every run of logins, refreshes and replays, statement by statement, in which no rotation is
overtaken by the expiry of its session, is safe. -/
theorem refresh_token_reuse_caught (config : RefreshConfig) (order : Token → Nat)
    (users : List SessionUser) (clock : Nat) (labels : List RefreshLabel) (world : RefreshWorld)
    (hrun : run (punctualStep config order) (initial users clock) labels = some world) : SessionsSafe config world :=
  (run_invariant (fun _ _ _ h hstep => Inv.step h hstep) (inv_initial users clock) hrun : Inv config order world).safe

/-! ## Two runs -/

/-- Two sessions for each user; a session lasts for a hundred milliseconds unless it is refreshed. -/
def sampleConfig : RefreshConfig where
  idleMs := 100
  absoluteMs := 1000
  reuseGraceMs := 15
  retainedAncestors := 4
  ancestorMinimumAgeMs := 10
  maximumSessions := 2
  retained_pos := by decide
  maximum_pos := by decide

def sampleUser : SessionUser where
  id := 1
  active := true
  passwordHash := "hash"
  authVersion := 1

/-- So many statements of a transaction. -/
def advances (transaction count : Nat) : List RefreshLabel := List.replicate count (.advance transaction)

/-- A login, a rotation of its token, and the same token again. -/
def replay : List RefreshLabel :=
  .login 0 1 none :: advances 0 4 ++ [.tick 20, .refresh 1 ⟨.issued 0, 7⟩] ++ advances 1 4 ++
    [.tick 50, .refresh 2 ⟨.issued 0, 8⟩] ++ advances 2 4

theorem replay_deletes_session :
    ∃ world, run (punctualStep sampleConfig Token.depth) (initial [sampleUser] 0) replay = some world ∧
      (world.answers.map RefreshAnswer.result = [.reused 1 0, .rotated 0 (.rotated 0 (.issued 0) 7) 100] ∧
        world.sessions = []) ∧ SessionsSafe sampleConfig world := by
  have hrun : (run (punctualStep sampleConfig Token.depth) (initial [sampleUser] 0) replay).map
      (fun world => (world.answers.map RefreshAnswer.result, world.sessions)) =
        some ([.reused 1 0, .rotated 0 (.rotated 0 (.issued 0) 7) 100], []) := by decide +kernel
  obtain ⟨world, hworld, hanswers⟩ := map_eq_some_iff.mp hrun
  exact ⟨world, hworld, Prod.mk.inj hanswers,
    refresh_token_reuse_caught sampleConfig Token.depth [sampleUser] 0 replay world hworld⟩

/-- A rotation of the first session is under way when that session expires; a login that begins now does not
count it, and the rotation then makes it live again. -/
def overtakenRotation : List RefreshLabel :=
  .login 0 1 none :: advances 0 4 ++ [.tick 50, .login 0 1 none] ++ advances 0 5 ++
    [.tick 99, .refresh 1 ⟨.issued 0, 7⟩] ++ advances 1 4 ++
    [.tick 101, .login 2 1 none] ++ advances 2 3 ++ advances 1 1 ++ advances 2 2

theorem three_live_sessions_of_two : sampleConfig.maximumSessions = 2 ∧
    (run (step sampleConfig Token.depth) (initial [sampleUser] 0) overtakenRotation).map
      (fun world => world.sessions.countP fun row => row.userId == 1 && row.live world.clock) = some 3 := by
  decide +kernel

end RefreshWorld

end Nyabase.Backend
