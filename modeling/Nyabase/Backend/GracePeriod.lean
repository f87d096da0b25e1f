import Nyabase.Backend.AccessLapse
import Nyabase.Lib.History

/-!
# The grace period

What the ledger holds and what has happened to its rows agree, whatever the replicas do: a row carries the
time it was opened at, it has not been removed, and a row that was not purged has no purge behind it.  A
replica that has come to purge a pair read it as due.

What it read may be out of date: `purgeIfUncovered` looks at coverage and at `purged_at` again, but not at
`lapsed_at`.
-/

namespace Nyabase.Backend

open Lib List Option LapseWorld

/-- The grace, in the microseconds of the database. -/
def accessLapseGrace : Nat := accessLapseGraceMs * 1000

namespace LapseEvent

def serial : LapseEvent → Nat
  | .opened serial _ _ | .removed serial _ _ _ | .purged serial _ _ _ _ => serial

def isRemoved : LapseEvent → Bool
  | .removed .. => true
  | _ => false

def isPurged : LapseEvent → Bool
  | .purged .. => true
  | _ => false

/-- A row is opened once; it is removed when its pair is covered or nothing is owned there; and a purge
commits for an uncovered pair, whose row was opened at its `lapsed_at`, the whole grace ago, and was neither
removed nor purged since. -/
def Honoured (older : List LapseEvent) : LapseEvent → Prop
  | .opened serial _ _ => ∀ event ∈ older, event.serial ≠ serial
  | .removed _ _ covered owned => covered = true ∨ owned = false
  | .purged serial key lapsedAt time covered =>
    covered = false ∧ lapsedAt + accessLapseGrace ≤ time ∧ .opened serial key lapsedAt ∈ older ∧
      ∀ event ∈ older, event.serial = serial → event.isRemoved = false ∧ event.isPurged = false

instance (older : List LapseEvent) (event : LapseEvent) : Decidable (Honoured older event) := by
  cases event <;> unfold Honoured <;> infer_instance

end LapseEvent

/-! ## Coverage runs out -/

theorem current_antitone {expiresAt : Option Nat} {began now : Nat} (hle : began ≤ now)
    (h : current expiresAt now = true) : current expiresAt began = true := by
  cases expiresAt with
  | none => rfl
  | some time =>
    have hnow : now < time := of_decide_eq_true h
    exact decide_eq_true (Nat.lt_of_le_of_lt hle hnow)

/-- Time alone takes coverage away and never gives it. -/
theorem AccessPolicy.isCovered_antitone {policy : AccessPolicy} {key : LapseKey} {began now : Nat}
    (hle : began ≤ now) (h : policy.isCovered key now = true) : policy.isCovered key began = true := by
  obtain ⟨userId, kind, resourceId⟩ := key
  simp only [isCovered, Bool.and_eq_true] at h ⊢
  refine ⟨h.1, ?_⟩
  replace h := h.2
  cases kind with
  | server =>
    simp only [serverAccess, List.any_eq_true, Bool.and_eq_true] at h ⊢
    obtain ⟨grant, hgrant, hmatches, hcurrent⟩ := h
    exact ⟨grant, hgrant, hmatches, current_antitone hle hcurrent⟩
  | storagePool =>
    simp only [poolAccess, List.any_eq_true, Bool.and_eq_true] at h ⊢
    obtain ⟨pool, hpool, hmatches, grant, hgrant, hid, hcurrent⟩ := h
    exact ⟨pool, hpool, hmatches, grant, hgrant, hid, current_antitone hle hcurrent⟩
  | sharedBackend =>
    simp only [sharedBackendAccess, List.any_eq_true, Bool.and_eq_true] at h ⊢
    obtain ⟨grant, hgrant, hmatches, hcurrent⟩ := h
    exact ⟨grant, hgrant, hmatches, current_antitone hle hcurrent⟩

/-! ## The ledger and its past -/

/-- A row agrees with what has happened. -/
structure LapseRow.Accounted (row : LapseRow) (log : List LapseEvent) : Prop where
  opened : .opened row.serial row.key row.lapsedAt ∈ log
  past : ∀ event ∈ log, event.serial = row.serial →
    event.isRemoved = false ∧ (row.purgedAt = none → event.isPurged = false)

structure LedgerInv (lapses : List LapseRow) (log : List LapseEvent) : Prop where
  keys : (lapses.map LapseRow.key).Nodup
  serials : (lapses.map LapseRow.serial).Nodup
  fresh : ∀ event ∈ log, event.serial < log.length
  rows : ∀ row ∈ lapses, row.Accounted log
  honoured : EachAfter LapseEvent.Honoured log

/-- Events of other rows change nothing for a row. -/
theorem LapseRow.Accounted.append {row : LapseRow} {log entries : List LapseEvent} (h : row.Accounted log)
    (hentries : ∀ event ∈ entries, event.serial ≠ row.serial) : row.Accounted (entries ++ log) where
  opened := mem_append_right entries h.opened
  past := by
    intro event hevent hserial
    rcases mem_append.mp hevent with hnew | hold
    · exact absurd hserial (hentries event hnew)
    · exact h.past event hold hserial

namespace LedgerInv

variable {lapses : List LapseRow} {log : List LapseEvent}

theorem initial : LedgerInv [] [] where
  keys := nodup_nil
  serials := nodup_nil
  fresh := nofun
  rows := nofun
  honoured := trivial

section

variable (h : LedgerInv lapses log)

include h

/-- The serial of a row is one of the past. -/
theorem serial_lt {row : LapseRow} (hrow : row ∈ lapses) : row.serial < log.length :=
  h.fresh _ (h.rows row hrow).opened

theorem remove {condition : LapseRow → Bool} (covered owned : LapseKey → Bool)
    (hreason : ∀ row ∈ lapses, condition row = true → covered row.key = true ∨ owned row.key = false) :
    LedgerInv (deleteWhere lapses condition) ((lapses.filter condition).map
        (fun row => .removed row.serial row.key (covered row.key) (owned row.key)) ++ log) where
  keys := nodup_map_key_deleteWhere h.keys
  serials := nodup_map_key_deleteWhere h.serials
  fresh := by
    intro event hevent
    rw [length_append]
    rcases mem_append.mp hevent with hnew | hold
    · obtain ⟨row, hrow, rfl⟩ := mem_map.mp hnew
      have hlt : row.serial < log.length := h.serial_lt (mem_filter.mp hrow).1
      show row.serial < _ + log.length
      omega
    · have hlt := h.fresh event hold
      omega
  rows := by
    intro row hrow
    obtain ⟨hmem, hkept⟩ := mem_deleteWhere.mp hrow
    refine (h.rows row hmem).append ?_
    intro event hevent hserial
    obtain ⟨other, hother, rfl⟩ := mem_map.mp hevent
    obtain ⟨hotherMem, hremoved⟩ := mem_filter.mp hother
    -- a removed row and a kept one would be one row
    have heq : other = row := eq_of_key_eq h.serials hotherMem hmem hserial
    rw [heq, hkept] at hremoved
    exact Bool.noConfusion hremoved
  honoured := by
    apply h.honoured.append
    intro event hevent older
    obtain ⟨row, hrow, rfl⟩ := mem_map.mp hevent
    obtain ⟨hmem, hcondition⟩ := mem_filter.mp hrow
    exact hreason row hmem hcondition

theorem insert {key : LapseKey} {time : Nat} (hnew : ∀ row ∈ lapses, row.key ≠ key) :
    LedgerInv (⟨key, time, none, none, log.length⟩ :: lapses) (.opened log.length key time :: log) where
  keys := nodup_cons.mpr ⟨by simpa using hnew, h.keys⟩
  serials := nodup_cons.mpr ⟨by simpa using fun row hrow => Nat.ne_of_lt (h.serial_lt hrow), h.serials⟩
  fresh := by
    intro event hevent
    rw [length_cons]
    rcases mem_cons.mp hevent with rfl | hold
    · exact Nat.lt_succ_self _
    · have hlt := h.fresh event hold
      omega
  rows := by
    intro row hrow
    rcases mem_cons.mp hrow with rfl | hold
    · -- no older event has the serial of the new row
      have hunused : ∀ event ∈ log, event.serial ≠ log.length := by
        intro event hevent
        have hlt := h.fresh event hevent
        omega
      refine ⟨mem_cons_self, fun event hevent hserial => ?_⟩
      rcases mem_cons.mp hevent with rfl | holder
      · exact ⟨rfl, fun _ => rfl⟩
      · exact absurd hserial (hunused event holder)
    · have hlt : row.serial < log.length := h.serial_lt hold
      have hother : ∀ event ∈ [LapseEvent.opened log.length key time], event.serial ≠ row.serial := by
        intro event hevent
        obtain rfl := mem_singleton.mp hevent
        show log.length ≠ row.serial
        omega
      exact (h.rows row hold).append hother
  honoured := by
    refine ⟨?_, h.honoured⟩
    intro event hevent
    have hlt := h.fresh event hevent
    omega

/-- `stopped_at` is not what the ledger is judged by. -/
theorem stop (condition : LapseRow → Bool) (time : Nat) :
    LedgerInv (updateWhere lapses condition fun row => { row with stoppedAt := some time }) log := { h with
  keys := nodup_map_key_updateWhere h.keys fun _ _ => rfl
  serials := nodup_map_key_updateWhere h.serials fun _ _ => rfl
  rows := by
    intro row hrow
    obtain ⟨old, hold, rfl⟩ := mem_updateWhere.mp hrow
    have haccounted := h.rows old hold
    split
    · exact ⟨haccounted.opened, haccounted.past⟩
    · exact haccounted }

theorem purge {key : LapseKey} {row : LapseRow} {time : Nat}
    (hrow : row ∈ lapses) (hkey : row.key = key) (hunpurged : row.purgedAt = none)
    (hgrace : row.lapsedAt + accessLapseGrace ≤ time) : LedgerInv
      (updateWhere lapses (purges key) fun row => { row with purgedAt := some time })
      (.purged row.serial key row.lapsedAt time false :: log) where
  keys := nodup_map_key_updateWhere h.keys fun _ _ => rfl
  serials := nodup_map_key_updateWhere h.serials fun _ _ => rfl
  fresh := by
    intro event hevent
    rw [length_cons]
    rcases mem_cons.mp hevent with rfl | hold
    · have hlt : row.serial < log.length := h.serial_lt hrow
      show row.serial < log.length + 1
      omega
    · have hlt := h.fresh event hold
      omega
  rows := by
    intro updated hupdated
    obtain ⟨old, hold, rfl⟩ := mem_updateWhere.mp hupdated
    have haccounted := h.rows old hold
    by_cases hpurges : purges key old = true
    · rw [if_pos hpurges]
      refine ⟨mem_cons_of_mem _ haccounted.opened, fun event hevent hserial => ⟨?_, nofun⟩⟩
      rcases mem_cons.mp hevent with rfl | holder
      · rfl
      · exact (haccounted.past event holder hserial).1
    · rw [if_neg hpurges]
      have hother : ∀ event ∈ [LapseEvent.purged row.serial key row.lapsedAt time false],
          event.serial ≠ old.serial := by
        intro event hevent hserial
        obtain rfl := mem_singleton.mp hevent
        -- the purged row has its serial for itself
        obtain rfl : row = old := eq_of_key_eq h.serials hrow hold hserial
        simp [purges, hkey, hunpurged] at hpurges
      exact haccounted.append hother
  honoured := by
    have haccounted := h.rows row hrow
    refine ⟨⟨rfl, hgrace, hkey ▸ haccounted.opened, ?_⟩, h.honoured⟩
    exact fun event hevent hserial => (haccounted.past event hevent hserial).imp_right fun hpast => hpast hunpurged

end

end LedgerInv

/-! ## Replicas purge what they read as due -/

/-- The grace was over when the candidate was read. -/
def LapseCandidate.Due (candidate : LapseCandidate) : Prop :=
  ∃ lapse, candidate.lapse = some lapse ∧ purgeDeadline lapse.lapsedAt ≤ candidate.now

/-- The candidate a phase is on the way to purge. -/
def LapsePhase.purging? : LapsePhase → Option LapseCandidate
  | .purging candidate | .unplugging candidate | .deleting candidate => some candidate
  | _ => none

def LapsePhase.Due (phase : LapsePhase) : Prop := ∀ candidate, phase.purging? = some candidate → candidate.Due

theorem LapsePhase.due_of_none {phase : LapsePhase} (h : phase.purging? = none) : phase.Due := by
  intro candidate hcandidate
  rw [h] at hcandidate
  cases hcandidate

variable {candidate : LapseCandidate}

theorem LapseCandidate.due_of_purge (h : lapseWork candidate = .purge) : candidate.Due := by
  revert h
  fun_cases lapseWork candidate with
  | case5 _ lapse hlapse hdue => exact fun _ => ⟨lapse, hlapse, hdue⟩
  | _ => nofun

theorem LapseCandidate.phase_due (candidate : LapseCandidate) : candidate.phase.Due := by
  unfold LapseCandidate.phase
  cases hwork : lapseWork candidate with
  | purge =>
    intro other hother
    cases hother
    exact LapseCandidate.due_of_purge hwork
  | _ => exact LapsePhase.due_of_none rfl

theorem LapseCandidate.openedPhase_due (candidate : LapseCandidate) : candidate.openedPhase.Due := by
  unfold LapseCandidate.openedPhase
  cases hwork : lapseWork candidate with
  | purge =>
    intro other hother
    cases hother
    exact LapseCandidate.due_of_purge hwork
  | _ => exact LapsePhase.due_of_none rfl

namespace LapseWorld

variable {phase : LapsePhase} {label : LapseLabel}

theorem lookedPhase_due {covered : Bool} {next : LapsePhase} (h : phase.Due)
    (hnext : lookedPhase covered phase = some next) : next.Due := by
  cases phase with
  | enforcing candidate | detaching candidate =>
    cases hnext
    split <;> exact LapsePhase.due_of_none rfl
  | purging candidate =>
    cases hnext
    split
    · exact LapsePhase.due_of_none rfl
    · exact h
  | _ => cases hnext

theorem actedPhase_due {lost : Bool} {next : LapsePhase} (h : phase.Due) (hnext : actedPhase lost phase = some next) :
    next.Due := by
  cases phase with
  | stopping candidate =>
    cases hnext
    split <;> exact LapsePhase.due_of_none rfl
  | unplugging candidate =>
    cases hnext
    split
    · exact LapsePhase.due_of_none rfl
    · exact h
  | _ => cases hnext

/-! ## Steps -/

/-- A replica purges a pair whose row still has the `lapsed_at` it read, in a later millisecond than it read
it in; and coverage that was there when a `clear` began is there when it commits. -/
def Steady (world : LapseWorld) : LapseLabel → Prop
  | .purgeIfUncovered worker _ =>
    ∀ handle ∈ world.handles worker, ∀ candidate ∈ handle.phase.purging?, ∀ row ∈ world.lapses, row.key = handle.key →
        candidate.lapse.map Lapse.lapsedAt = some (toDate row.lapsedAt) ∧ candidate.now < toDate world.clock
  | .clear worker began =>
    ∀ handle ∈ world.handles worker, world.policy.isCovered handle.key began = true →
      world.policy.isCovered handle.key world.clock = true
  | _ => True

instance (world : LapseWorld) (label : LapseLabel) : Decidable (world.Steady label) := by
  cases label <;> unfold Steady <;> infer_instance

def steadyStep (world : LapseWorld) (label : LapseLabel) : Option LapseWorld :=
  if world.Steady label then world.step label else none

structure Inv (world : LapseWorld) : Prop where
  ledger : LedgerInv world.lapses world.log
  due : ∀ worker handle, world.handles worker = some handle → handle.phase.Due

variable {world next : LapseWorld} {worker : String} {handle : LapseHandle}

section

variable (h : world.Inv)

include h

theorem Inv.setHandle {handle : Option LapseHandle}
    (hdue : ∀ entered ∈ handle, entered.phase.Due) : (world.setHandle worker handle).Inv := { h with
  due := by
    intro other entered hentered
    rcases update_eq_some hentered with ⟨-, hnew⟩ | ⟨-, hold⟩
    · exact hdue entered hnew
    · exact h.due other entered hold }

theorem Inv.enter (hdue : phase.Due) : (world.enter worker handle phase).Inv := by
  apply h.setHandle
  intro entered hentered
  cases hentered
  exact hdue

theorem Inv.finish : (world.enter worker handle .finished).Inv := h.enter (LapsePhase.due_of_none rfl)

theorem Inv.removeRows {condition : LapseRow → Bool} (hreason : ∀ row ∈ world.lapses, condition row = true →
      world.policy.isCovered row.key world.clock = true ∨ row.key ∉ world.owned) :
    (world.removeRows condition).Inv := { h with
  ledger := by
    refine h.ledger.remove (fun key => world.policy.isCovered key world.clock)
      (fun key => decide (key ∈ world.owned)) ?_
    intro row hrow hcondition
    rcases hreason row hrow hcondition with hcovered | howned
    · exact .inl hcovered
    · exact .inr (decide_eq_false howned) }

theorem Inv.insertLapse (key : LapseKey) : (world.insertLapse key).Inv := by
  unfold LapseWorld.insertLapse
  split
  · exact h
  rename_i hany
  refine ⟨h.ledger.insert ?_, h.due⟩
  intro row hrow hkey
  exact hany (List.any_eq_true.mpr ⟨row, hrow, beq_iff_eq.mpr hkey⟩)

theorem Inv.openLapse (candidate : LapseCandidate) (began : Nat) :
    (world.openLapse worker handle candidate began).Inv := by
  unfold LapseWorld.openLapse
  split
  · exact h.finish
  have hinserted := h.insertLapse handle.key
  split
  · exact hinserted.finish
  · exact hinserted.enter (LapseCandidate.openedPhase_due _)

theorem Inv.clear {began : Nat}
    (hsteady : world.policy.isCovered handle.key began = true → world.policy.isCovered handle.key world.clock = true) :
    (world.clear worker handle began).Inv := by
  unfold LapseWorld.clear
  split
  · rename_i hcovered
    refine .finish (h.removeRows ?_)
    intro row _ hkey
    rw [beq_iff_eq.mp hkey]
    exact .inl (hsteady hcovered)
  · exact h.finish

end

/-- What a replica read as due is due when it commits, in a later millisecond. -/
theorem grace_over {lapsedAt clock : Nat} (hdue : candidate.Due)
    (hread : candidate.lapse.map Lapse.lapsedAt = some (toDate lapsedAt))
    (hlater : candidate.now < toDate clock) : lapsedAt + accessLapseGrace ≤ clock := by
  obtain ⟨lapse, hlapse, hdeadline⟩ := hdue
  rw [hlapse] at hread
  have hdate : lapse.lapsedAt = toDate lapsedAt := some.inj hread
  rw [hdate] at hdeadline
  unfold purgeDeadline at hdeadline
  unfold accessLapseGrace
  unfold toDate at hdeadline hlater
  generalize accessLapseGraceMs = graceMs at hdeadline ⊢
  omega

section

variable (h : world.Inv)

include h

section

variable (hhandle : world.handles worker = some handle)

include hhandle

theorem Inv.purgeIfUncovered {began : Nat} (hphase : handle.phase = .deleting candidate)
    (hbegan : world.Began handle began) (hsteady : ∀ row ∈ world.lapses, row.key = handle.key →
      candidate.lapse.map Lapse.lapsedAt = some (toDate row.lapsedAt) ∧ candidate.now < toDate world.clock) :
    (world.purgeIfUncovered worker handle began).Inv := by
  unfold LapseWorld.purgeIfUncovered
  split
  · exact h.finish
  rename_i huncovered
  split
  · exact h.finish
  rename_i row hfind
  split
  · exact h.finish
  apply Inv.finish
  have hrow : row ∈ world.lapses := List.mem_of_find?_eq_some hfind
  have hpurges := List.find?_some hfind
  simp only [purges, Bool.and_eq_true, beq_iff_eq] at hpurges
  have hdue : candidate.Due := h.due worker handle hhandle candidate (by rw [hphase]; rfl)
  obtain ⟨hread, hlater⟩ := hsteady row hrow hpurges.1
  -- what was uncovered when the transaction began is uncovered now
  have hnow : world.policy.isCovered handle.key world.clock = false := by
    rw [← Bool.not_eq_true]
    intro hcovered
    exact huncovered (AccessPolicy.isCovered_antitone hbegan.2 hcovered)
  refine ⟨?_, h.due⟩
  have hledger := h.ledger.purge hrow hpurges.1 hpurges.2 (grace_over hdue hread hlater)
  unfold markPurgedRow
  rw [hnow]
  exact hledger

omit hhandle in
theorem Inv.claimPair (key : LapseKey) (appNow : Nat) : (world.claimPair worker key appNow).Inv := by
  unfold LapseWorld.claimPair
  split
  · rename_i claims _ _
    have hclaims : { world with claims }.Inv := ⟨h.ledger, h.due⟩
    apply hclaims.setHandle
    intro entered hentered
    cases hentered
    exact LapsePhase.due_of_none rfl
  · exact ⟨h.ledger, h.due⟩
  · exact h

/-- The guard's flag says nothing about the phase. -/
theorem Inv.lose : (world.setHandle worker (some { handle with lost := true })).Inv := by
  apply h.setHandle
  intro entered hentered
  cases hentered
  exact h.due worker handle hhandle

omit hhandle in
theorem Inv.forget : (world.setHandle worker none).Inv :=
  h.setHandle fun _ hnone => absurd hnone (not_mem_none _)

theorem Inv.renewLease : (world.renewLease worker handle).Inv := by
  unfold LapseWorld.renewLease
  split
  · exact h
  · split
    · exact ⟨h.ledger, h.due⟩
    · exact h.lose hhandle

theorem Inv.handleStep (hworker : label.worker? = some worker) (hsteady : world.Steady label)
    (hstep : world.handleStep worker handle label = some next) : next.Inv := by
  revert hstep
  fun_cases LapseWorld.handleStep world worker handle label with
  | case1 =>
    rintro ⟨⟩
    exact h.renewLease hhandle
  | case2 =>
    rintro ⟨⟩
    exact h.lose hhandle
  | case3 =>
    rintro ⟨⟩
    exact h.enter (LapseCandidate.phase_due _)
  | case4 | case18 =>
    rintro ⟨⟩
    exact h.finish
  | case6 _ began =>
    rintro ⟨⟩
    exact h.openLapse _ began
  | case9 other began =>
    obtain rfl : other = worker := some.inj hworker
    rintro ⟨⟩
    exact h.clear (hsteady handle hhandle)
  | case11 =>
    intro hstep
    obtain ⟨phase, hphase, rfl⟩ := map_eq_some_iff.mp hstep
    exact h.enter (lookedPhase_due (h.due worker handle hhandle) hphase)
  | case12 =>
    intro hstep
    obtain ⟨phase, hphase, rfl⟩ := map_eq_some_iff.mp hstep
    exact h.enter (actedPhase_due (h.due worker handle hhandle) hphase)
  | case13 =>
    rintro ⟨⟩
    have hmarked : (world.markStoppedRows handle.key).Inv := ⟨h.ledger.stop _ _, h.due⟩
    exact hmarked.finish
  | case15 other began candidate hphase hbegan =>
    obtain rfl : other = worker := some.inj hworker
    rintro ⟨⟩
    have hpurging : handle.phase.purging? = some candidate := by rw [hphase]; rfl
    exact h.purgeIfUncovered hhandle hphase hbegan (hsteady handle hhandle candidate hpurging)
  | case19 =>
    rintro ⟨⟩
    have hreleased : { world with
      claims := Backend.release world.claims handle.key.claimKey worker }.Inv := ⟨h.ledger, h.due⟩
    exact hreleased.forget
  | case21 =>
    rintro ⟨⟩
    exact h.forget
  | _ => nofun

end

theorem Inv.outsideStep (hstep : world.outsideStep label = some next) : next.Inv := by
  cases label with
  | tick time =>
    obtain ⟨-, rfl⟩ := of_guard hstep
    exact ⟨h.ledger, h.due⟩
  | setPolicy policy | setOwned owned | reapExpired =>
    cases hstep
    exact ⟨h.ledger, h.due⟩
  | deleteUserPermanently userId =>
    obtain ⟨hnothing, rfl⟩ := of_refusal hstep
    have hremoved : (world.removeRows fun row => row.key.userId == userId).Inv := by
      apply h.removeRows
      intro row _ huser
      right
      intro howned
      exact hnothing (List.any_eq_true.mpr ⟨row.key, howned, huser⟩)
    exact ⟨hremoved.ledger, hremoved.due⟩
  | deleteServer serverId poolIds =>
    cases hstep
    have hfiltered : { world with
      owned := world.owned.filter fun key => !atServer serverId poolIds key }.Inv := ⟨h.ledger, h.due⟩
    have hgone : ∀ key ∈ world.owned.filter fun key => !atServer serverId poolIds key,
        atServer serverId poolIds key = false := by
      intro key howned
      simpa using (mem_filter.mp howned).2
    have hremoved := hfiltered.removeRows fun row _ hat => .inr fun howned =>
      Bool.noConfusion ((hgone row.key howned).symm.trans hat)
    exact ⟨hremoved.ledger, hremoved.due⟩
  | deleteStale =>
    cases hstep
    apply h.removeRows
    intro row _ hstale
    exact .inr (of_decide_eq_true hstale)
  | claim worker key appNow =>
    obtain ⟨-, rfl⟩ := of_guard hstep
    exact h.claimPair key appNow
  | _ => cases hstep

theorem Inv.steadyStep (hstep : world.steadyStep label = some next) : next.Inv := by
  obtain ⟨hsteady, hstep⟩ := ite_none_right_eq_some.mp hstep
  unfold step at hstep
  split at hstep
  · rename_i worker hworker
    obtain ⟨handle, hhandle, hstep⟩ := bind_eq_some_iff.mp hstep
    exact h.handleStep hhandle hworker hsteady hstep
  · exact h.outsideStep hstep

end

theorem Inv.initial (clock : Nat) (policy : AccessPolicy) (owned : List LapseKey) :
    (initial clock policy owned).Inv where
  ledger := LedgerInv.initial
  due := fun _ _ hnone => absurd hnone (some_ne_none _).symm

/-- The grace is honoured: all that happened to the ledger is right by what had happened before, and a row
has the `lapsed_at` it was opened with and was not removed since. -/
structure GraceHonoured (world : LapseWorld) : Prop where
  log : EachAfter LapseEvent.Honoured world.log
  rows : ∀ row ∈ world.lapses, .opened row.serial row.key row.lapsedAt ∈ world.log ∧
    ∀ event ∈ world.log, event.serial = row.serial → event.isRemoved = false

/-- Over every interleaving of IAM writes, ownership, deletions and any number of replicas, whatever happens
to their leases. -/
theorem grace_period_honoured (clock : Nat) (policy : AccessPolicy) (owned : List LapseKey)
    (labels : List LapseLabel) (world : LapseWorld)
    (hrun : run steadyStep (initial clock policy owned) labels = some world) : GraceHonoured world := by
  have hpreserved : ∀ (state : LapseWorld) label next, state.Inv → state.steadyStep label = some next →
      next.Inv := fun _ _ _ h hstep => h.steadyStep hstep
  have hinv := run_invariant hpreserved (.initial clock policy owned) hrun
  refine ⟨hinv.ledger.honoured, ?_⟩
  intro row hrow
  have haccounted := hinv.ledger.rows row hrow
  exact ⟨haccounted.opened, fun event hevent hserial => (haccounted.past event hevent hserial).1⟩

/-! ## Runs -/

/-- User 1 is active and has nothing but what is given. -/
def policyOf (serverGrants : List ServerGrant) : AccessPolicy := ⟨[1], serverGrants, [], []⟩

def lapsedPair : LapseKey := ⟨1, .server, 5⟩

/-- A lapse is opened, enforced, and purged once the grace is over. -/
def purgedLapse : List LapseLabel :=
  [.claim "a" lapsedPair 0, .inspect "a" true false, .openLapse "a" 0, .isCoveredNow "a", .acted "a",
    .markStopped "a", .release "a", .tick accessLapseGrace, .claim "a" lapsedPair accessLapseGraceMs,
    .inspect "a" false false, .isCoveredNow "a", .acted "a", .tick (accessLapseGrace + 1000),
    .purgeIfUncovered "a" (accessLapseGrace + 1000)]

theorem lapse_purged_after_grace :
    ∃ world, run steadyStep (initial 0 (policyOf []) [lapsedPair]) purgedLapse = some world ∧
      world.log = [.purged 0 lapsedPair 0 (accessLapseGrace + 1000) false, .opened 0 lapsedPair 0] ∧
      GraceHonoured world := by
  have hlog : (run steadyStep (.initial 0 (policyOf []) [lapsedPair]) purgedLapse).map log =
      some [.purged 0 lapsedPair 0 (accessLapseGrace + 1000) false, .opened 0 lapsedPair 0] := by
    decide +kernel
  obtain ⟨world, hrun, hworld⟩ := map_eq_some_iff.mp hlog
  exact ⟨world, hrun, hworld, grace_period_honoured 0 (policyOf []) [lapsedPair] purgedLapse world hrun⟩

/-- Replica `a` reads the pair as due and stalls; its lease runs out.  The user is granted access again and
`b` clears the row; the grant is revoked and `b` opens a new grace.  Then `a` goes on. -/
def staleDecision : List LapseLabel :=
  [.claim "a" lapsedPair 0, .inspect "a" true false, .openLapse "a" 0, .isCoveredNow "a", .acted "a",
    .markStopped "a", .release "a", .tick accessLapseGrace, .claim "a" lapsedPair accessLapseGraceMs,
    .inspect "a" false false, .isCoveredNow "a", .acted "a",
    .tick (accessLapseGrace + 70000000), .setPolicy (policyOf [⟨9, 1, 5, none⟩]),
    .claim "b" lapsedPair (accessLapseGraceMs + 70000), .inspect "b" false false,
    .clear "b" (accessLapseGrace + 70000000), .release "b", .setPolicy (policyOf []),
    .tick (accessLapseGrace + 80000000), .claim "b" lapsedPair (accessLapseGraceMs + 80000),
    .inspect "b" false false, .openLapse "b" (accessLapseGrace + 80000000),
    .tick (accessLapseGrace + 81000000), .purgeIfUncovered "a" (accessLapseGrace + 81000000)]

/-- The row was opened in the last microsecond of a millisecond, and is purged in the first one of the
millisecond in which the grace, counted from the millisecond it was opened in, is over. -/
def earlyMillisecond : List LapseLabel :=
  [.claim "a" lapsedPair 0, .inspect "a" true false, .openLapse "a" 999, .isCoveredNow "a", .acted "a",
    .markStopped "a", .release "a", .tick accessLapseGrace, .claim "a" lapsedPair accessLapseGraceMs,
    .inspect "a" false false, .isCoveredNow "a", .acted "a", .purgeIfUncovered "a" accessLapseGrace]

/-- A `clear` waits for the IAM lock; meanwhile the lease runs out, the grant expires, and `b`, which has
cleared the row, opens a new one. -/
def expiredClear : List LapseLabel :=
  [.claim "a" lapsedPair 0, .inspect "a" true false, .openLapse "a" 0, .fail "a", .release "a",
    .setPolicy (policyOf [⟨9, 1, 5, some 75000000⟩]), .claim "a" lapsedPair 0, .inspect "a" false false,
    .tick 70000000, .claim "b" lapsedPair 70000, .inspect "b" false false, .clear "b" 70000000,
    .release "b", .tick 80000000, .claim "b" lapsedPair 80000, .inspect "b" false false,
    .openLapse "b" 80000000, .clear "a" 70000000]

/-- A run that ends with an event after which the grace is not honoured. -/
theorem not_graceHonoured_of_run {start : LapseWorld} {labels : List LapseLabel} {event : LapseEvent}
    (h : (run step start labels).map (fun world =>
      (world.log.head?, decide (EachAfter LapseEvent.Honoured world.log))) = some (some event, false)) :
    ∃ world, run step start labels = some world ∧ world.log.head? = some event ∧ ¬ GraceHonoured world := by
  obtain ⟨world, hrun, hworld⟩ := map_eq_some_iff.mp h
  obtain ⟨hhead, hlog⟩ := Prod.mk.inj hworld
  exact ⟨world, hrun, hhead, fun hhonoured => of_decide_eq_false hlog hhonoured.log⟩

/-- A purge commits one second after its row was opened; one commits 999 microseconds too early; and a row
is removed whose pair is owned and not covered. -/
theorem grace_cut_short : (∃ world, run step (initial 0 (policyOf []) [lapsedPair]) staleDecision = some world ∧
      world.log.head? = some (.purged 2 lapsedPair (accessLapseGrace + 80000000)
        (accessLapseGrace + 81000000) false) ∧ ¬ GraceHonoured world) ∧
    (∃ world, run step (initial 999 (policyOf []) [lapsedPair]) earlyMillisecond = some world ∧
      world.log.head? = some (.purged 0 lapsedPair 999 accessLapseGrace false) ∧ ¬ GraceHonoured world) ∧
    ∃ world, run step (initial 0 (policyOf []) [lapsedPair]) expiredClear = some world ∧
      world.log.head? = some (.removed 2 lapsedPair false true) ∧ ¬ GraceHonoured world := by
  refine ⟨not_graceHonoured_of_run ?_, not_graceHonoured_of_run ?_, not_graceHonoured_of_run ?_⟩
  · decide +kernel
  · decide +kernel
  · decide +kernel

end LapseWorld

end Nyabase.Backend
