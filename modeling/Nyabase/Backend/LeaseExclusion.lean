import Mathlib.Order.Nat
import Nyabase.Backend.ReconcileClaims

/-!
# Reconcile leases exclude each other

The invariant speaks of the moment of the database clock.  A lease only gets less live as time goes on, so
what holds of the live leases now holds of them at every later moment until the next call.
-/

namespace Nyabase.Backend

open Lib List ClaimState

/-- What the leases owe at a moment. -/
structure LeasesExclusive (claims : List ClaimRow) (time : Nat) : Prop where
  /-- One live lease for each resource and placement. -/
  one : ∀ a ∈ claims, ∀ b ∈ claims, a.live time = true → b.live time = true → a.key = b.key → a = b
  /-- A live destroy lease is the only live lease of its volume. -/
  destroy : ∀ a ∈ claims, ∀ b ∈ claims, a.live time = true → b.live time = true →
    a.key.resourceType = .volume → b.key.resourceType = .volume →
    a.key.resourceId = b.key.resourceId → a.key.placementServerId = volumeDestroyPlacementId → b = a
  server : ∀ server, (claims.countP fun row => row.serverId == some server && row.live time) ≤ maxActiveClaimsPerServer

/-- The invariant behind it: the key is unique, and live leases of one volume are on one side. -/
structure ClaimInv (claims : List ClaimRow) (time : Nat) : Prop where
  keys : (claims.map ClaimRow.key).Nodup
  sides : ∀ a ∈ claims, ∀ b ∈ claims, a.live time = true → b.live time = true →
    a.key.resourceType = .volume → b.key.resourceType = .volume →
    a.key.resourceId = b.key.resourceId → a.key.placementServerId = volumeDestroyPlacementId →
    b.key.placementServerId = volumeDestroyPlacementId
  server : ∀ server, (claims.countP fun row => row.serverId == some server && row.live time) ≤ maxActiveClaimsPerServer

variable {rows written : List ClaimRow} {time moment : Nat} {row : ClaimRow} {input : ClaimInput}

theorem ClaimRow.live_of_le (hle : time ≤ moment) (h : row.live moment = true) : row.live time = true := by
  rw [ClaimRow.live, decide_eq_true_eq] at h ⊢
  omega

namespace ClaimInv

section

variable (h : ClaimInv rows time)

include h

theorem exclusive : LeasesExclusive rows time := { h with
  one _ ha _ hb _ _ hkey := eq_of_key_eq h.keys ha hb hkey
  destroy a ha b hb hlive hlive' hvolume hvolume' hid hdestroy := by
    have hother := h.sides a ha b hb hlive hlive' hvolume hvolume' hid hdestroy
    apply eq_of_key_eq h.keys hb ha
    exact ClaimKey.ext (hvolume'.trans hvolume.symm) hid.symm (hother.trans hdestroy.symm) }

/-- Leases expire as time goes on. -/
theorem after (hle : time ≤ moment) : ClaimInv rows moment := { h with
  sides a ha b hb hlive hlive' :=
    h.sides a ha b hb (ClaimRow.live_of_le hle hlive) (ClaimRow.live_of_le hle hlive')
  server server := by
    refine le_trans (countP_mono_left ?_) (h.server server)
    intro row _ hrow
    rw [Bool.and_eq_true] at hrow ⊢
    exact ⟨hrow.1, ClaimRow.live_of_le hle hrow.2⟩ }

theorem deleteWhere (condition : ClaimRow → Bool) : ClaimInv (deleteWhere rows condition) time where
  keys := nodup_map_key_deleteWhere h.keys
  sides a ha b hb := h.sides a (mem_deleteWhere.mp ha).1 b (mem_deleteWhere.mp hb).1
  server server := (countP_deleteWhere_le _).trans (h.server server)

/-- A renewal makes no lease live that was not. -/
theorem renew (key : ClaimKey) (workerId : String) : ClaimInv (renew rows key workerId time) time := by
  have hold : ∀ row ∈ Backend.renew rows key workerId time, row.live time = true →
      ∃ old ∈ rows, old.key = row.key ∧ old.live time = true := by
    intro row hrow hlive
    obtain ⟨old, hmem, rfl⟩ := mem_updateWhere.mp hrow
    split at hlive
    · rename_i hrenews
      simp only [renews, Bool.and_eq_true] at hrenews
      exact ⟨old, hmem, by rw [if_pos (by simp [renews, hrenews])]; rfl, hrenews.2⟩
    · rename_i hrenews
      exact ⟨old, hmem, by rw [if_neg hrenews], hlive⟩
  refine ⟨?_, ?_, ?_⟩
  · have hkeys : (Backend.renew rows key workerId time).map ClaimRow.key = rows.map ClaimRow.key :=
      map_key_updateWhere fun _ _ => rfl
    rw [hkeys]
    exact h.keys
  · intro a ha b hb hlive hlive' hvolume hvolume' hid hdestroy
    obtain ⟨old, hmem, hkey, holdLive⟩ := hold a ha hlive
    obtain ⟨old', hmem', hkey', holdLive'⟩ := hold b hb hlive'
    rw [← hkey] at hvolume hid hdestroy
    rw [← hkey'] at hvolume' hid ⊢
    exact h.sides old hmem old' hmem' holdLive holdLive' hvolume hvolume' hid hdestroy
  · intro server
    refine le_trans ?_ (h.server server)
    rw [Backend.renew, updateWhere, countP_map]
    apply countP_mono_left
    intro row _ hrow
    simp only [Function.comp_apply] at hrow
    split at hrow
    · rename_i hrenews
      simp only [renews, Bool.and_eq_true] at hrenews hrow ⊢
      exact ⟨hrow.1, hrenews.2⟩
    · exact hrow

/-- A lease is added, in a new row or in the place of one that has expired. -/
theorem add (hkeys : (written.map ClaimRow.key).Nodup) (hrows : ∀ other ∈ written, other ∈ rows ∨ other = row)
    (hcount : ∀ p : ClaimRow → Bool, written.countP p ≤ rows.countP p + if p row then 1 else 0)
    (hvolume : volumeExcluded rows row.key time = false)
    (hserver : serverAtCapacity rows row.serverId time = false) : ClaimInv written time := by
  -- on which side the live leases of the volume are
  have hside : ∀ other ∈ rows, other.live time = true → row.key.resourceType = .volume →
      other.key.resourceType = .volume → other.key.resourceId = row.key.resourceId →
      (other.key.placementServerId = volumeDestroyPlacementId ↔
        row.key.placementServerId = volumeDestroyPlacementId) := by
    intro other hother hlive hrow hvol hid
    simp only [volumeExcluded, hrow, decide_true, Bool.true_and, any_eq_false] at hvolume
    have hnot := hvolume other hother
    simp only [hvol, hid, hlive, decide_true, beq_self_eq_true, Bool.true_and] at hnot
    by_cases hdestroy : row.key.placementServerId = volumeDestroyPlacementId
    · simpa [hdestroy] using hnot
    · simp only [beq_eq_false_iff_ne.mpr hdestroy, Bool.false_eq_true, if_false, beq_iff_eq] at hnot
      simp [hdestroy, hnot]
  refine ⟨hkeys, ?_, ?_⟩
  · intro a ha b hb hlive hlive' hvol hvol' hid hdestroy
    rcases hrows a ha with ha | rfl
    · rcases hrows b hb with hb | rfl
      · exact h.sides a ha b hb hlive hlive' hvol hvol' hid hdestroy
      · exact (hside a ha hlive hvol' hvol hid).mp hdestroy
    · rcases hrows b hb with hb | rfl
      · exact (hside b hb hlive' hvol hvol' hid.symm).mpr hdestroy
      · exact hdestroy
  · intro server
    refine (hcount _).trans ?_
    split
    · rename_i hnew
      rw [Bool.and_eq_true, beq_iff_eq] at hnew
      rw [hnew.1] at hserver
      simp only [serverAtCapacity, decide_eq_false_iff_not, Nat.not_le] at hserver
      omega
    · exact h.server server

end

end ClaimInv

/-! ## The calls -/

theorem volumeExcluded_of_le {key : ClaimKey} (hle : time ≤ moment)
    (h : volumeExcluded rows key time = false) : volumeExcluded rows key moment = false := by
  by_contra hexcluded
  rw [Bool.not_eq_false, volumeExcluded, Bool.and_eq_true, any_eq_true] at hexcluded
  obtain ⟨hvolume, other, hother, hrow⟩ := hexcluded
  simp only [volumeExcluded, hvolume, Bool.true_and, any_eq_false] at h
  apply h other hother
  simp only [Bool.and_eq_true] at hrow ⊢
  exact ⟨⟨hrow.1.1, ClaimRow.live_of_le hle hrow.1.2⟩, hrow.2⟩

theorem serverAtCapacity_of_le {serverId : Option Uuid} (hle : time ≤ moment)
    (h : serverAtCapacity rows serverId time = false) : serverAtCapacity rows serverId moment = false := by
  cases serverId with
  | none => rfl
  | some server =>
    simp only [serverAtCapacity, decide_eq_false_iff_not, Nat.not_le] at h ⊢
    refine lt_of_le_of_lt (countP_mono_left ?_) h
    intro row _ hrow
    rw [Bool.and_eq_true] at hrow ⊢
    exact ⟨hrow.1, ClaimRow.live_of_le hle hrow.2⟩

theorem checked_eq_some (h : checked input rows = some written) : written = rows :=
  (of_guard h).2.symm

/-- What `claim` does to the rows: nothing, a renewal of the worker's own lease, or a new lease. -/
theorem claimInTransaction_cases {appNow : Nat} {clock : ClaimClock} {result : Option ClaimRow}
    (h : claimInTransaction rows input appNow clock = some (written, result)) :
    written = rows ∨ written = renew rows input.key input.workerId clock.write ∨
      (volumeExcluded rows input.key clock.exclusion = false ∧
        serverAtCapacity rows input.serverId clock.capacity = false ∧
        (written = updateWhere rows (recycles input.key clock.write) (fun _ => claimedRow input clock.write) ∨
          ((rows.find? fun row => row.key == input.key) = none ∧ written = claimedRow input clock.write :: rows))) := by
  revert h
  fun_cases claimInTransaction rows input appNow clock with
  | case1 | case2 | case4 | case6 | case7 => exact fun h => .inl (Prod.mk.inj (Option.some.inj h)).1.symm
  | case3 => exact fun h => .inr (.inl (Prod.mk.inj (Option.some.inj h)).1.symm)
  | case5 hexcluded _ _ _ hcapacity =>
    intro h
    obtain ⟨rows', hchecked, hresult⟩ := Option.map_eq_some_iff.mp h
    refine .inr (.inr ⟨by simpa using hexcluded, by simpa using hcapacity, .inl ?_⟩)
    rw [← (Prod.mk.inj hresult).1]
    exact checked_eq_some hchecked
  | case8 hexcluded hnone hcapacity =>
    intro h
    obtain ⟨rows', hchecked, hresult⟩ := Option.map_eq_some_iff.mp h
    refine .inr (.inr ⟨by simpa using hexcluded, by simpa using hcapacity, .inr ⟨hnone, ?_⟩⟩)
    rw [← (Prod.mk.inj hresult).1]
    exact checked_eq_some hchecked

theorem ClaimInv.recycle (h : ClaimInv rows time) (hvolume : volumeExcluded rows input.key time = false)
    (hserver : serverAtCapacity rows input.serverId time = false) :
    ClaimInv (updateWhere rows (recycles input.key time) fun _ => claimedRow input time) time := by
  have hkey : ∀ row, recycles input.key time row = true → row.key = input.key := by
    intro row hrow
    simp only [recycles, Bool.and_eq_true, beq_iff_eq] at hrow
    exact hrow.1
  have hone : rows.countP (recycles input.key time) ≤ 1 := countP_le_one_of_key h.keys hkey
  refine @ClaimInv.add rows _ time (claimedRow input time) h ?_ ?_ ?_ hvolume hserver
  · rw [map_key_updateWhere fun row hrow => (hkey row hrow).symm]
    exact h.keys
  · intro other hother
    obtain ⟨old, hmem, rfl⟩ := mem_updateWhere.mp hother
    split
    · exact .inr rfl
    · exact .inl hmem
  · intro p
    split
    · exact (countP_updateWhere_le p).trans (by omega)
    · rename_i hnew
      rw [updateWhere, countP_map]
      apply countP_mono_left
      intro row _ hrow
      simp only [Function.comp_apply] at hrow
      split at hrow
      · exact absurd hrow (by simpa using hnew)
      · exact hrow

theorem ClaimInv.insert (h : ClaimInv rows time) (hnew : (rows.find? fun row => row.key == input.key) = none)
    (hvolume : volumeExcluded rows input.key time = false)
    (hserver : serverAtCapacity rows input.serverId time = false) :
    ClaimInv (claimedRow input time :: rows) time := by
  refine @ClaimInv.add rows _ time (claimedRow input time) h ?_ ?_ ?_ hvolume hserver
  · rw [map_cons, nodup_cons]
    refine ⟨?_, h.keys⟩
    intro hmem
    obtain ⟨other, hother, hkey⟩ := mem_map.mp hmem
    have hne := List.find?_eq_none.mp hnew other hother
    exact hne (beq_iff_eq.mpr hkey)
  · intro other hother
    rcases mem_cons.mp hother with rfl | hother
    · exact .inr rfl
    · exact .inl hother
  · intro p
    exact le_of_eq countP_cons

theorem ClaimInv.claim {appNow : Nat} {clock : ClaimClock} {result : Option ClaimRow} (h : ClaimInv rows time)
    (hclock : time ≤ clock.exclusion ∧ clock.exclusion ≤ clock.capacity ∧ clock.capacity ≤ clock.write)
    (hclaim : claimInTransaction rows input appNow clock = some (written, result)) : ClaimInv written clock.write := by
  obtain ⟨hstart, hexclusion, hcapacity⟩ := hclock
  have hwrite := h.after ((hstart.trans hexclusion).trans hcapacity)
  obtain rfl | rfl | ⟨hvolume, hserver, rfl | ⟨hnew, rfl⟩⟩ := claimInTransaction_cases hclaim
  · exact hwrite
  · exact hwrite.renew _ _
  · exact hwrite.recycle (volumeExcluded_of_le (hexclusion.trans hcapacity) hvolume)
      (serverAtCapacity_of_le hcapacity hserver)
  · exact hwrite.insert hnew (volumeExcluded_of_le (hexclusion.trans hcapacity) hvolume)
      (serverAtCapacity_of_le hcapacity hserver)

/-! ## Runs -/

theorem claimInv_step {state next : ClaimState} {label : ClaimLabel} (h : ClaimInv state.claims state.now)
    (hstep : state.step label = some next) : ClaimInv next.claims next.now := by
  cases label with
  | claim input appNow clock =>
    obtain ⟨hclock, hstep⟩ := Option.ite_none_right_eq_some.mp hstep
    split at hstep <;> cases hstep
    · rename_i written result hclaim
      exact h.claim hclock hclaim
    · exact h.after ((hclock.1.trans hclock.2.1).trans hclock.2.2)
  | renew key workerId time =>
    obtain ⟨hclock, rfl⟩ := Lib.of_guard hstep
    exact (h.after hclock).renew key workerId
  | release key workerId =>
    cases hstep
    exact h.deleteWhere _
  | reapExpired time =>
    obtain ⟨hclock, rfl⟩ := Lib.of_guard hstep
    exact (h.after hclock).deleteWhere _
  | tick time =>
    obtain ⟨hclock, rfl⟩ := Lib.of_guard hstep
    exact h.after hclock

theorem claimInv_initial (now : Nat) : ClaimInv (initial now).claims now :=
  ⟨nodup_nil, nofun, fun _ => Nat.zero_le _⟩

/-- A renewal extends live leases of its worker and nothing else: an expired lease stays as it is, and so
does a lease of anybody else. -/
def RenewKeepsOthers (state : ClaimState) : Prop :=
  ∀ key workerId time next, state.step (.renew key workerId time) = some next →
    (∀ row ∈ state.claims, row.live time = false ∨ row.workerId ≠ workerId → row ∈ next.claims) ∧
      ∀ row ∈ next.claims, row.live time = true →
        ∃ before ∈ state.claims, before.key = row.key ∧ before.workerId = row.workerId ∧ before.live time = true

/-- A release deletes leases of its worker and nothing else. -/
def ReleaseKeepsOthers (state : ClaimState) : Prop :=
  ∀ key workerId next, state.step (.release key workerId) = some next →
    ∀ row ∈ state.claims, row.workerId ≠ workerId → row ∈ next.claims

theorem renewKeepsOthers (state : ClaimState) : RenewKeepsOthers state := by
  intro key workerId time next hstep
  simp only [step] at hstep
  split at hstep <;> cases hstep
  constructor
  · intro row hrow hkept
    apply mem_updateWhere_of_not hrow
    rcases hkept with hexpired | hworker
    · simp [renews, hexpired]
    · simp [renews, hworker]
  · intro row hrow hlive
    obtain ⟨before, hbefore, rfl⟩ := mem_updateWhere.mp hrow
    by_cases hrenews : renews key workerId time before = true
    · rw [if_pos hrenews]
      simp only [renews, Bool.and_eq_true] at hrenews
      exact ⟨before, hbefore, rfl, rfl, hrenews.2⟩
    · rw [if_neg hrenews] at hlive ⊢
      exact ⟨before, hbefore, rfl, rfl, hlive⟩

theorem releaseKeepsOthers (state : ClaimState) : ReleaseKeepsOthers state := by
  intro key workerId next hstep row hrow hworker
  cases hstep
  exact mem_deleteWhere.mpr ⟨hrow, by simp [hworker]⟩

/-- Over every interleaving of calls of any number of workers, whatever the application clocks show: the
leases exclude each other at every moment, no renewal revives an expired lease, and a worker that lost
its lease touches nobody's. -/
theorem leases_exclude_each_other (start : Nat) (labels : List ClaimLabel) (state : ClaimState)
    (hrun : run step (initial start) labels = some state) :
    (∀ moment, state.now ≤ moment → LeasesExclusive state.claims moment) ∧
      RenewKeepsOthers state ∧ ReleaseKeepsOthers state := by
  have hpreserved : ∀ (state : ClaimState) label next, ClaimInv state.claims state.now →
      state.step label = some next → ClaimInv next.claims next.now :=
    fun _ _ _ h hstep => claimInv_step h hstep
  have hinv := run_invariant hpreserved (claimInv_initial start) hrun
  exact ⟨fun moment hmoment => (hinv.after hmoment).exclusive, renewKeepsOthers state, releaseKeepsOthers state⟩

/-! ## A run -/

/-- A volume's lease is claimed, expires, and is taken over; its first holder then renews and releases. -/
def takeover : List ClaimLabel :=
  let key : ClaimKey := ⟨.volume, 7, 3⟩
  [.claim ⟨key, some 3, "first"⟩ 0 ⟨10, 11, 12⟩, .tick 70000000,
    .claim ⟨key, some 3, "second"⟩ 70000 ⟨70000001, 70000002, 70000003⟩,
    .renew key "first" 70000004, .release key "first"]

theorem takeover_exclusive : ∃ state, run step (initial 0) takeover = some state ∧
      state.claims = [⟨⟨.volume, 7, 3⟩, some 3, "second", 130000003, 70000003⟩] ∧
      LeasesExclusive state.claims state.now := by
  have hrun : run step (initial 0) takeover =
      some ⟨[⟨⟨.volume, 7, 3⟩, some 3, "second", 130000003, 70000003⟩], 70000004⟩ := by decide +kernel
  exact ⟨_, hrun, rfl, (leases_exclude_each_other 0 takeover _ hrun).1 _ (le_refl _)⟩

end Nyabase.Backend
