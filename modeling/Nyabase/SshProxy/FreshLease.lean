import Nyabase.SshProxy.Timers

/-!
# Fresh leases and the timer task

What `Inv` says about the two tasks survives every step in which the timer task and an install do not overlap.
From it follows what may end a lease that has not run out.
-/

namespace Nyabase.SshProxy
namespace TimerWorld

open Lib

variable {world next : TimerWorld} {snapshot : RoutingSnapshot} {label : TimerLabel}

theorem not_fresh_of_held_none (h : world.held = none) : ¬ world.Fresh snapshot := by
  rintro ⟨hheld, -⟩
  rw [h] at hheld
  exact Option.some_ne_none _ hheld.symm

/-- With nothing stored, the timer task can do no harm. -/
theorem timersKnow_of_held_none (h : world.held = none) (point : TimerPoint) : world.TimersKnow point := by
  have hallowed : world.ClearAllowed := fun snapshot hfresh => absurd hfresh (not_fresh_of_held_none h)
  cases point with
  | readHold | readStore hold => exact fun hheld => absurd h hheld
  | readReason => exact hallowed
  | revoking point =>
    cases point with
    | clear => exact hallowed
    | clearSnapshot | revoke => exact h
    | disconnectInvalid => exact trivial
  | _ => exact trivial

theorem linkKnows_of_held_none (h : world.held = none) (point : LinkPoint) : world.LinkKnows point := by
  cases point with
  | revoking point =>
    cases point with
    | clearSnapshot | revoke => exact h
    | _ => exact trivial
  | _ => exact trivial

/-- A timer task that does not decide knows nothing. -/
theorem timersKnow_of_not_deciding (h : world.deciding = false) (other : TimerWorld) :
    other.TimersKnow world.timers := by
  unfold deciding at h
  cases htimers : world.timers with
  | nextDeadline | sleeping deadline => exact trivial
  | revoking point =>
    cases point with
    | disconnectInvalid => exact trivial
    | _ => rw [htimers] at h; cases h
  | _ => rw [htimers] at h; cases h

/-! ## What a step of a task can do -/

/-- The steps of the link task: it goes on, stores a snapshot, resumes, revokes or pauses. -/
inductive LinkStep (world : TimerWorld) : TimerWorld → Prop where
  | goOn (link : LinkPoint) (generation : Nat) (hinstalling : installing { world with link } = world.installing)
      (hknows : world.LinkKnows link) : LinkStep world { world with link, lastSnapshotGeneration := generation }
  | store (snapshot : ProxySnapshot) (wallNow epoch : Nat) (hlink : world.link = .storing snapshot wallNow epoch) :
      LinkStep world (world.storeSnapshot snapshot wallNow epoch)
  | resume (hlink : world.link = .resuming) : LinkStep world { world.resumeAuthoritative with link := .idle }
  | revoke (point : RevokePoint) (hlink : world.link = .revoking point) :
      LinkStep world { (world.revokeStep point).1 with link := (world.revokeStep point).2.elim .idle .revoking }
  | pause (hold : Nat) (hlink : world.link = .pausing hold) : LinkStep world { world.pause hold with link := .aborting }

theorem linkStep_cases (hstep : world.linkStep = some next) : LinkStep world next := by
  unfold linkStep at hstep
  cases hlink : world.link <;> rw [hlink] at hstep
  case idle => cases hstep
  all_goals obtain rfl := Option.some.inj hstep
  case storing snapshot wallNow epoch => exact .store snapshot wallNow epoch hlink
  case resuming => exact .resume hlink
  case revoking point => exact .revoke point hlink
  case pausing hold => exact .pause hold hlink
  all_goals exact .goOn _ _ (by simp only [installing, hlink]) trivial

/-- The steps of the timer task: it goes on, or it removes a snapshot whose lease has run out, or it revokes. -/
inductive TimerStep (world : TimerWorld) : TimerWorld → Prop where
  | goOn (timers : TimerPoint) (hsleeping : ∀ deadline, timers = .sleeping deadline → deadline = world.nextDeadline)
      (hdeciding : deciding { world with timers } = true → world.deciding = true)
      (hknows : Inv world → world.TimersKnow timers) : TimerStep world (world.setTimers timers)
  | expire (generation deadline : Nat) (hdeciding : world.deciding = true)
      (hexpires : world.expires generation deadline = true) :
      TimerStep world { world with held := none, timers := .revoking .clear }
  | revoke (point : RevokePoint) (htimers : world.timers = .revoking point) : TimerStep world
        { (world.revokeStep point).1 with timers := (world.revokeStep point).2.elim .nextDeadline .revoking }

theorem timerStep_cases (hstep : world.timerStep = some next) : TimerStep world next := by
  unfold timerStep at hstep
  have hback : TimerStep world (world.setTimers .nextDeadline) := .goOn _ nofun nofun fun _ => trivial
  have hknow : Inv world → world.TimersKnow world.timers := Inv.timers
  have hdeciding : world.deciding = (world.setTimers world.timers).deciding := rfl
  cases htimers : world.timers <;> rw [htimers] at hstep hknow hdeciding
  case nextDeadline =>
    cases hstep
    exact .goOn _ (by rintro _ ⟨⟩; rfl) nofun fun _ => trivial
  case sleeping => cases hstep
  case readMode =>
    cases hstep
    unfold afterMode
    cases hmode : world.mode with
    | authoritative => exact .goOn _ nofun (fun _ => hdeciding) fun _ => trivial
    | paused => exact .goOn _ nofun (fun _ => hdeciding) fun _ _ => hmode
    | empty => exact hback
  case readAdmit =>
    cases hstep
    split
    · exact .goOn _ nofun (fun _ => hdeciding) fun _ => trivial
    · exact hback
  case readLease =>
    cases hstep
    cases world.held with
    | none => exact hback
    | some current => exact .goOn _ nofun (fun _ => hdeciding) fun _ => trivial
  case expiring generation deadline =>
    dsimp only at hstep
    split at hstep
    · next hexpires =>
      cases hstep
      exact .expire generation deadline hdeciding hexpires
    · cases hstep
      exact hback
  case readHold =>
    cases hstep
    cases hdeadline : world.holdDeadline with
    | none => exact hback
    | some hold => exact .goOn _ nofun (fun _ => hdeciding) fun hinv hheld => ⟨hknow hinv hheld, hdeadline⟩
  case readStore hold =>
    cases hstep
    split
    · next hpassed =>
      refine .goOn _ nofun (fun _ => hdeciding) fun hinv => ?_
      have hnot := hinv.apart hdeciding
      -- a paused deadline that has been reached is the hold's, unless the lease has run out
      rintro snapshot ⟨hheld, hfresh⟩
      obtain ⟨hmode, hholds⟩ := hknow hinv (by simp [hheld])
      have hle : hold ≤ world.now := by
        simp only [pausedDeadline, hheld] at hpassed
        simp only [RoutingSnapshot.isFresh, decide_eq_true_eq] at hfresh
        omega
      exact ⟨hmode, hold, hholds, hinv.hold hnot hold hholds, hle⟩
    · exact hback
  case readReason =>
    cases hstep
    exact .goOn _ nofun (fun _ => hdeciding) hknow
  case revoking point =>
    cases hstep
    exact .revoke point htimers

inductive Step (world : TimerWorld) : TimerLabel → TimerWorld → Prop where
  | tick (now : Nat) (hnow : world.now ≤ now) : Step world (.tick now) { world with now }
  | command (command : LinkCommand) (hidle : world.link = .idle) :
      Step world (.command command) (world.startCommand command)
  | link (next : TimerWorld) (hstep : world.linkStep = some next) : Step world .link next
  | wake : Step world .wake (world.setTimers .readMode)
  | notice : Step world .notice (world.setTimers .nextDeadline)
  | timers (next : TimerWorld) (hstep : world.timerStep = some next) : Step world .timers next

theorem step_cases (hstep : world.step label = some next) : Step world label next := by
  cases label with
  | link => exact .link next hstep
  | timers => exact .timers next hstep
  | tick now =>
    obtain ⟨hnow, rfl⟩ : world.now ≤ now ∧ { world with now } = next := by simpa [step] using hstep
    exact .tick now hnow
  | command command =>
    obtain ⟨hidle, rfl⟩ : world.link = .idle ∧ world.startCommand command = next := by simpa [step] using hstep
    exact .command command hidle
  | wake =>
    simp only [step] at hstep
    repeat' split at hstep
    all_goals cases hstep
    exact .wake
  | notice =>
    simp only [step] at hstep
    split at hstep <;> cases hstep
    exact .notice

/-! ## Steps of the clock and of the link -/

theorem ClearAllowed.tick (h : world.ClearAllowed) {now : Nat} (hnow : world.now ≤ now) :
    ClearAllowed { world with now } := by
  rintro snapshot ⟨hheld, hfresh⟩
  have hbefore : snapshot.isFresh world.now = true := by
    simp only [RoutingSnapshot.isFresh, decide_eq_true_eq] at hfresh ⊢
    omega
  obtain ⟨hmode, hold, hdeadline, hstored, hpassed⟩ := h snapshot ⟨hheld, hbefore⟩
  exact ⟨hmode, hold, hdeadline, hstored, hpassed.trans hnow⟩

section

variable (hinv : Inv world)

include hinv

theorem inv_tick {now : Nat} (hnow : world.now ≤ now) : Inv { world with now } := { hinv with
  stored := hinv.stored.trans hnow
  timers := by
    have hknow := hinv.timers
    generalize world.timers = timers at hknow ⊢
    cases timers with
    | readReason => exact ClearAllowed.tick hknow hnow
    | revoking point =>
      cases point with
      | clear => exact ClearAllowed.tick hknow hnow
      | _ => exact hknow
    | _ => exact hknow }

/-- The link task goes on without touching what the timer task knows about. -/
theorem inv_link {link : LinkPoint} {epoch generation : Nat} {admitting : Bool}
    (hinstalling : installing { world with link } = world.installing) (hknows : world.LinkKnows link) :
    Inv { world with link, epoch, admitting, lastSnapshotGeneration := generation } := { hinv with
  hold := fun hnot => hinv.hold (hinstalling.symm.trans hnot)
  apart := fun hdeciding => hinstalling.trans (hinv.apart hdeciding)
  authorised := fun hnot => hinv.authorised (hinstalling.symm.trans hnot)
  link := hknows }

theorem inv_command (hidle : world.link = .idle) (command : LinkCommand) : Inv (world.startCommand command) := by
  have hnot : world.installing = false := by
    rw [installing, hidle]
  have hother : ∀ link epoch admitting, installing { world with link } = false → world.LinkKnows link →
      Inv { world with link, epoch, admitting } := by
    intro link epoch admitting hlink hknows
    exact inv_link hinv (hlink.trans hnot.symm) hknows
  cases command with
  | install snapshot wallNow =>
    simp only [startCommand]
    by_cases hvalid : validSnapshotStaleAfterMs snapshot.staleAfterMs = true
    · rw [if_pos hvalid]
      exact hother (.storing snapshot wallNow world.epoch) _ _ rfl trivial
    · rw [if_neg hvalid]
      exact hother (.revoking .clear) _ _ rfl trivial
  | pause hold => exact hother (.pausing hold) _ _ rfl trivial
  | disconnectAll => exact hinv
  | beginEpoch => exact hother world.link _ _ hnot hinv.link

/-- Storing a snapshot, which happens while the timer task does not decide. -/
theorem inv_store (hdeciding : world.deciding = false) (snapshot : ProxySnapshot)
    (wallNow epoch : Nat) (hlink : world.link = .storing snapshot wallNow epoch) :
    Inv (world.storeSnapshot snapshot wallNow epoch) := by
  have hnot : world.installing = false := by
    rw [installing, hlink]
  have hback : ∀ link, installing { world with link } = false → world.LinkKnows link → Inv { world with link } := by
    intro link hlink hknows
    exact inv_link hinv (hlink.trans hnot.symm) hknows
  unfold storeSnapshot
  split
  · exact hback (.revoking .clear) rfl trivial
  next routing hrouting =>
  by_cases hold : nonIncreasing routing world.held = true
  · rw [if_pos hold]
    exact hback .idle rfl trivial
  rw [if_neg hold]
  -- the hold of an earlier pause is not about this snapshot: nothing is said of it until the link resumes
  constructor
  · exact le_rfl
  · exact nofun
  · exact fun h => absurd h (ne_true_of_eq_false hdeciding)
  · exact nofun
  · exact trivial
  · exact timersKnow_of_not_deciding hdeciding _

omit hinv in
/-- A pause that changes the mode takes nothing away from what the timer task knows: an authoritative control
plane has no hold that could have passed. -/
theorem timersKnow_pause {timers : TimerPoint} (hknow : world.TimersKnow timers) (hold : Nat) :
    (world.pause hold).TimersKnow timers := by
  unfold pause
  by_cases hmode : world.mode = .authoritative
  · rw [if_pos hmode]
    have hnot : world.mode ≠ .paused := by simp [hmode]
    have hallowed : world.ClearAllowed → ∀ other : TimerWorld, other.held = world.held → other.now = world.now →
        other.ClearAllowed := by
      rintro hallowed other hheld hnow snapshot ⟨hsome, hfresh⟩
      rw [hheld] at hsome
      rw [hnow] at hfresh
      exact absurd (hallowed snapshot ⟨hsome, hfresh⟩).1 hnot
    cases timers with
    | readHold => exact fun _ => rfl
    | readStore deadline => exact fun hheld => absurd (hknow hheld).1 hnot
    | readReason => exact hallowed hknow _ rfl rfl
    | revoking point =>
      cases point with
      | clear => exact hallowed hknow _ rfl rfl
      | disconnectInvalid => exact trivial
      | _ => exact hknow
    | _ => exact trivial
  · rw [if_neg hmode]
    exact hknow

theorem inv_pause (hnot : world.installing = false) (hold : Nat) :
    Inv { world.pause hold with link := .aborting } := by
  have hknow := timersKnow_pause hinv.timers hold
  unfold pause at hknow ⊢
  by_cases hmode : world.mode = .authoritative
  · rw [if_pos hmode] at hknow ⊢
    exact { hinv with
      hold := by
        rintro - deadline hdeadline
        cases hdeadline
        exact hinv.stored.trans (Nat.le_add_right _ _)
      apart := fun _ => rfl
      authorised := nofun
      link := trivial
      timers := hknow }
  · rw [if_neg hmode] at hknow ⊢
    exact inv_link hinv hnot.symm trivial

theorem inv_linkStep (hover : world.overlaps .link = false) (hstep : world.linkStep = some next) : Inv next := by
  have hknows := hinv.link
  have hhold := hinv.hold
  have hapart := hinv.apart
  cases linkStep_cases hstep with
  | goOn link generation hinstalling hknows => exact inv_link hinv hinstalling hknows
  | store snapshot wallNow epoch hlink =>
    apply inv_store hinv _ snapshot wallNow epoch hlink
    simpa [overlaps, hlink] using hover
  | resume hlink =>
    have hdeciding : world.deciding = false := by
      by_contra hcontra
      have hnot := hapart (eq_true_of_ne_false hcontra)
      rw [installing, hlink] at hnot
      cases hnot
    exact { hinv with
      hold := nofun
      apart := fun _ => rfl
      authorised := nofun
      link := trivial
      timers := timersKnow_of_not_deciding hdeciding _ }
  | revoke point hlink =>
    rw [hlink] at hknows
    have hnot : world.installing = false := by
      rw [installing, hlink]
    cases point with
    | clear =>
      exact { hinv with
        hold := fun _ => hhold hnot
        apart := fun _ => rfl
        authorised := fun _ h => absurd rfl h
        link := (rfl : _ = _)
        timers := timersKnow_of_held_none rfl _ }
    | clearSnapshot => exact inv_link hinv hnot.symm hknows
    | revoke =>
      exact { hinv with
        hold := nofun
        apart := fun _ => rfl
        authorised := fun _ h => absurd hknows h
        link := trivial
        timers := timersKnow_of_held_none (show (world.revokeStep .revoke).1.held = none from hknows) _ }
    | disconnectInvalid => exact inv_link hinv hnot.symm trivial
  | pause hold hlink =>
    apply inv_pause hinv
    rw [installing, hlink]

/-! ## Steps of the timer task -/

/-- The timer task goes on without touching anything. -/
theorem inv_setTimers {timers : TimerPoint}
    (hdeciding : deciding { world with timers } = true → world.installing = false)
    (hknows : world.TimersKnow timers) : Inv (world.setTimers timers) := { hinv with
  apart := hdeciding
  timers := by
    cases timers with
    | revoking point => cases point <;> exact hknows
    | _ => exact hknows }

theorem inv_timerStep (hstep : world.timerStep = some next) : Inv next := by
  have hknow := hinv.timers
  cases timerStep_cases hstep with
  | goOn timers _ hdeciding hknows => exact inv_setTimers hinv (fun h => hinv.apart (hdeciding h)) (hknows hinv)
  | expire generation deadline hdeciding =>
    exact { hinv with
      apart := fun _ => hinv.apart hdeciding
      authorised := fun _ h => absurd rfl h
      link := linkKnows_of_held_none rfl _
      timers := timersKnow_of_held_none rfl _ }
  | revoke point htimers =>
    rw [htimers] at hknow
    cases point with
    | clear =>
      exact { hinv with
        apart := fun _ => hinv.apart (by rw [deciding, htimers])
        authorised := fun _ h => absurd rfl h
        link := linkKnows_of_held_none rfl _
        timers := (rfl : _ = _) }
    | clearSnapshot =>
      exact { hinv with
        apart := fun _ => hinv.apart (by rw [deciding, htimers])
        timers := hknow }
    | revoke =>
      exact { hinv with
        hold := nofun
        apart := nofun
        authorised := fun _ h => absurd hknow h
        timers := trivial }
    | disconnectInvalid => exact inv_setTimers hinv nofun trivial

end

/-! ## Whole runs -/

theorem inv_initial : Inv initial where
  stored := le_rfl
  hold := nofun
  apart := fun _ => rfl
  authorised := fun _ h => absurd rfl h
  link := trivial
  timers := trivial

theorem separateStep_eq_some (h : world.separateStep label = some next) :
    world.overlaps label = false ∧ world.step label = some next := by
  obtain ⟨hover, hstep⟩ := Option.ite_none_left_eq_some.mp h
  exact ⟨eq_false_of_ne_true hover, hstep⟩

theorem inv_separateStep (hinv : Inv world) (hstep : world.separateStep label = some next) : Inv next := by
  obtain ⟨hover, hstep⟩ := separateStep_eq_some hstep
  cases step_cases hstep with
  | tick now hnow => exact inv_tick hinv hnow
  | command command hidle => exact inv_command hinv hidle command
  | link next hstep => exact inv_linkStep hinv hover hstep
  | wake => exact inv_setTimers hinv (fun _ => hover) trivial
  | notice => exact inv_setTimers hinv nofun trivial
  | timers next hstep => exact inv_timerStep hinv hstep

theorem inv_run {labels : List TimerLabel} (hrun : run separateStep initial labels = some world) : Inv world :=
  @run_invariant TimerWorld TimerLabel separateStep Inv (fun _ _ _ hinv hstep => inv_separateStep hinv hstep)
    _ _ _ inv_initial hrun

/-! ## What may end a fresh lease -/

/-- The step stores the snapshot of an install. -/
def storesNext (label : TimerLabel) : Prop :=
  label = .link ∧ ∃ snapshot wallNow epoch, world.link = .storing snapshot wallNow epoch

/-- The step is one of a revoke that the link ordered. -/
def linkRevokes (label : TimerLabel) : Prop := label = .link ∧ ∃ point, world.link = .revoking point

/-- The step takes the snapshot out of the store, or the control plane away from under it. -/
def Ends (snapshot : RoutingSnapshot) (next : TimerWorld) : Prop :=
  next.held ≠ some snapshot ∨ world.mode ≠ .empty ∧ next.mode = .empty

theorem not_ends_of_eq (hfresh : world.Fresh snapshot) (hheld : next.held = world.held)
    (hmode : next.mode = .empty → world.mode = .empty) : ¬ world.Ends snapshot next := by
  rintro (hremoved | ⟨hbefore, hafter⟩)
  · exact hremoved (hheld.trans hfresh.1)
  · exact hbefore (hmode hafter)

theorem pause_mode (hold : Nat) : (world.pause hold).mode = .empty → world.mode = .empty := by
  unfold pause
  split
  · exact fun h => absurd h ControlMode.noConfusion
  · exact id

theorem linkStep_keeps (hstep : world.linkStep = some next) (hstores : ¬ world.storesNext .link)
    (hrevokes : ¬ world.linkRevokes .link) : next.held = world.held ∧ (next.mode = .empty → world.mode = .empty) := by
  cases linkStep_cases hstep with
  | goOn => exact ⟨rfl, id⟩
  | store snapshot wallNow epoch hlink => exact absurd ⟨rfl, snapshot, wallNow, epoch, hlink⟩ hstores
  | resume => exact ⟨rfl, nofun⟩
  | revoke point hlink => exact absurd ⟨rfl, point, hlink⟩ hrevokes
  | pause hold => exact ⟨by unfold pause; split <;> rfl, pause_mode hold⟩

/-- The timer task removes a fresh snapshot only because of a hold that has passed. -/
theorem timerStep_held (hinv : Inv world) (hstep : world.timerStep = some next) (hfresh : world.Fresh snapshot)
    (hnot : ¬ world.HoldPassed) : next.held = world.held := by
  have hknow := hinv.timers
  cases timerStep_cases hstep with
  | goOn => rfl
  | expire generation deadline _ hexpires =>
    simp only [expires, hfresh.1, Option.any_some, Bool.and_eq_true, Bool.not_eq_true'] at hexpires
    exact absurd hfresh.2 (ne_true_of_eq_false hexpires.2)
  | revoke point htimers =>
    rw [htimers] at hknow
    cases point with
    | clear => exact absurd (hknow snapshot hfresh) hnot
    | _ => rfl

/-- The timer task takes the admission away only when no snapshot is stored. -/
theorem timerStep_mode (hinv : Inv world) (hstep : world.timerStep = some next) (hheld : next.held ≠ none) :
    next.mode = world.mode ∧ next.admitting = world.admitting := by
  have hknow := hinv.timers
  cases timerStep_cases hstep with
  | goOn | expire => exact ⟨rfl, rfl⟩
  | revoke point htimers =>
    rw [htimers] at hknow
    cases point with
    | revoke => exact absurd hknow hheld
    | _ => exact ⟨rfl, rfl⟩

/-- Every step that is neither the link's nor the timer task's keeps the store and the mode. -/
theorem step_keeps (hstep : world.step label = some next) (hlink : label ≠ .link) (htimers : label ≠ .timers) :
    next.held = world.held ∧ next.mode = world.mode := by
  cases step_cases hstep with
  | link => exact absurd rfl hlink
  | timers => exact absurd rfl htimers
  | command command =>
    cases command with
    | install snapshot wallNow =>
      simp only [startCommand]
      split <;> exact ⟨rfl, rfl⟩
    | _ => exact ⟨rfl, rfl⟩
  | tick | wake | notice => exact ⟨rfl, rfl⟩

/-- In every run in which the timer task and an install do not overlap, a fresh snapshot is removed, or the
control plane taken away from under it, only by a later install, by a revoke that the link orders, or after the
hold of a pause that followed the snapshot's install.  Outside an install the control plane is never empty under
a stored snapshot, and the timer task takes the admission away only when no snapshot is stored. -/
theorem fresh_lease_kept {labels : List TimerLabel} {label : TimerLabel}
    (hrun : run separateStep initial labels = some world) (hstep : world.separateStep label = some next) :
    (∀ snapshot, world.Fresh snapshot → world.Ends snapshot next →
      world.storesNext label ∨ world.linkRevokes label ∨ world.HoldPassed) ∧
    (world.installing = false → world.held ≠ none → world.mode ≠ .empty) ∧
    (label = .timers → next.held ≠ none → next.mode = world.mode ∧ next.admitting = world.admitting) := by
  have hinv := inv_run hrun
  obtain ⟨-, hstep⟩ := separateStep_eq_some hstep
  refine ⟨?_, hinv.authorised, ?_⟩
  · intro snapshot hfresh hends
    by_contra hnone
    push Not at hnone
    obtain ⟨hstores, hrevokes, hhold⟩ := hnone
    have hheldNone : world.held ≠ none := by simp [hfresh.1]
    by_cases hlink : label = .link
    · subst hlink
      obtain ⟨hheld, hmode⟩ := linkStep_keeps hstep hstores hrevokes
      exact not_ends_of_eq hfresh hheld hmode hends
    by_cases htimers : label = .timers
    · subst htimers
      have hheld := timerStep_held hinv hstep hfresh hhold
      have hmode := (timerStep_mode hinv hstep (hheld ▸ hheldNone)).1
      exact not_ends_of_eq hfresh hheld hmode.symm.trans hends
    · obtain ⟨hheld, hmode⟩ := step_keeps hstep hlink htimers
      exact not_ends_of_eq hfresh hheld hmode.symm.trans hends
  · intro htimers
    subst htimers
    exact timerStep_mode hinv hstep

/-- A snapshot with a lease of 99 seconds when it is installed at wall time 1000. -/
def leaseSnapshot (generation : Nat) : ProxySnapshot :=
  { generation, staleAfterMs := 120000, validUntil := 100000, hostSuffix := "nya".toList, hostKeyParses := true,
    users := [], servers := [], images := [], containers := [], routes := [] }

/-- An install from its first step to its last. -/
def installLabels (generation : Nat) : List TimerLabel :=
  .command (.install (leaseSnapshot generation) 1000) :: List.replicate 5 .link

/-- A snapshot is installed, the link is paused with a hold of 10, and the timer task is woken by the hold and
gets to the point where it is about to clear the store. -/
def holdLabels : List TimerLabel :=
  installLabels 1 ++ [.command (.pause 10), .link, .link, .timers, .tick 20, .wake] ++ List.replicate 4 .timers

/-- What is stored of `leaseSnapshot`. -/
def leaseRouting (generation deadline : Nat) : RoutingSnapshot :=
  { epoch := 0, generation, deadline, hostSuffix := "nya".toList, users := [], servers := [], images := [],
    containers := [], routes := [] }

/-- The state after `holdLabels`. -/
def heldOver : TimerWorld :=
  { now := 20, held := some (leaseRouting 1 99000)
    storedAt := 0, mode := .paused, epoch := 0, holdDeadline := some 10, admitting := false
    lastSnapshotGeneration := 1, link := .idle, timers := .revoking .clear }

theorem run_holdLabels : run separateStep initial holdLabels = some heldOver := by
  decide +kernel

/-- The theorem at a hold that has passed: the fresh snapshot of `heldOver` goes, and nothing but the hold can
have been the reason. -/
theorem heldOver_ends : ∃ next, heldOver.separateStep .timers = some next ∧
    heldOver.Fresh (leaseRouting 1 99000) ∧ heldOver.Ends (leaseRouting 1 99000) next ∧
    (heldOver.storesNext .timers ∨ heldOver.linkRevokes .timers ∨ heldOver.HoldPassed) := by
  have hstep : heldOver.separateStep .timers =
      some { heldOver with held := none, timers := .revoking .clearSnapshot } := by
    decide +kernel
  have hfresh : heldOver.Fresh (leaseRouting 1 99000) := ⟨rfl, rfl⟩
  have hends : heldOver.Ends (leaseRouting 1 99000)
      { heldOver with held := none, timers := .revoking .clearSnapshot } :=
    .inl (Option.some_ne_none _).symm
  exact ⟨_, hstep, hfresh, hends, (fresh_lease_kept run_holdLabels hstep).1 _ hfresh hends⟩

/-- An install completes after the timer task has decided to revoke and before it clears the store.  -/
def lateClearLabels : List TimerLabel := holdLabels ++ installLabels 2

/-- An install completes after the timer task has cleared the store and before it revokes the control plane. -/
def lateRevokeLabels : List TimerLabel := holdLabels ++ [.timers] ++ installLabels 2 ++ List.replicate 3 .timers

/-- A decision taken for an earlier pause clears the snapshot installed afterwards; and it leaves the control
plane empty while a fresh snapshot is stored. -/
theorem late_decision_ends_fresh_lease :
    (∃ world next snapshot, run step initial lateClearLabels = some world ∧ world.step .timers = some next ∧
      world.Fresh snapshot ∧ world.Ends snapshot next ∧
      ¬ (world.storesNext .timers ∨ world.linkRevokes .timers ∨ world.HoldPassed)) ∧
    (∃ world snapshot, run step initial lateRevokeLabels = some world ∧ world.Fresh snapshot ∧
      world.link = .idle ∧ world.mode = .empty) := by
  constructor
  · have hrun : (run step initial lateClearLabels) = some
        { heldOver with
          held := some (leaseRouting 2 99020)
          storedAt := 20, mode := .authoritative, holdDeadline := none, admitting := true
          lastSnapshotGeneration := 2 } := by
      decide +kernel
    refine ⟨_, _, _, hrun, rfl, ⟨rfl, rfl⟩, .inl (Option.some_ne_none _).symm, ?_⟩
    rintro (⟨h, -⟩ | ⟨h, -⟩ | ⟨h, -⟩)
    · exact TimerLabel.noConfusion h
    · exact TimerLabel.noConfusion h
    · exact ControlMode.noConfusion h
  · have hrun : (run step initial lateRevokeLabels) = some
        { heldOver with
          held := some (leaseRouting 2 99020)
          storedAt := 20, mode := .empty, holdDeadline := none, lastSnapshotGeneration := 0
          timers := .nextDeadline } := by
      decide +kernel
    exact ⟨_, _, hrun, ⟨rfl, rfl⟩, rfl, rfl⟩

end TimerWorld

end Nyabase.SshProxy
