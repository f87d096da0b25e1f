import Nyabase.SshProxy.FreshLease

/-!
# The hold: `run_backend_loop` of `tools/ssh-proxy/src/control.rs`

The backend loop connects, serves the link's frames, and pauses the control plane whenever the link ends or cannot
be opened.  So a new epoch begins on a paused or empty control plane only.  The timer task sleeps until the deadline
it has read, and notices a change it has not seen.
-/

namespace Nyabase.SshProxy

open Lib Option TimerWorld

namespace TimerWorld

/-- Whether the next operation of the link task signals a change. -/
def linkSignals (world : TimerWorld) : Bool :=
  match world.link with
  | .storing snapshot wallNow epoch =>
    match RoutingSnapshot.fromSnapshotInEpoch snapshot epoch world.now wallNow with
    | .error _ => false
    | .ok routing => !nonIncreasing routing world.held
  | .resuming | .revoking .clear | .revoking .revoke => true
  | .pausing _ => decide (world.mode = .authoritative)
  | _ => false

/-- Whether the next operation of the timer task signals a change. -/
def timerSignals (world : TimerWorld) : Bool :=
  match world.timers with
  | .expiring generation deadline => world.expires generation deadline
  | .revoking .clear | .revoking .revoke => true
  | _ => false

end TimerWorld

structure BackendLoop where
  control : TimerWorld
  /-- `run_backend_once` is past `begin_epoch` -/
  connected : Bool
  /-- a change was signalled that the timer task has not noticed -/
  changed : Bool

inductive LoopLabel where
  | connect
  /-- the link ends, or could not be opened -/
  | disconnect
  -- frames of the link
  | install (snapshot : ProxySnapshot) (wallNow : Nat)
  | pauseAdmit
  | disconnectAll
  -- the tasks go on
  | tick (now : Nat)
  | link
  | wake
  | notice
  | timers

/-- What a label does to the control plane; every pause has the configured hold. -/
def LoopLabel.operation (hold : Nat) : LoopLabel → TimerLabel
  | .connect => .command .beginEpoch
  | .disconnect => .command (.pause hold)
  | .install snapshot wallNow => .command (.install snapshot wallNow)
  | .pauseAdmit => .command (.pause hold)
  | .disconnectAll => .command .disconnectAll
  | .tick now => .tick now
  | .link => .link
  | .wake => .wake
  | .notice => .notice
  | .timers => .timers

namespace BackendLoop

variable (hold : Nat) (loop : BackendLoop)

def initial : BackendLoop := ⟨.initial, false, false⟩

def allows : LoopLabel → Bool
  | .connect => !loop.connected
  | .install _ _ | .pauseAdmit | .disconnectAll => loop.connected
  | .notice => loop.changed
  | _ => true

def connectedAfter : LoopLabel → Bool
  | .connect => true
  | .disconnect => false
  | _ => loop.connected

def changedAfter : LoopLabel → Bool
  | .connect => true
  | .notice => false
  | .link => loop.changed || loop.control.linkSignals
  | .timers => loop.changed || loop.control.timerSignals
  | _ => loop.changed

/-- One step, for a way the two tasks move. -/
def stepBy (move : TimerWorld → TimerLabel → Option TimerWorld) (label : LoopLabel) : Option BackendLoop :=
  if loop.allows label then
    (move loop.control (label.operation hold)).map fun control =>
      { control, connected := loop.connectedAfter label, changed := loop.changedAfter label }
  else none

def step (label : LoopLabel) : Option BackendLoop := loop.stepBy hold TimerWorld.step label

/-- A step in which the timer task and an install do not get in each other's way. -/
def separateStep (label : LoopLabel) : Option BackendLoop := loop.stepBy hold TimerWorld.separateStep label

end BackendLoop

/-! ## The cells of the control plane -/

namespace TimerWorld

variable {world next : TimerWorld}

/-- The mode decides the other two cells. -/
structure Cells (world : TimerWorld) : Prop where
  admitting : world.admitting = true ↔ world.mode = .authoritative
  hold : world.holdDeadline ≠ none ↔ world.mode = .paused

def cells (world : TimerWorld) : ControlMode × Bool × Option Nat := (world.mode, world.admitting, world.holdDeadline)

/-- What an operation does to the cells. -/
inductive CellsStep (world next : TimerWorld) : Prop
  | same (cells : next.cells = world.cells)
  | resumed (cells : next.cells = (.authoritative, true, none))
  | revoked (cells : next.cells = (.empty, false, none))
  | paused (before : world.mode = .authoritative) (deadline : Nat)
      (cells : next.cells = (.paused, false, some deadline))
  | closed (before : world.mode ≠ .authoritative) (cells : next.cells = (world.mode, false, world.holdDeadline))

theorem Cells.step (h : Cells world) (hstep : CellsStep world next) : Cells next := by
  cases hstep with
  | same cells =>
    simp only [TimerWorld.cells, Prod.mk.injEq] at cells
    obtain ⟨mode, admitting, hold⟩ := cells
    exact ⟨by rw [mode, admitting]; exact h.admitting, by rw [mode, hold]; exact h.hold⟩
  | resumed cells | revoked cells | paused before deadline cells =>
    simp only [TimerWorld.cells, Prod.mk.injEq] at cells
    constructor <;> simp [cells]
  | closed before cells =>
    simp only [TimerWorld.cells, Prod.mk.injEq] at cells
    obtain ⟨mode, admitting, hold⟩ := cells
    exact ⟨by simp [mode, admitting, before], by rw [mode, hold]; exact h.hold⟩

/-- A hold that is armed stays as it is until it is dropped. -/
theorem CellsStep.hold_kept (hstep : CellsStep world next) (h : Cells world) {deadline later : Nat}
    (hdeadline : world.holdDeadline = some deadline) (hlater : next.holdDeadline = some later) : later = deadline := by
  have hpaused : world.mode = .paused := h.hold.mp (by simp [hdeadline])
  cases hstep with
  | same cells | resumed cells | revoked cells | closed before cells => simp_all [TimerWorld.cells]
  | paused before => simp [hpaused] at before

theorem cellsStep_pause (hold : Nat) (link : LinkPoint) : CellsStep world { world.pause hold with link } := by
  unfold pause
  by_cases hmode : world.mode = .authoritative
  · rw [if_pos hmode]
    exact .paused hmode _ rfl
  · rw [if_neg hmode]
    exact .closed hmode rfl

theorem cellsStep_revokeStep (point : RevokePoint) (link : LinkPoint) (timers : TimerPoint) :
    CellsStep world { (world.revokeStep point).1 with link, timers } := by
  cases point with
  | revoke => exact .revoked rfl
  | clear | clearSnapshot | disconnectInvalid => exact .same rfl

theorem linkStep_cells (hstep : world.linkStep = some next) : CellsStep world next := by
  cases linkStep_cases hstep with
  | goOn => exact .same rfl
  | store snapshot wallNow epoch =>
    unfold storeSnapshot
    split
    · exact .same rfl
    · split <;> exact .same rfl
  | resume => exact .resumed rfl
  | revoke point => exact cellsStep_revokeStep point _ _
  | pause hold => exact cellsStep_pause hold _

theorem timerStep_cells (hstep : world.timerStep = some next) : CellsStep world next := by
  cases timerStep_cases hstep with
  | goOn | expire => exact .same rfl
  | revoke point => exact cellsStep_revokeStep point _ _

/-- A new epoch begins only where the control plane is not authoritative. -/
theorem step_cells {label : TimerLabel} (hstep : world.step label = some next)
    (hepoch : label = .command .beginEpoch → world.mode ≠ .authoritative) : CellsStep world next := by
  cases step_cases hstep with
  | link next hstep => exact linkStep_cells hstep
  | timers next hstep => exact timerStep_cells hstep
  | command command =>
    cases command with
    | install snapshot wallNow =>
      simp only [startCommand]
      split <;> exact .same rfl
    | beginEpoch => exact .closed (hepoch rfl) rfl
    | pause hold | disconnectAll => exact .same rfl
  | tick | wake | notice => exact .same rfl

/-! ## What the timer task sleeps on -/

theorem linkStep_timers (hstep : world.linkStep = some next) : next.timers = world.timers := by
  cases linkStep_cases hstep with
  | goOn | resume => rfl
  | store snapshot wallNow epoch =>
    unfold storeSnapshot
    repeat' split
    all_goals rfl
  | revoke point => cases point <;> rfl
  | pause hold =>
    unfold pause
    split <;> rfl

/-- An operation of the link task that signals nothing moves no deadline. -/
theorem linkStep_nextDeadline (hstep : world.linkStep = some next) (hquiet : world.linkSignals = false) :
    next.nextDeadline = world.nextDeadline := by
  unfold linkSignals at hquiet
  cases linkStep_cases hstep with
  | goOn => exact rfl
  | store snapshot wallNow epoch hlink =>
    simp only [hlink] at hquiet
    unfold storeSnapshot
    split
    · exact rfl
    next routing hrouting =>
    have hold : nonIncreasing routing world.held = true := by simpa [hrouting] using hquiet
    rw [if_pos hold]
    exact rfl
  | resume hlink =>
    rw [hlink] at hquiet
    cases hquiet
  | revoke point hlink =>
    rw [hlink] at hquiet
    cases point with
    | clear | revoke => cases hquiet
    | clearSnapshot | disconnectInvalid => exact rfl
  | pause hold hlink =>
    have hmode : world.mode ≠ .authoritative := by simpa [hlink] using hquiet
    -- a pause of a control plane that is not authoritative closes the admission, which no deadline reads then
    unfold pause nextDeadline
    cases hother : world.mode with
    | authoritative => exact absurd hother hmode
    | paused | empty => rfl

/-- The timer task falls asleep until the deadline there is. -/
theorem timerStep_sleeping (hstep : world.timerStep = some next) {deadline : Option Nat}
    (hsleeping : next.timers = .sleeping deadline) : deadline = next.nextDeadline := by
  cases timerStep_cases hstep with
  | goOn timers hdeadline =>
    rw [hdeadline deadline hsleeping]
    exact rfl
  | expire => cases hsleeping
  | revoke point => cases point <;> cases hsleeping

/-- The timer task leaves the link alone and never makes the control plane authoritative. -/
theorem timerStep_keeps (hstep : world.timerStep = some next) :
    next.link = world.link ∧ (next.mode = .authoritative → world.mode = .authoritative) := by
  cases timerStep_cases hstep with
  | goOn | expire => exact ⟨rfl, id⟩
  | revoke point =>
    cases point with
    | revoke => exact ⟨rfl, nofun⟩
    | clear | clearSnapshot | disconnectInvalid => exact ⟨rfl, id⟩

end TimerWorld

/-! ## The loop -/

namespace BackendLoop

variable {hold : Nat} {loop next : BackendLoop}

/-- Between two links the control plane has been paused, or is about to be. -/
def PausedBetween (loop : BackendLoop) : Prop :=
  (∃ hold, loop.control.link = .pausing hold) ∨
    (loop.control.link = .aborting ∨ loop.control.link = .idle) ∧ loop.control.mode ≠ .authoritative

structure HoldInv (loop : BackendLoop) : Prop where
  cells : loop.control.Cells
  between : loop.connected = false → loop.PausedBetween
  asleep : ∀ deadline, loop.control.timers = .sleeping deadline →
    loop.changed = true ∨ deadline = loop.control.nextDeadline

variable {move : TimerWorld → TimerLabel → Option TimerWorld}

theorem stepBy_eq_some (h : loop.stepBy hold move label = some next) :
    loop.allows label = true ∧ ∃ control, move loop.control (label.operation hold) = some control ∧
      next = { control, connected := loop.connectedAfter label, changed := loop.changedAfter label } := by
  obtain ⟨hallows, h⟩ := ite_none_right_eq_some.mp h
  obtain ⟨control, hmove, rfl⟩ := map_eq_some_iff.mp h
  exact ⟨hallows, control, hmove, rfl⟩

variable {control : TimerWorld} {label : LoopLabel}

section

variable (h : HoldInv loop)

include h

/-- A new epoch begins on a control plane that has been paused. -/
theorem HoldInv.step_cells (hallows : loop.allows label = true)
    (hmove : loop.control.step (label.operation hold) = some control) : loop.control.CellsStep control := by
  apply TimerWorld.step_cells hmove
  intro hepoch
  cases label with
  | connect =>
    have hconnected : loop.connected = false := by simpa [allows] using hallows
    cases step_cases hmove with
    | command _ hidle =>
      rcases h.between hconnected with ⟨other, hpausing⟩ | ⟨-, hmode⟩
      · rw [hidle] at hpausing
        cases hpausing
      · exact hmode
  | _ => cases hepoch

theorem HoldInv.step_between
    (hallows : loop.allows label = true) (hmove : loop.control.step (label.operation hold) = some control)
    (hconnected : loop.connectedAfter label = false) :
    PausedBetween { control, connected := loop.connectedAfter label, changed := loop.changedAfter label } := by
  have hkeep : ∀ other : TimerWorld, loop.connected = false → other.link = loop.control.link →
      (other.mode = .authoritative → loop.control.mode = .authoritative) →
      PausedBetween { control := other, connected := loop.connected, changed := loop.changedAfter label } := by
    intro other hnot hlink hmode
    rcases h.between hnot with ⟨deadline, hpausing⟩ | ⟨hrest, hbefore⟩
    · exact .inl ⟨deadline, hlink.trans hpausing⟩
    refine .inr ⟨?_, mt hmode hbefore⟩
    show other.link = _ ∨ other.link = _
    rw [hlink]
    exact hrest
  cases label with
  | connect => cases hconnected
  | disconnect =>
    cases step_cases hmove with
    | command => exact .inl ⟨hold, rfl⟩
  | install snapshot wallNow | pauseAdmit | disconnectAll =>
    have hnot : loop.connected = false := hconnected
    simp [allows, hnot] at hallows
  | tick now | wake | notice => cases step_cases hmove with | _ => exact hkeep _ hconnected rfl id
  | link =>
    rcases h.between hconnected with ⟨deadline, hpausing⟩ | ⟨haborting | hidle, hmode⟩
    · -- the pause
      simp only [LoopLabel.operation, TimerWorld.step, TimerWorld.linkStep, hpausing] at hmove
      cases hmove
      refine .inr ⟨.inl rfl, ?_⟩
      show (loop.control.pause deadline).mode ≠ .authoritative
      unfold TimerWorld.pause
      split
      · exact ControlMode.noConfusion
      · next hmode => exact hmode
    · simp only [LoopLabel.operation, TimerWorld.step, TimerWorld.linkStep, haborting] at hmove
      cases hmove
      exact .inr ⟨.inr rfl, hmode⟩
    · simp only [LoopLabel.operation, TimerWorld.step, TimerWorld.linkStep, hidle] at hmove
      cases hmove
  | timers =>
    obtain ⟨hlink, hmode⟩ := TimerWorld.timerStep_keeps hmove
    exact hkeep _ hconnected hlink hmode

theorem HoldInv.step_asleep (hmove : loop.control.step (label.operation hold) = some control)
    {deadline : Option Nat} (hsleeping : control.timers = .sleeping deadline) :
    loop.changedAfter label = true ∨ deadline = control.nextDeadline := by
  have hcommand : ∀ command, command ≠ .beginEpoch → loop.control.step (.command command) = some control →
      loop.changed = true ∨ deadline = control.nextDeadline := by
    intro command hother hcommand
    obtain ⟨⟩ := step_cases hcommand
    have hsame : (loop.control.startCommand command).timers = loop.control.timers ∧
        (loop.control.startCommand command).nextDeadline = loop.control.nextDeadline := by
      cases command with
      | install snapshot wallNow =>
        simp only [startCommand]
        split <;> exact ⟨rfl, rfl⟩
      | beginEpoch => exact absurd rfl hother
      | pause hold => exact ⟨rfl, rfl⟩
      | disconnectAll => exact ⟨rfl, rfl⟩
    rw [hsame.2]
    exact h.asleep deadline (hsame.1 ▸ hsleeping)
  cases label with
  | connect => exact .inl rfl
  | disconnect | install snapshot wallNow | pauseAdmit | disconnectAll => exact hcommand _ LinkCommand.noConfusion hmove
  | tick now => cases step_cases hmove with | tick => exact h.asleep deadline hsleeping
  | link =>
    simp only [changedAfter, Bool.or_eq_true]
    cases hsignals : loop.control.linkSignals with
    | true => exact .inl (.inr rfl)
    | false =>
      rw [linkStep_timers hmove] at hsleeping
      rw [linkStep_nextDeadline hmove hsignals]
      exact (h.asleep deadline hsleeping).imp_left .inl
  | wake | notice => cases step_cases hmove with | _ => cases hsleeping
  | timers => exact .inr (timerStep_sleeping hmove hsleeping)

theorem HoldInv.stepBy
    (hmove : ∀ world label control, move world label = some control → world.step label = some control)
    (hstep : loop.stepBy hold move label = some next) : HoldInv next := by
  obtain ⟨hallows, control, hcontrol, rfl⟩ := stepBy_eq_some hstep
  have hbase := hmove _ _ _ hcontrol
  constructor
  case cells => exact h.cells.step (h.step_cells hallows hbase)
  case between => exact h.step_between hallows hbase
  case asleep => exact fun deadline hsleeping => h.step_asleep hbase hsleeping

omit h in
theorem holdInv_initial : HoldInv initial where
  cells := ⟨by decide, by decide⟩
  between _ := .inr ⟨.inr rfl, ControlMode.noConfusion⟩
  asleep _ h := by cases h

structure HoldBounded (hold : Nat) (loop : BackendLoop) : Prop where
  /-- whatever happens next, an armed hold is not moved later -/
  pauses : ∀ label next deadline later, loop.step hold label = some next →
    loop.control.holdDeadline = some deadline → next.control.holdDeadline = some later → later ≤ deadline
  /-- a paused control plane gives a snapshot up with its lease at the latest -/
  lease : ∀ snapshot, loop.control.mode = .paused → loop.control.held = some snapshot →
    ∃ deadline, loop.control.nextDeadline = some deadline ∧ deadline ≤ snapshot.deadline
  /-- the admission is on in authoritative mode only, and asked for besides the mode -/
  logins : loop.control.admits = true → loop.control.mode = .authoritative ∧ loop.control.admitting = true
  admission : loop.control.admitting = true → loop.control.mode = .authoritative
  /-- a snapshot held between two operations has a deadline, and a timer task that has seen every change sleeps
  until it -/
  armed : loop.control.held ≠ none → loop.control.link = .idle → loop.control.deciding = false →
    ∃ deadline, loop.control.nextDeadline = some deadline ∧
      ∀ asleep, loop.control.timers = .sleeping asleep → loop.changed = false → asleep = some deadline

theorem HoldInv.lease {snapshot : RoutingSnapshot} (hmode : loop.control.mode = .paused)
    (hheld : loop.control.held = some snapshot) :
    ∃ deadline, loop.control.nextDeadline = some deadline ∧ deadline ≤ snapshot.deadline := by
  obtain ⟨hold, hhold⟩ := ne_none_iff_exists'.mp (h.cells.hold.mpr hmode)
  refine ⟨min hold snapshot.deadline, ?_, Nat.min_le_right _ _⟩
  simp [TimerWorld.nextDeadline, hmode, hhold, pausedDeadline, hheld]

theorem HoldInv.armed (hinv : loop.control.Inv) (hheld : loop.control.held ≠ none)
    (hidle : loop.control.link = .idle) : ∃ deadline, loop.control.nextDeadline = some deadline := by
  obtain ⟨snapshot, hsnapshot⟩ := ne_none_iff_exists'.mp hheld
  have hmode : loop.control.mode ≠ .empty := hinv.authorised (by rw [installing, hidle]) hheld
  cases hcase : loop.control.mode with
  | empty => exact absurd hcase hmode
  | authoritative =>
    refine ⟨snapshot.deadline, ?_⟩
    simp [TimerWorld.nextDeadline, hcase, h.cells.admitting.mpr hcase, hsnapshot]
  | paused =>
    obtain ⟨deadline, hdeadline, -⟩ := h.lease hcase hsnapshot
    exact ⟨deadline, hdeadline⟩

theorem HoldInv.bounded (hinv : loop.control.Inv) : HoldBounded hold loop := by
  constructor
  case pauses =>
    intro label next deadline later hstep hdeadline hlater
    obtain ⟨hallows, control, hcontrol, rfl⟩ := stepBy_eq_some hstep
    have hsame := (h.step_cells hallows hcontrol).hold_kept h.cells hdeadline hlater
    omega
  case lease => exact fun snapshot hmode hheld => h.lease hmode hheld
  case logins =>
    intro hadmits
    simpa [admits] using hadmits
  case admission => exact h.cells.admitting.mp
  case armed =>
    intro hheld hidle _
    obtain ⟨deadline, hdeadline⟩ := h.armed hinv hheld hidle
    refine ⟨deadline, hdeadline, ?_⟩
    intro asleep hasleep hseen
    rcases h.asleep asleep hasleep with hchanged | hsame
    · rw [hseen] at hchanged
      cases hchanged
    · exact hsame.trans hdeadline

end

/-- In every run in which the timer task and an install do not overlap the hold is bounded. -/
theorem hold_stays_bounded {labels : List LoopLabel}
    (hrun : run (separateStep hold) initial labels = some loop) : HoldBounded hold loop := by
  have hinv : HoldInv loop ∧ loop.control.Inv := by
    apply @run_invariant BackendLoop LoopLabel (separateStep hold) (fun loop => HoldInv loop ∧ loop.control.Inv)
      _ initial loop labels _ hrun
    · intro state label next hstate hstep
      refine ⟨hstate.1.stepBy ?_ hstep, ?_⟩
      · exact fun world label control hmove => (separateStep_eq_some hmove).2
      · obtain ⟨-, control, hcontrol, rfl⟩ := stepBy_eq_some hstep
        exact TimerWorld.inv_separateStep hstate.2 hcontrol
    · exact ⟨holdInv_initial, inv_initial⟩
  exact hinv.1.bounded hinv.2

/-- The frames of an install and its steps. -/
def installFrames (generation : Nat) : List LoopLabel :=
  .install (leaseSnapshot generation) 1000 :: List.replicate 5 .link

/-- A snapshot is installed, the link is lost, the timer task arms the hold of 10, and a new link is opened. -/
def reconnectLabels : List LoopLabel :=
  .connect :: installFrames 1 ++ [.disconnect, .link, .link, .timers, .notice, .timers, .connect]

/-- After the reconnect the snapshot is still held, and its hold is the deadline. -/
theorem reconnect_bounded :
    ∃ loop, run (separateStep 10) initial reconnectLabels = some loop ∧ loop.control.held ≠ none ∧
      loop.control.nextDeadline = some 10 ∧ HoldBounded 10 loop := by
  have hrun : (run (separateStep 10) initial reconnectLabels).map
      (fun loop => (loop.control.held.isSome, loop.control.nextDeadline)) = some (true, some 10) := by
    decide +kernel
  obtain ⟨loop, hloop, heq⟩ := map_eq_some_iff.mp hrun
  obtain ⟨hheld, hdeadline⟩ := Prod.mk.inj heq
  exact ⟨loop, hloop, isSome_iff_ne_none.mp hheld, hdeadline, hold_stays_bounded hloop⟩

/-- The hold runs out, and the timer task clears the store; on the new link an install completes before the timer
task revokes the control plane. -/
def lateRevokeFrames : List LoopLabel :=
  reconnectLabels ++ [.notice, .timers, .tick 20, .wake] ++ List.replicate 5 .timers ++ installFrames 2 ++
    List.replicate 3 .timers ++ [.timers, .notice, .timers]

/-- A snapshot is held while nothing is going on, and no deadline is armed. -/
theorem late_revoke_leaves_no_deadline :
    ∃ loop, run (step 10) initial lateRevokeFrames = some loop ∧ loop.control.held ≠ none ∧
      loop.control.link = .idle ∧ loop.control.deciding = false ∧ loop.control.timers = .sleeping none ∧
      loop.changed = false ∧ loop.control.nextDeadline = none := by
  have hrun : (run (step 10) initial lateRevokeFrames).map
      (fun loop => (loop.control.held.isSome, loop.control.link, loop.control.timers, loop.changed,
        loop.control.nextDeadline)) = some (true, .idle, .sleeping none, false, none) := by
    decide +kernel
  obtain ⟨loop, hloop, heq⟩ := map_eq_some_iff.mp hrun
  simp only [Prod.mk.injEq] at heq
  obtain ⟨hheld, hlink, htimers, hchanged, hdeadline⟩ := heq
  have hdeciding : loop.control.deciding = false := by
    rw [deciding, htimers]
  exact ⟨loop, hloop, isSome_iff_ne_none.mp hheld, hlink, hdeciding, htimers, hchanged, hdeadline⟩

end BackendLoop

end Nyabase.SshProxy
