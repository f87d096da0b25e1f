import Nyabase.Lib.Transition

/-!
# Status reports of the agent

`publishStatus` and the socket handlers of `session` in `packages/agent/src/backend-connection.ts`.  `hello` asks
Incus and may settle after the session of its socket has ended.  It then replaces `reported`, and a socket that
was welcomed in the meantime hears of no later status.
-/

namespace Nyabase.Agent

open Lib List

/-- The `readyState` of a socket; it has `ended` when its session has run `cleanup`. -/
inductive SocketState where
  | opened
  | closing
  | ended
  deriving DecidableEq

/-- A control socket whose `hello` may be under way, the last status sent on it and when its status frames went out,
the newest first. -/
structure ControlSocket where
  state : SocketState
  asking : Bool
  last : Option String
  times : List Nat

/-- `reported`; a status is the text that `JSON.stringify` makes of it. -/
structure Report where
  socket : Nat
  status : String
  sentAt : Nat
  timer : Bool

/-- The connection, the clock and the host status.  No operation reads the status at the last call of
`publishStatus`, nor whether a `hello` settled after the end of its session. -/
structure ControlWorld where
  now : Nat
  status : String
  opened : Nat
  sockets : Nat → ControlSocket
  welcomed : Option Nat
  reported : Option Report
  asked : String
  lateHello : Bool

/-- A session without an open socket does nothing here.  `close` is all that takes a socket out of `OPEN`, `cleanup`
what ends a session.  The timer of a report that was replaced only calls `publishStatus`, as `publish` does. -/
inductive ControlEvent where
  | tick (elapsed : Nat)
  | change (status : String)
  | publish
  | timer
  | open
  | hello (socket : Nat) (status : Option String)
  | welcome (socket : Nat)
  | close (socket : Nat)
  | cleanup (socket : Nat)

namespace ControlWorld

def init (now : Nat) (status : String) : ControlWorld :=
  ⟨now, status, 0, fun _ => ⟨.ended, false, none, []⟩, none, none, status, false⟩

def put (world : ControlWorld) (i : Nat) (socket : ControlSocket) : ControlWorld :=
  { world with sockets := fun j => if j = i then socket else world.sockets j }

variable (interval : Nat)

def publishStatus (world : ControlWorld) : ControlWorld :=
  match world.welcomed, world.reported with
  | some i, some reported =>
    let socket := world.sockets i
    if socket.state = .opened ∧ reported.socket = i ∧ reported.timer = false then
      if world.now < reported.sentAt + interval then
        { world with asked := world.status, reported := some { reported with timer := true } }
      else if world.status = reported.status then { world with asked := world.status }
      else
        { world.put i { socket with last := some world.status, times := world.now :: socket.times } with
          asked := world.status
          reported := some { reported with status := world.status, sentAt := world.now } }
    else { world with asked := world.status }
  | _, _ => { world with asked := world.status }

/-- `run` opens a socket when the session before has ended.  The Backend welcomes one that said hello. -/
def step (world : ControlWorld) : ControlEvent → Option ControlWorld
  | .tick elapsed => some { world with now := world.now + elapsed }
  | .change status => some { world with status }
  | .publish => some (world.publishStatus interval)
  | .timer =>
    match world.reported with
    | some ⟨socket, status, sentAt, true⟩ =>
      some (publishStatus interval { world with reported := some ⟨socket, status, sentAt, false⟩ })
    | _ => none
  | .open =>
    if (world.sockets (world.opened - 1)).state = .ended then
      some { world.put world.opened ⟨.opened, true, none, []⟩ with opened := world.opened + 1 }
    else none
  | .hello i status =>
    let socket := world.sockets i
    if socket.asking then
      match status with
      | some status =>
        let last := if socket.state = .opened then some status else none
        some { world.put i { socket with asking := false, last } with
          reported := some ⟨i, status, 0, false⟩
          lateHello := world.lateHello || socket.state == .ended }
      | none =>
        let state := if socket.state = .opened then .closing else socket.state
        some (world.put i { socket with asking := false, state })
    else none
  | .welcome i =>
    if (world.sockets i).last.isSome ∧ (world.sockets i).state ≠ .ended then
      some (publishStatus interval { world with welcomed := some i })
    else none
  | .close i =>
    let socket := world.sockets i
    if socket.state = .opened then some (world.put i { socket with state := .closing }) else none
  | .cleanup i =>
    some { world.put i { world.sockets i with state := .ended } with
      welcomed := if world.welcomed = some i then none else world.welcomed
      reported := if world.reported.map Report.socket = some i then none else world.reported }

end ControlWorld

/-- What holds of the socket `i` of a connection: it is the newest one until its session ends, and the report that
names it has the last status sent on it and the time of its last status frame. -/
structure SocketInv (interval : Nat) (world : ControlWorld) (i : Nat) (socket : ControlSocket) : Prop where
  asking : socket.asking = true → i < world.opened ∧ socket.last = none ∧ socket.times = []
  live : socket.state ≠ .ended → i + 1 = world.opened
  spaced : socket.times.Pairwise fun later earlier => earlier + interval ≤ later
  welcomed : world.welcomed = some i → socket.state ≠ .ended ∧ socket.last.isSome
  reported : ∀ r, world.reported = some r → r.socket = i → i < world.opened ∧ socket.asking = false ∧
    (∀ status, socket.last = some status → status = r.status) ∧ ∀ time ∈ socket.times, time ≤ r.sentAt
  current : world.lateHello = false → socket.state ≠ .ended → socket.last.isSome →
    world.reported.map Report.socket = some i

/-- The last report of a socket that is open and welcomed is of the status last asked for, or its timer will ask
again. -/
structure ControlInv (interval : Nat) (world : ControlWorld) : Prop where
  sockets : ∀ i, SocketInv interval world i (world.sockets i)
  answered : ∀ r, world.reported = some r → world.welcomed = some r.socket →
    (world.sockets r.socket).state = .opened → r.timer = true ∨ r.status = world.asked

variable {interval i : Nat} {world next : ControlWorld}

/-- `publishStatus` answers whatever was asked before. -/
theorem controlInv_publishStatus (h : ∀ i, SocketInv interval world i (world.sockets i)) :
    ControlInv interval (world.publishStatus interval) := by
  fun_cases ControlWorld.publishStatus with
  | case3 =>
    refine ⟨fun j => ?_, by grind⟩
    obtain ⟨asking, live, spaced, welcomed, reported, current⟩ := h j
    constructor <;> grind [ControlWorld.put, pairwise_cons]
  | _ =>
    refine ⟨fun j => ?_, by grind⟩
    obtain ⟨asking, live, spaced, welcomed, reported, current⟩ := h j
    constructor <;> grind

section

variable (h : ControlInv interval world)
include h

theorem ControlInv.open (hended : (world.sockets (world.opened - 1)).state = .ended) :
    ControlInv interval { world.put world.opened ⟨.opened, true, none, []⟩ with opened := world.opened + 1 } := by
  have hall : ∀ j, (world.sockets j).state = .ended := by
    intro j
    by_contra hlive
    rw [← (h.sockets j).live hlive] at hended
    exact hlive hended
  refine ⟨fun j => ?_, fun r _ hwelcomed => absurd (hall _) ((h.sockets _).welcomed hwelcomed).1⟩
  obtain ⟨asking, live, spaced, welcomed, reported, current⟩ := h.sockets j
  have hspaced : Pairwise (fun later earlier => earlier + interval ≤ later)
      ((world.put world.opened ⟨.opened, true, none, []⟩).sockets j).times := by
    by_cases hj : j = world.opened <;> simp [ControlWorld.put, hj, spaced]
  constructor <;> grind [ControlWorld.put]

theorem ControlInv.hello {status : Option String} (hstep : world.step interval (.hello i status) = some next) :
    ControlInv interval next := by
  simp only [ControlWorld.step] at hstep
  obtain ⟨asking', live', -, welcomed', reported', current'⟩ := h.sockets i
  refine ⟨fun j => ?_, by grind [ControlWorld.put, h.answered]⟩
  obtain ⟨asking, live, spaced, welcomed, reported, current⟩ := h.sockets j
  constructor <;> grind [ControlWorld.put]

theorem ControlInv.close (hopened : (world.sockets i).state = .opened) :
    ControlInv interval (world.put i { world.sockets i with state := .closing }) := by
  refine ⟨fun j => ?_, by grind [ControlWorld.put, h.answered]⟩
  obtain ⟨asking, live, spaced, welcomed, reported, current⟩ := h.sockets j
  constructor <;> grind [ControlWorld.put]

theorem ControlInv.step {event : ControlEvent} (hstep : world.step interval event = some next) :
    ControlInv interval next := by
  have hsockets := h.sockets
  have hanswered := h.answered
  cases event with
  | tick | change =>
    cases hstep
    exact ⟨fun i => { hsockets i with }, h.answered⟩
  | publish =>
    cases hstep
    exact controlInv_publishStatus hsockets
  | timer | welcome =>
    simp only [ControlWorld.step] at hstep
    split at hstep <;> cases hstep
    apply controlInv_publishStatus
    intro i
    obtain ⟨asking, live, spaced, welcomed, reported, current⟩ := hsockets i
    constructor <;> grind
  | «open» | close =>
    simp only [ControlWorld.step] at hstep
    split at hstep <;> cases hstep
    first
      | exact h.open (by assumption)
      | exact h.close (by assumption)
  | hello => exact h.hello hstep
  | cleanup i =>
    cases hstep
    refine ⟨fun j => ?_, by grind [ControlWorld.put]⟩
    obtain ⟨asking, live, spaced, welcomed, reported, current⟩ := hsockets j
    by_cases hj : j = i <;> constructor <;> grind [ControlWorld.put]

end

/-- Only `publishStatus` sends status frames, on the socket that is welcomed. -/
theorem step_sends {event : ControlEvent} (hstep : world.step interval event = some next)
    (hsent : (world.sockets i).times.length < (next.sockets i).times.length) :
    next.welcomed = some i ∧ (next.sockets i).state = .opened := by
  have hpublish : ∀ world : ControlWorld,
      (world.sockets i).times.length < ((world.publishStatus interval).sockets i).times.length →
        (world.publishStatus interval).welcomed = some i ∧
          ((world.publishStatus interval).sockets i).state = .opened := by
    intro world
    unfold ControlWorld.publishStatus
    grind [ControlWorld.put]
  cases event with
  | publish =>
    cases hstep
    exact hpublish world hsent
  | timer | welcome =>
    simp only [ControlWorld.step] at hstep
    split at hstep <;> cases hstep
    exact hpublish _ hsent
  | tick | change | cleanup =>
    cases hstep
    grind [ControlWorld.put]
  | «open» | hello | close =>
    simp only [ControlWorld.step] at hstep
    grind [ControlWorld.put]

/-- As long as no `hello` settles after its session has ended: a socket that is open and welcomed has heard the
status at the last call of `publishStatus`, or a timer is pending.  Status frames on a socket keep their distance,
and none goes to a socket that is not welcomed or has been replaced. -/
theorem status_heard_or_timer {now : Nat} {status : String} {events : List ControlEvent}
    (hrun : run (ControlWorld.step interval) (ControlWorld.init now status) events = some world)
    (hlate : world.lateHello = false) :
    (∀ i, world.welcomed = some i → (world.sockets i).state = .opened →
      (world.sockets i).last = some world.asked ∨ ∃ r, world.reported = some r ∧ r.timer = true) ∧
    (∀ i, (world.sockets i).times.Pairwise fun later earlier => earlier + interval ≤ later) ∧
    ∀ event next i, world.step interval event = some next →
      (world.sockets i).times.length < (next.sockets i).times.length →
      next.welcomed = some i ∧ (next.sockets i).state = .opened ∧ i + 1 = next.opened := by
  have h : ControlInv interval world := by
    refine run_invariant (fun _ _ _ hinv hstep => ControlInv.step hinv hstep) ?_ hrun
    exact ⟨fun i => ⟨nofun, by simp [ControlWorld.init], .nil, nofun, nofun, by simp [ControlWorld.init]⟩, nofun⟩
  refine ⟨?_, fun i => (h.sockets i).spaced, ?_⟩
  · intro i hwelcomed hopened
    obtain ⟨hlive, hsent⟩ := (h.sockets i).welcomed hwelcomed
    obtain ⟨r, hr, rfl⟩ := Option.map_eq_some_iff.mp ((h.sockets i).current hlate hlive hsent)
    rcases h.answered r hr hwelcomed hopened with htimer | hstatus
    · exact .inr ⟨r, hr, htimer⟩
    · obtain ⟨last, hlast⟩ := Option.isSome_iff_exists.mp hsent
      obtain rfl := ((h.sockets _).reported r hr rfl).2.2.1 last hlast
      exact .inl (by rw [hlast, hstatus])
  · intro event next i hstep hsent
    obtain ⟨hwelcomed, hopened⟩ := step_sends hstep hsent
    exact ⟨hwelcomed, hopened, ((h.step hstep).sockets i).live (by simp [hopened])⟩

/-- A status that changes between hello and welcome goes out with the welcome, the next one after the interval. -/
def changedStatusEvents : List ControlEvent :=
  [.open, .hello 0 (some "up"), .tick 5000, .change "down", .welcome 0, .change "up", .publish]

theorem changed_status_heard : ∃ world,
    run (ControlWorld.step 3000) (ControlWorld.init 1700000000000 "up") changedStatusEvents = some world ∧
      ((world.sockets 0).last = some world.asked ∨ ∃ r, world.reported = some r ∧ r.timer = true) := by
  have hend : (run (ControlWorld.step 3000) (ControlWorld.init 1700000000000 "up") changedStatusEvents).map
      (fun world => (world.lateHello, world.welcomed, (world.sockets 0).state)) = some (false, some 0, .opened) := by
    decide +kernel
  obtain ⟨world, hrun, hworld⟩ := Option.map_eq_some_iff.mp hend
  simp only [Prod.mk.injEq] at hworld
  obtain ⟨hlate, hwelcomed, hopened⟩ := hworld
  exact ⟨world, hrun, (status_heard_or_timer hrun hlate).1 0 hwelcomed hopened⟩

/-- The first socket drops before its `hello` settles.  The second is welcomed; then the `hello` of the first settles
and the status changes: it is not sent and no timer is pending. -/
theorem status_lost_after_late_hello :
    ((run (ControlWorld.step 3000) (ControlWorld.init 1700000000000 "up")
      [.open, .close 0, .cleanup 0, .tick 1000, .open, .hello 1 (some "up"), .welcome 1,
        .hello 0 (some "up"), .change "down", .tick 5000, .publish]).map fun world =>
      (world.welcomed, (world.sockets 1).state, (world.sockets 1).last, world.asked, world.reported.map Report.timer)) =
      some (some 1, .opened, some "up", "down", some false) := by
  decide +kernel

end Nyabase.Agent
