import Nyabase.Lib.Rows
import Nyabase.Backend.ContainerReconcile

/-!
# Power actions and the intents of a container

`actionInTransaction` of `containers/container-control.service.ts` accepts an action and writes its intent;
`reconcile/intent.repository.ts`, `settleContainerIntent` of `containers/container-rules.ts` and
`applyOutcome` of `reconcile/reconcile-worker.service.ts` settle intents by what their passes end with.

The table holds the intents of one container.  The checks of access, grant, admission and storage that an
action goes through in other services are one answer here.
-/

namespace Nyabase.Backend

open Common Lib

/-! ## The observed route -/

inductive ContainerStatus where
  | running
  | stopped
  | frozen
  | error
  | unknown
  deriving DecidableEq

/-- What an action reads of `container_ssh_routes`; `startedAt` is a `timestamptz`. -/
structure RouteRow where
  instanceStatus : Option String
  startedAt : Option Int

def containerStatus (value : Option String) (power : PowerIntent) : ContainerStatus :=
  match value with
  | some text =>
    if lower text.toList == "running".toList then .running
    else if lower text.toList == "stopped".toList then .stopped
    else if lower text.toList == "frozen".toList then .frozen
    else if lower text.toList == "error".toList then .error
    else .unknown
  | none => if power == .stopped then .stopped else .unknown

/-- What `recordObservation` writes of a state. -/
def observedRoute (state : InstanceState) : RouteRow where
  instanceStatus := some (String.ofList (lower (state.status.getD "unknown").toList))
  startedAt := state.startedAt.map timestamptz

/-! ## Actions -/

inductive ContainerAction where
  | start
  | stop
  | restart
  | delete
  deriving DecidableEq

def ContainerAction.text : ContainerAction → String
  | start => "start"
  | stop => "stop"
  | restart => "restart"
  | delete => "delete"

def ContainerAction.kind : ContainerAction → ContainerIntentKind
  | delete => .delete
  | _ => .power

def ContainerAction.nextPower : ContainerAction → PowerIntent
  | start => .running
  | restart => .running
  | stop => .stopped
  | delete => .stopped

inductive ActionError where
  | refused
  | deleting
  | notRunning
  | detaching

/-- The start time a restart has to move past: the recorded one, as `toISOString` writes it. -/
def restartBaseline (route : RouteRow) : IntentBaseline where
  startedAt := some (route.startedAt.map fun micros => toISOString (dateOf micros))

/-- `actionInTransaction`: the row and the intent it writes.  `admitted` is what the other services say,
`detaching` whether an attachment is still being unmounted. -/
def actionInTransaction (row : ContainerRow) (route : RouteRow) (admitted detaching : Bool)
    (action : ContainerAction) (intentId : String) (createdAt : Option Int) :
    Except ActionError (ContainerRow × ContainerIntent) :=
  if !admitted then .error .refused
  else if action != .delete && row.lifecyclePhase == .deleting then .error .deleting
  else if action == .restart &&
      containerStatus route.instanceStatus row.powerIntent != .running then .error .notRunning
  else if (action == .start || action == .restart) && detaching then .error .detaching
  else
    let updated := { row with
      lifecyclePhase := if action == .delete then .deleting else row.lifecyclePhase
      powerIntent := action.nextPower
      revision := row.revision + 1 }
    .ok (updated,
      { id := intentId
        kind := action.kind
        resourceId := row.id
        serverId := some row.serverId
        targetRevision := updated.revision
        attemptCount := 0
        createdAt
        action := some action.text
        source := none
        baseline := if action == .restart then some (restartBaseline route) else none })

/-! ## The intents of the container -/

inductive IntentStatus where
  | pending
  | succeeded
  | failed
  deriving DecidableEq

/-- An intent of the container.  `mark` is no column: it tells at which point of a run the intent's action
was asked for. -/
structure IntentRow where
  intent : ContainerIntent
  status : IntentStatus
  mark : Nat

/-- `createPending`; the id is the primary key. -/
def createPending (rows : List IntentRow) (intent : ContainerIntent) (mark : Nat) : Option (List IntentRow) :=
  if rows.any fun row => row.intent.id == intent.id then none
  else some ({ intent, status := .pending, mark } :: rows)

/-- `retry`: a fresh copy of a failed intent for the current revision, with the baseline of the source. -/
def retry (rows : List IntentRow) (sourceId intentId : String) (revision : Nat) (createdAt : Option Int) :
    Option (List IntentRow) :=
  (rows.find? fun row => row.intent.id == sourceId && row.status == .failed).bind fun source =>
    createPending rows
      { source.intent with id := intentId, targetRevision := revision, attemptCount := 0, createdAt }
      source.mark

/-- `settleOne`. -/
def settleOne (rows : List IntentRow) (intentId : String) (status : IntentStatus) : List IntentRow :=
  updateWhere rows (fun row => row.intent.id == intentId && row.status == .pending) fun row => { row with status }

/-- `settleForObservedRevision`: the pending intents of the placement up to a revision, but those to keep. -/
def settleForObservedRevision (rows : List IntentRow) (observedRevision : Nat) (status : IntentStatus)
    (placementServerId : Option String) (keep : ContainerIntent → Bool) : List IntentRow :=
  updateWhere rows (fun row => row.status == .pending && decide (row.intent.targetRevision ≤ observedRevision) &&
      row.intent.serverId == placementServerId && !keep row.intent)
    fun row => { row with status }

/-- `settleContainerIntent`: a restart settles only itself, and its success what it covers. -/
def settleContainerIntent (rows : List IntentRow) (intent : ContainerIntent) (observedRevision : Nat)
    (status : IntentStatus) : List IntentRow :=
  if intent.isRestart && status != .succeeded then settleOne rows intent.id status
  else
    settleForObservedRevision (if intent.isRestart then settleOne rows intent.id status else rows)
      observedRevision status intent.serverId ContainerIntent.isRestart

/-- `retryOrNeedsAttention`: the intent waits, or is given up when the instance was busy too often. -/
def retryOrNeedsAttention (rows : List IntentRow) (intent : ContainerIntent) (busyTooOften : Bool) : List IntentRow :=
  if busyTooOften then settleContainerIntent rows intent intent.targetRevision .failed else rows

/-- `applyOutcome`. -/
def applyOutcome (rows : List IntentRow) (intent : ContainerIntent) (outcome : ReconcileOutcome)
    (busyTooOften : Bool) : List IntentRow :=
  let revision := outcome.observedRevision.getD intent.targetRevision
  if outcome.stale then
    settleContainerIntent rows intent revision
      (if outcome.outcome == .failed && outcome.failure.isSome then .failed else .succeeded)
  else
    match outcome.outcome with
    | .retry => retryOrNeedsAttention rows intent busyTooOften
    | .failed => settleContainerIntent rows intent revision .failed
    | .succeeded => settleContainerIntent rows intent revision .succeeded

/-- `handleError`: a pass that threw. -/
def handleError (rows : List IntentRow) (intent : ContainerIntent) (error : StepError)
    (busyTooOften : Bool) : List IntentRow :=
  if error.hasCode .serverUnreachable || error.hasCode .incusTimeout then rows
  else
    match error with
    | .incus failure =>
      if failure.disposition == .retry then retryOrNeedsAttention rows intent busyTooOften
      else settleContainerIntent rows intent intent.targetRevision .failed
    | .other message =>
      if message == "RECONCILE_LEASE_LOST" then retryOrNeedsAttention rows intent busyTooOften
      else settleContainerIntent rows intent intent.targetRevision .failed

/-! ## What settling does to the table -/

/-- A table as settling leaves it: intents and marks stay, and those that have newly succeeded are of a kind. -/
def SettledFrom (rows written : List IntentRow) (succeeds : IntentRow → Prop) : Prop :=
  ∃ settle : IntentRow → IntentRow, written = rows.map settle ∧ ∀ row, (settle row).intent = row.intent ∧
    (settle row).mark = row.mark ∧ ((settle row).status = .succeeded → row.status = .succeeded ∨ succeeds row)

namespace SettledFrom

variable {rows between written : List IntentRow} {succeeds : IntentRow → Prop}

theorem refl (rows : List IntentRow) : SettledFrom rows rows succeeds :=
  ⟨id, rows.map_id.symm, fun _ => ⟨rfl, rfl, .inl⟩⟩

theorem trans (h : SettledFrom rows between succeeds) (h' : SettledFrom between written succeeds)
    (hsame : ∀ row old, row.intent = old.intent → succeeds row → succeeds old) : SettledFrom rows written succeeds := by
  obtain ⟨settle, rfl, hsettle⟩ := h
  obtain ⟨settle', rfl, hsettle'⟩ := h'
  refine ⟨settle' ∘ settle, List.map_map, fun row => ?_⟩
  obtain ⟨hintent, hmark, hstatus⟩ := hsettle row
  obtain ⟨hintent', hmark', hstatus'⟩ := hsettle' (settle row)
  refine ⟨hintent'.trans hintent, hmark'.trans hmark, fun hsucceeded => ?_⟩
  rcases hstatus' hsucceeded with hbefore | hnow
  · exact hstatus hbefore
  · exact .inr (hsame _ row hintent hnow)

theorem mono {succeeds' : IntentRow → Prop} (h : SettledFrom rows written succeeds)
    (hmono : ∀ row, succeeds row → succeeds' row) : SettledFrom rows written succeeds' := by
  obtain ⟨settle, hwritten, hsettle⟩ := h
  refine ⟨settle, hwritten, fun row => ⟨(hsettle row).1, (hsettle row).2.1, fun hsucceeded => ?_⟩⟩
  exact ((hsettle row).2.2 hsucceeded).imp_right (hmono row)

/-- An update that only sets the status. -/
theorem setStatus {condition : IntentRow → Bool} {status : IntentStatus}
    (hsucceeds : status = .succeeded → ∀ row, condition row = true → succeeds row) :
    SettledFrom rows (updateWhere rows condition fun row => { row with status }) succeeds := by
  refine ⟨_, rfl, fun row => ?_⟩
  by_cases htouched : condition row = true
  · rw [if_pos htouched]
    exact ⟨rfl, rfl, fun hstatus => .inr (hsucceeds hstatus row htouched)⟩
  · rw [if_neg htouched]
    exact ⟨rfl, rfl, .inl⟩

end SettledFrom

/-- The restarts that settling an intent as succeeded may settle with it: only itself. -/
def OwnRestart (intent : ContainerIntent) (row : IntentRow) : Prop :=
  row.intent.isRestart = true → intent.isRestart = true ∧ row.intent.id = intent.id

section

variable (rows : List IntentRow) (intent : ContainerIntent)

/-- Settling an intent makes only its own restart succeed, and only when it succeeds. -/
theorem settleContainerIntent_own (observedRevision : Nat)
    (status : IntentStatus) : SettledFrom rows (settleContainerIntent rows intent observedRevision status) fun row =>
      status = .succeeded ∧ OwnRestart intent row := by
  have hone (hrestart : intent.isRestart = true) : SettledFrom rows (settleOne rows intent.id status) fun row =>
        status = .succeeded ∧ OwnRestart intent row := by
    refine SettledFrom.setStatus fun hsucceeded row hrow => ⟨hsucceeded, fun _ => ⟨hrestart, ?_⟩⟩
    rw [Bool.and_eq_true, beq_iff_eq] at hrow
    exact hrow.1
  have hcovered (rows : List IntentRow) :
      SettledFrom rows (settleForObservedRevision rows observedRevision status intent.serverId
        ContainerIntent.isRestart) fun row => status = .succeeded ∧ OwnRestart intent row := by
    refine SettledFrom.setStatus fun hsucceeded row hrow => ⟨hsucceeded, fun hrestart => ?_⟩
    -- a restart is kept out of the update
    simp [hrestart] at hrow
  unfold settleContainerIntent
  split
  · rename_i honly
    exact hone (Bool.and_eq_true _ _ ▸ honly).1
  by_cases hrestart : intent.isRestart = true
  · rw [if_pos hrestart]
    refine (hone hrestart).trans (hcovered _) fun row old hintent hown => ⟨hown.1, ?_⟩
    rw [OwnRestart, ← hintent]
    exact hown.2
  · rw [if_neg hrestart]
    exact hcovered rows

/-- The outcomes that settle an intent as succeeded. -/
def ReconcileOutcome.succeeds (outcome : ReconcileOutcome) : Bool :=
  if outcome.stale then !(outcome.outcome == .failed && outcome.failure.isSome)
  else outcome.outcome == .succeeded

/-- Settling as failed makes nothing succeed. -/
theorem settleContainerIntent_failed (observedRevision : Nat) (succeeds : IntentRow → Prop) :
    SettledFrom rows (settleContainerIntent rows intent observedRevision .failed) succeeds :=
  (settleContainerIntent_own rows intent observedRevision .failed).mono fun _ hown =>
    absurd hown.1 (by decide)

theorem retryOrNeedsAttention_failed (busyTooOften : Bool)
    (succeeds : IntentRow → Prop) : SettledFrom rows (retryOrNeedsAttention rows intent busyTooOften) succeeds := by
  cases busyTooOften with
  | true => exact settleContainerIntent_failed rows intent _ succeeds
  | false => exact .refl rows

/-- An outcome makes only the restart it is the outcome of succeed. -/
theorem applyOutcome_own (outcome : ReconcileOutcome)
    (busyTooOften : Bool) : SettledFrom rows (applyOutcome rows intent outcome busyTooOften) fun row =>
      outcome.succeeds = true ∧ OwnRestart intent row := by
  fun_cases applyOutcome rows intent outcome busyTooOften with
  | case1 revision hstale =>
    refine (settleContainerIntent_own rows intent _ _).mono fun row hown => ⟨?_, hown.2⟩
    rw [ReconcileOutcome.succeeds, if_pos hstale]
    by_cases hfailed : (outcome.outcome == .failed && outcome.failure.isSome) = true
    · rw [if_pos hfailed] at hown
      exact absurd hown.1 (by decide)
    · rw [Bool.not_eq_true] at hfailed
      rw [hfailed]
      rfl
  | case2 => exact retryOrNeedsAttention_failed rows intent busyTooOften _
  | case3 => exact settleContainerIntent_failed rows intent _ _
  | case4 revision hstale hkind =>
    refine (settleContainerIntent_own rows intent _ _).mono fun row hown => ⟨?_, hown.2⟩
    rw [ReconcileOutcome.succeeds, if_neg hstale, hkind]
    rfl

/-- A pass that threw makes nothing succeed. -/
theorem handleError_failed (error : StepError) (busyTooOften : Bool)
    (succeeds : IntentRow → Prop) : SettledFrom rows (handleError rows intent error busyTooOften) succeeds := by
  unfold handleError
  repeat' split
  all_goals first
    | exact .refl rows
    | exact retryOrNeedsAttention_failed rows intent busyTooOften succeeds
    | exact settleContainerIntent_failed rows intent _ succeeds

end

end Nyabase.Backend
